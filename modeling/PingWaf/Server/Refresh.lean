import PingWaf.Lib.Pool

/-!
# Refresh tokens

What makes a refresh token single-use is a row in `refresh_tokens`, inserted under the token's `jti`
when it is exchanged; rows whose expiry has passed are pruned on the way. Requests interleave between
their steps: the verification, the account that is read, the pruning, the insert and the signing.
-/

namespace PingWaf.Server

structure Claims where
  sub : String
  email : String
  role : String
  exp : Nat
  iat : Nat
  iss : String
  typ : String
  ver : Int
  jti : Option String
  deriving DecidableEq

inductive JwtError where
  | expired
  | invalidSignature
  | malformed (message : String)
  | signing (message : String)

def JwtError.display : JwtError → String
  | .expired => "token expired"
  | .invalidSignature => "invalid token signature"
  | .malformed message => "malformed token: " ++ message
  | .signing message => "token signing failed: " ++ message

def issuer : String := "pingwaf-server"

def tokenTypeRefresh : String := "refresh"

/-- What a token is checked for: who issued it, and for how long behind its `exp` it is taken. -/
structure Validation where
  issuer : String
  leeway : Nat

/-- What is not of this repository: `decode` of `jsonwebtoken`, at a time in seconds, which returns
nothing but the payload of a token, and UUIDs. -/
structure TokenForeign where
  payload : String → Option Claims
  decode : Validation → String → Nat → Except JwtError Claims
  decode_payload : ∀ v token now claims, decode v token now = .ok claims →
    payload token = some claims
  parseUuid : String → Except String String

/-- A row of `users`, as far as a refresh reads it. -/
structure Account where
  id : String
  disabled : Bool
  tokenVersion : Int
  role : String

/-- A row of `refresh_tokens`. Times are microseconds, as the database has them. -/
structure UsedToken where
  jti : String
  userId : String
  expiresAt : Nat
  usedAt : Nat

section

variable (f : TokenForeign)

def verifyToken (token : String) (now : Nat) : Except JwtError Claims :=
  f.decode ⟨issuer, 30⟩ token now

def verifyRefreshToken (token : String) (now : Nat) : Except JwtError Claims := do
  let claims ← verifyToken f token now
  if claims.typ ≠ tokenTypeRefresh then .error (.malformed "not a refresh token") else .ok claims

def isValidRole (role : String) : Bool := role = "admin" || role = "viewer"

def checkAccount (claims : Claims) : Option Account → Except String Account
  | none => .error "account no longer exists"
  | some account =>
    if account.disabled then .error "account is disabled"
    else if claims.ver ≠ account.tokenVersion then
      .error "session revoked: credentials changed since this token was issued"
    else if !isValidRole account.role then
      .error ("account has an unknown role '" ++ account.role ++ "'")
    else .ok account

def microseconds : Nat := 1000000

/-- The last second that `DateTime::from_timestamp` takes. -/
def maxTimestamp : Nat := 8210266876799

def recordedExpiry (claims : Claims) (now : Nat) : Nat :=
  if claims.exp ≤ maxTimestamp then claims.exp * microseconds else now + 3600 * microseconds

/-! ## Requests -/

/-- The clock in microseconds, the table, and how often a token was claimed in this process. -/
structure RefreshStore where
  clock : Nat
  rows : List UsedToken
  pruneTick : Nat

inductive RefreshPhase where
  | arrived
  | verified (claims : Claims) (userId : String)
  | claiming (claims : Claims) (userId jti : String) (expiresAt : Nat)
  | inserting (claims : Claims) (userId jti : String) (expiresAt : Nat)
  | issuing
  | succeeded
  | refused (message : String)
  deriving DecidableEq

/-- A request to `/api/v1/auth/refresh`. -/
structure Refreshing where
  token : String
  phase : RefreshPhase

/-- What the database and the signer answer to a step. An insert that fails may have left its row. -/
structure RefreshInput where
  account : Except String (Option Account)
  prunes : Bool
  insertError : Option (String × Bool)
  issued : Except String Unit

/-- The deletion of expired rows, an error of which is ignored. -/
def RefreshStore.prune (s : RefreshStore) (succeeds : Bool) : RefreshStore :=
  { s with
    rows := if s.pruneTick % 64 = 0 ∧ succeeds then s.rows.filter (fun r => !(r.expiresAt < s.clock))
      else s.rows
    pruneTick := (s.pruneTick + 1) % 2 ^ 64 }

/-- The insert with `ON CONFLICT (jti) DO NOTHING`: whether a row came in. -/
def RefreshStore.insert (s : RefreshStore) (userId jti : String) (expiresAt : Nat) :
    RefreshStore × Bool :=
  if s.rows.any (·.jti = jti) then (s, false)
  else ({ s with rows := s.rows ++ [⟨jti, userId, expiresAt, s.clock⟩] }, true)

def RefreshPhase.step (input : RefreshInput) (s : RefreshStore) (token : String) :
    RefreshPhase → RefreshStore × RefreshPhase
  | .arrived =>
    match verifyRefreshToken f token (s.clock / microseconds) with
    | .error e => (s, .refused e.display)
    | .ok claims =>
      match f.parseUuid claims.sub with
      | .error e => (s, .refused e)
      | .ok userId => (s, .verified claims userId)
  | .verified claims userId =>
    match input.account.bind (checkAccount claims) with
    | .error e => (s, .refused e)
    | .ok _ =>
      match claims.jti with
      | none => (s, .issuing)
      | some jti => (s, .claiming claims userId jti (recordedExpiry claims s.clock))
  | .claiming claims userId jti expiresAt => (s.prune input.prunes, .inserting claims userId jti expiresAt)
  | .inserting _ userId jti expiresAt =>
    match input.insertError, s.insert userId jti expiresAt with
    | some (e, left), (s', _) => (if left then s' else s, .refused e)
    | none, (s, true) => (s, .issuing)
    | none, (s, false) => (s, .refused "refresh token has already been used")
  | .issuing =>
    match input.issued with
    | .error e => (s, .refused e)
    | .ok () => (s, .succeeded)
  | .succeeded => (s, .succeeded)
  | .refused message => (s, .refused message)

inductive RefreshEvent where
  | advance (by_ : Nat)
  | restart

def RefreshEvent.apply : RefreshEvent → RefreshStore → RefreshStore
  | .advance d, s => { s with clock := s.clock + d }
  | .restart, s => { s with pruneTick := 0 }

def refreshes : Pool.System RefreshStore Refreshing RefreshEvent String RefreshInput where
  env := RefreshEvent.apply
  start token _ := ⟨token, .arrived⟩
  step input s t :=
    let (s, phase) := t.phase.step f input s t.token
    (s, { t with phase })

end

def Refreshing.exchanged (token : String) (t : Refreshing) : Bool :=
  t.token = token && t.phase = .succeeded

/-- The request is about to insert a row where none is, behind the expiry of its token or with an
expiry that is no date. -/
def Refreshing.late (s : RefreshStore) (t : Refreshing) : Bool :=
  match t.phase with
  | .inserting claims _ jti _ =>
    (maxTimestamp < claims.exp || claims.exp * microseconds < s.clock) &&
      !s.rows.any (·.jti = jti)
  | _ => false

def InTime (token : String) (_ : RefreshInput) (s : RefreshStore) (t : Refreshing) : Prop :=
  t.token = token → t.late s = false

instance (token : String) (input : RefreshInput) (s : RefreshStore) (t : Refreshing) :
    Decidable (InTime token input s t) :=
  inferInstanceAs (Decidable (t.token = token → t.late s = false))

end PingWaf.Server
