import PingWaf.Auth.Visitor
import PingWaf.Lib.Pool

/-!
# Session checks beside a password change

The accounts of the control plane, and the calls of one edge process that ask about sessions or
change a password. A call to the control plane and an operation on the cache of verdicts are one
step each, and other calls take their steps in between.
-/

namespace PingWaf.Auth

open Text

/-! ## The accounts -/

structure VisitorRow where
  passwordHash : String
  disabled : Bool
  tokenVersion : Int

structure SiteRow where
  id : Nat
  domain : String
  alternateDomains : List String

/-- The rows that the calls of one agent read. Account ids are drawn at random, so an id is used
once. -/
structure Accounts where
  visitors : Table Nat VisitorRow
  /-- Visitor and site. -/
  grants : List (Nat × Nat)
  /-- The sites that the agent serves. -/
  sites : List SiteRow
  used : List Nat
  used_of_mem : ∀ id ∈ visitors, id ∈ used

structure AccountForeign where
  /-- `Uuid::parse_str` of the trimmed text. -/
  parseUuid : String → Option Nat
  /-- A UUID is written with letters, digits, hyphens, braces and colons. -/
  bar_notMem : ∀ text, (parseUuid text).isSome → '|' ∉ text.toList
  verifyPassword : String → String → Bool
  /-- None for a password that is too short. -/
  hashPassword : String → Option String

def Accounts.resolveSite (a : Accounts) (host : String) : Option SiteRow :=
  let host := trim host
  if host = "" then none
  else a.sites.find? fun row => row.domain == host || row.alternateDomains.any (· == host)

def Accounts.write (a : Accounts) (id : Nat) (row : VisitorRow) (h : id ∈ a.visitors) : Accounts :=
  { a with
    visitors := a.visitors.insert id row
    used_of_mem := fun id' hmem => by
      rcases (AList.mem_insert _).mp hmem with rfl | hmem
      · exact a.used_of_mem _ h
      · exact a.used_of_mem _ hmem }

def Accounts.modify (a : Accounts) (id : Nat) (g : VisitorRow → VisitorRow) : Accounts :=
  match h : a.visitors.lookup id with
  | none => a
  | some row => a.write id (g row) (AList.lookup_isSome.mp (by rw [h]; rfl))

section

variable (f : AccountForeign) (a : Accounts)

/-- `VisitorValidateSession`; none when the call is refused with a status. -/
def Accounts.validateSession (s : VisitorSession) : Option Bool :=
  (a.resolveSite s.siteId).map fun site =>
    match f.parseUuid s.visitorId with
    | none => false
    | some id =>
      match a.visitors.lookup id with
      | none => false
      | some row =>
        if row.disabled then false
        else if row.tokenVersion ≠ s.tokenVersion then false
        else decide ((id, site.id) ∈ a.grants)

inductive PasswordReply where
  | status
  | refusal (errorCode : String)
  | changed (tokenVersion : Int)

/-- `VisitorChangePassword`. -/
def Accounts.changePassword (s : VisitorSession) (current new : String) : PasswordReply × Accounts :=
  match a.resolveSite s.siteId with
  | none => (.status, a)
  | some site =>
    match f.parseUuid s.visitorId with
    | none => (.status, a)
    | some id =>
      match a.visitors.lookup id with
      | none => (.refusal "unknown_visitor", a)
      | some row =>
        if (id, site.id) ∉ a.grants then (.refusal "unknown_visitor", a)
        else if row.disabled then (.refusal "disabled", a)
        else if !f.verifyPassword current row.passwordHash then (.refusal "wrong_password", a)
        else
          match f.hashPassword new with
          | none => (.refusal "weak_password", a)
          | some hash =>
            (.changed (row.tokenVersion + 1),
              a.modify id fun row => ⟨hash, row.disabled, row.tokenVersion + 1⟩)

end

inductive AccountOp where
  | create (id : Nat) (passwordHash : String) (disabled : Bool)
  | update (id : Nat) (disabled : Option Bool) (passwordHash : Option String)
  | destroy (id : Nat)
  | setGrants (grants : List (Nat × Nat))
  | setSites (sites : List SiteRow)

def AccountOp.apply (a : Accounts) : AccountOp → Accounts
  | .create id passwordHash disabled =>
    if id ∈ a.used then a
    else
      { a with
        visitors := a.visitors.insert id ⟨passwordHash, disabled, 0⟩
        used := id :: a.used
        used_of_mem := fun id' hmem => by
          rcases (AList.mem_insert _).mp hmem with rfl | hmem
          · exact List.mem_cons_self
          · exact List.mem_cons_of_mem _ (a.used_of_mem _ hmem) }
  | .update id disabled passwordHash =>
    a.modify id fun row =>
      ⟨passwordHash.getD row.passwordHash, disabled.getD row.disabled,
        if disabled = some true ∨ passwordHash.isSome then row.tokenVersion + 1
        else row.tokenVersion⟩
  | .destroy id =>
    { a with
      visitors := a.visitors.erase id
      used_of_mem := fun id' hmem => a.used_of_mem _ (AList.mem_erase.mp hmem).2 }
  | .setGrants grants => { a with grants }
  | .setSites sites => { a with sites }

/-! ## The edge -/

def liveCacheDropVisitor (visitorId : String) (live : LiveSessions) : LiveSessions :=
  live.retain fun key _ => !hasSub key visitorId

/-- How a call to the control plane fares. A reply can be lost after the call took effect. -/
inductive Reach where
  | reached
  | unreachable
  | lost

structure LiveInput where
  now : Nat
  reach : Reach

inductive LiveCall where
  | check (s : VisitorSession)
  | password (s : VisitorSession) (current new confirm : String)

inductive LiveTask where
  /-- Before the cache is read. -/
  | checking (s : VisitorSession)
  /-- The control plane is asked. -/
  | asking (s : VisitorSession)
  /-- A verdict that is not yet written. -/
  | answered (s : VisitorSession) (verdict : Bool)
  | judged (s : VisitorSession) (verdict cached : Bool)
  /-- The form is sent to the control plane. -/
  | posting (s : VisitorSession) (current new : String)
  /-- The password is changed, the old verdicts are still there. -/
  | changed (s : VisitorSession) (tokenVersion : Int)
  | renewed (s : VisitorSession)
  | errorPage (status : Nat)
  deriving DecidableEq

/-- The cache, the accounts, and for which visitors and new versions the verdicts were dropped. -/
structure LiveState where
  live : LiveSessions
  accounts : Accounts
  dropped : List (String × Int)

section

variable (f : AccountForeign)

def LiveState.ask (st : LiveState) (reach : Reach) (s : VisitorSession) : Option Bool :=
  match reach with
  | .reached => st.accounts.validateSession f s
  | .unreachable | .lost => none

def LiveCall.start : LiveCall → LiveTask
  | .check s => .checking s
  | .password s current new confirm =>
    -- nothing is sent unless both halves of the new password match
    if new ≠ confirm then .errorPage 400 else .posting s current new

def LiveTask.step (agent : Bool) (input : LiveInput) (st : LiveState) :
    LiveTask → LiveState × LiveTask
  | .checking s =>
    match liveCacheGet s.liveKey input.now st.live with
    | (some verdict, live) => ({ st with live }, .judged s verdict true)
    | (none, live) => ({ st with live }, if agent then .asking s else .judged s true false)
  | .asking s => (st, .answered s ((st.ask f input.reach s).getD true))
  | .answered s verdict =>
    ({ st with live := liveCachePut s.liveKey verdict input.now st.live }, .judged s verdict false)
  | .judged s verdict cached => (st, .judged s verdict cached)
  | .posting s current new =>
    if !agent then (st, .errorPage 502)
    else
      match input.reach with
      | .unreachable => (st, .errorPage 502)
      | .lost => ({ st with accounts := (st.accounts.changePassword f s current new).2 }, .errorPage 502)
      | .reached =>
        match st.accounts.changePassword f s current new with
        | (.status, accounts) => ({ st with accounts }, .errorPage 502)
        | (.refusal _, accounts) => ({ st with accounts }, .errorPage 400)
        | (.changed tokenVersion, accounts) => ({ st with accounts }, .changed s tokenVersion)
  | .changed s tokenVersion =>
    ({ st with
        live := liveCacheDropVisitor s.visitorId st.live
        dropped := (s.visitorId, tokenVersion) :: st.dropped },
      .renewed { s with tokenVersion })
  | .renewed s => (st, .renewed s)
  | .errorPage status => (st, .errorPage status)

def liveChecks (agent : Bool) : Pool.System LiveState LiveTask AccountOp LiveCall LiveInput where
  env op st := { st with accounts := op.apply st.accounts }
  start call _ := call.start
  step input st t := t.step f agent input st

end

def LiveState.fresh (a : Accounts) : Pool.State LiveState LiveTask := ⟨⟨∅, a, []⟩, []⟩

end PingWaf.Auth
