import PingWaf.Lib.Chunks
import PingWaf.Challenge.Cookie
import PingWaf.Plugin.Limit

/-!
# The `jwt` plugin

Requests carry a token in a header, a cookie or the query. Tokens are verified with a shared secret,
a public key or the keys of an issuer; a successful response at `auth_path` is turned into a token
signed with the secret.
-/

namespace PingWaf.Auth

open Text Waf
open Plugin (RequestHeader HeaderLine PluginStep InvalidPlugin getReqHeaderValue getCookieValue
  getQueryValue)

structure JwtForeign where
  prims : Challenge.Primitives
  hmacSha512 : List UInt8 → List UInt8 → List UInt8
  /-- Why `parse_duration`, the PEM readers and the issuer's url refuse their text, if they do. -/
  durationError : String → Option String
  pemError : (algorithm publicKey : String) → Option String
  jwksError : String → Option String
  /-- `jsonwebtoken::decode` under a pinned algorithm: signature and expiry at a second. -/
  decodeOk : (algorithm publicKey token : String) → Nat → Bool
  /-- `JwksSource::verify`. -/
  jwksVerify : (url token : String) → Nat → Bool

/-! ## Settings -/

structure JwtConf where
  header : String
  query : String
  cookie : String
  delay : String
  algorithm : String
  publicKey : String
  jwksUrl : String
  secret : String
  authPath : String

structure JwtAuth where
  authPath : String
  secret : String
  header : Option String
  query : Option String
  cookie : Option String
  algorithm : String
  /-- The algorithm and the key in PEM. -/
  decodingKey : Option (String × String)
  jwks : Option String
  deriving DecidableEq

def jwtInvalid {α : Type} (message : String) : Except InvalidPlugin α := .error ⟨"jwt", message⟩

def asymmetricAlgorithms : List String :=
  ["RS256", "RS384", "RS512", "PS256", "PS384", "PS512", "ES256", "ES384"]

def ofText (s : String) : Option String := if s = "" then none else some s

section

variable (f : JwtForeign)

def buildAsymmetricKey (algorithm publicKey : String) :
    Except InvalidPlugin (Option (String × String)) :=
  if algorithm ∉ asymmetricAlgorithms then .ok none
  else if publicKey = "" then jwtInvalid "public_key is required for asymmetric algorithms"
  else
    match f.pemError algorithm publicKey with
    | some err => jwtInvalid ("invalid public_key: " ++ err)
    | none => .ok (some (algorithm, publicKey))

def buildJwksSource (url : String) : Except InvalidPlugin (Option String) :=
  if url = "" then .ok none
  else
    match f.jwksError url with
    | some err => jwtInvalid err
    | none => .ok (some url)

def secretAlgorithms : List String := ["", "HS256", "HS512"]

def checkPlaces (conf : JwtConf) : Except InvalidPlugin Unit :=
  if conf.header = "" ∧ conf.query = "" ∧ conf.cookie = "" then
    jwtInvalid "Jwt key or key type is not allowed empty"
  else .ok ()

def checkDelay (delay : String) : Except InvalidPlugin Unit :=
  if delay = "" then .ok () else ((f.durationError delay).map jwtInvalid).getD (.ok ())

/-- Without a key of another the secret has to be there, and its algorithm one of the two. -/
def checkSecret (conf : JwtConf) (ownKey : Bool) : Except InvalidPlugin Unit :=
  if !ownKey then .ok ()
  else if conf.secret = "" then jwtInvalid "Jwt secret is not allowed empty"
  else if conf.algorithm ∉ secretAlgorithms then
    jwtInvalid ("Jwt algorithm(" ++ conf.algorithm ++ ") is not supported, expect HS256 or " ++
      "HS512, or set public_key/jwks_url")
  else .ok ()

def JwtAuth.tryFrom (conf : JwtConf) : Except InvalidPlugin JwtAuth := do
  checkPlaces conf
  checkDelay f conf.delay
  let decodingKey ← buildAsymmetricKey f conf.algorithm conf.publicKey
  let jwks ← buildJwksSource f conf.jwksUrl
  checkSecret conf (decodingKey.isNone && jwks.isNone)
  return ⟨conf.authPath, conf.secret, ofText conf.header, ofText conf.query, ofText conf.cookie,
    conf.algorithm, decodingKey, jwks⟩

/-! ## Requests -/

inductive JwtAnswer where
  | skipped
  | unauthorized (body : String)
  | continue_

def JwtAuth.tokenOf (p : JwtAuth) (r : RequestHeader) : String :=
  match p.header, p.cookie, p.query with
  | some key, _, _ =>
    let value := (getReqHeaderValue r (toAsciiLowercase key)).getD ""
    if hasPrefix value "Bearer " then String.ofList (value.toList.drop 7) else value
  | none, some key, _ => (getCookieValue r key).getD ""
  | none, none, some key => (getQueryValue r key).getD ""
  | none, none, none => ""

/-- `serde_json::from_slice` of a decoded part. -/
def partJson (part : String) : Option Json :=
  f.prims.jsonFromSlice ((f.prims.b64Decode part).getD [])

/-- The `alg` of a token header; a header that does not read has none. -/
def headerAlg (part : String) : String :=
  match partJson f part with
  | none => ""
  | some json =>
    match json.get "alg", json.get "typ" with
    | some (.string alg), some (.string _) => alg
    | _, _ => ""

def mac (alg secret content : String) : Option String :=
  if alg = "HS256" then
    some (f.prims.b64Encode (f.prims.hmacSha256 (utf8Encode secret) (utf8Encode content)))
  else if alg = "HS512" then
    some (f.prims.b64Encode (f.hmacSha512 (utf8Encode secret) (utf8Encode content)))
  else none

def asU64 : Json → Option Nat
  | .number text => (digitsVal text.toList).filter (· < 2 ^ 64)
  | _ => none

/-- The expiry that a payload states. A payload that does not read states none; one that is no whole
number counts as zero. -/
def statedExp (payload : String) : Option Nat :=
  (((partJson f payload).getD .null).get "exp").map fun exp => (asU64 exp).getD 0

def JwtAuth.verifySecret (p : JwtAuth) (value : String) (now : Nat) : JwtAnswer :=
  match splitChar '.' value with
  | [header, payload, signature] =>
    let alg := headerAlg f header
    -- an algorithm that is configured is pinned
    if p.algorithm ≠ "" ∧ alg ≠ p.algorithm then .unauthorized "Jwt authorization is invalid"
    else if mac f alg p.secret (header ++ "." ++ payload) ≠ some signature then
      .unauthorized "Jwt authorization is invalid"
    else if (statedExp f payload).any (· < now) then .unauthorized "Jwt authorization is expired"
    else .continue_
  | _ => .unauthorized "Jwt authorization format is invalid"

def JwtAuth.verify (p : JwtAuth) (value : String) (now : Nat) : JwtAnswer :=
  if value = "" then .unauthorized "Jwt authorization is missing"
  else
    match p.decodingKey, p.jwks with
    | some (alg, key), _ =>
      if f.decodeOk alg key value now then .continue_ else .unauthorized "Jwt authorization is invalid"
    | none, some url =>
      if f.jwksVerify url value now then .continue_ else .unauthorized "Jwt authorization is invalid"
    | none, none => p.verifySecret f value now

def JwtAuth.handleRequest (p : JwtAuth) (step : PluginStep) (r : RequestHeader) (now : Nat) :
    JwtAnswer :=
  if step ≠ .request then .skipped
  else if r.path = p.authPath then .skipped
  else p.verify f (p.tokenOf r) now

/-! ## Responses -/

structure Sign where
  secret : String
  algorithm : String
  buffer : List UInt8
  deriving DecidableEq

/-- A successful response at `auth_path` is signed. -/
def JwtAuth.handleResponse (p : JwtAuth) (path : String) (status : Nat) : Option Sign :=
  if path ≠ p.authPath then none
  else if 200 ≤ status ∧ status < 300 then some ⟨p.secret, p.algorithm, []⟩
  else none

def Sign.alg (s : Sign) : String := if s.algorithm = "HS512" then "HS512" else "HS256"

def signHeader (alg : String) : String := "\x7b\"alg\": \"" ++ alg ++ "\",\"typ\": \"JWT\"\x7d"

def Sign.token (s : Sign) (body : List UInt8) : String :=
  let header := f.prims.b64Encode (utf8Encode (signHeader s.alg))
  let payload := f.prims.b64Encode body
  let content := header ++ "." ++ payload
  content ++ "." ++ (mac f s.alg s.secret content).getD ""

def tokenBody (token : String) : String := "\x7b\"token\": \"" ++ token ++ "\"\x7d"

def Sign.handle (s : Sign) (body : Option (List UInt8)) (endOfStream : Bool) :
    Option (List UInt8) × Sign :=
  let s := { s with buffer := s.buffer ++ body.getD [] }
  if endOfStream then (some (utf8Encode (tokenBody (s.token f s.buffer))), s)
  else (body.map fun _ => [], s)

def Sign.emit (s : Sign) (chunks : List (Option (List UInt8))) : List (List UInt8) :=
  Chunks.emit (Sign.handle f) s chunks

end

/-- What is asked of the foreign functions: the coders' laws, that the plugin's own header reads back,
and that no verification with a public key takes a token whose header names a keyed hash. -/
structure JwtForeign.Lawful (f : JwtForeign) : Prop where
  prims : f.prims.Lawful
  own_header : ∀ alg ∈ ["HS256", "HS512"], f.prims.jsonFromSlice (utf8Encode (signHeader alg)) =
    some (.object [("alg", .string alg), ("typ", .string "JWT")])
  decode_refuses : ∀ algorithm ∈ asymmetricAlgorithms, ∀ publicKey header rest now,
    headerAlg f header ∈ ["HS256", "HS512"] → '.' ∉ header.toList →
      f.decodeOk algorithm publicKey (header ++ "." ++ rest) now = false
  jwks_refuses : ∀ url header rest now,
    headerAlg f header ∈ ["HS256", "HS512"] → '.' ∉ header.toList →
      f.jwksVerify url (header ++ "." ++ rest) now = false

end PingWaf.Auth
