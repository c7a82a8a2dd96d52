import PingWaf.Plugin.Cookies
import PingWaf.Plugin.Site
import PingWaf.Challenge.Cookie

/-!
# Local visitor accounts

The gate of a site whose visitors sign in at the edge. A session is a signed cookie; whether the
account behind it still holds is asked of the control plane and remembered for a minute.
-/

namespace PingWaf.Auth

open Text
open Plugin (RequestHeader PluginStep InvalidPlugin getHost getCookieValue getReqHeaderValue getStepConf)

/-! ## Requests and answers -/

structure VisitorSession where
  visitorId : String
  siteId : String
  tokenVersion : Int
  exp : Int
  deriving DecidableEq

structure SessionData where
  exp : Nat
  claims : List (String × Waf.Json)

structure Foreign where
  prims : Challenge.Primitives
  /-- `serde_json::from_slice` for the two kinds of session. -/
  visitorFromJson : List UInt8 → Option VisitorSession
  sessionFromJson : List UInt8 → Option SessionData
  /-- `Aes256GcmSiv::decrypt` from key, nonce and cipher text. -/
  aesOpen : List UInt8 → List UInt8 → List UInt8 → Option (List UInt8)
  /-- `urlencoding::encode`. -/
  urlEncode : String → String
  /-- The `Debug` form of a text. -/
  debug : String → String
  /-- `url::Url::parse` with an http or https scheme, and the path of a parsed url. -/
  isHttpUrl : String → Bool
  urlPath : String → Option String
  /-- `HeaderName::from_bytes`, in lower case. -/
  headerName : String → Option String

structure Uri where
  path : String
  query : Option String

def Uri.pathAndQuery (u : Uri) : String :=
  match u.query with
  | some query => u.path ++ "?" ++ query
  | none => u.path

/-- A request at the gates. A location that rewrites keeps the uri the client asked for. -/
structure Visit where
  step : PluginStep
  header : RequestHeader
  originalUri : Option Uri
  now : Nat
  /-- The provider has said where to log in at, and the way there can be written down. -/
  providerReady : Bool

def Visit.currentUri (q : Visit) : Uri := ⟨q.header.path, q.header.query⟩

def Visit.requestUri (q : Visit) : Uri := q.originalUri.getD q.currentUri

inductive Answer where
  | skipped
  | continue_
  /-- A page of the visitor gate, and a plain text of the OIDC gate. -/
  | errorPage (status : Nat) (heading message : String)
  | text (status : Nat) (message : String)
  | redirect (location : String)
  /-- The plugin serves the path itself: the account pages, the callback, the logout, the way to the
  provider. -/
  | accountPage (path : String)
  | callback
  | logout
  | toProvider
  deriving DecidableEq

def Answer.goesOn : Answer → Bool
  | .skipped | .continue_ => true
  | _ => false

def isNavigation (r : RequestHeader) : Bool :=
  let value name := (getReqHeaderValue r name).getD ""
  r.method = "GET" &&
    (if value "sec-fetch-mode" = "" then hasSub (value "accept") "text/html"
    else value "sec-fetch-mode" = "navigate")

/-! ## Paths -/

def loginPath : String := "/_pingwaf/login"
def logoutPath : String := "/_pingwaf/logout"
def portalPath : String := "/_pingwaf/portal"
def visibilityPath : String := "/_pingwaf/portal/visibility"
def passwordPath : String := "/_pingwaf/portal/password"
def passkeyRegisterPath : String := "/_pingwaf/portal/passkey/register"
def passkeyLoginPath : String := "/_pingwaf/passkey/login"

def providerEntryPath : String := "/_pingwaf/oidc"

def ownsPath (path : String) : Bool :=
  [loginPath, logoutPath, portalPath, visibilityPath, passwordPath, passkeyRegisterPath,
    passkeyLoginPath].contains path

def isDelegated (path : String) (delegated : List String) : Bool :=
  path = providerEntryPath || delegated.contains path

/-! ## Configuration -/

structure VisitorConf where
  step : Option String
  cookieSecret : String
  delegatedPaths : List String
  oidcCookieName : String

structure VisitorAuth where
  pluginStep : PluginStep
  key : List UInt8
  delegatedPaths : List String
  oidcCookieName : Option String

def VisitorAuth.tryFrom (f : Foreign) (conf : VisitorConf) : Except InvalidPlugin VisitorAuth :=
  let invalid message : Except InvalidPlugin VisitorAuth := .error ⟨"visitor_auth", message⟩
  let step := getStepConf conf.step .request
  if step ≠ .request then invalid "visitor auth plugin should be executed at request step"
  else if conf.cookieSecret.utf8ByteSize < 16 then
    invalid
      "cookie_secret is required, 16 characters at least: the sessions are signed with it"
  else
    .ok
      { pluginStep := step
        key := f.prims.sha256 (utf8Encode conf.cookieSecret ++ 0 :: utf8Encode "visitor-auth")
        delegatedPaths := conf.delegatedPaths.filter fun path => hasPrefix path "/"
        oidcCookieName := (some conf.oidcCookieName).filter (· ≠ "") }

/-! ## Sessions -/

def sessionCookie : String := "pingwaf_visitor"

def sign (f : Foreign) (key : List UInt8) (payload : String) : String :=
  f.prims.b64Encode (f.prims.hmacSha256 key (utf8Encode payload))

def VisitorAuth.unseal (v : VisitorAuth) (f : Foreign) (value : String) : Option VisitorSession :=
  (splitOnce '.' value).bind fun (encoded, signature) =>
    if signature ≠ sign f v.key encoded then none
    else (f.prims.b64Decode encoded).bind f.visitorFromJson

def VisitorAuth.session (v : VisitorAuth) (f : Foreign) (r : RequestHeader) (siteHost : String)
    (now : Nat) : Option VisitorSession :=
  ((getCookieValue r sessionCookie).bind (v.unseal f)).filter fun parsed =>
    now < parsed.exp && parsed.siteId = siteHost

def VisitorAuth.oidcSessionPresent (v : VisitorAuth) (r : RequestHeader) : Bool :=
  v.oidcCookieName.any fun name => (getCookieValue r name).isSome

/-! ## Verdicts of the control plane -/

abbrev LiveSessions := Table String (Bool × Nat)

def sessionCheckTtlSeconds : Nat := 60
def sessionCheckMaxEntries : Nat := 8192

def liveCacheGet (key : String) (now : Nat) (live : LiveSessions) : Option Bool × LiveSessions :=
  match live.lookup key with
  | none => (none, live)
  | some (verdict, checkedAt) =>
    if sessionCheckTtlSeconds ≤ now - checkedAt then (none, live.erase key) else (some verdict, live)

def liveCachePut (key : String) (verdict : Bool) (now : Nat) (live : LiveSessions) : LiveSessions :=
  let live := if sessionCheckMaxEntries ≤ live.size then ∅ else live
  live.insert key (verdict, now)

def VisitorSession.liveKey (s : VisitorSession) : String :=
  s.siteId ++ "|" ++ s.visitorId ++ "|" ++ toString s.tokenVersion

/-- The control plane, when there is an agent to reach it: its verdict, or none when it does not
answer. -/
abbrev ControlPlane := Option (VisitorSession → Option Bool)

def sessionIsLive (control : ControlPlane) (s : VisitorSession) (now : Nat) (live : LiveSessions) :
    Bool × LiveSessions :=
  match liveCacheGet s.liveKey now live with
  | (some verdict, live) => (verdict, live)
  | (none, live) =>
    match control with
    | none => (true, live)
    | some ask =>
      let verdict := (ask s).getD true
      (verdict, liveCachePut s.liveKey verdict now live)

/-! ## The gate -/

def VisitorAuth.refuse (f : Foreign) (q : Visit) : Answer :=
  if !isNavigation q.header then .errorPage 401 "Login required" "Sign in to continue."
  else .redirect (loginPath ++ "?next=" ++ f.urlEncode q.currentUri.pathAndQuery)

def VisitorAuth.gate (v : VisitorAuth) (f : Foreign) (control : ControlPlane) (q : Visit)
    (siteHost : String) (live : LiveSessions) : Answer × LiveSessions :=
  let otherwise := if v.oidcSessionPresent q.header then .continue_ else refuse f q
  match v.session f q.header siteHost q.now with
  | none => (otherwise, live)
  | some data =>
    match sessionIsLive control data q.now live with
    | (true, live) => (.continue_, live)
    | (false, live) => (otherwise, live)

def VisitorAuth.handleRequest (v : VisitorAuth) (f : Foreign) (control : ControlPlane) (q : Visit)
    (live : LiveSessions) : Answer × LiveSessions :=
  if q.step ≠ v.pluginStep then (.skipped, live)
  else
    match getHost q.header with
    | none => (.errorPage 400 "No site" "This request does not name a site.", live)
    | some siteHost =>
      let path := q.requestUri.path
      if isDelegated path v.delegatedPaths then (.skipped, live)
      else if ownsPath path then (.accountPage path, live)
      else v.gate f control q siteHost live

end PingWaf.Auth
