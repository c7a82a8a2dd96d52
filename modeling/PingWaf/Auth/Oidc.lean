import PingWaf.Auth.Visitor

/-!
# The OIDC gate

Lets in who has logged in at an OpenID Connect provider. The session lives in an encrypted cookie;
an access policy over its claims decides who may enter.
-/

namespace PingWaf.Auth

open Text
open Plugin (RequestHeader PluginStep InvalidPlugin getCookieValue getStepConf)

/-! ## Access policy -/

inductive Operator where
  | eq | ne | contains | in_ | exists_
  deriving DecidableEq

def Operator.parse : String → Option Operator
  | "eq" => some .eq
  | "ne" => some .ne
  | "contains" => some .contains
  | "in" => some .in_
  | "exists" => some .exists_
  | _ => none

def Operator.usesValue (op : Operator) : Bool := op ≠ .exists_

structure AccessRule where
  claim : String
  operator : Operator
  value : String
  deriving DecidableEq

inductive AccessPolicy where
  | allowAll
  | requireAny (rules : List AccessRule)
  | requireAll (rules : List AccessRule)
  deriving DecidableEq

def claimText : Waf.Json → Option String
  | .string s => some s
  | .number s => some s
  | .bool b => some (if b then "true" else "false")
  | _ => none

def claimScalars : Option Waf.Json → List String
  | some (.array items) => items.filterMap claimText
  | some other => (claimText other).toList
  | none => []

def claimPresent : Option Waf.Json → Bool
  | some (.array items) => !items.isEmpty
  | some (.string s) => s ≠ ""
  | some .null => false
  | some _ => true
  | none => false

def claimOf (claims : List (String × Waf.Json)) (name : String) : Option Waf.Json :=
  (claims.find? fun c => c.1 = name).map (·.2)

def AccessRule.matches (rule : AccessRule) (claims : List (String × Waf.Json)) : Bool :=
  let claim := claimOf claims rule.claim
  let scalars := claimScalars claim
  match rule.operator with
  | .exists_ => claimPresent claim
  | .eq => scalars.contains rule.value
  | .ne => scalars.all (· ≠ rule.value)
  | .contains => scalars.any fun item => item = rule.value || hasSub item rule.value
  | .in_ =>
    (((splitChar ',' rule.value).map trim).filter (· ≠ "")).any fun entry => scalars.contains entry

def AccessPolicy.admits (policy : AccessPolicy) (claims : List (String × Waf.Json)) : Bool :=
  match policy with
  | .allowAll => true
  | .requireAny rules => rules.any (·.matches claims)
  | .requireAll rules => rules.all (·.matches claims)

/-! ## Configuration -/

inductive AuthMode where
  | oidc | local_ | both
  deriving DecidableEq

def AuthMode.allowsLocal (m : AuthMode) : Bool := m = .local_ || m = .both

def AuthMode.allowsOidc (m : AuthMode) : Bool := m = .oidc || m = .both

structure OidcConf where
  step : Option String
  authMode : String
  issuer : String
  clientId : String
  cookieSecret : String
  redirectPath : String
  logoutPath : String
  redirectUrl : String
  scopes : List String
  cookieName : String
  /-- In seconds; `none` when it cannot be read. -/
  sessionTtl : Option Nat
  claimsToHeaders : List String
  accessMode : String
  accessRules : List String

structure Oidc where
  pluginStep : PluginStep
  redirectPath : String
  logoutPath : Option String
  cookieName : String
  key : List UInt8
  claimsToHeaders : List (String × String)
  access : AccessPolicy
  authMode : AuthMode
  deriving DecidableEq

section

variable (f : Foreign)

def oidcInvalid {α : Type} (message : String) : Except InvalidPlugin α := .error ⟨"oidc", message⟩

def AuthMode.parse (value : String) : Except InvalidPlugin AuthMode :=
  let mode := trim value
  if mode = "" || mode = "oidc" then .ok .oidc
  else if mode = "local" then .ok .local_
  else if mode = "both" then .ok .both
  else oidcInvalid ("auth_mode " ++ f.debug mode ++ " is not oidc, local or both")

def localPath (value : String) : String :=
  if !hasPrefix value "/" || hasPrefix value "//" || hasPrefix value "/\\" ||
      (utf8Encode value).any (fun b => b < 32 || b == 127) then "/"
  else value

def confPath (name value default : String) : Except InvalidPlugin String :=
  let path := if value = "" then default else value
  let plain := path ≠ "" && path = localPath path && 1 < path.utf8ByteSize &&
    !(path.toList.contains '?' || path.toList.contains '#')
  if path ≠ "" && !plain then
    oidcInvalid (name ++ ": " ++ f.debug path ++ " is not a path, as /oauth2/callback is")
  else .ok path

def checkRedirectUrl (redirectUrl redirectPath : String) : Except InvalidPlugin Unit :=
  if redirectUrl = "" then .ok ()
  else if !f.isHttpUrl redirectUrl || f.urlPath redirectUrl ≠ some redirectPath then
    oidcInvalid ("redirect_url should be an http or https url whose path is the redirect_path (" ++
      redirectPath ++ ")")
  else .ok ()

def checkScope (scope : String) : Except InvalidPlugin Unit :=
  let scope := trim scope
  if scope = "" || scope.toList.any isWhitespace then
    oidcInvalid ("scopes: " ++ f.debug scope ++ " is not a scope")
  else .ok ()

def isCookieName (value : String) : Bool :=
  value ≠ "" && value.toList.all fun c => isAsciiAlphanumeric c || c == '-' || c == '_' || c == '.'

def defaultCookieName : String := "pingap_oidc"

def confCookieName (value : String) : Except InvalidPlugin String :=
  let name := if value = "" then defaultCookieName else value
  if !isCookieName name then
    oidcInvalid ("cookie_name: " ++ f.debug name ++ " should be letters, digits, '-', '_' or '.'")
  else if hasPrefix name "__Host-" then
    oidcInvalid
      "cookie_name can not begin with __Host-: the cookie of a login is for the redirect_path"
  else .ok name

/-- Headers that frame the body, name the upstream or carry credentials and addresses. -/
def reservedHeaders : List String :=
  ["content-length", "transfer-encoding", "host", "connection", "authorization", "cookie",
    "set-cookie", "x-forwarded-for", "x-forwarded-proto", "x-real-ip"]

def parseClaimToHeader (item : String) : Except InvalidPlugin (String × String) :=
  match ((rsplitOnce ':' item).map fun p => (trim p.1, trim p.2)).filter fun p => p.1 ≠ "" with
  | none => oidcInvalid ("claims_to_headers: " ++ f.debug item ++ " should be claim:Header-Name")
  | some (claim, header) =>
    match f.headerName header with
    | none => oidcInvalid ("claims_to_headers: " ++ f.debug header ++ " is not a header name")
    | some name =>
      if reservedHeaders.contains name then
        oidcInvalid ("claims_to_headers: " ++ name ++ " is not a header for a claim")
      else .ok (claim, name)

def ruleParts (entry : String) : String × String × String :=
  match splitOnce ':' entry with
  | none => (trim entry, "", "")
  | some (claim, rest) =>
    match splitOnce ':' rest with
    | none => (trim claim, trim rest, "")
    | some (operator, value) => (trim claim, trim operator, trim value)

def parseAccessRule (entry : String) : Except InvalidPlugin AccessRule :=
  let (claim, operator, value) := ruleParts entry
  if claim = "" then
    oidcInvalid ("access rule " ++ f.debug entry ++ " has no claim, as in groups:contains:admins")
  else
    match Operator.parse operator with
    | none =>
      oidcInvalid ("access rule " ++ f.debug entry ++
        " has no operator this build knows; use eq, ne, contains, in or exists")
    | some op =>
      if op.usesValue && value = "" then
        oidcInvalid ("access rule " ++ f.debug entry ++ " needs a value for its operator")
      else .ok ⟨claim, op, value⟩

def parseAccessPolicy (accessMode : String) (entries : List String) :
    Except InvalidPlugin AccessPolicy :=
  let mode := trim accessMode
  if mode = "" && entries.isEmpty then .ok .allowAll
  else
    let mode := if mode = "" then "require_any" else mode
    if mode = "allow_all" then
      if entries.isEmpty then .ok .allowAll
      else oidcInvalid
        "access_rules are set but access_mode is allow_all, so nothing is enforced; remove one of the two"
    else if mode = "require_any" || mode = "require_all" then do
      let rules ← entries.mapM (parseAccessRule f)
      if rules.isEmpty then
        oidcInvalid ("access_mode is " ++ mode ++
          " but no access_rules are set, which would deny every visitor")
      else if mode = "require_any" then .ok (.requireAny rules)
      else .ok (.requireAll rules)
    else
      oidcInvalid
        ("access_mode " ++ f.debug mode ++ " is not allow_all, require_any or require_all")

def Oidc.tryFrom (conf : OidcConf) : Except InvalidPlugin Oidc := do
  let step := getStepConf conf.step .request
  if step ≠ .request then oidcInvalid "oidc plugin should be executed at request step"
  let authMode ← AuthMode.parse f conf.authMode
  let issuer := String.ofList (trimEndList (· == '/') (trim conf.issuer).toList)
  if authMode.allowsOidc && !f.isHttpUrl issuer then
    oidcInvalid "issuer is required: the url of the provider, http or https"
  let clientId := trim conf.clientId
  if authMode.allowsOidc && clientId = "" then oidcInvalid "client_id is required"
  if conf.cookieSecret.utf8ByteSize < 16 then
    oidcInvalid
      "cookie_secret is required, 16 characters at least: the sessions are encrypted with it"
  let redirectPath ← confPath f "redirect_path" conf.redirectPath "/oauth2/callback"
  let logoutPath ← confPath f "logout_path" conf.logoutPath ""
  let logoutPath := (some logoutPath).filter (· ≠ "")
  if logoutPath = some redirectPath then oidcInvalid "logout_path can not be the redirect_path"
  checkRedirectUrl f conf.redirectUrl redirectPath
  conf.scopes.forM (checkScope f)
  let cookieName ← confCookieName f conf.cookieName
  if conf.sessionTtl.getD (12 * 3600) < 60 then oidcInvalid "session_ttl should be at least 1m"
  let claimsToHeaders ← conf.claimsToHeaders.mapM (parseClaimToHeader f)
  let access ← parseAccessPolicy f conf.accessMode conf.accessRules
  return {
    pluginStep := step
    redirectPath := redirectPath
    logoutPath := logoutPath
    cookieName := cookieName
    key := f.prims.sha256 (utf8Encode conf.cookieSecret ++ 0 :: utf8Encode issuer ++
      0 :: utf8Encode clientId)
    claimsToHeaders := claimsToHeaders
    access := access
    authMode := authMode }

/-! ## The gate -/

/-- `pingap_util::unseal`: twelve octets of nonce, then the cipher text. -/
def unsealAes (key : List UInt8) (value : String) : Option (List UInt8) :=
  (f.prims.b64Decode value).bind fun octets =>
    if octets.length < 12 then none else f.aesOpen key (octets.take 12) (octets.drop 12)

def Oidc.session (o : Oidc) (r : RequestHeader) (now : Nat) : Option SessionData :=
  (((getCookieValue r o.cookieName).bind (unsealAes f o.key)).bind f.sessionFromJson).filter
    fun data => now < data.exp

def Oidc.handleRequest (o : Oidc) (q : Visit) : Answer :=
  let path := q.requestUri.path
  if q.step ≠ o.pluginStep then .skipped
  else if path = o.redirectPath then .callback
  else if o.logoutPath = some path then .logout
  else
    match o.session f q.header q.now with
    | some data =>
      if o.access.admits data.claims then .continue_
      else .text 403 "You are signed in, but this site is not open to your account."
    | none =>
      if o.authMode.allowsLocal && path ≠ providerEntryPath then
        if !isNavigation q.header then .text 401 "Login required"
        else .redirect (loginPath ++ "?next=" ++ f.urlEncode q.requestUri.pathAndQuery)
      else if !isNavigation q.header then .text 401 "Login required"
      else if q.providerReady then .toProvider
      else .text 502 "Login is not available"

end

end PingWaf.Auth
