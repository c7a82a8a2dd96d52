import PingWaf.Auth.Oidc

/-!
# The gates of a site

The plugins that the edge generates from a site's OIDC settings, and the loop that runs the plugins
of a location.
-/

namespace PingWaf.Auth

open Text
open Plugin (InvalidPlugin)

structure HeaderClaim where
  claim : String
  header : String

structure SiteAccessRule where
  claim : String
  operator : String
  value : String

structure SiteOidc where
  enabled : Bool
  issuer : String
  clientId : String
  cookieSecret : String
  redirectPath : String
  logoutPath : String
  redirectUrl : String
  scopes : List String
  cookieName : String
  sessionTtlSeconds : Nat
  claimsToHeaders : List HeaderClaim
  accessMode : String
  authMode : String
  accessRules : List SiteAccessRule

inductive PluginConf where
  | visitorAuth (conf : VisitorConf)
  | oidc (conf : OidcConf)

def SiteAccessRule.entry (rule : SiteAccessRule) : String :=
  if rule.value = "" then rule.claim ++ ":" ++ rule.operator
  else rule.claim ++ ":" ++ rule.operator ++ ":" ++ rule.value

/-- The visitor gate; beside the provider, its paths and its cookie are handed over. -/
def SiteOidc.visitorConf (oidc : SiteOidc) (allowsOidc : Bool) : VisitorConf where
  step := none
  cookieSecret := oidc.cookieSecret
  delegatedPaths := if allowsOidc then [oidc.redirectPath, oidc.logoutPath] else []
  oidcCookieName := if allowsOidc then oidc.cookieName else ""

def SiteOidc.oidcConf (oidc : SiteOidc) : OidcConf where
  step := none
  authMode := oidc.authMode
  issuer := oidc.issuer
  clientId := oidc.clientId
  cookieSecret := oidc.cookieSecret
  redirectPath := oidc.redirectPath
  logoutPath := oidc.logoutPath
  redirectUrl := oidc.redirectUrl
  scopes := oidc.scopes
  cookieName := oidc.cookieName
  sessionTtl := some oidc.sessionTtlSeconds
  claimsToHeaders := oidc.claimsToHeaders.map fun c => c.claim ++ ":" ++ c.header
  accessMode := oidc.accessMode
  accessRules := oidc.accessRules.map SiteAccessRule.entry

def siteOidcPlugin (siteId : String) (oidc : Option SiteOidc) : List (String × PluginConf) :=
  match oidc.filter (·.enabled) with
  | none => []
  | some oidc =>
    let mode := trim oidc.authMode
    let allowsLocal := mode = "local" || mode = "both"
    let allowsOidc := mode ≠ "local"
    (if allowsLocal then
      [(siteId ++ "_visitor_auth", .visitorAuth (oidc.visitorConf allowsOidc))] else []) ++
    (if allowsOidc then [(siteId ++ "_oidc", .oidc oidc.oidcConf)] else [])

/-! ## The chain -/

inductive AuthPlugin where
  | visitor (v : VisitorAuth)
  | oidc (o : Oidc)

def AuthPlugin.tryFrom (f : Foreign) : PluginConf → Except InvalidPlugin AuthPlugin
  | .visitorAuth conf => (VisitorAuth.tryFrom f conf).map .visitor
  | .oidc conf => (Oidc.tryFrom f conf).map .oidc

def buildChain (f : Foreign) (confs : List (String × PluginConf)) :
    Except InvalidPlugin (List AuthPlugin) :=
  confs.mapM fun conf => AuthPlugin.tryFrom f conf.2

def AuthPlugin.handleRequest (f : Foreign) (control : ControlPlane) (q : Visit)
    (live : LiveSessions) : AuthPlugin → Answer × LiveSessions
  | .visitor v => v.handleRequest f control q live
  | .oidc o => (o.handleRequest f q, live)

/-- Run the plugins up to the first that answers; `none` when the request continues. -/
def handleRequestPlugin (f : Foreign) (control : ControlPlane) (q : Visit) :
    List AuthPlugin → LiveSessions → Option Answer × LiveSessions
  | [], live => (none, live)
  | plugin :: rest, live =>
    match plugin.handleRequest f control q live with
    | (answer, live) =>
      if answer.goesOn then handleRequestPlugin f control q rest live else (some answer, live)

end PingWaf.Auth
