import PingWaf.Routing.Config

/-!
# Updates of the rule cache

The two messages that change the cached sites: a rule bundle for one site (`updateFromBundle`) and
the full configuration of the edge (`updateFromSiteConfig`). Each swaps in a new snapshot of the
sites and of the index from domains to sites.
-/

namespace PingWaf.Routing

open Text

/-! ## Messages -/

structure RuleBundle where
  siteId : String
  waf : Option Waf.WafMode
  errorPages : List CustomErrorPage
  ssl : Option SslConfig
  upstreams : List UpstreamConfig
  routes : List RouteConfig
  observationMode : Bool

structure Site where
  id : String
  domain : String
  alternateDomains : List String
  /-- An enumeration value; unknown ones read as active. -/
  status : Int
  rules : Option RuleBundle
  trustProxyHeaders : Bool
  trustedHeader : String
  trustLastHop : Bool
  trustedProxyRanges : List String
  downstreamTimeoutSecs : Nat

structure SiteConfig where
  sites : List Site

def siteStatusStr (value : Int) : String :=
  if value = 1 then "paused" else if value = 2 then "pending" else "active"

def defaultDownstreamTimeoutSecs : Nat := 60

def convertBundle (bundle : RuleBundle) : SiteRules where
  domain := ""
  alternateDomains := []
  sslConfig := bundle.ssl
  upstreams := bundle.upstreams
  routes := bundle.routes
  errorPages := bundle.errorPages
  status := "active"
  downstreamTimeoutSecs := defaultDownstreamTimeoutSecs
  wafConfig := bundle.waf
  observationMode := bundle.observationMode
  proxyTrust := defaultProxyTrust

def Site.siteRules (site : Site) (bundle : RuleBundle) : SiteRules :=
  let converted := convertBundle bundle
  { converted with
    domain := if site.domain ≠ "" then site.domain else converted.domain
    alternateDomains := site.alternateDomains
    status := siteStatusStr site.status
    downstreamTimeoutSecs :=
      if site.downstreamTimeoutSecs = 0 then defaultDownstreamTimeoutSecs
      else site.downstreamTimeoutSecs
    proxyTrust :=
      ⟨site.trustProxyHeaders, site.trustedHeader, site.trustLastHop, site.trustedProxyRanges⟩ }

/-! ## The index -/

def unindexDomain (siteId : String) (index : Table String String) (domain : String) :
    Table String String :=
  if index.lookup (Plugin.normalizeHost domain) = some siteId then
    index.erase (Plugin.normalizeHost domain)
  else index

def indexDomain (siteId : String) (index : Table String String) (domain : String) :
    Table String String :=
  index.insert (Plugin.normalizeHost domain) siteId

def dropDomain (index : Table String String) (domain : String) : Table String String :=
  index.erase (Plugin.normalizeHost domain)

/-! ## Updates -/

def CachedRules.convertedFor (cached : CachedRules) (bundle : RuleBundle) : SiteRules :=
  match cached.sites.lookup bundle.siteId with
  | some site =>
    { convertBundle bundle with downstreamTimeoutSecs := site.downstreamTimeoutSecs }
  | none => convertBundle bundle

def CachedRules.updateFromBundle (cached : CachedRules) (bundle : RuleBundle) : CachedRules :=
  let site := cached.convertedFor bundle
  let old := ((cached.sites.lookup bundle.siteId).map SiteRules.domains).getD []
  { sites := cached.sites.insert bundle.siteId site
    domainIndex := site.domains.foldl (indexDomain bundle.siteId)
      (old.foldl (unindexDomain bundle.siteId) cached.domainIndex) }

/-- One site of the full configuration; one without rules is passed over. Where the site has a
domain of its own, the entry of the bundle's domain goes first. -/
def CachedRules.applySite (cached : CachedRules) (site : Site) : CachedRules :=
  match site.rules with
  | none => cached
  | some bundle =>
    let siteRules := site.siteRules bundle
    { sites := cached.sites.insert site.id siteRules
      domainIndex := siteRules.domains.foldl (indexDomain site.id)
        (if site.domain ≠ "" then dropDomain cached.domainIndex (convertBundle bundle).domain
        else cached.domainIndex) }

def CachedRules.dropGhost (cached : CachedRules) (id : String) : CachedRules :=
  match cached.sites.lookup id with
  | none => cached
  | some old =>
    { sites := cached.sites.erase id
      domainIndex := old.domains.foldl dropDomain cached.domainIndex }

def SiteConfig.knows (config : SiteConfig) (id : String) : Bool :=
  config.sites.any fun site => site.id = id

def CachedRules.updateFromSiteConfig (cached : CachedRules) (config : SiteConfig) : CachedRules :=
  let updated := config.sites.foldl CachedRules.applySite cached
  (updated.sites.keys.filter fun id => !config.knows id).foldl CachedRules.dropGhost updated

inductive CacheUpdate where
  | bundle (bundle : RuleBundle)
  | siteConfig (config : SiteConfig)

def CachedRules.update (cached : CachedRules) : CacheUpdate → CachedRules
  | .bundle b => cached.updateFromBundle b
  | .siteConfig c => cached.updateFromSiteConfig c

end PingWaf.Routing
