import PingWaf.Routing.Location
import PingWaf.Plugin.ClientIp

/-!
# Cached sites and the configuration generated from them

The agent's rule cache resolves a host to the site whose rules protect it (`lookupWithWildcard`);
the same cache is translated into the proxy's locations, which resolve a host and a path to the
site that serves it (`cachedRulesToPingapConfig`).
-/

namespace PingWaf.Routing

open Text Net

/-! ## The rule cache -/

structure UpstreamConfig where
  poolId : String
  peers : List String
  isDefault : Bool
  deriving DecidableEq

/-- A spelling that is neither `exact` nor `regex` is a path start. -/
inductive MatchType where
  | exact | regex | start
  deriving DecidableEq

structure RouteConfig where
  id : String
  matchType : MatchType
  path : String
  priority : Option Int
  enabled : Bool
  poolId : String
  ipRanges : List String
  upstreamHost : String
  deriving DecidableEq

structure SslConfig where
  mtlsEnabled : Bool
  mtlsClientCa : String
  mtlsRevokedFingerprints : List String
  mtlsOrganization : String
  mtlsRequireClientCert : Option Bool
  deriving DecidableEq

/-- Caches older than the dedicated flag required a certificate wherever mTLS was on. -/
def SslConfig.mtlsRequiresCert (ssl : SslConfig) : Bool :=
  ssl.mtlsRequireClientCert.getD ssl.mtlsEnabled

structure CustomErrorPage where
  unmatchedHost : Bool
  enabled : Bool
  deriving DecidableEq

def defaultProxyTrust : Plugin.ProxyTrustConfig := ⟨false, "", true, []⟩

structure SiteRules where
  domain : String
  alternateDomains : List String
  sslConfig : Option SslConfig
  upstreams : List UpstreamConfig
  routes : List RouteConfig
  errorPages : List CustomErrorPage
  status : String := "active"
  downstreamTimeoutSecs : Nat := 60
  /-- The mode of the WAF configuration, if there is one. -/
  wafConfig : Option Waf.WafMode := none
  observationMode : Bool := false
  proxyTrust : Plugin.ProxyTrustConfig := defaultProxyTrust
  deriving DecidableEq

/-- Sites by id, and the index from normalised domains to site ids. The entries of `sites` stand
in the order in which the map iterates. -/
structure CachedRules where
  sites : Table String SiteRules
  domainIndex : Table String String

def CachedRules.empty : CachedRules := ⟨∅, ∅⟩

def SiteRules.domains (site : SiteRules) : List String := site.domain :: site.alternateDomains

/-- The wildcard keys of a host, the longest first: `*.` and what follows each dot. An empty rest
ends the walk. -/
def wildcardLookup {β : Type} (map : Table String β) : List Char → Option β
  | [] => none
  | c :: rest =>
    if c = '.' then
      if rest = [] then none
      else (map.lookup ("*." ++ String.ofList rest)).or (wildcardLookup map rest)
    else wildcardLookup map rest

def lookupWithWildcard {β : Type} (map : Table String β) (domain : String) : Option β :=
  (map.lookup domain).or (wildcardLookup map domain.toList)

/-- The id of the cached site whose rules `get_site_rules` returns for a host. -/
def CachedRules.siteFor (cached : CachedRules) (host : String) : Option String :=
  (lookupWithWildcard cached.domainIndex host).filter fun id => (cached.sites.lookup id).isSome

/-! ## Locations of one site -/

def poolName (siteId : String) (count index : Nat) (up : UpstreamConfig) : String :=
  if up.poolId ≠ "" then up.poolId
  else if count = 1 then siteId ++ "_upstream"
  else siteId ++ "_upstream_" ++ toString index

def SiteRules.pools (siteId : String) (site : SiteRules) : List (String × UpstreamConfig) :=
  (site.upstreams.zipIdx.filter fun u => !u.1.peers.isEmpty).map fun u =>
    (poolName siteId site.upstreams.length u.2 u.1, u.1)

def defaultKey (pools : List (String × UpstreamConfig)) : Option String :=
  ((pools.filter fun p => p.2.isDefault).getLast?).map (·.1)

def SiteRules.host (site : SiteRules) : String :=
  if site.alternateDomains = [] then site.domain else String.intercalate "," site.domains

/-- The catch-all `/` location, pinned to the lowest weight. -/
def SiteRules.fallbackLocation (siteId : String) (site : SiteRules) :
    Option (String × LocationConf) :=
  let pools := site.pools siteId
  let key := (defaultKey pools).or (if site.routes = [] then (pools.head?).map (·.1) else none)
  key.map fun key =>
    (siteId ++ "_loc",
      { upstream := some key, host := some site.host, path := some "/", weight := some 0,
        matchIpRanges := none, upstreamHost := none, site := some siteId })

def RouteConfig.locationPath (route : RouteConfig) : String :=
  match route.matchType with
  | .exact => "=" ++ route.path
  | .regex => "~" ++ route.path
  | .start => route.path

def RouteConfig.locationWeight (route : RouteConfig) : Option Nat :=
  route.priority.map fun p => (max 1 (min p 65535)).toNat

/-- A disabled route has no location; a route to a pool without peers goes to the default pool,
and is dropped where the site has none. -/
def SiteRules.routeLocation (siteId : String) (site : SiteRules) (route : RouteConfig) :
    Option (String × LocationConf) :=
  if route.enabled = false then none
  else
    let pools := site.pools siteId
    let keys := pools.map (·.1)
    let target :=
      if route.poolId ∈ keys then some route.poolId else (defaultKey pools).or keys.head?
    target.map fun target =>
      (siteId ++ "_route_" ++ route.id,
        { upstream := some target, host := some site.host, path := some route.locationPath,
          weight := route.locationWeight,
          matchIpRanges := if route.ipRanges = [] then none else some route.ipRanges,
          upstreamHost :=
            if trim route.upstreamHost = "" then none else some (trim route.upstreamHost),
          site := some siteId })

def SiteRules.locations (siteId : String) (site : SiteRules) : List (String × LocationConf) :=
  if site.domain = "" then []
  else (site.fallbackLocation siteId).toList ++ site.routes.filterMap (site.routeLocation siteId)

/-! ## The generated configuration -/

def unmatchedHostLocationName : String := "pingwaf_unmatched_host"

/-- The host-less page for hosts no site matches, when some enabled page has that scope. -/
def CachedRules.unmatchedLocation (cached : CachedRules) : List (String × LocationConf) :=
  if cached.sites.entries.any fun e => e.2.errorPages.any fun p => p.unmatchedHost && p.enabled then
    [(unmatchedHostLocationName,
      { upstream := none, host := none, path := some "/", weight := some 0,
        matchIpRanges := none, upstreamHost := none, site := none })]
  else []

def CachedRules.declared (cached : CachedRules) : List (String × LocationConf) :=
  (cached.sites.entries.flatMap fun e => e.2.locations e.1) ++ cached.unmatchedLocation

def SiteRules.clientCa (site : SiteRules) : Option String :=
  if site.domain = "" then none
  else site.sslConfig.bind fun ssl =>
    if ssl.mtlsEnabled ∧ trim ssl.mtlsClientCa ≠ "" then some (trim ssl.mtlsClientCa) else none

def CachedRules.clientCas (cached : CachedRules) : List String :=
  cached.sites.entries.filterMap fun e => e.2.clientCa

def CachedRules.mtlsCaBundle (cached : CachedRules) : String :=
  String.join (cached.clientCas.map (· ++ "\n"))

structure PingapConfig where
  server : ServerConfig
  clientCaPem : Option String

/-- A later location overwrites an earlier one of its name; the list of names keeps both. -/
def cachedRulesToPingapConfig (cached : CachedRules) : PingapConfig where
  server :=
    { locations := cached.declared.foldl (fun t d => t.insert d.1 d.2) ∅
      names := cached.declared.map (·.1) }
  clientCaPem := if cached.mtlsCaBundle = "" then none else some cached.mtlsCaBundle

end PingWaf.Routing
