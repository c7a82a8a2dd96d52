import PingWaf.Lib.Framing
import PingWaf.Plugin.Site

/-!
# Requests at the cache

What the cache plugin decides about a request (whether the cache serves it, under which namespace
and with which headers in its key, or what it purges) and the key that the storage is asked with.
-/

namespace PingWaf.Cache

open Text Net Waf Plugin

structure Primitives where
  crates : Crates
  /-- `bstr`'s `to_str_lossy`. -/
  toStrLossy : List UInt8 → String
  /-- `CacheKey::combined`: the hash of a primary key and of the variance, as a file name. -/
  combined : String → Option (List UInt8) → String
  /-- `hash_one` of the memory layer's hasher. -/
  hashOne : String → Nat
  /-- The directory that the file system reaches under a path. -/
  resolveDir : String → String

structure Primitives.Lawful (k : Primitives) : Prop where
  combined_inj : ∀ {p p' : String} {v v' : Option (List UInt8)},
    k.combined p v = k.combined p' v' → p = p' ∧ v = v'
  hashOne_inj : ∀ {s t : String}, k.hashOne s = k.hashOne t → s = t

/-! ## Keys -/

structure CacheInfo where
  nameSpace : Option String
  keys : Option (List String)
  checkCacheControl : Bool
  maxTtl : Option Nat
  varyHeaders : Option (List String)
  browserTtl : Option Nat
  deriving DecidableEq

def CacheInfo.default : CacheInfo where
  nameSpace := none
  keys := none
  checkCacheControl := false
  maxTtl := none
  varyHeaders := none
  browserTtl := none

def extendCacheKeys (info : CacheInfo) (keys : List String) : CacheInfo :=
  { info with keys := some (info.keys.getD [] ++ keys) }

/-- `pingora`'s key: only the primary and the variance are hashed. -/
structure CacheKey where
  primary : String
  userTag : String
  variance : Option (List UInt8)
  deriving DecidableEq

def CacheKey.combined (k : Primitives) (key : CacheKey) : String :=
  k.combined key.primary key.variance

/-- `get_cache_key`: one buffer, every part but the namespace and the uri followed by a colon. -/
def getCacheKey (cache : Option CacheInfo) (method uri host : String) : CacheKey :=
  match cache with
  | none => ⟨"", "", none⟩
  | some info =>
    let nameSpace := info.nameSpace.getD ""
    let buf := (info.keys.getD []).foldl (fun buf key => buf ++ key ++ ":") nameSpace
    let buf := if host = "" then buf else buf ++ host ++ ":"
    ⟨buf ++ method ++ ":" ++ uri, nameSpace, none⟩

/-! ## Site rules -/

structure CompiledCacheRule where
  expression : Expression
  maxTtl : Option Nat
  browserTtl : Option Nat
  cacheEligible : Bool
  respectOrigin : Bool
  keyHeaders : List String

structure SiteCacheRules where
  nameSpace : String
  rules : List CompiledCacheRule

structure Requirements where
  headers : Bool
  cookies : Bool
  clientIp : Bool

def Requirements.none : Requirements := ⟨false, false, false⟩

def Requirements.union (a b : Requirements) : Requirements :=
  ⟨a.headers || b.headers, a.cookies || b.cookies, a.clientIp || b.clientIp⟩

def expressionRequirements : Expression → Requirements
  | .and a b | .or a b => (expressionRequirements a).union (expressionRequirements b)
  | .not inner => expressionRequirements inner
  | .field field _ _ =>
    match field.kind with
    | .requestHeader => { Requirements.none with headers := true }
    | .requestCookie => { Requirements.none with cookies := true }
    | .ipSrc | .ipSrcCountry => { Requirements.none with clientIp := true }
    | _ => .none

def SiteCacheRules.requirements (site : SiteCacheRules) : Requirements :=
  site.rules.foldl (fun acc rule => acc.union (expressionRequirements rule.expression)) .none

/-- The pairs of one `cookie` line; a pair without an equals sign is a name. -/
def parseCookiePairs (value : String) : List (String × String) :=
  (splitChar ';' value).filterMap fun pair =>
    let pair := trim pair
    if pair = "" then none
    else match splitOnce '=' pair with
      | some (name, val) => some (trim name, trim val)
      | none => some (pair, "")

def collectRequestCookies (r : RequestHeader) : List (String × String) :=
  ((r.headers.filter (·.name = "cookie")).filterMap HeaderLine.toStr).flatMap parseCookiePairs

/-! ## The plugin -/

structure CachePlugin where
  nameSpace : Option String
  headers : Option (List String)
  maxTtl : Option Nat
  varyHeaders : Option (List String)
  checkCacheControl : Bool
  purgeIpRules : IpRules
  /-- A pattern of uris that bypass the cache. -/
  skip : Option String
  /-- The compiled rules of the site that the agent knows a host by. -/
  agentRules : String → Option SiteCacheRules

/-- A request on its way through the plugin chain. Earlier plugins may have left key components
in its cache settings. -/
structure CacheVisit where
  step : PluginStep
  header : RequestHeader
  scheme : Option String
  authority : Option String
  clientIp : String
  tls : Bool
  cache : Option CacheInfo

namespace CacheVisit

variable (q : CacheVisit)

def host : String := (getHost q.header).getD ""

def pathAndQuery : String :=
  match q.header.query with
  | some query => q.header.path ++ "?" ++ query
  | none => q.header.path

def uri : String :=
  ((q.scheme.map (· ++ "://")).getD "") ++ q.authority.getD "" ++ q.pathAndQuery

def evalContext (needs : Requirements) : EvalContext where
  method := q.header.method
  path := q.header.path
  fullUri := q.pathAndQuery
  host := q.host
  userAgent := ((q.header.get "user-agent").bind HeaderLine.toStr).getD ""
  body := none
  headers := if needs.headers then (collectHeaders q.header.headers).headers else []
  cookies := if needs.cookies then collectRequestCookies q.header else []
  parsedIp := IpAddr.fromStr (if needs.clientIp then q.clientIp else "")
  countryCode := none
  ssl := q.tls
  wafScore := 0
  wafScoreSqli := 0
  wafScoreXss := 0
  wafScoreRce := 0

end CacheVisit

/-- `get_header_bytes`: the first value of a header, whatever the case of its name. -/
def getHeaderBytes (r : RequestHeader) (name : String) : List UInt8 :=
  ((r.get (toAsciiLowercase name)).map (·.value)).getD []

inductive CacheAnswer where
  | skipped
  | respond (status : Nat) (body : String)
  | purgeNamespace (nameSpace : String)
  | purgeKeys (keys : List CacheKey)
  | continue_
  deriving DecidableEq

structure CacheOutcome where
  answer : CacheAnswer
  cache : Option CacheInfo
  deriving DecidableEq

namespace CachePlugin

variable (k : Primitives) (p : CachePlugin) (q : CacheVisit)

def resolveSiteRules (host : String) : Option SiteCacheRules :=
  if host = "" then none else p.agentRules host

def siteRules : Option SiteCacheRules := p.resolveSiteRules q.host

def matched : Option CompiledCacheRule :=
  (p.siteRules q).bind fun site =>
    site.rules.find? fun rule => evaluate k.crates (q.evalContext site.requirements) rule.expression

def dynamicNamespace : Option String :=
  match p.matched k q, p.siteRules q with
  | some _, some site => some site.nameSpace
  | _, _ => none

def effectiveNamespace : Option String := (p.dynamicNamespace k q).or p.nameSpace

def keyHeaders : List String :=
  ((p.matched k q).map (·.keyHeaders)).getD [] ++ p.headers.getD []

def keyValues : List String :=
  (p.keyHeaders k q).filterMap fun name =>
    let buf := k.toStrLossy (getHeaderBytes q.header name)
    if buf = "" then none else some buf

def keyInfo : CacheInfo :=
  let info := { q.cache.getD .default with nameSpace := p.effectiveNamespace k q }
  if p.keyValues k q = [] then info else extendCacheKeys info (p.keyValues k q)

def applyRule (matched : Option CompiledCacheRule) (info : CacheInfo) : CacheInfo :=
  match matched with
  | some rule =>
    { info with
      maxTtl := rule.maxTtl.or p.maxTtl
      checkCacheControl := rule.respectOrigin
      browserTtl := rule.browserTtl
      varyHeaders := p.varyHeaders }
  | none =>
    { info with
      maxTtl := p.maxTtl
      checkCacheControl := p.checkCacheControl
      varyHeaders := p.varyHeaders }

/-- The answer to a purge: everything in the namespace for `/*`, else both methods of the uri. -/
def purge (info : CacheInfo) : CacheAnswer :=
  match IpAddr.fromStr q.clientIp with
  | none => .respond 400 "invalid IP address syntax"
  | some ip =>
    if !p.purgeIpRules.isMatchAddr ip then .respond 403 "Forbidden, ip is not allowed"
    else if q.header.path = "/*" then
      match p.effectiveNamespace k q with
      | some nameSpace => .purgeNamespace nameSpace
      | none => .respond 501 "namespace purge requires the namespace option"
    else .purgeKeys (["GET", "HEAD"].map fun method => getCacheKey (some info) method q.uri q.host)

def handleRequest : CacheOutcome :=
  if q.step ≠ .request then ⟨.skipped, q.cache⟩
  else if q.header.method ∉ ["GET", "HEAD", "PURGE"] then ⟨.skipped, q.cache⟩
  else if p.skip.any fun pattern => k.crates.regexIsMatch pattern q.pathAndQuery then
    ⟨.skipped, q.cache⟩
  else if q.header.method ≠ "PURGE" ∧ (p.matched k q).any (!·.cacheEligible) then
    ⟨.skipped, q.cache⟩
  else
    let info := p.keyInfo k q
    if q.header.method = "PURGE" then ⟨p.purge k q info, some info⟩
    -- On a site that has rules, what no rule matches is not cached.
    else if (p.siteRules q).isSome ∧ (p.matched k q).isNone then ⟨.skipped, some info⟩
    else ⟨.continue_, some (p.applyRule (p.matched k q) info)⟩

end CachePlugin

/-! ## Requests that the cache serves -/

structure CacheUse (k : Primitives) where
  plugin : CachePlugin
  visit : CacheVisit
  info : CacheInfo
  continues : plugin.handleRequest k visit = ⟨.continue_, some info⟩

namespace CacheUse

variable {k : Primitives} (u : CacheUse k)

/-- `cache_key_callback`, with the variance that a `Vary` header adds. -/
def key (variance : Option (List UInt8)) : CacheKey :=
  { getCacheKey (some u.info) u.visit.header.method u.visit.uri u.visit.host with variance }

def earlierKeys : List String := (u.visit.cache.bind (·.keys)).getD []

end CacheUse

namespace CachePlugin

variable {k : Primitives} {p : CachePlugin} {q : CacheVisit}

theorem keyInfo_nameSpace : (p.keyInfo k q).nameSpace = p.effectiveNamespace k q := by
  unfold keyInfo
  split <;> rfl

theorem keyInfo_keys : (p.keyInfo k q).keys.getD [] =
    (q.cache.bind (·.keys)).getD [] ++ p.keyValues k q := by
  have hkeys : (q.cache.getD .default).keys = q.cache.bind (·.keys) := by
    cases q.cache <;> rfl
  unfold keyInfo
  split
  · next h => rw [h, List.append_nil, ← hkeys]
  · rw [← hkeys]
    rfl

theorem applyRule_key (matched : Option CompiledCacheRule) (info : CacheInfo) :
    (p.applyRule matched info).nameSpace = info.nameSpace ∧
      (p.applyRule matched info).keys = info.keys := by
  cases matched <;> exact ⟨rfl, rfl⟩

theorem info_of_continue {info : CacheInfo}
    (h : p.handleRequest k q = ⟨.continue_, some info⟩) :
    info = p.applyRule (p.matched k q) (p.keyInfo k q) := by
  unfold handleRequest at h
  split at h
  · cases h
  split at h
  · cases h
  split at h
  · cases h
  split at h
  · cases h
  dsimp only at h
  split at h
  · obtain ⟨hanswer, _⟩ := CacheOutcome.mk.inj h
    unfold purge at hanswer
    repeat' split at hanswer
    all_goals cases hanswer
  split at h
  · cases h
  exact (Option.some.inj (CacheOutcome.mk.inj h).2).symm

end CachePlugin

end PingWaf.Cache
