import PingWaf.Lib.Table
import PingWaf.Plugin.Request

/-!
# Site policies

The compiled protections of one site that the WAF plugin consults before the engine: client
certificates, IP and geo restrictions, the basic-auth gate, AI crawler rules, bot protection and
path exceptions.
-/

namespace PingWaf.Plugin

open Text Net Waf

inductive DnsVerdict where
  | confirmed
  | refuted
  | unknown

structure Services where
  crates : Crates
  detectors : Detectors
  /-- The ASN of an address, from the embedded database. -/
  lookupAsn : IpAddr → Option Nat
  /-- The strict base64 engine. -/
  base64Decode : String → Option (List UInt8)
  /-- Reverse and forward lookup for a claimed crawler family. -/
  dnsVerify : IpAddr → String → DnsVerdict
  /-- The signature of a clearance cookie holds and names this subject. -/
  validateClearance : String → String → Bool

def clearanceValid (v : Services) (value : Option String) (siteKey : String) : Bool :=
  value.any fun cookie => v.validateClearance cookie siteKey

/-! ## Client certificates -/

structure PeerCert where
  digest : String
  organization : Option String

structure MtlsPolicy where
  requireClientCert : Bool
  organization : String
  revoked : List String

/-- The reason a request is refused; none when the certificate, or its absence, is acceptable. -/
def MtlsPolicy.denial (p : MtlsPolicy) (peer : Option PeerCert) : Option String :=
  match peer with
  | none => if p.requireClientCert then some "client certificate required" else none
  | some cert =>
    if p.revoked.contains (toAsciiLowercase cert.digest) then some "client certificate revoked"
    else if p.organization ≠ "" ∧ cert.organization ≠ some p.organization then
      some "client certificate organization mismatch"
    else none

/-! ## Access restrictions -/

structure IpRules where
  ipNetList : List IpNet
  ipSet : List IpAddr

def IpRules.isMatchAddr (r : IpRules) (addr : IpAddr) : Bool :=
  r.ipSet.contains addr || r.ipNetList.any (·.contains addr)

inductive IpRuleAction where
  | allow | challenge | block | basicAuth

structure IpRule where
  id : String
  name : String
  action : IpRuleAction
  ranges : IpRules

structure GeoRule where
  enabled : Bool
  blockedCountries : List String
  allowedCountries : List String
  blockedAsns : List Nat
  blockUnknown : Bool
  challenge : Bool
  basicAuth : Bool
  oneAction : ¬(challenge = true ∧ basicAuth = true)

structure Denial where
  ruleId : String
  ruleName : String
  detail : String
  challenge : Bool
  basicAuth : Bool
  deriving DecidableEq

inductive PolicyOutcome where
  | noMatch
  | allowed
  | denied (d : Denial)
  deriving DecidableEq

structure AccessPolicy where
  ipRules : List IpRule
  geo : Option GeoRule

def IpRule.outcome (r : IpRule) (ip : String) : PolicyOutcome :=
  let denied (kind : String) (challenge basicAuth : Bool) : PolicyOutcome := .denied
    { ruleId := r.id
      ruleName := r.name
      detail := "client ip " ++ ip ++ " matched " ++ kind ++ " rule '" ++ r.name ++ "'"
      challenge := challenge
      basicAuth := basicAuth }
  match r.action with
  | .allow => .allowed
  | .block => denied "block" false false
  | .challenge => denied "challenge" true false
  | .basicAuth => denied "basic auth" false true

def GeoRule.asnDenied (v : Services) (g : GeoRule) (addr : Option IpAddr) : Bool :=
  !g.blockedAsns.isEmpty && addr.any fun a => (v.lookupAsn a).any g.blockedAsns.contains

def GeoRule.countryDenied (g : GeoRule) (country : Option String) : Bool :=
  match country with
  | some code => g.blockedCountries.contains code ||
      (!g.allowedCountries.isEmpty && !g.allowedCountries.contains code)
  | none => g.blockUnknown

def GeoRule.outcome (v : Services) (g : GeoRule) (addr : Option IpAddr)
    (country : Option String) : PolicyOutcome :=
  let asnDenied := g.asnDenied v addr
  if !asnDenied && !g.countryDenied country then .noMatch
  else .denied
    { ruleId := "geo_restriction"
      ruleName := "Geo restriction"
      detail := match country, asnDenied with
        | some code, true => "country " ++ code ++ " and its network are restricted"
        | some code, false => "country " ++ code ++ " is restricted for this site"
        | none, true => "the client network is restricted"
        | none, false => "the country of the client could not be determined"
      challenge := g.challenge
      basicAuth := g.basicAuth }

def AccessPolicy.evaluate (v : Services) (p : AccessPolicy) (ip : String) (addr : Option IpAddr)
    (country : Option String) : PolicyOutcome :=
  match addr.bind fun a => p.ipRules.find? fun r => r.ranges.isMatchAddr a with
  | some rule => rule.outcome ip
  | none =>
    match p.geo.filter (·.enabled) with
    | none => .noMatch
    | some g => g.outcome v addr country

/-! ## The basic-auth gate -/

def defaultBasicRealm : String := "Restricted"

/-- The site's credentials, as decoded `user:password` payloads; the gate is left out of a site
that has none. -/
structure BasicAuthGate where
  siteWide : Bool
  realm : String
  credentials : List (List UInt8)
  hideCredentials : Bool
  usable : credentials ≠ []

def BasicAuthGate.verify (v : Services) (g : BasicAuthGate) (headers : Headers) : Bool :=
  ((headerValue headers "authorization").bind (splitOnce ' ')).any fun sp =>
    eqIgnoreAsciiCase sp.1 "basic" && (v.base64Decode (trim sp.2)).any g.credentials.contains

/-! ## AI crawlers and bots -/

/-- ASCII case-insensitive `contains`; an empty needle is contained in nothing. -/
def containsIgnoreCase (haystack needle : String) : Bool :=
  needle ≠ "" && hasSub (toAsciiLowercase haystack) (toAsciiLowercase needle)

inductive AiAction where
  | allow | monitor | block
  deriving DecidableEq

structure AiBotRule where
  id : String
  category : String
  patterns : List String
  action : AiAction
  deriving DecidableEq

def AiBotRule.matches_ (r : AiBotRule) (userAgent : String) : Bool :=
  r.patterns.any (containsIgnoreCase userAgent)

def AiBotRule.denial (r : AiBotRule) : Denial where
  ruleId := "ai_bot"
  ruleName := "AI crawler: " ++ r.id
  detail := "AI crawler '" ++ r.id ++ "' (" ++ r.category ++ ") matched the site policy"
  challenge := false
  basicAuth := false

inductive BotAction where
  | log | challenge | block
  deriving DecidableEq

structure BotPolicy where
  whitelist : List String
  action : BotAction
  verifiedRanges : List IpNet
  dnsVerification : Bool

inductive BotDecision where
  | pass
  | deny (d : Denial)
  | logOnly (d : Denial)
  deriving DecidableEq

def BotPolicy.denial (p : BotPolicy) (detail : String) : Denial where
  ruleId := "bot_protection"
  ruleName := "Bot protection"
  detail := detail
  challenge := p.action == .challenge
  basicAuth := false

def BotPolicy.decide (p : BotPolicy) (d : Denial) : BotDecision :=
  match p.action with
  | .log => .logOnly d
  | _ => .deny d

def knownBotFamilies : List String :=
  ["googlebot", "bingbot", "yandexbot", "duckduckbot", "baiduspider"]

def knownBotFamily (userAgent : String) : Option String :=
  knownBotFamilies.find? (containsIgnoreCase userAgent)

def isBrowserUa (ua : String) : Bool :=
  containsIgnoreCase ua "mozilla/5.0" &&
    ["chrome/", "safari/", "firefox/", "trident/", "edg/", "opr/", "samsungbrowser/"].any
      (containsIgnoreCase ua)

def BotPolicy.byUserAgent (p : BotPolicy) (userAgent : String) : BotDecision :=
  if p.whitelist.any (containsIgnoreCase userAgent) then .pass
  else if isBrowserUa userAgent then .pass
  else p.decide (p.denial (
    if userAgent = "" then "the request carries no user agent"
    else "user agent '" ++ userAgent ++ "' is neither a verified bot nor a browser"))

def BotPolicy.evaluate (v : Services) (p : BotPolicy) (clientIp : Option IpAddr)
    (userAgent : String) : BotDecision :=
  match clientIp with
  | none => p.byUserAgent userAgent
  | some ip =>
    if p.verifiedRanges.any (·.contains ip) then .pass
    else
      match (if p.dnsVerification then knownBotFamily userAgent else none) with
      | none => p.byUserAgent userAgent
      | some token =>
        match v.dnsVerify ip token with
        | .confirmed => .pass
        | .refuted => p.decide (p.denial ("user agent claims to be a '" ++ token ++
            "' crawler but " ++ ip.display ++ " does not resolve to its network"))
        | .unknown => p.byUserAgent userAgent

/-! ## Path exceptions -/

inductive LayerName where
  | mtls | access | basicAuth | aiBot | bot | rateLimit | waf | challenge

def LayerName.asStr : LayerName → String
  | .mtls => "mtls"
  | .access => "access"
  | .basicAuth => "basic_auth"
  | .aiBot => "ai_bot"
  | .bot => "bot"
  | .rateLimit => "rate_limit"
  | .waf => "waf"
  | .challenge => "challenge"

structure BypassLayers where
  all : Bool
  named : List String

def BypassLayers.build (raw : List String) : BypassLayers :=
  if raw.contains "*" then ⟨true, []⟩ else ⟨false, raw⟩

def BypassLayers.skips (b : BypassLayers) (layer : LayerName) : Bool :=
  b.all || b.named.contains layer.asStr

def BypassLayers.describe (b : BypassLayers) : String :=
  if b.all then "*" else ",".intercalate b.named

structure PathBypass where
  id : String
  name : String
  layers : BypassLayers
  logHits : Bool

structure PathExceptions where
  exact : List (String × PathBypass)
  pre : List (String × PathBypass)
  wildcard : List (String × PathBypass)
  regex : List (String × PathBypass)

structure PathExceptionConfig where
  id : String
  path : String
  matchType : String
  skipLayers : List String
  enabled : Bool
  logHits : Bool
  note : String

def PathExceptionConfig.bypass (rule : PathExceptionConfig) : PathBypass where
  id := rule.id
  name := if rule.note = "" then rule.path else rule.note
  layers := .build rule.skipLayers
  logHits := rule.logHits

/-- One more rule: a regex that does not compile is ignored, an unknown type is a prefix. -/
def PathExceptions.add (compiles : String → Bool) (x : PathExceptions)
    (rule : PathExceptionConfig) : PathExceptions :=
  if !rule.enabled || rule.path = "" then x
  else if rule.matchType = "exact" then
    { x with exact := x.exact ++ [(rule.path, rule.bypass)] }
  else if rule.matchType = "wildcard" then
    { x with wildcard := x.wildcard ++
        [(String.ofList (trimEndList (· == '*') rule.path.toList), rule.bypass)] }
  else if rule.matchType = "regex" then
    if compiles rule.path then { x with regex := x.regex ++ [(rule.path, rule.bypass)] } else x
  else { x with pre := x.pre ++ [(rule.path, rule.bypass)] }

def PathExceptions.build (compiles : String → Bool) (rules : List PathExceptionConfig) :
    Option PathExceptions :=
  let compiled := rules.foldl (PathExceptions.add compiles) ⟨[], [], [], []⟩
  if compiled.exact.isEmpty && compiled.pre.isEmpty && compiled.wildcard.isEmpty &&
      compiled.regex.isEmpty then none
  else some compiled

def underPath (path pattern : String) : Bool :=
  path = pattern || hasPrefix path (pattern ++ "/")

def PathExceptions.matchPath (v : Services) (x : PathExceptions) (path : String) :
    Option PathBypass :=
  ((x.exact.find? fun e => e.1 = path)
    |>.or (x.pre.find? fun e => underPath path e.1)
    |>.or (x.wildcard.find? fun e => hasPrefix path e.1)
    |>.or (x.regex.find? fun e => v.crates.regexIsMatch e.1 path)).map (·.2)

end PingWaf.Plugin
