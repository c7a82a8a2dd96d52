import PingWaf.Plugin.RateLimit

/-!
# Sites, events and verdicts

The resolved site of a request, the security events the plugin ships, and the two ways in which
it turns a decision into an answer: `denyRequest` for access restrictions and bots, and
`enforceVerdict` for the engine.
-/

namespace PingWaf.Plugin

open Text Net Waf

/-! ## Configuration -/

inductive EngineChoice where
  | base
  | site (engine : WafEngine)
  | disabled
  | failClosed

inductive BodyStagePolicy where
  | balanced | strict | throughput
  deriving DecidableEq

inductive EncodedBodyPolicy where
  | inspectWire | reject
  deriving DecidableEq

inductive PluginStep where
  | earlyRequest | request | proxyUpstream | upstreamResponse | response
  deriving DecidableEq

def PluginStep.name : PluginStep → String
  | .earlyRequest => "early_request"
  | .request => "request"
  | .proxyUpstream => "proxy_upstream"
  | .upstreamResponse => "upstream_response"
  | .response => "response"

def PluginStep.fromStr (s : String) : Option PluginStep :=
  [.earlyRequest, .request, .proxyUpstream, .upstreamResponse, .response].find? (·.name = s)

structure InvalidPlugin where
  category : String
  message : String
  deriving DecidableEq

def InvalidPlugin.display (err : InvalidPlugin) : String :=
  "Plugin " ++ err.category ++ " invalid, message: " ++ err.message

def getStepConf (step : Option String) (default : PluginStep) : PluginStep :=
  (step.bind PluginStep.fromStr).getD default

def getStepConfIn (step : Option String) (category : String) (default : PluginStep)
    (allowed : List PluginStep) : Except InvalidPlugin PluginStep :=
  match step with
  | none => .ok default
  | some text =>
    match (PluginStep.fromStr text).filter (· ∈ allowed) with
    | some step => .ok step
    | none => .error ⟨category, "Invalid step(" ++ text ++ "), expect one of: " ++
        ", ".intercalate (allowed.map PluginStep.name)⟩

structure SiteContext where
  policy : AccessPolicy
  bot : Option BotPolicy
  aiBots : List AiBotRule
  rateLimits : Option RateLimitPolicy
  mtls : Option MtlsPolicy
  basicAuth : Option BasicAuthGate
  ruleNames : Table String String
  paused : Bool
  observationMode : Bool
  wafMode : Option WafMode
  inspectBody : Bool
  bodyStageTimeoutSecs : Nat
  pathExceptions : Option PathExceptions

structure ResolvedSite where
  choice : EngineChoice
  siteId : String
  context : Option SiteContext
  /-- The chain carries a plugin that serves the login page. -/
  servesLogin : Bool

structure WafPlugin where
  pluginStep : PluginStep
  engine : WafEngine
  mode : WafMode
  inspectBody : Bool
  maxBodySize : Nat
  bodyStageTimeoutSecs : Int
  bodyStagePolicy : BodyStagePolicy
  encodedBodyPolicy : EncodedBodyPolicy

structure Agent where
  maxBodyLogSize : Nat
  /-- The reason of a ban and the text on when it lifts. -/
  blockedReason : String → String → Option (String × String)

structure Edge where
  services : Services
  plugin : WafPlugin
  agent : Option Agent
  budget : ScanBudget

structure Incoming where
  step : PluginStep
  requestId : String
  header : RequestHeader
  facts : ClientFacts
  peer : Option PeerCert
  /-- Milliseconds of the monotonic clock, and Unix seconds. -/
  now : Nat
  unixNow : Nat

def Incoming.host (q : Incoming) : String := (getHost q.header).getD ""

def Incoming.data (q : Incoming) : RequestData := requestData q.header q.facts

def Incoming.addr (q : Incoming) : Option IpAddr := IpAddr.fromStr q.facts.clientIp

def Incoming.userAgent (q : Incoming) : String := (collectHeaders q.header.headers).userAgent

def originalUrl (d : RequestData) : String := if d.query = "" then d.path else d.path ++ "?" ++ d.query

def Incoming.cleared (v : Services) (q : Incoming) : Bool :=
  clearanceValid v (clearanceCookie q.data.headers) q.host

/-! ## Answers and events -/

inductive HttpResponse where
  | pausedPage
  | failClosedPage
  | blockPage (reason : String)
  | basicAuthPage (realm reason : String)
  | challengePage (originalUrl host : String)
  | rateLimitPage (detail : String) (retryAfter : Nat)
  | unsupportedMediaType
  | serviceUnavailable
  | requestTimeout
  | payloadTooLarge
  deriving DecidableEq

inductive RequestPluginResult where
  | skipped
  | continue_
  | respond (r : HttpResponse)
  deriving DecidableEq

def RequestPluginResult.forwards : RequestPluginResult → Bool
  | .skipped | .continue_ => true
  | .respond _ => false

structure SecurityEvent where
  siteId : String
  requestId : String
  ruleId : String
  enforcedRuleId : String
  ruleName : String
  eventType : String
  action : String
  score : Nat
  details : String
  responseStatus : Nat
  matchedTags : List String
  deriving DecidableEq

def actionStr : WafAction → String
  | .pass => "pass"
  | .monitor => "monitor"
  | .block => "block"
  | .challenge => "challenge"

def logEvent (agent : Option Agent) (siteId requestId : String) (verdict : WafVerdict)
    (ruleName eventType : String) : List SecurityEvent :=
  if agent.isNone then []
  else [{ siteId := siteId
          requestId := requestId
          ruleId := verdict.matchedRules.headD ""
          enforcedRuleId := verdict.enforcedRuleId.getD ""
          ruleName := ruleName
          eventType := eventType
          action := actionStr verdict.action
          score := verdict.score
          details := verdict.details
          responseStatus := match verdict.action with
            | .block => 403
            | .challenge => 503
            | _ => 0
          matchedTags := verdict.matchedRules }]

def ruleVerdict (action : WafAction) (ruleId : String) (enforced : Option String)
    (details : String) : WafVerdict where
  action := action
  score := 0
  matchedRules := [ruleId]
  enforcedRuleId := enforced
  details := details
  breakdown := .clean

def logObserved (agent : Option Agent) (siteId requestId ruleId detail ruleName eventType : String) :
    List SecurityEvent :=
  let verdict := ruleVerdict .monitor ruleId none detail
  logEvent agent siteId requestId
    { verdict with matchedRules := if ruleId = "" then [] else [ruleId] } ruleName eventType

/-! ## Denials -/

/-- Answer a request stopped by a restriction: an event, then the block page or the challenge. A
challenge that a path exception waives or the client has already solved lets the request go. -/
def denyRequest (e : Edge) (siteId : String) (q : Incoming) (d : Denial) (skipChallenge : Bool)
    (eventType : String) : List SecurityEvent × RequestPluginResult :=
  let verdict := ruleVerdict (if d.challenge then .challenge else .block) d.ruleId (some d.ruleId)
    d.detail
  let events := logEvent e.agent siteId q.requestId verdict d.ruleName eventType
  if d.challenge && skipChallenge then (events, .continue_)
  else if d.challenge then
    if q.cleared e.services then (events, .continue_)
    else (events, .respond (.challengePage (originalUrl q.data) q.host))
  else (events, .respond (.blockPage d.detail))

/-! ## The engine's verdict -/

inductive VerdictOutcome where
  | skipped
  | continue_
  | respond (r : HttpResponse)

def engineEventType (v : WafVerdict) : String :=
  match v.matchedRules with
  | id :: _ => if hasPrefix id "PINGWAF-" then "managed" else "waf"
  | [] => "waf"

def bodyInspectionEvent (v : WafVerdict) : Option String :=
  if hasSub v.details "body=uninspected" then some "body_encoded_uninspected"
  else if hasSub v.details "body=prefix" then some "body_expanded_cap"
  else none

/-- The configured name of the rule that enforced the verdict, or of the first that matched. -/
def ruleNameOf (context : Option SiteContext) (v : WafVerdict) : String :=
  ((v.enforcedRuleId.or v.matchedRules.head?).bind fun id =>
    context.bind fun site => site.ruleNames.lookup id).getD ""

structure IpBlock where
  siteId : String
  clientIp : String
  seconds : Nat
  reason : String
  deriving DecidableEq

def wafAutoBlockSecs : Nat := 600

structure Enforced where
  events : List SecurityEvent
  blocks : List IpBlock
  outcome : VerdictOutcome

/-- What the verdict of a request needs besides the request data: snapshotted in the request
phase, used again when the body is complete. -/
structure VerdictContext where
  choice : EngineChoice
  context : Option SiteContext
  observe : Bool
  skipChallenge : Bool
  siteId : String
  host : String

def Edge.engineFor (e : Edge) : EngineChoice → Option WafEngine
  | .site engine => some engine
  | .base => if e.plugin.mode = .off then none else some e.plugin.engine
  | .disabled | .failClosed => none

def enforce (e : Edge) (k : VerdictContext) (requestId : String) (data : RequestData)
    (verdict : WafVerdict) : Enforced :=
  -- a body whose encoding could not be undone was never really inspected
  if e.plugin.encodedBodyPolicy = .reject && hasSub verdict.details "body=uninspected" then
    ⟨[], [], .respond .unsupportedMediaType⟩
  else
    let log (v : WafVerdict) (name eventType : String) :=
      logEvent e.agent k.siteId requestId v name eventType
    let name := ruleNameOf k.context verdict
    match verdict.action with
    | .pass =>
      ⟨match bodyInspectionEvent verdict with
        | some eventType => log verdict "body_inspection" eventType
        | none => [], [], .continue_⟩
    | .monitor => ⟨log verdict name (engineEventType verdict), [], .continue_⟩
    | action =>
      if k.observe then
        let observed := { verdict with action := .monitor, enforcedRuleId := none }
        ⟨log observed name (engineEventType observed), [], .continue_⟩
      else
        let events := log verdict name (engineEventType verdict)
        if action = .block then
          ⟨events,
            if e.agent.isSome then
              [⟨k.siteId, data.clientIp, wafAutoBlockSecs, "waf: " ++ name⟩] else [],
            .respond (.blockPage verdict.details)⟩
        else if k.skipChallenge then ⟨events, [], .continue_⟩
        else if clearanceValid e.services (clearanceCookie data.headers) k.host then
          ⟨events, [], .continue_⟩
        else ⟨events, [], .respond (.challengePage (originalUrl data) k.host)⟩

def enforceVerdict (e : Edge) (k : VerdictContext) (requestId : String) (data : RequestData) :
    Enforced :=
  match e.engineFor k.choice with
  | some engine =>
    enforce e k requestId data (engine.inspect e.services.crates e.services.detectors e.budget data)
  | none =>
    ⟨[], [], match k.choice with
      | .base => .skipped
      | _ => .continue_⟩

end PingWaf.Plugin
