import PingWaf.Lib.Pipeline
import PingWaf.Plugin.BodyStage

/-!
# The request phase

`handleRequest` is the WAF plugin's request phase: a pipeline of layers, each of which lets the
request go on or answers it. An answer `continue_` or `skipped` sends the request towards the
upstream without the layers that were still to come.
-/

namespace PingWaf.Plugin

open Text Net Waf Pipeline

structure EdgeState where
  rate : RateState
  stage : StageTables

structure Vars where
  edge : EdgeState
  access : PolicyOutcome
  outcome : VerdictOutcome

structure Report where
  events : List SecurityEvent := []
  blocks : List IpBlock := []
  hidesCredentials : Bool := false
  stage : StageDecision := .ignored
  deriving DecidableEq

abbrev EdgeLayer := Layer Vars Report RequestPluginResult

def next (s : Vars) (r : Report) : Step Vars Report RequestPluginResult := ⟨s, r, none⟩

def answer (s : Vars) (r : Report) (a : RequestPluginResult) :
    Step Vars Report RequestPluginResult := ⟨s, r, some a⟩

@[simp] theorem next_answer (s : Vars) (r : Report) : (next s r).answer = none := rfl
@[simp] theorem next_state (s : Vars) (r : Report) : (next s r).state = s := rfl
@[simp] theorem next_entry (s : Vars) (r : Report) : (next s r).entry = (r, none) := rfl
@[simp] theorem answer_answer (s : Vars) (r : Report) (a : RequestPluginResult) :
    (answer s r a).answer = some a := rfl

/-! ## Paths the plugin steps aside for -/

def acmeHttp01PathPrefix : String := "/.well-known/acme-challenge/"

def isAcmeChallengePath (path : String) : Bool :=
  hasPrefix path acmeHttp01PathPrefix &&
    let token := path.toList.drop acmeHttp01PathPrefix.length
    !token.isEmpty && token.length ≤ 128 &&
      token.all fun c => isAsciiAlphanumeric c || c == '-' || c == '_'

def isOwnedPath (path : String) : Bool :=
  ["/_pingwaf/login", "/_pingwaf/logout", "/_pingwaf/portal", "/_pingwaf/portal/visibility",
    "/_pingwaf/portal/password", "/_pingwaf/portal/passkey/register", "/_pingwaf/passkey/login"].contains
    path

section

variable (e : Edge) (site : ResolvedSite) (q : Incoming)

def ResolvedSite.observe : Bool := site.context.any (·.observationMode)

def pathBypass : Option PathBypass :=
  site.context.bind fun s => s.pathExceptions.bind fun x => x.matchPath e.services q.data.path

def bypasses (layer : LayerName) : Bool := (pathBypass e site q).any fun b => b.layers.skips layer

def directEvent (ruleId ruleName eventType action details : String) (status : Nat) :
    List SecurityEvent :=
  if e.agent.isNone then []
  else [⟨site.siteId, q.requestId, ruleId, "", ruleName, eventType, action, 0, details, status, []⟩]

def observedDenial (d : Denial) (eventType : String) : List SecurityEvent :=
  logObserved e.agent site.siteId q.requestId d.ruleId d.detail d.ruleName eventType

/-! ## The layers -/

def frontDoor : EdgeLayer := fun s =>
  if q.step ≠ e.plugin.pluginStep then answer s {} .skipped
  else if isAcmeChallengePath q.header.path then answer s {} .skipped
  else if q.header.method = "POST" ∧ q.header.path = verifyEndpoint then answer s {} .skipped
  else if isOwnedPath q.header.path && site.servesLogin then answer s {} .skipped
  else next s {}

def pausedLayer : EdgeLayer := fun s =>
  if site.context.any (·.paused) then answer s {} (.respond .pausedPage) else next s {}

def failClosedLayer : EdgeLayer := fun s =>
  match site.choice with
  | .failClosed =>
    answer s
      { events := directEvent e site q "" "" "fail_closed" "block"
          "control plane unreachable and fail_open is disabled" 503 }
      (.respond .failClosedPage)
  | _ => next s {}

def wafBlocksSuppressed : Bool :=
  site.observe || site.context.any fun s => s.wafMode ≠ some .block

def ipBanLayer : EdgeLayer := fun s =>
  match (if site.siteId = "" then none
    else e.agent.bind fun a => a.blockedReason site.siteId q.data.clientIp) with
  | none => next s {}
  | some (reason, unblocksAt) =>
    if wafBlocksSuppressed site && hasPrefix reason "waf: " then next s {}
    else
      answer s
        { events := directEvent e site q "ip_ban" "Dynamic IP ban" "defense" "block"
            ("ip banned: " ++ reason ++ unblocksAt) 403 }
        (.respond (.blockPage "IP temporarily blocked by WAF defense"))

def pathExceptionLayer : EdgeLayer := fun s =>
  match (pathBypass e site q).filter (·.logHits) with
  | none => next s {}
  | some b =>
    let details := "bypassed: " ++ b.layers.describe
    next s { events := directEvent e site q b.id b.name "path_bypass" "log" details 0 }

def mtlsDenial : Option String :=
  if bypasses e site q .mtls then none
  else site.context.bind fun s => s.mtls.bind fun p => p.denial q.peer

def mtlsLayer : EdgeLayer := fun s =>
  match mtlsDenial e site q with
  | some reason => answer s {} (.respond (.blockPage reason))
  | none => next s {}

def accessOutcome : PolicyOutcome :=
  match site.context with
  | none => .noMatch
  | some s =>
    if bypasses e site q .access then .noMatch
    else s.policy.evaluate e.services q.data.clientIp q.addr q.data.countryCode

def accessLayer : EdgeLayer := fun s =>
  let access := accessOutcome e site q
  let s := { s with access := access }
  match access with
  | .denied d =>
    if d.basicAuth then next s {}
    else if site.observe then
      next s { events := observedDenial e site q d "ip_geo" }
    else
      let (events, result) := denyRequest e site.siteId q d (bypasses e site q .challenge) "ip_geo"
      answer s { events := events } result
  | _ => next s {}

def ResolvedSite.gate : Option BasicAuthGate := site.context.bind (·.basicAuth)

def gateRequired (access : PolicyOutcome) : Bool :=
  (match access with
    | .allowed => false
    | .denied d => d.basicAuth
    | .noMatch => site.gate.any (·.siteWide)) && !bypasses e site q .basicAuth

def authenticated : Bool := site.gate.any fun g => g.verify e.services q.data.headers

def gateLayer : EdgeLayer := fun s =>
  if !gateRequired e site q s.access then next s {}
  else if authenticated e site q then
    next s { hidesCredentials := site.gate.any (·.hideCredentials) }
  else
    let realm := (site.gate.map (·.realm)).getD defaultBasicRealm
    let reason := match s.access with
      | .denied d => d.detail ++ "; authentication required"
      | _ => "site-wide basic authentication"
    answer s {} (.respond (.basicAuthPage realm reason))

def aiRule : Option AiBotRule :=
  if bypasses e site q .aiBot then none
  else site.context.bind fun s => s.aiBots.find? fun r => r.matches_ q.userAgent

def aiLayer : EdgeLayer := fun s =>
  match aiRule e site q with
  | none => next s {}
  | some rule =>
    let d := rule.denial
    let observed := observedDenial e site q d "ai_bot"
    match rule.action with
    | .allow => next s {}
    | .monitor => next s { events := observed }
    | .block =>
      if site.observe then next s { events := observed }
      else
        let (events, result) := denyRequest e site.siteId q d (bypasses e site q .challenge) "ai_bot"
        answer s { events := events } result

def botDecision : BotDecision :=
  if bypasses e site q .bot then .pass
  else match site.context.bind (·.bot) with
    | none => .pass
    | some p => p.evaluate e.services q.addr q.userAgent

def botLayer : EdgeLayer := fun s =>
  match botDecision e site q with
  | .pass => next s {}
  | .deny d =>
    if site.observe then
      next s { events := observedDenial e site q d "bot" }
    else
      let (events, result) := denyRequest e site.siteId q d (bypasses e site q .challenge) "bot"
      answer s { events := events } result
  | .logOnly d =>
    let verdict := ruleVerdict .monitor d.ruleId none d.detail
    next s { events := logEvent e.agent site.siteId q.requestId verdict d.ruleName "bot" }

def rateLimits : Option RateLimitPolicy :=
  if bypasses e site q .rateLimit then none else site.context.bind (·.rateLimits)

/-- The input of the rate limit rules; the clearance matters only to challenge rules. -/
def rateInput (p : RateLimitPolicy) : RateInput where
  data := q.data
  host := q.host
  addr := q.addr
  cleared := p.rules.any (fun r => r.action = .challenge) && q.cleared e.services
  now := q.unixNow

def trippedEvents (t : RateTripped) (action : WafAction) (enforced : Option String) :
    List SecurityEvent :=
  logEvent e.agent site.siteId q.requestId (ruleVerdict action t.ruleId enforced t.detail)
    t.ruleName "rate_limit"

def tripAnswer (t : RateTripped) (logged : List SecurityEvent) (s : Vars) :
    Step Vars Report RequestPluginResult :=
  let events := logged ++
    trippedEvents e site q t (if t.challenge then .challenge else .block) (some t.ruleId)
  if t.challenge && bypasses e site q .challenge then answer s { events := events } .continue_
  else if t.challenge then
    answer s { events := events } (.respond (.challengePage (originalUrl q.data) q.host))
  else
    answer s
      { events := events
        blocks := if e.agent.isSome then
            [⟨site.siteId, q.data.clientIp, t.retryAfter, "rate limit: " ++ t.ruleName⟩]
          else [] }
      (.respond (.rateLimitPage t.detail t.retryAfter))

def rateLayer : EdgeLayer := fun s =>
  match rateLimits e site q with
  | none => next s {}
  | some p =>
    let (out, rate) := p.evaluate e.services (rateInput e q p) s.edge.rate
    let s := { s with edge := { s.edge with rate := rate } }
    let logged := out.logged.flatMap fun t => trippedEvents e site q t .monitor none
    match out.deny with
    | none => next s { events := logged }
    | some t =>
      if site.observe then
        let observed :=
          logObserved e.agent site.siteId q.requestId t.ruleId t.detail t.ruleName "rate_limit"
        next s { events := logged ++ observed }
      else tripAnswer e site q t logged s

def offLayer : EdgeLayer := fun s =>
  match site.choice with
  | .base => if e.plugin.mode = .off then answer s {} .skipped else next s {}
  | _ => next s {}

/-- What the engine's verdict depends on, for the request phase and for the body phase. -/
def verdictContext : VerdictContext where
  choice := site.choice
  context := site.context
  observe := site.observe
  skipChallenge := bypasses e site q .challenge
  siteId := site.siteId
  host := q.host

def wafLayer : EdgeLayer := fun s =>
  if bypasses e site q .waf then next { s with outcome := .continue_ } {}
  else
    let r := enforceVerdict e (verdictContext e site q) q.requestId q.data
    let report : Report := { events := r.events, blocks := r.blocks }
    match r.outcome with
    | .respond response => answer s report (.respond response)
    | outcome => next { s with outcome := outcome } report

def stageAnswer (decision : StageDecision) (outcome : VerdictOutcome) : RequestPluginResult :=
  match decision with
  | .refused => .respond .serviceUnavailable
  | .tableFull => .continue_
  | _ => match outcome with
    | .skipped => .skipped
    | _ => .continue_

def stageLayer : EdgeLayer := fun s =>
  let (decision, stage) := stageRequest e (verdictContext e site q) q s.edge.stage
  answer { s with edge := { s.edge with stage := stage } } { stage := decision }
    (stageAnswer decision s.outcome)

/-! ## The pipeline -/

def earlyLayers : List EdgeLayer :=
  [frontDoor e site q, pausedLayer site, failClosedLayer e site q, ipBanLayer e site q,
    pathExceptionLayer e site q, mtlsLayer e site q]

def layers : List EdgeLayer :=
  earlyLayers e site q ++
    [accessLayer e site q, gateLayer e site q, aiLayer e site q, botLayer e site q,
      rateLayer e site q, offLayer e site, wafLayer e site q, stageLayer e site q]

def startVars (st : EdgeState) : Vars := ⟨st, .noMatch, .continue_⟩

def requestPhase (st : EdgeState) : Run Vars Report RequestPluginResult :=
  run (layers e site q) (startVars st)

def handleRequest (st : EdgeState) : RequestPluginResult × EdgeState :=
  let r := requestPhase e site q st
  (r.answer.getD .continue_, r.state.edge)

end

end PingWaf.Plugin
