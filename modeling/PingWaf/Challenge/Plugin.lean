import PingWaf.Plugin.ClientIp
import PingWaf.Plugin.Handle
import PingWaf.Challenge.Secret

/-!
# The challenge plugin

On the decision path the plugin asks an engine whether the visitor is to be challenged, and stores
what the page will be verified against. On the verify endpoint it checks the solution with its own
engine and hands out the clearance cookie. Under an agent the decision is made by an engine built
from the site's rules; the engine that issues is always the plugin's own.
-/

namespace PingWaf.Challenge

open Text
open Waf (u32Max)
open Plugin (RequestHeader PluginStep InvalidPlugin ProxyTrustConfig TrustedProxies getHost
  getCookieValue getReqHeaderValue siteProxyTrust siteClientIp getStepConfIn acmeHttp01PathPrefix)

def verifyEndpoint : String := "/_pingwaf/challenge/verify"

/-! ## State -/

structure PendingChallenge where
  nonce : String
  siteId : String
  originalUrl : String
  createdAt : Int
  /-- The approximate size on the heap. -/
  bytes : Nat

structure RateWindow where
  count : Nat
  windowStart : Int

/-- The tables of the process: the pending challenges by request id with their accounted size, the
used nonces, the rate windows, and the tick that both collectors share. -/
structure ChallengeState where
  pending : Table String PendingChallenge
  pendingBytes : Nat
  used : UsedNonces
  rates : Table String RateWindow
  gcTick : Nat

/-! ## Pending challenges -/

def pendingTtlSecs : Int := 300
def pendingGcThreshold : Nat := 1024
def pendingMaxEntries : Nat := 2048
def pendingMaxUrlBytes : Nat := 2048
def pendingMaxBytes : Nat := 8 * 1024 * 1024

def pendingRecordSize : Nat := 88

def PendingChallenge.size (p : PendingChallenge) : Nat :=
  p.nonce.utf8ByteSize + p.siteId.utf8ByteSize + p.originalUrl.utf8ByteSize + pendingRecordSize

def sweepPending (now : Int) (st : ChallengeState) : ChallengeState :=
  let pending := st.pending.retain fun _ p => now - p.createdAt < pendingTtlSecs
  { st with
    pending := pending
    pendingBytes := (pending.entries.map (·.2.bytes)).sum }

def collectPending (now : Int) (st : ChallengeState) : ChallengeState :=
  if pendingGcThreshold < st.pending.size then
    let tick := st.gcTick
    let st := { st with gcTick := tick + 1 }
    if tick % 64 = 0 then sweepPending now st else st
  else st

/-- Record a freshly issued challenge under its nonce. A full table leaves the challenge
unremembered; its verification then fails. -/
def storePending (requestId siteId originalUrl nonce : String) (now : Int) (st : ChallengeState) :
    ChallengeState :=
  let st := collectPending now st
  if pendingMaxEntries ≤ st.pending.size then st
  else
    let originalUrl := if pendingMaxUrlBytes < originalUrl.utf8ByteSize then "/" else originalUrl
    let entry : PendingChallenge := ⟨nonce, siteId, originalUrl, now, 0⟩
    let bytes := entry.size
    if pendingMaxBytes < st.pendingBytes + bytes then st
    else
      { st with
        pending := st.pending.insert requestId { entry with bytes := bytes }
        pendingBytes := st.pendingBytes + bytes }

def removePending (requestId : String) (st : ChallengeState) : ChallengeState :=
  match st.pending.lookup requestId with
  | none => st
  | some p =>
    { st with
      pending := st.pending.erase requestId
      pendingBytes := st.pendingBytes - p.bytes }

def livePending (requestId : String) (now : Int) (st : ChallengeState) : Option PendingChallenge :=
  (st.pending.lookup requestId).filter fun p => now - p.createdAt < pendingTtlSecs

def peekPending (requestId : String) (now : Int) (st : ChallengeState) :
    Option PendingChallenge × ChallengeState :=
  match livePending requestId now st with
  | some p => (some p, st)
  | none => (none, removePending requestId st)

/-! ## Rates -/

def rateWindowSecs : Int := 60

/-- The window a request falls into: the stored one, or a new one when that has passed. -/
def RateWindow.at (w : Option RateWindow) (now : Int) : RateWindow :=
  match w with
  | none => ⟨0, now⟩
  | some w => if rateWindowSecs ≤ now - w.windowStart then ⟨0, now⟩ else w

def recordRate (key : String) (now : Int) (st : ChallengeState) : Nat × ChallengeState :=
  let window := RateWindow.at (st.rates.lookup key) now
  let count := satAdd u32Max window.count 1
  let st := { st with rates := st.rates.insert key { window with count := count } }
  if 8192 < st.rates.size then
    let tick := st.gcTick
    let st := { st with gcTick := tick + 1 }
    if tick % 64 = 0 then
      (count, { st with
        rates := st.rates.retain fun _ w => now - w.windowStart < rateWindowSecs * 2 })
    else (count, st)
  else (count, st)

/-! ## Configuration -/

structure ChallengeParams where
  enabled : Option Bool
  underAttackMode : Option Bool
  clearanceDurationSecs : Option Int
  rateThreshold : Option Int
  powDifficulty : Option Int
  cookieSecret : String
  cookieName : String
  exemptPaths : List String
  exemptUserAgents : List String
  step : Option String
  browserIntegrityCheck : Option Bool
  submissionMaxAgeSecs : Option Int

/-- The plugin. Its engine issues at the lowest level that is one, under the plugin's own cookie
name and secret. -/
structure ChallengePlugin where
  pluginStep : PluginStep
  engine : ChallengeEngine
  enabled : Bool
  cookieName : String
  cookieSecret : String
  powDifficulty : Nat
  level_eq : engine.config.defaultLevel = .nonInteractive
  name_eq : engine.config.cookieName = cookieName
  secret_eq : engine.config.cookieSecret = cookieSecret

def asU32 (n : Int) : Nat := (n % 2 ^ 32).toNat

def ChallengePlugin.tryFrom (params : ChallengeParams) (fresh : Uuid) (s : Secrets) :
    Except InvalidPlugin ChallengePlugin × Secrets :=
  let enabled := params.enabled.getD true
  let (resolved, s) := resolveCookieSecret params.cookieSecret fresh s
  let cookieSecret := if resolved = "" then s.fallback.simple else resolved
  let cookieName := if params.cookieName = "" then clearanceCookieName else params.cookieName
  let powDifficulty := asU32 (params.powDifficulty.getD 20)
  match getStepConfIn params.step "challenge" .earlyRequest [.earlyRequest, .request] with
  | .error err => (.error ⟨"challenge", err.display⟩, s)
  | .ok step =>
    (.ok
      { pluginStep := step
        engine := ⟨
          { enabled := enabled
            underAttackMode := params.underAttackMode.getD false
            defaultLevel := .nonInteractive
            clearanceDurationSecs := params.clearanceDurationSecs.getD 1800
            exemptPaths := params.exemptPaths
            exemptUserAgents := params.exemptUserAgents
            rateThreshold := asU32 (params.rateThreshold.getD 100)
            browserIntegrityCheck := params.browserIntegrityCheck.getD true
            cookieSecret := cookieSecret
            cookieName := cookieName
            powDifficulty := powDifficulty
            submissionMaxAgeSecs := params.submissionMaxAgeSecs.getD 300 }⟩
        enabled := enabled
        cookieName := cookieName
        cookieSecret := cookieSecret
        powDifficulty := powDifficulty
        level_eq := rfl
        name_eq := rfl
        secret_eq := rfl }, s)

structure SiteChallenge where
  enabled : Bool
  underAttackMode : Bool
  defaultLevel : ClearanceLevel
  /-- Unsigned 32-bit numbers; zero stands for the default and for no threshold. -/
  clearanceDurationSeconds : Nat
  exemptPaths : List String
  requestThreshold : Nat
  browserIntegrityCheck : Bool

def buildSiteEngine (cfg : SiteChallenge) (cookieSecret cookieName : String) (powDifficulty : Nat) :
    ChallengeEngine := ⟨
  { enabled := true
    underAttackMode := cfg.underAttackMode
    defaultLevel := cfg.defaultLevel
    clearanceDurationSecs :=
      if cfg.clearanceDurationSeconds = 0 then 1800 else cfg.clearanceDurationSeconds
    exemptPaths := cfg.exemptPaths
    exemptUserAgents := []
    rateThreshold := if cfg.requestThreshold = 0 then u32Max else cfg.requestThreshold
    browserIntegrityCheck := cfg.browserIntegrityCheck
    cookieSecret := cookieSecret
    cookieName := cookieName
    powDifficulty := powDifficulty
    submissionMaxAgeSecs := 300 }⟩

structure ChallengeRules where
  challenge : Option SiteChallenge
  proxyTrust : ProxyTrustConfig

/-- The surroundings of the plugin: foreign functions, the agent's rules by domain when there is an
agent, and the trusted proxies of the process. -/
structure ChallengeEnv where
  prims : Primitives
  crates : Waf.Crates
  agent : Option (String → Option ChallengeRules)
  proxies : Option TrustedProxies

def ChallengeEnv.rulesFor (env : ChallengeEnv) (host : String) : Option ChallengeRules :=
  env.agent.bind (· host)

/-- The engine that decides for a host; `none` lets everything through. -/
def ChallengePlugin.decisionEngine (p : ChallengePlugin) (env : ChallengeEnv) (host : String) :
    Option ChallengeEngine :=
  if env.agent.isNone then some p.engine
  else if host = "" then none
  else
    ((env.rulesFor host).bind fun rules => rules.challenge.filter (·.enabled)).map fun cfg =>
      buildSiteEngine cfg p.cookieSecret p.cookieName p.powDifficulty

/-! ## Requests and answers -/

/-- A request at the plugin. The two exceptions are the ones the WAF stamped on the request's
pending log entry; the fresh texts are the random draws this request may need. -/
structure Visit where
  step : PluginStep
  session : Plugin.Session
  requestId : Option String
  cachedIp : Option String
  bypassesChallenge : Bool
  bypassesRateLimit : Bool
  tls : Bool
  bodyChunks : List (List UInt8)
  moment : Moment
  freshRequestId : String
  freshNonce : String

def Visit.header (q : Visit) : RequestHeader := q.session.header

def Visit.host (q : Visit) : String := (getHost q.header).getD ""

inductive ChallengeKind where
  | js | managed | interactive
  deriving DecidableEq

structure ChallengePage where
  requestId : String
  nonce : String
  difficulty : Nat
  originalUrl : String
  kind : ChallengeKind
  deriving DecidableEq

structure SetCookie where
  name : String
  value : String
  attributes : String
  deriving DecidableEq

def SetCookie.render (k : SetCookie) : String := k.name ++ "=" ++ k.value ++ "; " ++ k.attributes

/-- `HeaderValue::from_str` accepts the text. -/
def isHeaderValue (s : String) : Bool :=
  (utf8Encode s).all fun b => (32 ≤ b && b != 127) || b == 9

inductive ChallengeAnswer where
  | skipped
  | continue_
  | challengePage (page : ChallengePage)
  | blockPage (requestId reason : String)
  | verified (redirect : String) (setCookie : Option SetCookie)
  deriving DecidableEq

/-! ## The verify endpoint -/

def maxVerifyBody : Nat := 64 * 1024

/-- Read the body up to the limit; a chunk that does not fit is cut and ends the reading. -/
def readVerifyBody : List (List UInt8) → List UInt8 → List UInt8
  | [], buf => buf
  | chunk :: rest, buf =>
    if maxVerifyBody ≤ buf.length then buf
    else
      let taken := chunk.take (maxVerifyBody - buf.length)
      if taken.length < chunk.length then buf ++ taken
      else readVerifyBody rest (buf ++ taken)

structure VerifyForm where
  requestId : String
  solution : String
  fingerprintJson : String
  timestamp : Int
  deriving DecidableEq

def VerifyForm.ofJson (value : Waf.Json) (now : Int) : VerifyForm where
  requestId := ((value.get "request_id").bind Waf.Json.asStr).getD ""
  solution := ((value.get "solution").bind Waf.Json.asStr).getD ""
  fingerprintJson := ((value.get "fingerprint_json").bind Waf.Json.asStr).getD "\x7b\x7d"
  timestamp := ((value.get "timestamp").bind Waf.Json.asI64).getD now

def Visit.form (c : Primitives) (q : Visit) : Option VerifyForm :=
  (c.jsonFromSlice (readVerifyBody q.bodyChunks [])).map fun value =>
    .ofJson value q.moment.unix

def safeRedirectTarget (url : String) : String :=
  if hasPrefix url "/" && !hasPrefix url "//" && !hasPrefix url "/\\" then url else "/"

def ChallengePlugin.handleVerify (p : ChallengePlugin) (c : Primitives) (q : Visit)
    (st : ChallengeState) : ChallengeAnswer × ChallengeState :=
  match q.form c with
  | none => (.blockPage "-" "malformed challenge submission", st)
  | some form =>
    match peekPending form.requestId q.moment.unix st with
    | (none, st) => (.blockPage form.requestId "challenge expired or unknown, please retry", st)
    | (some pending, st) =>
      let submission : ChallengeSubmission :=
        ⟨pending.nonce, form.solution, form.fingerprintJson, form.timestamp, pending.siteId⟩
      match p.engine.verifySolutionForPending c submission q.tls q.moment st.used with
      | (.failed reason, used) => (.blockPage form.requestId reason, { st with used := used })
      | (.success cookieValue cookieAttributes, used) =>
        let setCookie : SetCookie := ⟨p.cookieName, cookieValue, cookieAttributes⟩
        (.verified (safeRedirectTarget pending.originalUrl)
            (if isHeaderValue setCookie.render then some setCookie else none),
          removePending form.requestId { st with used := used })

/-! ## The decision -/

def Visit.clientIp (env : ChallengeEnv) (q : Visit) : String :=
  siteClientIp env.proxies
    ((env.rulesFor q.host).bind fun rules => siteProxyTrust env.crates rules.proxyTrust)
    q.session q.cachedIp

def rateKey (host clientIp : String) : String :=
  if host = "" then clientIp else host ++ ":" ++ clientIp

def ChallengePlugin.hasClearance (p : ChallengePlugin) (c : Primitives) (engine : ChallengeEngine)
    (q : Visit) : Bool :=
  match (getCookieValue q.header p.cookieName).bind fun cookie =>
      p.engine.validateClearance c cookie q.moment.unix with
  | none => false
  | some payload => payload.siteId = q.host && engine.clearanceLevelSufficient payload

def originalUrl (r : RequestHeader) : String :=
  match r.query with
  | some query => r.path ++ "?" ++ query
  | none => r.path

def ChallengeDecision.kind : ChallengeDecision → ChallengeKind
  | .managedChallenge => .managed
  | .interactiveChallenge => .interactive
  | _ => .js

/-- The request as the engine is asked about it. The cookies stay out: the clearance has been looked
at before. -/
def Visit.challengeRequest (q : Visit) (rate : Nat) : ChallengeRequest where
  path := q.header.path
  userAgent := (getReqHeaderValue q.header "user-agent").getD ""
  cookies := []
  requestRate := rate
  siteId := q.host

def ChallengePlugin.gate (p : ChallengePlugin) (env : ChallengeEnv) (engine : ChallengeEngine)
    (q : Visit) (st : ChallengeState) : ChallengeAnswer × ChallengeState :=
  if p.hasClearance env.prims engine q then (.continue_, st)
  else
    let (rate, st) := recordRate (rateKey q.host (q.clientIp env)) q.moment.unix st
    let requestId := q.requestId.getD q.freshRequestId
    match engine.shouldChallenge env.prims (q.challengeRequest rate) q.moment.unix with
    | .pass => (.continue_, st)
    | .block => (.blockPage requestId "blocked by challenge policy", st)
    | decision =>
      let url := originalUrl q.header
      (.challengePage ⟨requestId, q.freshNonce, p.powDifficulty, url, decision.kind⟩,
        storePending requestId q.host url q.freshNonce q.moment.unix st)

def Visit.submits (q : Visit) : Bool := q.header.path = verifyEndpoint && q.header.method = "POST"

def Visit.bypasses (q : Visit) : Bool :=
  q.requestId.isSome && (q.bypassesChallenge || q.bypassesRateLimit)

def ChallengePlugin.handleRequest (p : ChallengePlugin) (env : ChallengeEnv) (q : Visit)
    (st : ChallengeState) : ChallengeAnswer × ChallengeState :=
  if q.step ≠ p.pluginStep then (.skipped, st)
  else if hasPrefix q.header.path acmeHttp01PathPrefix then (.continue_, st)
  else if q.submits then p.handleVerify env.prims q st
  else if !p.enabled then (.skipped, st)
  else if q.bypasses then (.continue_, st)
  else
    match p.decisionEngine env q.host with
    | none => (.continue_, st)
    | some engine => p.gate env engine q st

end PingWaf.Challenge
