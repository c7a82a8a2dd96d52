import PingWaf.Lib.Once

/-!
# The circuit breaker of a backend

Failures open a breaker; after a while it lets a few requests through as probes, and the backend's
counter of consecutive successes decides whether it closes. The state code and the data of the open
and half-open states are kept apart, and the counters belong to the statistics of the backend, not
to the breaker. Times are in one unit throughout.
-/

namespace PingWaf.Upstream

structure CircuitBreakerConfig where
  maxConsecutiveFailures : Nat
  maxFailurePercent : Rat
  minRequestsThreshold : Nat
  halfOpenConsecutiveSuccessThreshold : Nat
  openDuration : Nat

inductive StateCode where
  | closed | opened | halfOpen
  deriving DecidableEq

structure BreakerStateData where
  openUntil : Nat
  probesSent : Nat
  halfOpenUntil : Nat

def BreakerStateData.new (openDuration now : Nat) : BreakerStateData := ⟨now + openDuration, 0, now⟩

structure BackendCircuitState where
  currentState : StateCode
  data : BreakerStateData

def BackendCircuitState.new (now : Nat) : BackendCircuitState := ⟨.closed, ⟨now, 0, now⟩⟩

/-! ## Statistics -/

structure WindowStats where
  failureRatePercent : Rat
  totalRequests : Nat

structure ConsecutiveCounters where
  failures : Nat
  successes : Nat

def ConsecutiveCounters.record (c : ConsecutiveCounters) (failure : Bool) : ConsecutiveCounters :=
  if failure then ⟨(c.failures + 1) % 2 ^ 32, 0⟩ else ⟨0, (c.successes + 1) % 2 ^ 32⟩

structure BackendStats where
  consecutive : ConsecutiveCounters
  window : WindowStats

inductive Outcome where
  | transportFailure
  | response (status : Nat)

def Outcome.isFailure (failureStatusCodes : List Nat) : Outcome → Bool
  | .transportFailure => true
  | .response status =>
    if failureStatusCodes.isEmpty then 500 ≤ status && status < 600
    else failureStatusCodes.contains status

/-! ## The breaker -/

section Breaker

variable (cfg : CircuitBreakerConfig) (now : Nat)

def checkOpenState (s : BackendCircuitState) : Bool × BackendCircuitState :=
  if s.data.openUntil ≤ now then
    (true, ⟨.halfOpen,
      { s.data with probesSent := 1, halfOpenUntil := now + cfg.openDuration }⟩)
  else (false, s)

def checkHalfOpenState (s : BackendCircuitState) : Bool × BackendCircuitState :=
  if s.data.halfOpenUntil ≤ now then
    -- No probe was answered in time.
    (false, ⟨.opened, { s.data with probesSent := 0, openUntil := now + cfg.openDuration }⟩)
  else if s.data.probesSent < cfg.halfOpenConsecutiveSuccessThreshold then
    (true, { s with data := { s.data with probesSent := s.data.probesSent + 1 } })
  else (false, s)

def isBackendAcceptable (s : BackendCircuitState) : Bool × BackendCircuitState :=
  match s.currentState with
  | .closed => (true, s)
  | .opened => checkOpenState cfg now s
  | .halfOpen => checkHalfOpenState cfg now s

def tripsOn (stats : BackendStats) : Bool :=
  (0 < cfg.maxConsecutiveFailures &&
    cfg.maxConsecutiveFailures ≤ stats.consecutive.failures) ||
  (0 < cfg.maxFailurePercent && cfg.maxFailurePercent ≤ 100 &&
    cfg.minRequestsThreshold ≤ stats.window.totalRequests &&
    cfg.maxFailurePercent ≤ stats.window.failureRatePercent)

def updateStateAfterRequest (failure : Bool) (stats : BackendStats) (s : BackendCircuitState) :
    BackendCircuitState :=
  if failure then
    match s.currentState with
    | .closed =>
      if tripsOn cfg stats then ⟨.opened, .new cfg.openDuration now⟩ else s
    | .halfOpen => ⟨.opened, .new cfg.openDuration now⟩
    | .opened => s
  else if s.currentState = .halfOpen ∧
      cfg.halfOpenConsecutiveSuccessThreshold ≤ stats.consecutive.successes then
    { s with currentState := .closed }
  else s

end Breaker

/-! ## Histories of one breaker -/

/-- The two calls, with the clock they read and what the statistics say at that time. -/
inductive Call where
  | ask (now : Nat)
  | update (now : Nat) (failure : Bool) (stats : BackendStats)

def Call.now : Call → Nat
  | .ask now => now
  | .update now _ _ => now

section Calls

variable (cfg : CircuitBreakerConfig)

def callStep (s : BackendCircuitState) : Call → BackendCircuitState
  | .ask now => (isBackendAcceptable cfg now s).2
  | .update now failure stats => updateStateAfterRequest cfg now failure stats s

def accepted (s : BackendCircuitState) : Call → Bool
  | .ask now => (isBackendAcceptable cfg now s).1
  | .update _ _ _ => false

def runCalls (s : BackendCircuitState) (calls : List Call) : BackendCircuitState :=
  calls.foldl (callStep cfg) s

def Trips (s : BackendCircuitState) (c : Call) : Prop :=
  s.currentState ≠ .opened ∧ (callStep cfg s c).currentState = .opened

end Calls

/-! ## Requests at a backend -/

/-- A request at the backend, with the half-open episode that let it through, if one did. -/
structure Sent where
  episode : Option Nat
  answered : Bool

structure Evidence where
  episode : Option Nat
  failure : Bool

/-- A backend with its breaker and counters. The number of half-open episodes so far, the requests
and the outcomes, newest first, are there to speak of the history only. -/
structure Backend where
  breaker : BackendCircuitState
  counters : ConsecutiveCounters
  episode : Nat
  sent : List Sent
  outcomes : List Evidence

def Backend.new (now : Nat) : Backend := ⟨.new now, ⟨0, 0⟩, 0, [], []⟩

inductive Event where
  /-- The breaker is asked for a request; if it accepts, the request is sent. -/
  | ask (now : Nat)
  /-- A request is sent past the breaker: no backend was acceptable. -/
  | fallback
  /-- A request ends. -/
  | finish (request now : Nat) (outcome : Outcome) (window : WindowStats)
  /-- The counters of a backend that is no longer configured are dropped. -/
  | forget

structure UpstreamConf where
  breaker : CircuitBreakerConfig
  failureStatusCodes : List Nat

section Events

variable (conf : UpstreamConf)

def Backend.ask (now : Nat) (b : Backend) : Backend :=
  let (accept, breaker) := isBackendAcceptable conf.breaker now b.breaker
  let episode :=
    if b.breaker.currentState ≠ .halfOpen ∧ breaker.currentState = .halfOpen then b.episode + 1
    else b.episode
  let tag := if breaker.currentState = .halfOpen then some episode else none
  { b with
    breaker, episode
    sent := if accept then b.sent ++ [⟨tag, false⟩] else b.sent }

/-- `on_response` and `on_transport_failure`: the counters first, then the breaker. -/
def Backend.finish (request now : Nat) (outcome : Outcome) (window : WindowStats) (b : Backend) :
    Backend :=
  match b.sent[request]? with
  | some ⟨tag, false⟩ =>
    let failure := outcome.isFailure conf.failureStatusCodes
    let counters := b.counters.record failure
    { b with
      counters
      breaker := updateStateAfterRequest conf.breaker now failure ⟨counters, window⟩ b.breaker
      sent := b.sent.set request ⟨tag, true⟩
      outcomes := ⟨tag, failure⟩ :: b.outcomes }
  | _ => b

def Backend.step (b : Backend) : Event → Backend
  | .ask now => b.ask conf now
  | .fallback => { b with sent := b.sent ++ [⟨none, false⟩] }
  | .finish request now outcome window => b.finish conf request now outcome window
  | .forget => { b with counters := ⟨0, 0⟩ }

def Backend.run (b : Backend) (events : List Event) : Backend := events.foldl (Backend.step conf) b

end Events

end PingWaf.Upstream
