import PingWaf.Plugin.Policy

/-!
# Rate limiting

Rate limit rules over fixed-window counters. A request is counted against every matching rule in
order; the first enforcing rule to trip stops the request, log-only rules accumulate events.
-/

namespace PingWaf.Plugin

open Text Net Waf

inductive RateChar where
  | ip | host | path | asn | country
  | header (name : String)
  | cookie (name : String)
  | query (name : String)
  deriving DecidableEq

inductive RateAction where
  | log | allow | challenge | block
  deriving DecidableEq

structure CompiledRateRule where
  id : String
  name : String
  expression : Option Expression
  exception : Option Expression
  chars : List RateChar
  periodSecs : Nat
  threshold : Nat
  mitigationSecs : Nat
  action : RateAction
  periodPos : 0 < periodSecs
  deriving DecidableEq

structure RateCounter where
  window : Nat
  count : Nat
  blockedUntil : Nat
  expiresAt : Nat

structure RateTripped where
  ruleId : String
  ruleName : String
  detail : String
  challenge : Bool
  retryAfter : Nat
  deriving DecidableEq

structure RateOutcome where
  deny : Option RateTripped
  logged : List RateTripped

structure RateState where
  counters : Table String RateCounter
  lastGcSweep : Nat

structure RateInput where
  data : RequestData
  host : String
  addr : Option IpAddr
  /-- The client holds a valid clearance. -/
  cleared : Bool
  /-- Unix seconds. -/
  now : Nat

/-! ## Keys and conditions -/

/-- The pairs of the first `cookie` header. -/
def parseCookieHeader (headers : Headers) : List (String × String) :=
  match headers.find? fun h => h.1 = "cookie" with
  | none => []
  | some h => (splitChar ';' h.2).filterMap fun pair =>
      (splitOnce '=' (trim pair)).map fun kv => (trim kv.1, trim kv.2)

def RateInput.evalContext (q : RateInput) : EvalContext where
  method := q.data.method
  path := q.data.path
  fullUri := if q.data.query = "" then q.data.path else q.data.path ++ "?" ++ q.data.query
  host := q.host
  userAgent := ((q.data.headers.find? fun h => h.1 = "user-agent").map (·.2)).getD ""
  body := none
  headers := q.data.headers
  cookies := parseCookieHeader q.data.headers
  parsedIp := q.addr
  countryCode := q.data.countryCode
  ssl := eqIgnoreAsciiCase q.data.scheme "https"
  wafScore := 0
  wafScoreSqli := 0
  wafScoreXss := 0
  wafScoreRce := 0

def RateChar.value (v : Services) (q : RateInput) : RateChar → String
  | .ip => q.data.clientIp
  | .host => q.host
  | .path => q.data.path
  | .country => q.data.countryCode.getD "-"
  | .asn => match q.addr.bind v.lookupAsn with
    | some n => toString n
    | none => "-"
  | .header name => ((headerValue q.data.headers name).map trim).getD "-"
  | .cookie name =>
    (((q.data.headers.filter fun h => eqIgnoreAsciiCase h.1 "cookie").flatMap fun h =>
      splitChar ';' h.2).findSome? fun pair => (splitOnce '=' (trim pair)).bind fun kv =>
        if kv.1 = name then some (trim kv.2) else none).getD "-"
  | .query name =>
    ((splitChar '&' q.data.query).findSome? fun pair => (splitOnce '=' pair).bind fun kv =>
      if kv.1 = name then some kv.2 else none).getD "-"

def CompiledRateRule.counterKey (v : Services) (r : CompiledRateRule) (q : RateInput) : String :=
  r.chars.foldl (fun key ch => key ++ "\x1f" ++ ch.value v q) r.id

def CompiledRateRule.applies (v : Services) (r : CompiledRateRule) (q : RateInput) : Bool :=
  !(r.exception.any fun x => evaluate v.crates q.evalContext x) &&
    r.expression.all fun x => evaluate v.crates q.evalContext x

/-! ## Counters -/

def rateCountersGcThreshold : Nat := 65536
def rateCountersGcIntervalSecs : Nat := 30
def rateCountersGcPanicThreshold : Nat := 262144
def rateCountersIdleGcIntervalSecs : Nat := 600

def gcInterval (size : Nat) : Nat :=
  if rateCountersGcPanicThreshold ≤ size then 1
  else if rateCountersGcThreshold < size then rateCountersGcIntervalSecs
  else rateCountersIdleGcIntervalSecs

def RateState.sweep (s : RateState) (now : Nat) : RateState :=
  if gcInterval s.counters.size ≤ now - s.lastGcSweep then
    ⟨s.counters.retain fun _ e => now < e.expiresAt, now⟩
  else s

/-- The counter moved to the current window. A ban outlives the window it was set in. -/
def RateCounter.roll (e : RateCounter) (window now : Nat) : RateCounter :=
  if e.window = window then e
  else
    { e with
      window := window
      count := 0
      blockedUntil := if e.blockedUntil ≤ now then 0 else e.blockedUntil }

def CompiledRateRule.window (r : CompiledRateRule) (now : Nat) : Nat := now / r.periodSecs

def CompiledRateRule.retryAfter (r : CompiledRateRule) (now : Nat) : Nat :=
  if 0 < r.mitigationSecs then r.mitigationSecs else (r.window now + 1) * r.periodSecs - now

def rateTripped (r : CompiledRateRule) (retryAfter : Nat) : RateTripped where
  ruleId := r.id
  ruleName := r.name
  detail := "rate limit rule '" ++ r.name ++ "' exceeded " ++ toString r.threshold ++
    " requests per " ++ toString r.periodSecs ++ "s"
  challenge := r.action == .challenge
  retryAfter := retryAfter

def CompiledRateRule.hit (r : CompiledRateRule) (e : RateCounter) (now : Nat) :
    RateCounter × Bool :=
  let e := e.roll (r.window now) now
  if now < e.blockedUntil then (e, true)
  else
    let e := { e with
      count := satAdd u32Max e.count 1
      expiresAt := (r.window now + 1) * r.periodSecs + r.mitigationSecs }
    if r.threshold < e.count then
      (if 0 < r.mitigationSecs then { e with blockedUntil := now + r.mitigationSecs } else e, true)
    else (e, false)

def CompiledRateRule.count (v : Services) (r : CompiledRateRule) (q : RateInput)
    (s : RateState) : RateState × Bool :=
  let key := r.counterKey v q
  let s := s.sweep q.now
  let e := (s.counters.lookup key).getD ⟨r.window q.now, 0, 0, 0⟩
  let hit := r.hit e q.now
  ({ s with counters := s.counters.insert key hit.1 }, hit.2)

/-! ## Evaluation -/

def evaluateRules (v : Services) (q : RateInput) :
    List CompiledRateRule → RateState → List RateTripped → RateOutcome × RateState
  | [], s, logged => (⟨none, logged⟩, s)
  | r :: rest, s, logged =>
    if !r.applies v q then evaluateRules v q rest s logged
    else if r.action = .allow then (⟨none, logged⟩, s)
    -- a client with a clearance is neither counted nor stopped by a challenge rule
    else if r.action = .challenge && q.cleared then evaluateRules v q rest s logged
    else
      let (s, trips) := r.count v q s
      if !trips then evaluateRules v q rest s logged
      else
        let tripped := rateTripped r (r.retryAfter q.now)
        if r.action = .log then evaluateRules v q rest s (logged ++ [tripped])
        else (⟨some tripped, logged⟩, s)

/-- A site's rules in the order of their priority; a site without one has no policy. -/
structure RateLimitPolicy where
  rules : List CompiledRateRule
  nonempty : rules ≠ []

def RateLimitPolicy.evaluate (v : Services) (p : RateLimitPolicy) (q : RateInput)
    (s : RateState) : RateOutcome × RateState :=
  evaluateRules v q p.rules s []

end PingWaf.Plugin
