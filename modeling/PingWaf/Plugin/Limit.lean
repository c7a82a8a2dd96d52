import PingWaf.Lib.Pool
import PingWaf.Plugin.Cookies
import PingWaf.Plugin.Site

/-!
# The limit plugin

Limits on the rate of requests or on the number of requests in flight, by client address or by a
value that the request carries. An in-flight limiter counts a request up and leaves a guard in the
request's context, which counts it down when it is dropped. The context has one place for a guard.
-/

namespace PingWaf.Plugin

open Text

inductive LimitTag where
  | ip | requestHeader | cookie | query

inductive Counting where
  | inflight | rate
  deriving DecidableEq

structure Limiter where
  tag : LimitTag
  max : Rat
  key : String
  counting : Counting
  pluginStep : PluginStep
  weight : Rat
  stepOk : pluginStep = .request ∨ pluginStep = .proxyUpstream

inductive LimitError where
  | invalid (category message : String)
  | exceed (category : String) (max value : Rat)

def limitCategory : String := "limit"

/-! ## Counters -/

structure Guard where
  limiter : Nat
  key : String
  deriving DecidableEq

abbrev Counts := Guard → Int

def Counts.add (counts : Counts) (g : Guard) (d : Int) : Counts :=
  fun g' => if g' = g then counts g' + d else counts g'

def Counts.dropGuard (counts : Counts) : Option Guard → Counts
  | none => counts
  | some g => counts.add g (-1)

/-- The in-flight counter is a sketch: keys may share a cell, so that it counts too many, never too
few. -/
def NoUnderestimate (estimate : Counts → Guard → Int) : Prop :=
  ∀ counts g, (∀ g', 0 ≤ counts g') → counts g ≤ estimate counts g

structure RateInfo where
  prevSamples : Int
  currSamples : Int
  interval : Rat

def Limiter.rateValue (l : Limiter) (info : RateInfo) : Rat :=
  if 0 < l.weight then
    (info.prevSamples * (1 - l.weight) + info.currSamples * l.weight) / info.interval
  else info.prevSamples / info.interval

/-! ## One request at one limiter -/

structure LimitCtx where
  clientIp : String
  guard : Option Guard

/-- `get_query_value`: the first parameter of this name that has a value. -/
def getQueryValue (r : RequestHeader) (name : String) : Option String :=
  r.query.bind fun query =>
    (splitChar '&' query).findSome? fun item =>
      (splitOnce '=' item).bind fun kv => if kv.1 = name then some kv.2 else none

def Limiter.configured (l : Limiter) (r : RequestHeader) : Option String :=
  match l.tag with
  | .query => getQueryValue r l.key
  | .requestHeader => getReqHeaderValue r l.key
  | .cookie => getCookieValue r l.key
  | .ip => none

def Limiter.limitKey (l : Limiter) (r : RequestHeader) (ctx : LimitCtx) : String :=
  match l.configured r with
  | some value => if value = "" then ctx.clientIp else value
  | none => ctx.clientIp

structure Sight where
  header : RequestHeader
  rate : RateInfo

inductive LimitResult where
  | skipped
  | continue
  | respond (status : Nat) (error : LimitError)

section Request

variable (estimate : Counts → Guard → Int) (id : Nat) (l : Limiter) (sight : Sight)

def Limiter.check (value : Rat) : Except LimitError Unit :=
  if l.max < value then .error (.exceed limitCategory l.max value) else .ok ()

/-- `Limiter::incr`. The value is read before the guard goes into the context, where it takes the
place of the one that was there. -/
def Limiter.incr (counts : Counts) (ctx : LimitCtx) :
    Counts × LimitCtx × Except LimitError Unit :=
  match l.counting with
  | .rate => (counts, ctx, l.check (l.rateValue sight.rate))
  | .inflight =>
    let guard : Guard := ⟨id, l.limitKey sight.header ctx⟩
    let counted := counts.add guard 1
    (counted.dropGuard ctx.guard, { ctx with guard := some guard },
      l.check (estimate counted guard))

/-- `Limiter::handle_request`. -/
def Limiter.handleRequest (step : PluginStep) (counts : Counts) (ctx : LimitCtx) :
    Counts × LimitCtx × LimitResult :=
  if step ≠ l.pluginStep then (counts, ctx, .skipped)
  else
    match l.incr estimate id sight counts ctx with
    | (counts, ctx, .error e) => (counts, ctx, .respond 429 e)
    | (counts, ctx, .ok ()) => (counts, ctx, .continue)

end Request

/-! ## Requests at the limiters of their locations -/

/-- A request on its way: the plugin calls that are still ahead and the limiters that let it pass,
each with the key it went by. -/
structure Passage where
  ctx : LimitCtx
  ahead : List (PluginStep × Nat)
  passed : List Guard
  ended : Bool

structure Arrival where
  chain : List Nat
  clientIp : String

def Arrival.passage (a : Arrival) : Passage where
  ctx := ⟨a.clientIp, none⟩
  ahead := [.earlyRequest, .request, .proxyUpstream].flatMap fun step => a.chain.map (step, ·)
  passed := []
  ended := false

inductive LimitMove where
  | plugin (sight : Sight)
  | finish

section System

variable (limiters : Nat → Limiter) (estimate : Counts → Guard → Int)

def Passage.visit (sight : Sight) (counts : Counts) (t : Passage) : Counts × Passage :=
  match t.ahead with
  | [] => (counts, t)
  | (step, id) :: rest =>
    let l := limiters id
    match l.handleRequest estimate id sight step counts t.ctx with
    | (counts, ctx, .skipped) => (counts, { t with ctx, ahead := rest })
    | (counts, ctx, .continue) =>
      let guard := ⟨id, l.limitKey sight.header t.ctx⟩
      (counts, { t with ctx, ahead := rest, passed := guard :: t.passed })
    -- The request has its answer, no other plugin sees it.
    | (counts, ctx, .respond _ _) => (counts, { t with ctx, ahead := [] })

def Passage.finish (counts : Counts) (t : Passage) : Counts × Passage :=
  (counts.dropGuard t.ctx.guard,
    { t with ctx := { t.ctx with guard := none }, ahead := [], ended := true })

/-- The limiters of a proxy and the requests at its locations, which may share limiters. -/
def limits : Pool.System Counts Passage Empty Arrival LimitMove where
  env := nofun
  start a _ := a.passage
  step
    | .plugin sight, counts, t => t.visit limiters estimate sight counts
    | .finish, counts, t => t.finish counts

end System

def noRequests : Pool.State Counts Passage := ⟨fun _ => 0, []⟩

def Passage.past (g : Guard) (t : Passage) : Bool := !t.ended && t.passed.contains g

end PingWaf.Plugin
