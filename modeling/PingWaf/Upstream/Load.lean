import PingWaf.Lib.Framing
import PingWaf.Lib.Pool

/-!
# The load counters of upstreams

An upstream counts the requests it processes, and one that balances by least connections counts
them per peer as well. A request is counted at its first attempt that finds a peer and is taken off
when it is logged, on the upstream that its context then names. A reload replaces the upstreams
while requests are under way.
-/

namespace PingWaf.Upstream

open Text

/-! ## Upstreams -/

structure UpstreamInstance where
  name : String
  leastConnections : Bool

abbrev PeerAddress := { address : String // address ≠ "" }

/-- `InflightCounters`. -/
abbrev InflightCounters := String → Option Int

def InflightCounters.acquire (counts : InflightCounters) (addr : String) : InflightCounters :=
  Function.update counts addr (some ((counts addr).getD 0 + 1))

def InflightCounters.release (counts : InflightCounters) (addr : String) : InflightCounters :=
  match counts addr with
  | some count => Function.update counts addr (some (count - 1))
  | none => counts

/-- The counters of all upstreams that were ever built, and those in use now by name. -/
structure Loads where
  provider : String → Option Nat
  processing : Nat → Int
  inflight : Nat → InflightCounters

def Loads.inflightCount (s : Loads) (u : Nat) (addr : String) : Int := (s.inflight u addr).getD 0

section

variable (instances : Nat → UpstreamInstance)

/-- What `new_http_peer` counts when a peer was found. -/
def Loads.count (s : Loads) (u : Nat) (addr : String) : Loads :=
  { s with
    processing := Function.update s.processing u (s.processing u + 1)
    inflight :=
      if (instances u).leastConnections then
        Function.update s.inflight u ((s.inflight u).acquire addr)
      else s.inflight }

def Loads.completed (s : Loads) (u : Nat) : Loads :=
  { s with processing := Function.update s.processing u (s.processing u - 1) }

/-- `release` of an upstream. -/
def Loads.release (s : Loads) (u : Nat) (addr : String) : Loads :=
  if addr = "" then s
  else if (instances u).leastConnections then
    { s with inflight := Function.update s.inflight u ((s.inflight u).release addr) }
  else s

end

/-! ## Requests -/

/-- The part of the request context that is about the upstream. `countedOn` is not in the source: it
says where the request was counted and not yet taken off. -/
structure UpstreamCtx where
  locationUpstream : Option String
  vars : List (String × String)
  name : String
  upstreamInstance : Option Nat
  processingCounted : Bool
  inflightAddress : Option String
  address : String
  countedOn : Option (Nat × String)
  ended : Bool

/-- `get_upstream_with_variables`. -/
def getUpstreamWithVariables (upstream : String) (ctx : UpstreamCtx)
    (provider : String → Option Nat) : Option Nat :=
  provider (((afterPrefix "$" upstream).bind fun key => List.lookup key ctx.vars).getD upstream)

def UpstreamCtx.target (ctx : UpstreamCtx) (provider : String → Option Nat) : Option Nat :=
  ctx.locationUpstream.bind fun upstream =>
    getUpstreamWithVariables (if ctx.name = "" then upstream else ctx.name) ctx provider

section

variable (instances : Nat → UpstreamInstance)

/-- `upstream_peer`. The peer is that of the load balancer, if it has one. -/
def upstreamPeer (peer : Option PeerAddress) (s : Loads) (ctx : UpstreamCtx) :
    Loads × UpstreamCtx :=
  match ctx.target s.provider with
  | none => (s, ctx)
  | some u =>
    let ctx := { ctx with upstreamInstance := some u, name := (instances u).name }
    match peer with
    | none => (s, ctx)
    | some addr =>
      if ctx.processingCounted then (s, { ctx with address := addr })
      else
        (s.count instances u addr,
          { ctx with
            address := addr
            processingCounted := true
            inflightAddress := some addr.1
            countedOn := some (u, addr) })

/-- `logging`. -/
def logging (s : Loads) (ctx : UpstreamCtx) : Loads × UpstreamCtx :=
  let done := { ctx with countedOn := none, ended := true }
  match ctx.upstreamInstance with
  | none => (s, done)
  | some u =>
    let s := if ctx.processingCounted then s.completed u else s
    (s.release instances u (ctx.inflightAddress.getD ctx.address), done)

/-- A request for a location, with the upstream that the location names and the variables set. -/
structure Routed where
  locationUpstream : Option String
  vars : List (String × String)

def Routed.ctx (r : Routed) : UpstreamCtx where
  locationUpstream := r.locationUpstream
  vars := r.vars
  name := ""
  upstreamInstance := none
  processingCounted := false
  inflightAddress := none
  address := ""
  countedOn := none
  ended := false

inductive Phase where
  /-- A plugin sends the request to another upstream. -/
  | override (upstream : String)
  /-- An attempt, the first or a retry. -/
  | attempt (peer : Option PeerAddress)
  | log

def UpstreamCtx.advance (phase : Phase) (s : Loads) (ctx : UpstreamCtx) : Loads × UpstreamCtx :=
  if ctx.ended then (s, ctx)
  else
    match phase with
    | .override upstream => (s, { ctx with name := upstream })
    | .attempt peer => upstreamPeer instances peer s ctx
    | .log => logging instances s ctx

def loads : Pool.System Loads UpstreamCtx (String → Option Nat) Routed Phase where
  env provider s := { s with provider }
  start r _ := r.ctx
  step phase s ctx := ctx.advance instances phase s

end

def noLoad (provider : String → Option Nat) : Pool.State Loads UpstreamCtx :=
  ⟨⟨provider, fun _ => 0, fun _ _ => none⟩, []⟩

def UpstreamCtx.on (u : Nat) (ctx : UpstreamCtx) : Bool := ctx.countedOn.any (·.1 == u)

def UpstreamCtx.onPeer (u : Nat) (addr : String) (ctx : UpstreamCtx) : Bool :=
  ctx.countedOn == some (u, addr)

end PingWaf.Upstream
