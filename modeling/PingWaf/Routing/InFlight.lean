import PingWaf.Lib.Pool

/-!
# Requests in flight

The counters of a server and of its locations, and what a request does to them from
`early_request_filter` to `logging`, one atomic step at a time. A request can end at any time after
it was admitted or rejected, and is logged then. There are fewer requests at once than a counter
holds.
-/

namespace PingWaf.Routing

structure Processing where
  server : Int
  location : Nat → Int

/-- How far a request is. `counted` and `closing` carry the location and whether it was let past
`on_request`. -/
inductive InFlight where
  | arrived
  | begun
  | unplaced
  | placed (location : Nat)
  | counted (location : Nat) (past : Bool)
  | closing (place : Option (Nat × Bool))
  | logged

namespace InFlight

/-- `Server::initialize_context`. -/
def initializeContext (p : Processing) : Processing × InFlight :=
  ({ p with server := p.server + 1 }, .begun)

/-- `Server::find_and_apply_location` up to `on_request`: the location that is recorded in the
context, which is none if the request is refused, answered or matches no location. -/
def findAndApplyLocation (p : Processing) : Option Nat → Processing × InFlight
  | none => (p, .unplaced)
  | some location => (p, .placed location)

/-- `Location::on_request`: counted first, then compared with the limit. -/
def onRequest (maxProcessing : Nat → Int) (p : Processing) (location : Nat) :
    Processing × InFlight :=
  let processing := p.location location + 1
  ({ p with location := Function.update p.location location processing },
    .counted location (!(maxProcessing location ≠ 0 && processing > maxProcessing location)))

/-- The first half of `Server::logging`. -/
def endRequest (p : Processing) (place : Option (Nat × Bool)) : Processing × InFlight :=
  ({ p with server := p.server - 1 }, .closing place)

/-- `Location::on_response`, for the location of the context. -/
def onResponse (p : Processing) : Option (Nat × Bool) → Processing × InFlight
  | none => (p, .logged)
  | some (location, _) =>
    ({ p with location := Function.update p.location location (p.location location - 1) }, .logged)

def step (maxProcessing : Nat → Int) (found : Option Nat) (p : Processing) :
    InFlight → Processing × InFlight
  | .arrived => initializeContext p
  | .begun => findAndApplyLocation p found
  | .unplaced => endRequest p none
  | .placed location => onRequest maxProcessing p location
  | .counted location past => endRequest p (some (location, past))
  | .closing place => onResponse p place
  | .logged => (p, .logged)

def inServer : InFlight → Bool
  | .arrived | .closing _ | .logged => false
  | _ => true

/-- The request was counted by the location and is not logged there yet. -/
def inLocation (i : Nat) : InFlight → Bool
  | .counted location _ => location = i
  | .closing (some (location, _)) => location = i
  | _ => false

/-- The request was let past and is not logged yet. -/
def past (i : Nat) : InFlight → Bool
  | .counted location past => location = i && past
  | .closing (some (location, past)) => location = i && past
  | _ => false

end InFlight

/-- Requests arrive; those that are there take their steps in any order. -/
def requests (maxProcessing : Nat → Int) : Pool.System Processing InFlight Empty Unit (Option Nat) where
  env e := e.elim
  start _ _ := .arrived
  step := InFlight.step maxProcessing

def idleServer : Pool.State Processing InFlight := ⟨⟨0, fun _ => 0⟩, []⟩

end PingWaf.Routing
