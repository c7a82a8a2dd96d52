import PingWaf.Plugin.Handle

/-!
# Runs of the edge

What happens at one edge, in any order: requests start, chunks of their bodies arrive, the
periodic task sweeps. A trail is the edge's state with the record of what was sent upstream, what
the engine was handed and what was logged, each by request id.
-/

namespace PingWaf.Plugin

open Text Waf

inductive EdgeOp where
  | request (site : ResolvedSite) (q : Incoming)
  | chunk (requestId : String) (body : Option (List UInt8)) (endOfStream : Bool) (now : Nat)
  | sweep (ttl now : Nat)

structure Trail where
  edge : EdgeState
  started : List String
  /-- Requests let through with body inspection switched on. -/
  inspected : List String
  /-- Requests whose body is complete, or which the body filter answered. -/
  ended : List String
  sent : List (String × List UInt8)
  handed : List (String × List UInt8)
  events : List SecurityEvent

def Trail.start (rate : RateState) : Trail := ⟨⟨rate, .empty⟩, [], [], [], [], [], []⟩

def StageDecision.inspects : StageDecision → Bool
  | .staged inspect => inspect
  | .parked | .tableFull => true
  | .ignored | .refused => false

def stageDecision (e : Edge) (site : ResolvedSite) (q : Incoming) (st : EdgeState) : StageDecision :=
  ((requestPhase e site q st).trace.getLast?.map (·.1.stage)).getD .ignored

section

variable (e : Edge) (tr : Trail)

def Trail.request (site : ResolvedSite) (q : Incoming) : Trail :=
  let r := requestPhase e site q tr.edge
  { tr with
    edge := r.state.edge
    started := q.requestId :: tr.started
    inspected :=
      if (stageDecision e site q tr.edge).inspects then q.requestId :: tr.inspected
      else tr.inspected
    events := tr.events ++ r.trace.flatMap (·.1.events) }

/-- A chunk passes the filter. An answer, like the end of the stream, ends the body. -/
def Trail.chunk (requestId : String) (body : Option (List UInt8)) (endOfStream : Bool)
    (now : Nat) : Trail :=
  let r := handleRequestBody e requestId body endOfStream now tr.edge.stage
  { tr with
    edge := { tr.edge with stage := r.tables }
    ended := if endOfStream || r.response.isSome then requestId :: tr.ended else tr.ended
    sent := (r.body.map fun piece => (requestId, piece)).toList ++ tr.sent
    handed := (r.handed.map fun buffer => (requestId, buffer)) ++ tr.handed
    events := tr.events ++ r.events }

def Trail.advance : EdgeOp → Trail
  | .request site q => tr.request e site q
  | .chunk requestId body endOfStream now => tr.chunk e requestId body endOfStream now
  | .sweep ttl now =>
    { tr with edge := { tr.edge with stage := sweepStaleAccess ttl now tr.edge.stage } }

def Trail.run (ops : List EdgeOp) : Trail := ops.foldl (Trail.advance e) tr

/-! ## What a run has to account for -/

def partialBodyEvents : List String := ["body_stage_timeout", "body_prefix_only"]

def Trail.noted (requestId : String) : Bool :=
  tr.events.any fun ev => ev.requestId == requestId && partialBodyEvents.contains ev.eventType

/-- **No body goes upstream silently uninspected**: every piece that was sent for a request under
inspection was handed to the engine, or an event for the request says that it was not. -/
def Trail.Accounted : Prop :=
  ∀ id ∈ tr.inspected, ∀ piece, (id, piece) ∈ tr.sent →
    piece = [] ∨ (id, piece) ∈ tr.handed ∨ tr.noted id = true

/-- The request is under inspection, its body is not over and nothing was logged about it yet. -/
def Trail.watched (requestId : String) : Bool :=
  tr.inspected.contains requestId && !tr.ended.contains requestId && !tr.noted requestId

/-! ## Interleavings -/

/-- Request ids are distinct; chunks belong to requests that have started and whose body is not
over. -/
def Trail.admits : EdgeOp → Bool
  | .request _ q => !tr.started.contains q.requestId
  | .chunk requestId _ _ _ => tr.started.contains requestId && !tr.ended.contains requestId
  | .sweep _ _ => true

def parks (site : ResolvedSite) (q : Incoming) : Bool :=
  inspects e (verdictContext e site q) && !hasBody q.header

def entryFor (t : StageTables) (requestId : String) (now : Nat) : Option DeferredBody :=
  (t.deferredBody.lookup requestId).or
    ((t.lazyWafStage.lookup requestId).map fun parked => unparkedBody e parked now)

def overruns (t : StageTables) (requestId : String) (body : Option (List UInt8))
    (endOfStream : Bool) (now : Nat) : Bool :=
  (entryFor e t requestId now).any fun b =>
    b.deadline ≤ now ||
      (!endOfStream && e.plugin.maxBodySize < (b.buffer ++ body.getD []).length)

/-- The step lets no watched body out of sight. A request under pressure evicts no watched body and
finds room to park its own verdict; a watched body that is late or too long is refused or reported,
and comes no later than its tombstone; a sweep drops no watched verdict and no watched tombstone. -/
def keepsWatch : EdgeOp → Bool
  | .request site q =>
    (!(hasBody q.header &&
        decide (deferredBodyMaxEntries e.plugin.maxBodySize ≤ tr.edge.stage.deferredBody.size)) ||
      tr.edge.stage.deferredBody.entries.all fun x =>
        !tr.watched x.1 || decide (q.now - x.2.createdAt < pendingAccessTtl)) &&
    (!parks e site q || decide (tr.edge.stage.lazyWafStage.size < lazyWafStageMax))
  | .chunk requestId body endOfStream now =>
    !tr.watched requestId ||
      ((!overruns e tr.edge.stage requestId body endOfStream now ||
          e.agent.isSome || decide (e.plugin.bodyStagePolicy = .strict)) &&
        (tr.edge.stage.sweptBodies.lookup requestId).all fun expires => decide (now < expires))
  | .sweep ttl now =>
    (tr.edge.stage.lazyWafStage.entries.all fun x =>
      !tr.watched x.1 || decide (now - x.2.1 < ttl)) &&
    tr.edge.stage.sweptBodies.entries.all fun x => !tr.watched x.1 || decide (now < x.2)

def Trail.conforms (ok : Trail → EdgeOp → Bool) : Trail → List EdgeOp → Bool
  | _, [] => true
  | tr, op :: ops => tr.admits op && ok tr op && Trail.conforms ok (tr.advance e op) ops

end

end PingWaf.Plugin
