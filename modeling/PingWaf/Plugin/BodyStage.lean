import PingWaf.Plugin.Site

/-!
# Body staging

Request bodies are withheld from the upstream until the engine has seen them. The request phase
registers a body in `deferredBody`, or parks the verdict context in `lazyWafStage` when the headers
cannot tell whether a body follows; the request-body filter absorbs the chunks; the periodic sweep
expires what never finished and leaves a tombstone in `sweptBodies`. Instants are milliseconds.
-/

namespace PingWaf.Plugin

open Text Waf

structure DeferredVerdict extends VerdictContext where
  requestData : RequestData

/-- A staged body. An entry that is to be inspected carries the context of its verdict. -/
structure DeferredBody where
  buffer : List UInt8
  passthrough : Bool
  inspect : Bool
  deferred : Option DeferredVerdict
  createdAt : Nat
  deadline : Nat
  snapshot : deferred.isSome = inspect

structure StageTables where
  deferredBody : Table String DeferredBody
  lazyWafStage : Table String (Nat × DeferredVerdict)
  sweptBodies : Table String Nat

def StageTables.empty : StageTables := ⟨∅, ∅, ∅⟩

def secs (n : Nat) : Nat := n * 1000

def pendingAccessTtl : Nat := secs 60
def pendingAccessSweepTtl : Nat := secs 45
def sweptBodyTtl : Nat := secs 300
def deferredBodyMaxStageSecs : Nat := 30
def deferredBodyMaxEntriesCap : Nat := 1024
def deferredBodyMaxBytes : Nat := 64 * 1024 * 1024
def lazyWafStageMax : Nat := 4096
def maxLogBodyLimit : Nat := 64 * 1024

def deferredBodyMaxEntries (maxBodySize : Nat) : Nat :=
  min (max (deferredBodyMaxBytes / max maxBodySize 1) 1) deferredBodyMaxEntriesCap

/-- The stage timeout in seconds: the site's, else the plugin's, at most thirty; zero is unset. -/
def effectiveBodyStageTimeout (site : Option Nat) (plugin : Int) : Nat :=
  let resolve (n : Nat) := if 0 < n then min n deferredBodyMaxStageSecs else deferredBodyMaxStageSecs
  match site.filter (0 < ·) with
  | some n => resolve n
  | none => resolve plugin.toNat

def stageTimeout (e : Edge) (context : Option SiteContext) : Nat :=
  secs (effectiveBodyStageTimeout (context.map (·.bodyStageTimeoutSecs))
    e.plugin.bodyStageTimeoutSecs)

/-! ## Request phase -/

def verifyEndpoint : String := "/_pingwaf/challenge/verify"

def shouldInspect (e : Edge) (context : Option SiteContext) : Bool :=
  e.plugin.inspectBody || context.any (·.inspectBody)

def logBodyLimit (agent : Option Agent) : Nat :=
  (agent.map fun a => min a.maxBodyLogSize maxLogBodyLimit).getD 0

def wantsBody (e : Edge) (context : Option SiteContext) : Bool :=
  0 < logBodyLimit e.agent || shouldInspect e context

def inspects (e : Edge) (k : VerdictContext) : Bool :=
  shouldInspect e k.context && (e.engineFor k.choice).isSome

inductive StageDecision where
  | ignored
  | staged (inspect : Bool)
  | parked
  | tableFull
  | refused
  deriving DecidableEq

def siteSaturated (e : Edge) (t : StageTables) (siteId : String) : Bool :=
  let maxEntries := deferredBodyMaxEntries e.plugin.maxBodySize
  maxEntries / 2 ≤ t.deferredBody.size &&
    max (maxEntries / 4) 1 ≤ t.deferredBody.count fun b => b.deferred.any fun d => d.siteId = siteId

def relievePressure (e : Edge) (t : StageTables) (now : Nat) : StageTables :=
  if deferredBodyMaxEntries e.plugin.maxBodySize ≤ t.deferredBody.size then
    { t with deferredBody := t.deferredBody.retain fun _ b => now - b.createdAt < pendingAccessTtl }
  else t

def freshBody (e : Edge) (k : VerdictContext) (data : RequestData) (now : Nat) : DeferredBody where
  buffer := []
  passthrough := !inspects e k
  inspect := inspects e k
  deferred := if inspects e k then some { k with requestData := data } else none
  createdAt := now
  deadline := now + stageTimeout e k.context
  snapshot := by cases inspects e k <;> rfl

def stageRequest (e : Edge) (k : VerdictContext) (q : Incoming) (t : StageTables) :
    StageDecision × StageTables :=
  if !wantsBody e k.context || (q.data.method == "POST" && q.data.path == verifyEndpoint) then
    (.ignored, t)
  else if hasBody q.header then
    let saturated := siteSaturated e t k.siteId
    let t := relievePressure e t q.now
    if saturated || deferredBodyMaxEntries e.plugin.maxBodySize ≤ t.deferredBody.size then
      (.refused, t)
    else
      (.staged (inspects e k),
        { t with deferredBody := t.deferredBody.insert q.requestId (freshBody e k q.data q.now) })
  else if !inspects e k then (.ignored, t)
  else if lazyWafStageMax ≤ t.lazyWafStage.size then (.tableFull, t)
  else
    (.parked,
      { t with lazyWafStage :=
          t.lazyWafStage.insert q.requestId (q.now, { k with requestData := q.data }) })

/-! ## The request-body filter -/

inductive StageAction where
  | withhold
  | flush (staged : List UInt8)
  | passThrough

/-- What happens to one chunk; the entry afterwards has the flags and buffer of the result. -/
def stageChunk (cap : Nat) (b : DeferredBody) (chunk : List UInt8) : StageAction × DeferredBody :=
  if !b.inspect || b.passthrough then (.passThrough, b)
  else
    let buffer := b.buffer ++ chunk
    if cap < buffer.length then (.flush buffer, { b with passthrough := true, buffer := [] })
    else (.withhold, { b with buffer := buffer })

/-- What one call of the filter did. `body` is the chunk that goes upstream; `handed` are the
buffers the engine was given. -/
structure BodyResult where
  tables : StageTables
  body : Option (List UInt8)
  response : Option HttpResponse
  events : List SecurityEvent
  blocks : List IpBlock
  handed : List (List UInt8)

def bodyEvent (agent : Option Agent) (requestId : String) (dv : Option DeferredVerdict)
    (eventType details : String) : List SecurityEvent :=
  if agent.isNone then []
  else dv.toList.map fun d =>
    { siteId := d.siteId
      requestId := requestId
      ruleId := ""
      enforcedRuleId := ""
      ruleName := ""
      eventType := eventType
      action := "pass"
      score := 0
      details := details
      responseStatus := 0
      matchedTags := [] }

def inspectBuffer (e : Edge) (requestId : String) (dv : DeferredVerdict) (buffer : List UInt8)
    (t : StageTables) (events : List SecurityEvent) : BodyResult :=
  let r := enforceVerdict e dv.toVerdictContext requestId { dv.requestData with body := some buffer }
  let handed := if (e.engineFor dv.choice).isSome then [buffer] else []
  match r.outcome with
  | .respond response => ⟨t, none, some response, events ++ r.events, r.blocks, handed⟩
  | _ => ⟨t, some buffer, none, events ++ r.events, r.blocks, handed⟩

def BodyResult.quiet (t : StageTables) (body : Option (List UInt8)) : BodyResult :=
  ⟨t, body, none, [], [], []⟩

def BodyResult.reject (t : StageTables) (r : HttpResponse) : BodyResult := ⟨t, none, some r, [], [], []⟩

/-- The entry of a request is out of its deadline: its bytes are rejected or released. -/
def timedOut (e : Edge) (requestId : String) (b : DeferredBody) (body : Option (List UInt8))
    (t : StageTables) : BodyResult :=
  if e.plugin.bodyStagePolicy = .strict then .reject t .requestTimeout
  else
    let body := if !b.buffer.isEmpty || body.isSome then some (b.buffer ++ body.getD []) else body
    ⟨t, body, none,
      bodyEvent e.agent requestId b.deferred "body_stage_timeout"
        "withheld request body timed out; released to the upstream un-inspected", [], []⟩

def midBody (e : Edge) (requestId : String) (b : DeferredBody) (body : Option (List UInt8))
    (t : StageTables) : BodyResult :=
  let keep (b : DeferredBody) : StageTables :=
    { t with deferredBody := t.deferredBody.insert requestId b }
  match body with
  | none =>
    if b.inspect && !b.passthrough then .quiet (keep b) (some []) else .quiet (keep b) none
  | some chunk =>
    match stageChunk e.plugin.maxBodySize b chunk with
    | (.withhold, b) => .quiet (keep b) (some [])
    | (.passThrough, b) => .quiet (keep b) (some chunk)
    | (.flush staged, b) =>
      if e.plugin.bodyStagePolicy = .strict then .reject t .payloadTooLarge
      else
        let events := bodyEvent e.agent requestId b.deferred "body_prefix_only"
          "request body exceeded max_body_size; only the prefix was inspected"
        match b.deferred with
        | some dv => inspectBuffer e requestId dv staged t events
        -- an inspected entry has its context, so this does not happen
        | none => { BodyResult.quiet (keep { b with passthrough := true }) (some chunk) with
            events := events }

def endBody (e : Edge) (requestId : String) (b : DeferredBody) (body : Option (List UInt8))
    (t : StageTables) : BodyResult :=
  if b.inspect && !b.passthrough then
    let full := b.buffer ++ body.getD []
    match b.deferred with
    | some dv => inspectBuffer e requestId dv full t []
    | none => .quiet t (some full)
  else .quiet t body

def filterEntry (e : Edge) (requestId : String) (b : DeferredBody) (body : Option (List UInt8))
    (endOfStream : Bool) (now : Nat) (t : StageTables) : BodyResult :=
  if b.inspect && !b.passthrough && b.deadline ≤ now then timedOut e requestId b body t
  else if endOfStream then endBody e requestId b body t
  else midBody e requestId b body t

def unparkedBody (e : Edge) (parked : Nat × DeferredVerdict) (now : Nat) : DeferredBody where
  buffer := []
  passthrough := false
  inspect := true
  deferred := some parked.2
  createdAt := parked.1
  deadline := now + stageTimeout e parked.2.context
  snapshot := rfl

/-- A chunk of a request that is neither staged nor parked: rejected while its tombstone lasts. -/
def filterUnstaged (requestId : String) (body : Option (List UInt8)) (now : Nat)
    (t : StageTables) : BodyResult :=
  if (t.sweptBodies.lookup requestId).any (now < ·) then .reject t .requestTimeout
  else .quiet { t with sweptBodies := t.sweptBodies.erase requestId } body

def handleRequestBody (e : Edge) (requestId : String) (body : Option (List UInt8))
    (endOfStream : Bool) (now : Nat) (t : StageTables) : BodyResult :=
  match t.deferredBody.lookup requestId with
  | some b =>
    filterEntry e requestId b body endOfStream now
      { t with deferredBody := t.deferredBody.erase requestId }
  | none =>
    match t.lazyWafStage.lookup requestId with
    | some parked =>
      filterEntry e requestId (unparkedBody e parked now) body endOfStream now
        { t with lazyWafStage := t.lazyWafStage.erase requestId }
    | none => filterUnstaged requestId body now t

/-! ## Warnings -/

def stageReleasedWarning : String :=
  "body stage timeout; flushing withheld body upstream (fail-open)"

def entryWarnings (e : Edge) (b : DeferredBody) (body : Option (List UInt8)) (endOfStream : Bool)
    (now : Nat) : List String :=
  if b.inspect && !b.passthrough && b.deadline ≤ now then
    if e.plugin.bodyStagePolicy = .strict then ["body stage timeout; rejecting (strict policy)"]
    else [stageReleasedWarning]
  else
    match endOfStream, body.map fun chunk => (stageChunk e.plugin.maxBodySize b chunk).1 with
    | false, some (.flush _) =>
      if e.plugin.bodyStagePolicy = .strict then
        ["body exceeded the inspection cap; rejecting (strict policy)"]
      else ["body exceeded the inspection cap; only the prefix is inspected"]
    | _, _ => []

/-- What `handle_request_body` writes to the process log. -/
def bodyWarnings (e : Edge) (requestId : String) (body : Option (List UInt8)) (endOfStream : Bool)
    (now : Nat) (t : StageTables) : List String :=
  match t.deferredBody.lookup requestId with
  | some b => entryWarnings e b body endOfStream now
  | none =>
    match t.lazyWafStage.lookup requestId with
    | some parked => entryWarnings e (unparkedBody e parked now) body endOfStream now
    | none =>
      if (t.sweptBodies.lookup requestId).any (now < ·) then
        ["body arrived after its stage expired; rejecting"]
      else []

/-! ## The sweep -/

/-- The staged bodies past their deadline, each removed and, if still withheld, buried. -/
def buryExpired (now : Nat) (t : StageTables) : StageTables :=
  (t.deferredBody.entries.filter fun x => x.2.deadline ≤ now).foldl
    (fun t x =>
      let t := { t with deferredBody := t.deferredBody.erase x.1 }
      if !x.2.inspect || x.2.passthrough then t
      else { t with sweptBodies := t.sweptBodies.insert x.1 (now + sweptBodyTtl) }) t

/-- The stage's part of `sweep_stale_access`. -/
def sweepStaleAccess (ttl now : Nat) (t : StageTables) : StageTables :=
  let t := { t with sweptBodies := t.sweptBodies.retain fun _ expires => now < expires }
  let t := buryExpired now t
  { t with lazyWafStage := t.lazyWafStage.retain fun _ parked => now - parked.1 < ttl }

end PingWaf.Plugin
