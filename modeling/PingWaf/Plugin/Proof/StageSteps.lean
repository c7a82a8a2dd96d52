import PingWaf.Plugin.Trail

/-!
# What one step does to the stage tables

One section for each kind of step: the request phase, a chunk and the sweep. The runs are in
`BodyTrail`.
-/

namespace PingWaf.Plugin

open Text Waf Pipeline List Option AList StageTables Table

/-! ## The request phase and the stage tables -/

section

variable (e : Edge) (site : ResolvedSite) (q : Incoming)

/-- The layer neither touches the stage tables nor reports a decision about the body. -/
def KeepsStage (l : EdgeLayer) : Prop :=
  ∀ s, (l s).state.edge.stage = s.edge.stage ∧ (l s).report.stage = .ignored

def layersBeforeStage : List EdgeLayer :=
  earlyLayers e site q ++
    [accessLayer e site q, gateLayer e site q, aiLayer e site q, botLayer e site q,
      rateLayer e site q, offLayer e site, wafLayer e site q]

theorem layers_eq_concat :
    layers e site q = layersBeforeStage e site q ++ [stageLayer e site q] := by
  simp [layers, layersBeforeStage]

theorem layersBeforeStage_keepStage : ∀ l ∈ layersBeforeStage e site q, KeepsStage l := by
  simp only [layersBeforeStage, earlyLayers, cons_append, nil_append, mem_cons,
    not_mem_nil, or_false]
  -- each layer only ever goes on or answers, with a report that leaves the decision at its default
  rintro l (rfl | rfl | rfl | rfl | rfl | rfl | rfl | rfl | rfl | rfl | rfl | rfl | rfl) s
  all_goals
    simp only [frontDoor, pausedLayer, failClosedLayer, ipBanLayer, pathExceptionLayer, mtlsLayer,
      accessLayer, gateLayer, aiLayer, botLayer, rateLayer, tripAnswer, offLayer, wafLayer]
    repeat' split
    all_goals exact ⟨rfl, rfl⟩

theorem requestPhase_stage (st : EdgeState) :
    (stageDecision e site q st = .ignored ∧ (requestPhase e site q st).state.edge.stage = st.stage) ∨
      (stageDecision e site q st, (requestPhase e site q st).state.edge.stage) =
        stageRequest e (verdictContext e site q) q st.stage := by
  have hkeep := layersBeforeStage_keepStage e site q
  unfold stageDecision requestPhase
  rw [layers_eq_concat]
  rcases run_append_cases (f := fun s : Vars => s.edge.stage) (fun x hx s => (hkeep x hx s).1)
    [stageLayer e site q] (startVars st) with ⟨t, ht, hr⟩ | ⟨x, hx, t, ht, hstate, hlast⟩
  · right
    obtain ⟨-, hstate, htrace⟩ := @run_append_of_reaches _ _ _ _ [stageLayer e site q] _ _ hr
    have hlast : (run (layersBeforeStage e site q ++ [stageLayer e site q])
        (startVars st)).trace.getLast? = some (stageLayer e site q t).entry := by
      have hd := congrArg getLast? htrace
      rw [trace_singleton, getLast?_drop] at hd
      split_ifs at hd with hlen
      · cases hd
      · exact hd
    rw [hstate, hlast]
    have ht' : t.edge.stage = st.stage := ht
    simp [run, stageLayer, answer, Step.entry, ht']
  · left
    rw [hstate, hlast]
    refine ⟨?_, (hkeep x hx t).1.trans ht⟩
    simp [Step.entry, (hkeep x hx t).2]

end

/-! ## Staging a request -/

inductive Staging (e : Edge) (k : VerdictContext) (q : Incoming) (t : StageTables) :
    StageDecision → StageTables → Prop where
  | ignored : Staging e k q t .ignored t
  | refused (hbody : hasBody q.header = true) :
      Staging e k q t .refused (relievePressure e t q.now)
  | staged (hbody : hasBody q.header = true) :
      Staging e k q t (.staged (inspects e k))
        { relievePressure e t q.now with
          deferredBody := (relievePressure e t q.now).deferredBody.insert q.requestId
            (freshBody e k q.data q.now) }
  | tableFull (hin : inspects e k = true) (hbody : hasBody q.header = false)
      (hfull : lazyWafStageMax ≤ t.lazyWafStage.size) : Staging e k q t .tableFull t
  | parked (hin : inspects e k = true) :
      Staging e k q t .parked
        { t with lazyWafStage :=
            t.lazyWafStage.insert q.requestId (q.now, { k with requestData := q.data }) }

theorem stageRequest_staging (e : Edge) (k : VerdictContext) (q : Incoming) (t : StageTables) :
    Staging e k q t (stageRequest e k q t).1 (stageRequest e k q t).2 := by
  simp only [stageRequest]
  split_ifs with hwants hbody hfull hin hlazy
  · exact .ignored
  · exact .refused hbody
  · exact .staged hbody
  · exact .ignored
  · exact .tableFull (by simpa using hin) (by simpa using hbody) hlazy
  · exact .parked (by simpa using hin)

theorem relievePressure_lookup {e : Edge} {t : StageTables} {now : Nat} {id : String}
    {b : DeferredBody} :
    (relievePressure e t now).deferredBody.lookup id = some b →
      t.deferredBody.lookup id = some b := by
  intro h
  unfold relievePressure at h
  split at h
  · rw [lookup_retain] at h
    exact (filter_eq_some_iff.mp h).1
  · exact h

theorem relievePressure_keeps {e : Edge} {t : StageTables} {now : Nat} {id : String}
    {b : DeferredBody} (h : t.deferredBody.lookup id = some b)
    (hyoung : deferredBodyMaxEntries e.plugin.maxBodySize ≤ t.deferredBody.size →
      now - b.createdAt < pendingAccessTtl) :
    (relievePressure e t now).deferredBody.lookup id = some b := by
  unfold relievePressure
  split
  · rename_i hfull
    exact lookup_retain_of_some h (by simpa using hyoung hfull)
  · exact h

theorem relievePressure_other (e : Edge) (t : StageTables) (now : Nat) :
    (relievePressure e t now).lazyWafStage = t.lazyWafStage ∧
      (relievePressure e t now).sweptBodies = t.sweptBodies := by
  unfold relievePressure
  split <;> exact ⟨rfl, rfl⟩

/-! ## One chunk -/

/-- The filter withholds the body until the engine has seen it. -/
structure Holding (e : Edge) (b : DeferredBody) : Prop where
  inspect : b.inspect = true
  withheld : b.passthrough = false
  engine : ∃ dv, b.deferred = some dv ∧ (e.engineFor dv.choice).isSome = true

/-- The body is held back for the engine. -/
def DeferredBody.held (b : DeferredBody) : Bool := b.inspect && !b.passthrough

def StageTables.keep (t : StageTables) (requestId : String) (b : DeferredBody) : StageTables :=
  { t with deferredBody := t.deferredBody.insert requestId b }

/-- The event says of this request that its body was not fully inspected. -/
def Notes (ev : SecurityEvent) (requestId : String) : Prop :=
  ev.requestId = requestId ∧ ev.eventType ∈ partialBodyEvents

section

variable {e : Edge} {requestId : String} {b : DeferredBody} {body : Option (List UInt8)}
  {endOfStream : Bool} {now : Nat} {t : StageTables}

theorem inspectBuffer_tables (dv : DeferredVerdict) (buffer : List UInt8)
    (events : List SecurityEvent) : (inspectBuffer e requestId dv buffer t events).tables = t := by
  simp only [inspectBuffer]
  split <;> rfl

theorem timedOut_tables : (timedOut e requestId b body t).tables = t := by
  simp only [timedOut]
  split <;> rfl

theorem Holding.held (h : Holding e b) : b.held = true := by
  simp [DeferredBody.held, h.inspect, h.withheld]

theorem held_deferred (h : b.held = true) : ∃ dv, b.deferred = some dv := by
  have hin : b.inspect = true := (Bool.and_eq_true_iff.mp h).1
  have := b.snapshot
  rw [hin] at this
  exact isSome_iff_exists.mp this

/-- What the filter does with a chunk and the entry of its request. -/
inductive Filtered (e : Edge) (requestId : String) (b : DeferredBody) (body : Option (List UInt8))
    (endOfStream : Bool) (now : Nat) (t : StageTables) (r : BodyResult) : Prop where
  | late (hheld : b.held = true) (hlate : b.deadline ≤ now) (hr : r = timedOut e requestId b body t)
  | last (dv : DeferredVerdict) (hdv : b.deferred = some dv) (hheld : b.held = true)
      (htime : now < b.deadline) (heos : endOfStream = true)
      (hr : r = inspectBuffer e requestId dv (b.buffer ++ body.getD []) t [])
  | refused (hheld : b.held = true) (htime : now < b.deadline) (heos : endOfStream = false)
      (hcap : e.plugin.maxBodySize < (b.buffer ++ body.getD []).length)
      (hstrict : e.plugin.bodyStagePolicy = .strict) (hr : r = .reject t .payloadTooLarge)
  | cut (dv : DeferredVerdict) (hdv : b.deferred = some dv) (hheld : b.held = true)
      (htime : now < b.deadline) (heos : endOfStream = false)
      (hcap : e.plugin.maxBodySize < (b.buffer ++ body.getD []).length)
      (hpolicy : e.plugin.bodyStagePolicy ≠ .strict)
      (hr : r = inspectBuffer e requestId dv (b.buffer ++ body.getD []) t
        (bodyEvent e.agent requestId (some dv) "body_prefix_only"
          "request body exceeded max_body_size; only the prefix was inspected"))
  | withheld (hheld : b.held = true) (htime : now < b.deadline) (heos : endOfStream = false)
      (hcap : body.isSome = true → (b.buffer ++ body.getD []).length ≤ e.plugin.maxBodySize)
      (hr : r = .quiet (t.keep requestId { b with buffer := b.buffer ++ body.getD [] }) (some []))
  | ended (hheld : b.held = false) (heos : endOfStream = true) (hr : r = .quiet t body)
  | passed (hheld : b.held = false) (heos : endOfStream = false)
      (hr : r = .quiet (t.keep requestId b) body)

theorem midBody_of_not_held (h : b.held = false) :
    midBody e requestId b body t = .quiet (t.keep requestId b) body := by
  have hcond : (b.inspect && !b.passthrough) = false := h
  cases body with
  | none => simp only [midBody, hcond, Bool.false_eq_true, if_false, keep]
  | some _ =>
    have hpass : (!b.inspect || b.passthrough) = true := by
      rw [← Bool.not_not b.passthrough, ← Bool.not_and, hcond]
      rfl
    simp only [midBody, stageChunk, hpass, if_true, keep]

theorem midBody_filtered (hheld : b.held = true) (htime : now < b.deadline) :
    Filtered e requestId b body false now t (midBody e requestId b body t) := by
  have hcond : (b.inspect && !b.passthrough) = true := hheld
  cases body with
  | none =>
    refine .withheld hheld htime rfl (fun h => by cases h) ?_
    simp only [midBody, hcond, if_true, getD_none, append_nil, keep]
  | some chunk =>
    have hopen : (!b.inspect || b.passthrough) = false := by
      rw [← Bool.not_not b.passthrough, ← Bool.not_and, hcond]
      rfl
    obtain ⟨dv, hdv⟩ := held_deferred hheld
    by_cases hcap : e.plugin.maxBodySize < (b.buffer ++ chunk).length
    · have hflush : stageChunk e.plugin.maxBodySize b chunk =
          (.flush (b.buffer ++ chunk), { b with passthrough := true, buffer := [] }) := by
        simp only [stageChunk, hopen, Bool.false_eq_true, if_false, if_pos hcap]
      by_cases hstrict : e.plugin.bodyStagePolicy = .strict
      · exact .refused hheld htime rfl hcap hstrict (by simp only [midBody, hflush, if_pos hstrict])
      · exact .cut dv hdv hheld htime rfl hcap hstrict
          (by simp only [midBody, hflush, if_neg hstrict, hdv, getD_some])
    · refine .withheld hheld htime rfl (fun _ => Nat.le_of_not_lt hcap) ?_
      simp only [midBody, stageChunk, hopen, Bool.false_eq_true, if_false, if_neg hcap,
        getD_some, keep]

theorem filterEntry_filtered : Filtered e requestId b body endOfStream now t
    (filterEntry e requestId b body endOfStream now t) := by
  unfold filterEntry
  cases hheld : b.held with
  | false =>
    have hcond : (b.inspect && !b.passthrough) = false := hheld
    cases endOfStream with
    | true =>
      simp only [endBody, hcond, Bool.false_and, Bool.false_eq_true, if_false, if_true]
      exact .ended hheld rfl rfl
    | false =>
      simp only [hcond, Bool.false_and, Bool.false_eq_true, if_false, midBody_of_not_held hheld]
      exact .passed hheld rfl rfl
  | true =>
    have hcond : (b.inspect && !b.passthrough) = true := hheld
    obtain ⟨dv, hdv⟩ := held_deferred hheld
    simp only [hcond, Bool.true_and, decide_eq_true_eq]
    split
    · next hlate => exact .late hheld hlate rfl
    · next htime =>
      cases endOfStream with
      | true =>
        simp only [endBody, hcond, hdv, if_true]
        exact .last dv hdv hheld (Nat.lt_of_not_le htime) rfl rfl
      | false => exact midBody_filtered hheld (Nat.lt_of_not_le htime)

theorem Filtered.tables {r : BodyResult} (h : Filtered e requestId b body endOfStream now t r) :
    r.tables = t ∨ ∃ b', r.tables = t.keep requestId b' ∧ b'.deferred = b.deferred ∧
      (Holding e b → Holding e b') := by
  cases h with
  | late _ _ hr => exact .inl (hr ▸ timedOut_tables)
  | last _ _ _ _ _ hr => exact .inl (hr ▸ inspectBuffer_tables _ _ _)
  | refused _ _ _ _ _ hr => exact .inl (hr ▸ rfl)
  | cut _ _ _ _ _ _ _ hr => exact .inl (hr ▸ inspectBuffer_tables _ _ _)
  | withheld _ _ _ _ hr =>
    exact .inr ⟨{ b with buffer := b.buffer ++ body.getD [] }, congrArg (·.tables) hr, rfl,
      fun hb => ⟨hb.inspect, hb.withheld, hb.engine⟩⟩
  | ended _ _ hr => exact .inl (hr ▸ rfl)
  | passed _ _ hr => exact .inr ⟨b, congrArg (·.tables) hr, rfl, id⟩

theorem bodyEvent_notes {agent : Option Agent} (hagent : agent.isSome = true) {eventType : String}
    (htype : eventType ∈ partialBodyEvents) (requestId : String) (dv : DeferredVerdict)
    (details : String) :
    ∃ ev ∈ bodyEvent agent requestId (some dv) eventType details, Notes ev requestId := by
  obtain ⟨a, rfl⟩ := isSome_iff_exists.mp hagent
  simp [bodyEvent, Notes, htype]

theorem inspectBuffer_spec {dv : DeferredVerdict} (hdv : (e.engineFor dv.choice).isSome = true)
    (requestId : String) (buffer : List UInt8) (t : StageTables) (events : List SecurityEvent) :
    let r := inspectBuffer e requestId dv buffer t events
    (∀ ev ∈ events, ev ∈ r.events) ∧
      ((r.response.isSome = true ∧ r.body = none) ∨ (r.body = some buffer ∧ buffer ∈ r.handed)) := by
  simp only [inspectBuffer, hdv, if_true]
  split <;> exact ⟨fun ev hev => by simp [hev], by simp⟩

inductive Outcome (e : Edge) (requestId : String) (endOfStream : Bool) (r : BodyResult) : Prop where
  | answered (h : r.response.isSome = true) (hb : r.body = none)
  | noted (ev : SecurityEvent) (hev : ev ∈ r.events) (h : Notes ev requestId)
  | complete (buffer : List UInt8) (heos : endOfStream = true) (hb : r.body = some buffer)
      (hh : buffer ∈ r.handed)
  | held (b' : DeferredBody) (hb : r.body = some [])
      (ht : r.tables.deferredBody.lookup requestId = some b')

/-- **A held body stays in sight**: if a late or too long body is refused or reported, a chunk is
answered, reported, inspected as the last one, or withheld. -/
theorem Filtered.outcome {r : BodyResult} (h : Filtered e requestId b body endOfStream now t r)
    (hb : Holding e b)
    (hover : (b.deadline ≤ now ∨
        endOfStream = false ∧ e.plugin.maxBodySize < (b.buffer ++ body.getD []).length) →
      e.agent.isSome = true ∨ e.plugin.bodyStagePolicy = .strict) :
    Outcome e requestId endOfStream r := by
  obtain ⟨dv', hdv', heng⟩ := hb.engine
  cases h with
  | late _ hlate hr =>
    rw [hr, timedOut]
    by_cases hstrict : e.plugin.bodyStagePolicy = .strict
    · rw [if_pos hstrict]
      exact .answered rfl rfl
    · have hagent := (hover (.inl hlate)).resolve_right hstrict
      rw [if_neg hstrict, hdv']
      have htype : "body_stage_timeout" ∈ partialBodyEvents := by simp [partialBodyEvents]
      obtain ⟨ev, hev, hnotes⟩ := bodyEvent_notes hagent htype requestId dv'
        "withheld request body timed out; released to the upstream un-inspected"
      exact .noted ev hev hnotes
  | last _ hdv _ _ heos hr =>
    cases hdv.symm.trans hdv'
    obtain ⟨-, ⟨hresponse, hbody⟩ | ⟨hbody, hhanded⟩⟩ :=
      inspectBuffer_spec heng requestId (b.buffer ++ body.getD []) t []
    · exact .answered (hr ▸ hresponse) (hr ▸ hbody)
    · exact .complete _ heos (hr ▸ hbody) (hr ▸ hhanded)
  | refused _ _ _ _ _ hr => exact .answered (hr ▸ rfl) (hr ▸ rfl)
  | cut _ hdv _ _ heos hcap hpolicy hr =>
    cases hdv.symm.trans hdv'
    have hagent := (hover (.inr ⟨heos, hcap⟩)).resolve_right hpolicy
    have htype : "body_prefix_only" ∈ partialBodyEvents := by simp [partialBodyEvents]
    obtain ⟨ev, hev, hnotes⟩ := bodyEvent_notes hagent htype requestId dv'
      "request body exceeded max_body_size; only the prefix was inspected"
    exact .noted ev (hr ▸ (inspectBuffer_spec heng requestId _ t _).1 ev hev) hnotes
  | withheld _ _ _ _ hr =>
    exact .held _ (hr ▸ rfl) (by rw [hr]; exact lookup_insert _)
  | ended hheld _ _ | passed hheld _ _ => simp [hb.held] at hheld

/-- One of the tables has an entry of the request. -/
def StageTables.Knows (t : StageTables) (requestId : String) : Prop :=
  (t.deferredBody.lookup requestId).isSome = true ∨
    (t.lazyWafStage.lookup requestId).isSome = true ∨ (t.sweptBodies.lookup requestId).isSome = true

/-- The tables differ at most at this request; no verdict has been parked. -/
structure ChangedAt (requestId : String) (t t' : StageTables) : Prop where
  deferred : ∀ id, id ≠ requestId → t'.deferredBody.lookup id = t.deferredBody.lookup id
  swept : ∀ id, id ≠ requestId → t'.sweptBodies.lookup id = t.sweptBodies.lookup id
  parked : ∀ id, id ≠ requestId → t'.lazyWafStage.lookup id = t.lazyWafStage.lookup id
  unparked : ∀ id p, t'.lazyWafStage.lookup id = some p → t.lazyWafStage.lookup id = some p

theorem ChangedAt.knows {t t' : StageTables} (h : ChangedAt requestId t t') {id : String}
    (hid : id ≠ requestId) : t'.Knows id ↔ t.Knows id := by
  simp only [StageTables.Knows, h.deferred id hid, h.swept id hid, h.parked id hid]

theorem handleRequestBody_entry (h : entryFor e t requestId now = some b)
    (body : Option (List UInt8)) (endOfStream : Bool) :
    ∃ t', handleRequestBody e requestId body endOfStream now t =
        filterEntry e requestId b body endOfStream now t' ∧
      t'.deferredBody.lookup requestId = none ∧ ChangedAt requestId t t' := by
  unfold entryFor at h
  unfold handleRequestBody
  cases hd : t.deferredBody.lookup requestId with
  | some b' =>
    rw [hd] at h
    obtain rfl : b' = b := by simpa using h
    refine ⟨_, rfl, lookup_erase _ _, ⟨fun id hid => ?_, fun _ _ => rfl, fun _ _ => rfl,
      fun _ _ hp => hp⟩⟩
    exact lookup_erase_ne hid
  | none =>
    rw [hd, none_or] at h
    obtain ⟨parked, hp, rfl⟩ := map_eq_some_iff.mp h
    simp only [hp]
    refine ⟨_, rfl, hd, ⟨fun _ _ => rfl, fun _ _ => rfl, fun id hid => lookup_erase_ne hid,
      fun id p hl => ?_⟩⟩
    by_cases hid : id = requestId
    · subst hid
      simp [lookup_erase] at hl
    · rwa [lookup_erase_ne hid] at hl

theorem handleRequestBody_unstaged (h : entryFor e t requestId now = none) :
    handleRequestBody e requestId body endOfStream now t = filterUnstaged requestId body now t := by
  unfold entryFor at h
  obtain ⟨hd, hp⟩ := or_eq_none_iff.mp h
  have hp' : t.lazyWafStage.lookup requestId = none := by simpa using hp
  simp only [handleRequestBody, hd, hp']

theorem handleRequestBody_changedAt :
    ChangedAt requestId t (handleRequestBody e requestId body endOfStream now t).tables := by
  cases h : entryFor e t requestId now with
  | some b =>
    obtain ⟨t', hr, -, ht⟩ := handleRequestBody_entry h body endOfStream
    rw [hr]
    rcases (@filterEntry_filtered e requestId b body endOfStream now t').tables with h' | ⟨b', h', -⟩
    · rw [h']
      exact ht
    · rw [h']
      refine ⟨fun id hid => ?_, ht.swept, ht.parked, ht.unparked⟩
      rw [← ht.deferred id hid]
      exact lookup_insert_ne hid
  | none =>
    rw [handleRequestBody_unstaged h]
    simp only [filterUnstaged]
    split_ifs
    · exact ⟨fun _ _ => rfl, fun _ _ => rfl, fun _ _ => rfl, fun _ _ hp => hp⟩
    · exact ⟨fun _ _ => rfl, fun id hid => lookup_erase_ne hid, fun _ _ => rfl,
        fun _ _ hp => hp⟩

theorem handleRequestBody_holding (hold : ∀ b, entryFor e t requestId now = some b → Holding e b) :
    ∀ b', (handleRequestBody e requestId body endOfStream now t).tables.deferredBody.lookup
      requestId = some b' → Holding e b' := by
  intro b' hb'
  cases h : entryFor e t requestId now with
  | some b =>
    obtain ⟨t', hr, hgone, -⟩ := handleRequestBody_entry h body endOfStream
    rw [hr] at hb'
    rcases (@filterEntry_filtered e requestId b body endOfStream now t').tables
      with h' | ⟨b'', h', -, hh⟩
    · rw [h', hgone] at hb'
      cases hb'
    · rw [h', keep, lookup_insert] at hb'
      obtain rfl : b'' = b' := by simpa using hb'
      exact hh (hold b h)
  | none =>
    obtain ⟨hd, -⟩ := or_eq_none_iff.mp h
    rw [handleRequestBody_unstaged h] at hb'
    simp only [filterUnstaged] at hb'
    split_ifs at hb' <;> simp_all [BodyResult.reject, BodyResult.quiet]

end

/-! ## The sweep -/

/-- A step takes at most away what the tables hold for the request. -/
structure Thins (id : String) (t t' : StageTables) : Prop where
  staged : ∀ b, t'.deferredBody.lookup id = some b → t.deferredBody.lookup id = some b
  parked : ∀ p, t'.lazyWafStage.lookup id = some p → t.lazyWafStage.lookup id = some p
  known : t'.Knows id → t.Knows id

section

variable {ttl now : Nat} {id : String} {t : StageTables}

theorem buryExpired_thins (now : Nat) (id : String) (t : StageTables) :
    (buryExpired now t).lazyWafStage = t.lazyWafStage ∧
    (∀ b, (buryExpired now t).deferredBody.lookup id = some b →
      t.deferredBody.lookup id = some b) ∧
    (((buryExpired now t).sweptBodies.lookup id).isSome = true → t.Knows id) := by
  refine foldlRecOn (motive := fun r : StageTables => r.lazyWafStage = t.lazyWafStage ∧
    (∀ b, r.deferredBody.lookup id = some b → t.deferredBody.lookup id = some b) ∧
    ((r.sweptBodies.lookup id).isSome = true → t.Knows id)) _ _
    ⟨rfl, fun _ h => h, fun h => .inr (.inr h)⟩ ?_
  rintro r ⟨hlazy, hstaged, hswept⟩ x hx
  have hmem : t.deferredBody.lookup x.1 = some x.2 :=
    mem_lookup_iff.mpr (mem_filter.mp hx).1
  have herase : ∀ b, (r.deferredBody.erase x.1).lookup id = some b →
      t.deferredBody.lookup id = some b := fun b hb => by
    rw [lookup_erase_eq] at hb
    split at hb
    · cases hb
    · exact hstaged b hb
  dsimp only
  split
  · exact ⟨hlazy, herase, hswept⟩
  · refine ⟨hlazy, herase, fun h => ?_⟩
    rw [lookup_insert_eq] at h
    split at h
    · next heq => exact .inl (by rw [heq, hmem]; rfl)
    · exact hswept h

/-- A withheld body that has expired is buried. -/
theorem buryExpired_knows
    (hstaged : ∀ b, t.deferredBody.lookup id = some b → b.inspect = true ∧ b.passthrough = false)
    (h : (t.deferredBody.lookup id).isSome = true ∨ (t.sweptBodies.lookup id).isSome = true) :
    ((buryExpired now t).deferredBody.lookup id).isSome = true ∨
      ((buryExpired now t).sweptBodies.lookup id).isSome = true := by
  refine foldlRecOn (motive := fun r : StageTables =>
    (r.deferredBody.lookup id).isSome = true ∨ (r.sweptBodies.lookup id).isSome = true) _ _ h ?_
  intro r hr x hx
  dsimp only
  by_cases hid : id = x.1
  · have hmem : t.deferredBody.lookup x.1 = some x.2 :=
      mem_lookup_iff.mpr (mem_filter.mp hx).1
    subst hid
    obtain ⟨hinspect, hpass⟩ := hstaged x.2 hmem
    simp [hinspect, hpass]
  · split <;> simpa [lookup_erase_ne hid, lookup_insert_ne hid] using hr

theorem sweepStaleAccess_thins (ttl now : Nat) (id : String) (t : StageTables) :
    Thins id t (sweepStaleAccess ttl now t) := by
  obtain ⟨hlazy, hstaged, hswept⟩ := buryExpired_thins now id
    { t with sweptBodies := t.sweptBodies.retain fun _ expires => now < expires }
  have hparked : ∀ p, (sweepStaleAccess ttl now t).lazyWafStage.lookup id = some p →
      t.lazyWafStage.lookup id = some p := fun p hp => by
    simp only [sweepStaleAccess, hlazy, lookup_retain] at hp
    exact (filter_eq_some_iff.mp hp).1
  refine ⟨hstaged, hparked, ?_⟩
  rintro (hd | hl | hs)
  · obtain ⟨b, hb⟩ := isSome_iff_exists.mp hd
    exact .inl (isSome_iff_exists.mpr ⟨b, hstaged b hb⟩)
  · obtain ⟨p, hp⟩ := isSome_iff_exists.mp hl
    exact .inr (.inl (isSome_iff_exists.mpr ⟨p, hparked p hp⟩))
  · refine (hswept hs).imp_right (Or.imp_right fun h => ?_)
    rw [lookup_retain] at h
    exact isSome_of_isSome_filter _ _ h

theorem sweepStaleAccess_knows (hk : t.Knows id)
    (hstaged : ∀ b, t.deferredBody.lookup id = some b → b.inspect = true ∧ b.passthrough = false)
    (hparked : ∀ p, t.lazyWafStage.lookup id = some p → now - p.1 < ttl)
    (hswept : ∀ expires, t.sweptBodies.lookup id = some expires → now < expires) :
    (sweepStaleAccess ttl now t).Knows id := by
  have hburied := @buryExpired_knows now id
    { t with sweptBodies := t.sweptBodies.retain fun _ expires => now < expires } hstaged
  obtain hd | hl | hs := hk
  · exact (hburied (.inl hd)).imp_right .inr
  · obtain ⟨p, hp⟩ := isSome_iff_exists.mp hl
    obtain ⟨hlazy, -⟩ := buryExpired_thins now id
      { t with sweptBodies := t.sweptBodies.retain fun _ expires => now < expires }
    refine .inr (.inl ?_)
    simp [sweepStaleAccess, hlazy, lookup_retain, hp, hparked p hp]
  · obtain ⟨x, hx⟩ := isSome_iff_exists.mp hs
    refine (hburied (.inr ?_)).imp_right .inr
    simp [lookup_retain, hx, hswept x hx]

end

end PingWaf.Plugin
