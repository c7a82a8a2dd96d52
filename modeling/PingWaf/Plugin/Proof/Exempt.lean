import PingWaf.Plugin.Proof.BodyFlow

/-!
# A path exception for the engine

The request phase skips the engine for a path whose exception names the waf layer, but stages the
body as for any other path, and the body phase then runs the engine on it.
-/

namespace PingWaf.Plugin

open Text Waf Pipeline AList StageDecision

variable {e : Edge} {requestId : String} {b : DeferredBody} {body : Option (List UInt8)}
  {endOfStream : Bool} {now : Nat} {t : StageTables} {k : VerdictContext} {q : Incoming}

/-! ## Verdicts that answer -/

def answersWith (e : Edge) (k : VerdictContext) (data : RequestData) (verdict : WafVerdict) : Bool :=
  (decide (e.plugin.encodedBodyPolicy = .reject) && hasSub verdict.details "body=uninspected") ||
    (!k.observe && (decide (verdict.action = .block) ||
      (decide (verdict.action = .challenge) && !k.skipChallenge &&
        !clearanceValid e.services (clearanceCookie data.headers) k.host)))

theorem enforce_responds_iff (e : Edge) (k : VerdictContext) (requestId : String)
    (data : RequestData) (verdict : WafVerdict) :
    (∃ r, (enforce e k requestId data verdict).outcome = .respond r) ↔
      answersWith e k data verdict = true := by
  unfold enforce answersWith
  split
  · next h => simp [h]
  · next h =>
    rw [Bool.not_eq_true] at h
    rw [h, Bool.false_or]
    cases ha : verdict.action with
    | pass | monitor => simp
    | block =>
      cases k.observe <;> simp
    | challenge =>
      cases k.observe <;> cases k.skipChallenge <;>
        cases clearanceValid e.services (clearanceCookie data.headers) k.host <;> simp

/-- The verdict on this body is an answer. -/
def EngineAnswers (e : Edge) (k : VerdictContext) (data : RequestData) (body : List UInt8) : Prop :=
  ∃ engine, e.engineFor k.choice = some engine ∧
    answersWith e k data (engine.inspect e.services.crates e.services.detectors e.budget
      { data with body := some body }) = true

theorem enforceVerdict_responds_iff (e : Edge) (k : VerdictContext) (requestId : String)
    (data : RequestData) (body : List UInt8) :
    (∃ r, (enforceVerdict e k requestId { data with body := some body }).outcome = .respond r) ↔
      EngineAnswers e k data body := by
  unfold enforceVerdict EngineAnswers
  cases heng : e.engineFor k.choice with
  | none =>
    simp only [reduceCtorEq, false_and, exists_false, iff_false, not_exists]
    intro r
    cases k.choice <;> simp
  | some _ =>
    simp only [Option.some.injEq, exists_eq_left']
    exact enforce_responds_iff e k requestId { data with body := some body } _

/-! ## Where an answer of the body phase comes from -/

/-- An answer came, and octets were handed to the engine. -/
def EngineAnswered (r : BodyResult) : Prop := r.response.isSome = true ∧ r.handed ≠ []

theorem inspectBuffer_answered {dv : DeferredVerdict} {buffer : List UInt8}
    {events : List SecurityEvent} :
    EngineAnswered (inspectBuffer e requestId dv buffer t events) ↔
      EngineAnswers e dv.toVerdictContext dv.requestData buffer := by
  rw [← enforceVerdict_responds_iff e dv.toVerdictContext requestId]
  simp only [inspectBuffer, EngineAnswered]
  constructor
  · rintro ⟨hr, -⟩
    split at hr
    · next r h => exact ⟨r, h⟩
    · cases hr
  · rintro ⟨r, hr⟩
    rw [hr]
    refine ⟨rfl, ?_⟩
    -- without an engine the verdict answers nothing
    cases heng : e.engineFor dv.choice with
    | some _ => simp
    | none =>
      simp only [enforceVerdict, heng] at hr
      cases hc : dv.choice <;> simp [hc] at hr

theorem Filtered.answered {r : BodyResult} (h : Filtered e requestId b body endOfStream now t r)
    (ha : EngineAnswered r) :
    ∃ dv buffer, b.deferred = some dv ∧ EngineAnswers e dv.toVerdictContext dv.requestData buffer := by
  cases h with
  | late _ _ hr =>
    -- a late body is answered, or released, without the engine
    refine absurd ?_ ha.2
    rw [hr, timedOut]
    split <;> rfl
  | last dv hdv _ _ _ hr => exact ⟨dv, _, hdv, inspectBuffer_answered.mp (hr ▸ ha)⟩
  | cut dv hdv _ _ _ _ _ hr =>
    exact ⟨dv, _, hdv, inspectBuffer_answered.mp (hr ▸ ha)⟩
  | refused _ _ _ _ _ hr | withheld _ _ _ _ hr | ended _ _ hr | passed _ _ hr =>
    exact absurd (hr ▸ rfl) ha.2

/-! ## The snapshot of the request phase -/

/-- Every verdict context the stage has for the request satisfies `P`. -/
structure Snapshots (t : StageTables) (requestId : String) (P : DeferredVerdict → Prop) : Prop where
  staged : ∀ b, t.deferredBody.lookup requestId = some b → ∀ dv, b.deferred = some dv → P dv
  parked : ∀ p, t.lazyWafStage.lookup requestId = some p → P p.2

variable {P : DeferredVerdict → Prop}

theorem Snapshots.same {t' : StageTables} (h : Snapshots t requestId P)
    (hs : SameAt requestId t t') : Snapshots t' requestId P :=
  ⟨fun b hb => h.staged b (hs.deferred ▸ hb), fun p hp => h.parked p (hs.parked ▸ hp)⟩

theorem Snapshots.entry (h : Snapshots t requestId P) (he : entryFor e t requestId now = some b) :
    ∀ dv, b.deferred = some dv → P dv := by
  intro dv hdv
  unfold entryFor at he
  cases hd : t.deferredBody.lookup requestId with
  | some b' =>
    rw [hd] at he
    obtain rfl : b' = b := by simpa using he
    exact h.staged b' hd dv hdv
  | none =>
    rw [hd, Option.none_or] at he
    obtain ⟨p, hp, rfl⟩ := Option.map_eq_some_iff.mp he
    obtain rfl : p.2 = dv := by simpa [unparkedBody] using hdv
    exact h.parked p hp

theorem Snapshots.call (h : Snapshots t requestId P) (e : Edge) (body : Option (List UInt8))
    (endOfStream : Bool) (now : Nat) :
    Snapshots (handleRequestBody e requestId body endOfStream now t).tables requestId P ∧
      (EngineAnswered (handleRequestBody e requestId body endOfStream now t) →
        ∃ dv buffer, P dv ∧ EngineAnswers e dv.toVerdictContext dv.requestData buffer) := by
  cases hentry : entryFor e t requestId now with
  | some b =>
    have hdv := h.entry hentry
    obtain ⟨t', hr, hgone, hch⟩ := handleRequestBody_entry hentry body endOfStream
    rw [hr]
    refine ⟨?_, fun ha => ?_⟩
    · have hparked : ∀ p, t'.lazyWafStage.lookup requestId = some p → P p.2 :=
        fun p hp => h.parked p (hch.unparked requestId p hp)
      rcases (@filterEntry_filtered e requestId b body endOfStream now t').tables
        with ht | ⟨b', ht, hb', -⟩
      · rw [ht]
        refine ⟨fun b'' hb'' => ?_, hparked⟩
        rw [hgone] at hb''
        cases hb''
      · rw [ht]
        refine ⟨fun b'' hb'' dv hdv' => ?_, hparked⟩
        rw [StageTables.keep, lookup_insert] at hb''
        obtain rfl : b' = b'' := by simpa using hb''
        exact hdv dv (hb' ▸ hdv')
    · obtain ⟨dv, buffer, hd, hans⟩ := filterEntry_filtered.answered ha
      exact ⟨dv, buffer, hdv dv hd, hans⟩
  | none =>
    rw [handleRequestBody_unstaged hentry]
    simp only [filterUnstaged]
    split
    · exact ⟨h, fun ha => absurd rfl ha.2⟩
    · exact ⟨⟨h.staged, h.parked⟩, fun ha => absurd rfl ha.2⟩

theorem Snapshots.run (h : Snapshots t requestId P) (calls : List BodyCall)
    (hlink : Linked e requestId t calls) :
    ∀ c ∈ calls, EngineAnswered (c.result e requestId) →
      ∃ dv buffer, P dv ∧ EngineAnswers e dv.toVerdictContext dv.requestData buffer := by
  induction calls generalizing t with
  | nil => exact fun c hc => absurd hc List.not_mem_nil
  | cons c _ ih =>
    obtain ⟨hsame, hlink⟩ := hlink
    obtain ⟨hnext, hans⟩ := (h.same hsame).call e c.body c.endOfStream c.now
    intro c' hc'
    rcases List.mem_cons.mp hc' with rfl | hc'
    · exact hans
    · exact ih hnext hlink c' hc'

/-! ## The request phase -/

/-- The request phase puts the body of the request under the engine's eyes. -/
def stagesBody (e : Edge) (k : VerdictContext) (q : Incoming) (t : StageTables) : Bool :=
  inspects e k && !(q.data.method == "POST" && q.data.path == verifyEndpoint) &&
    if hasBody q.header then
      !siteSaturated e t k.siteId &&
        decide ((relievePressure e t q.now).deferredBody.size <
          deferredBodyMaxEntries e.plugin.maxBodySize)
    else decide (t.lazyWafStage.size < lazyWafStageMax)

theorem stageRequest_holds (e : Edge) (k : VerdictContext) (q : Incoming) (t : StageTables) :
    (stageRequest e k q t).1.holds = stagesBody e k q t := by
  have hwants : inspects e k = true → wantsBody e k.context = true := by
    intro h
    simp only [inspects, Bool.and_eq_true] at h
    simp [wantsBody, h.1]
  unfold stagesBody stageRequest
  cases hin : inspects e k with
  | false =>
    split
    · rfl
    split
    · dsimp only
      split <;> rfl
    · rfl
  | true =>
    rw [hwants hin]
    cases hv : (q.data.method == "POST" && q.data.path == verifyEndpoint) with
    | true => rfl
    | false =>
      cases hb : hasBody q.header with
      | true =>
        cases hs : siteSaturated e t k.siteId with
        | true => rfl
        | false =>
          by_cases hroom : deferredBodyMaxEntries e.plugin.maxBodySize ≤
              (relievePressure e t q.now).deferredBody.size
          · simp [hroom, holds]
          · simp [hroom, holds, Nat.lt_of_not_le hroom]
      | false =>
        by_cases hroom : lazyWafStageMax ≤ t.lazyWafStage.size
        · simp [hroom, holds]
        · simp [hroom, holds, Nat.lt_of_not_le hroom]

section

variable (e : Edge) (site : ResolvedSite) (q : Incoming) (st : EdgeState)

/-- No layer ahead of the body stage answers. -/
def reachesStage : Bool :=
  (run (layersBeforeStage e site q) (startVars st)).answer.isNone

theorem requestPhase_tables : (requestPhase e site q st).state.edge.stage =
    if reachesStage e site q st then
      (stageRequest e (verdictContext e site q) q st.stage).2
    else st.stage := by
  have hkept : (run (layersBeforeStage e site q) (startVars st)).state.edge.stage = st.stage :=
    run_keeps (f := fun s : Vars => s.edge.stage)
      (fun x hx s => (layersBeforeStage_keepStage e site q x hx s).1) (startVars st)
  unfold requestPhase reachesStage
  rw [layers_eq_concat]
  cases hans : (run (layersBeforeStage e site q) (startVars st)).answer with
  | some _ =>
    rw [run_append_of_answer hans]
    exact hkept
  | none =>
    rw [(@run_append_of_reaches _ _ _ _ [stageLayer e site q] _ _ ⟨hans, rfl⟩).2.1]
    simp [run, stageLayer, answer, hkept]

/-- No verdict of the engine answers the request, in the request phase or in the body phase. -/
structure EngineSilent : Prop where
  header : ∀ s, (wafLayer e site q s).answer = none
  body : ∀ calls : List BodyCall,
    Linked e q.requestId (requestPhase e site q st).state.edge.stage calls →
      ∀ c ∈ calls, ¬ EngineAnswered (c.result e q.requestId)

/-- The request reaches the stage, its body is staged for the engine, and some body makes the
engine answer. -/
structure BodyExposed : Prop where
  reached : reachesStage e site q st = true
  staged : stagesBody e (verdictContext e site q) q st.stage = true
  answered : ∃ body, EngineAnswers e (verdictContext e site q) q.data body

end

section

variable {site : ResolvedSite} {st : EdgeState}

theorem Staging.snapshots {d : StageDecision} {t' : StageTables} (h : Staging e k q t d t')
    (hfresh : ¬ t.Knows q.requestId) :
    Snapshots t' q.requestId fun dv =>
      dv = { k with requestData := q.data } ∧ d.holds = true := by
  obtain ⟨hd, hl⟩ := unknown_deferred hfresh
  have hrel := relieved_deferred (e := e) hd q.now
  have hrelLazy : (relievePressure e t q.now).lazyWafStage.lookup q.requestId = none :=
    (congrArg (lookup q.requestId) (relievePressure_other e t q.now).1).trans hl
  have hnone : ∀ {t'' : StageTables} {Q : DeferredVerdict → Prop},
      t''.deferredBody.lookup q.requestId = none → t''.lazyWafStage.lookup q.requestId = none →
        Snapshots t'' q.requestId Q := by
    intro t'' Q h1 h2
    refine ⟨fun b hb => ?_, fun p hp => ?_⟩
    · rw [h1] at hb
      cases hb
    · rw [h2] at hp
      cases hp
  cases h with
  | ignored => exact hnone hd hl
  | refused _ => exact hnone hrel hrelLazy
  | tableFull _ _ _ => exact hnone hd hl
  | staged _ =>
    refine ⟨fun b hb dv hdv => ?_, fun p hp => ?_⟩
    · rw [lookup_insert] at hb
      obtain rfl : freshBody e k q.data q.now = b := by simpa using hb
      unfold freshBody at hdv
      dsimp only at hdv
      split at hdv
      · next hin => exact ⟨by simpa using hdv.symm, hin⟩
      · cases hdv
    · rw [hrelLazy] at hp
      cases hp
  | parked _ =>
    refine ⟨fun b hb => ?_, fun p hp => ?_⟩
    · rw [hd] at hb
      cases hb
    · rw [lookup_insert] at hp
      obtain rfl : (q.now, { k with requestData := q.data }) = p := by simpa using hp
      exact ⟨rfl, rfl⟩

theorem stageTimeout_pos (e : Edge) (context : Option SiteContext) : 0 < stageTimeout e context := by
  unfold stageTimeout effectiveBodyStageTimeout secs deferredBodyMaxStageSecs
  dsimp only
  split
  · next n hn =>
    have hpos : 0 < n := by simpa using (Option.filter_eq_some_iff.mp hn).2
    rw [if_pos hpos]
    omega
  · split <;> omega

theorem whole_body_answered (hfresh : ¬ t.Knows q.requestId)
    (hstage : stagesBody e k q t = true) {body : List UInt8}
    (hans : EngineAnswers e k q.data body) :
    EngineAnswered (handleRequestBody e q.requestId (some body) true q.now
      (stageRequest e k q t).2) := by
  have hdec := stageRequest_holds e k q t
  rw [hstage] at hdec
  have hst := stageRequest_staging e k q t
  have htime := stageTimeout_pos e k.context
  generalize (stageRequest e k q t).2 = t' at hst ⊢
  generalize (stageRequest e k q t).1 = d at hst hdec
  -- the entry the call finds is in time and carries the request's own context
  obtain ⟨b, hentry, hheld, hdv, hbuf, htimely⟩ : ∃ b, entryFor e t' q.requestId q.now = some b ∧
      (b.inspect && !b.passthrough) = true ∧ b.deferred = some { k with requestData := q.data } ∧
      b.buffer = [] ∧ q.now < b.deadline := by
    obtain ⟨hd, hl⟩ := unknown_deferred hfresh
    cases hst with
    | ignored | refused _ | tableFull _ _ _ => cases hdec
    | staged _ =>
      have hin : inspects e k = true := hdec
      refine ⟨freshBody e k q.data q.now, ?_, by simp [freshBody, hin], by simp [freshBody, hin],
        rfl, Nat.lt_add_of_pos_right htime⟩
      simp [entryFor, lookup_insert]
    | parked _ =>
      refine ⟨unparkedBody e (q.now, { k with requestData := q.data }) q.now, ?_, rfl, rfl, rfl,
        Nat.lt_add_of_pos_right htime⟩
      simp [entryFor, lookup_insert, hd]
  obtain ⟨t'', hr, -, -⟩ := handleRequestBody_entry hentry (some body) true
  rw [hr, filterEntry, if_neg (by simp [Nat.not_le.mpr htimely]), if_pos rfl, endBody, if_pos hheld]
  simp only [hdv, hbuf, List.nil_append, Option.getD_some]
  exact inspectBuffer_answered.mpr hans

/-- **A path exception for the waf layer covers the whole request** exactly when its body is not
exposed to the engine. -/
theorem waf_exemption_whole_iff (e : Edge) (site : ResolvedSite) (q : Incoming) (st : EdgeState)
    (hskip : bypasses e site q .waf = true) (hfresh : ¬ st.stage.Knows q.requestId) :
    EngineSilent e site q st ↔ ¬ BodyExposed e site q st := by
  have htables := requestPhase_tables e site q st
  constructor
  · rintro hsilent ⟨hreach, hstage, body, hans⟩
    rw [if_pos hreach] at htables
    have hcall := whole_body_answered hfresh hstage hans
    refine hsilent.body [⟨(requestPhase e site q st).state.edge.stage, some body, true, q.now⟩]
      ⟨⟨rfl, rfl, rfl⟩, trivial⟩ _ List.mem_cons_self ?_
    rw [BodyCall.result, htables]
    exact hcall
  · intro hexp
    refine ⟨fun s => ?_, fun calls hlink c hc hans => hexp ?_⟩
    · rw [wafLayer, if_pos hskip]
      rfl
    · rw [htables] at hlink
      split at hlink
      · next hreach =>
        have hsnap := (stageRequest_staging e (verdictContext e site q) q st.stage).snapshots hfresh
        obtain ⟨dv, buffer, ⟨rfl, hholds⟩, hans'⟩ := hsnap.run calls hlink c hc hans
        rw [stageRequest_holds] at hholds
        exact ⟨hreach, hholds, buffer, hans'⟩
      · -- an unknown request has no entry
        obtain ⟨hd, hl⟩ := unknown_deferred hfresh
        have hsnap : Snapshots st.stage q.requestId fun _ => False := by
          refine ⟨fun b hb => ?_, fun p hp => ?_⟩
          · rw [hd] at hb
            cases hb
          · rw [hl] at hp
            cases hp
        obtain ⟨dv, buffer, hfalse, -⟩ := hsnap.run calls hlink c hc hans
        exact hfalse.elim

end

/-! ## An exempt path that is blocked -/

/-- A site that blocks everything and exempts `/hook` from the engine. -/
def hookSite (inspectBody : Bool) : ResolvedSite where
  choice := .site ((WafEngine.bare 5 []).withRules [WafEngine.anyPathRule "r1" .block])
  siteId := "site"
  context := some { bareContext with
    inspectBody
    pathExceptions := some ⟨[("/hook", ⟨"x1", "hook", .build ["waf"], false⟩)], [], [], []⟩ }
  servesLogin := false

def postHook : Incoming :=
  { getWith [] with header := ⟨"POST", some "example.com", "/hook", none, []⟩ }

/-- The request phase lets the hook through; its body is then answered with the block page. -/
theorem exempt_path_blocked_by_body :
    bypasses quietEdge (hookSite true) postHook .waf = true ∧
      ¬ EngineSilent quietEdge (hookSite true) postHook quietState := by
  refine ⟨by decide +kernel, fun h => ?_⟩
  have hcall := h.body
    [⟨(requestPhase quietEdge (hookSite true) postHook quietState).state.edge.stage,
      some (utf8Encode "x=1"), true, 0⟩] ⟨⟨rfl, rfl, rfl⟩, trivial⟩ _ List.mem_cons_self
  exact hcall ⟨by decide +kernel, by decide +kernel⟩

/-- With body inspection off, nothing is exposed. -/
theorem exempt_path_without_inspection :
    bypasses quietEdge (hookSite false) postHook .waf = true ∧
      EngineSilent quietEdge (hookSite false) postHook quietState := by
  refine ⟨by decide +kernel, (waf_exemption_whole_iff quietEdge (hookSite false) postHook quietState
    (by decide +kernel) (by simp [StageTables.Knows, StageTables.empty, quietState])).mpr ?_⟩
  intro hexp
  exact absurd hexp.staged (by decide +kernel)

end PingWaf.Plugin
