import PingWaf.Waf.Engine

/-!
# Closed form of the verdict

Stage 2 is a fold over the rule list. Its result is determined by four facts that do not mention the
order of the fold: whether an enforcing block rule fired, whether an enforcing challenge rule fired,
the blocking points of the rules that fired, and whether any fired at all (`finalAction_stage2`).
-/

namespace PingWaf.Waf

open AnomalyScorer

def isSqliRec : HitRec → Bool
  | .lib kind _ _ _ _ => kind == "libinjection-sqli"
  | _ => false

namespace WafEngine

variable {c : Crates} {d : Detectors} {e : WafEngine}

/-! ## Stage 1 -/

/-- Hits have been pushed if `hit`, and nothing otherwise. Their records satisfy `P`, and each comes
with a breakdown that scores and stays sane. -/
inductive Pushed (P : HitRec → Prop) (st : Stage1) : Bool → Stage1 → Prop where
  | refl : Pushed P st false st
  | push {hit : Bool} {st' : Stage1} {b : ScoreBreakdown} {r : HitRec} (h : Pushed P st hit st')
      (hb : Sane st'.breakdown → Sane b) (hpos : 0 < b.total) (hr : P r) (s : Surface)
      (critical : Bool) : Pushed P st true (st'.push b r s critical)

section

variable {P : HitRec → Prop} {hit : Bool} {st₀ st : Stage1}

theorem Pushed.sane (h : Pushed P st₀ hit st) (hs : Sane st₀.breakdown) : Sane st.breakdown := by
  induction h with
  | refl => exact hs
  | push _ hb _ _ _ _ ih => exact hb ih

theorem Pushed.recs_mono (h : Pushed P st₀ hit st) : st₀.recs <+: st.recs := by
  induction h with
  | refl => exact List.prefix_rfl
  | push _ _ _ _ _ _ ih => exact ih.trans (List.prefix_append _ _)

theorem Pushed.idle (h : Pushed P st₀ hit st) (hhit : hit = false) : st = st₀ := by
  cases h with
  | refl => rfl
  | push _ _ _ _ _ _ => cases hhit

theorem Pushed.pos (h : Pushed P st₀ hit st) (hhit : hit = true) : 0 < st.breakdown.total := by
  cases h with
  | refl => cases hhit
  | push _ _ hpos _ _ _ => exact hpos

theorem Pushed.trans {hit' : Bool} {st' : Stage1} (h : Pushed P st₀ hit st)
    (h' : Pushed P st hit' st') : Pushed P st₀ (hit || hit') st' := by
  induction h' with
  | refl => exact (Bool.or_false hit).symm ▸ h
  | push _ hb hpos hr s critical ih => exact (Bool.or_true hit).symm ▸ ih.push hb hpos hr s critical

theorem pushed_foldl {α : Type} {step : Stage1 → α → Stage1} {hit : α → Bool}
    (hstep : ∀ st x, Pushed P st (hit x) (step st x)) (l : List α) (st : Stage1) :
    Pushed P st (l.any hit) (l.foldl step st) := by
  induction l generalizing st with
  | nil => exact .refl
  | cons x _ ih => exact (hstep st x).trans (ih _)

theorem libHitIf_pushed {fired : Bool} {kind : String}
    (hr : fired = true → ∀ fp source name m, P (.lib kind fp source name m)) (v : DecodedValue)
    (category : AttackCategory) (severity : Nat) (critical : Bool) (fp : String) (st : Stage1) :
    Pushed P st fired (e.libHitIf fired v category severity critical kind fp st) := by
  unfold libHitIf
  cases fired with
  | false => exact .refl
  | true =>
    exact Pushed.refl.push (e.scorer.addCategoryHitEx_sane · _ _ _)
      (e.scorer.addCategoryHitEx_pos ..) (hr rfl _ _ _ _) _ _

/-- A signature counts by its severity or by its category. -/
theorem pushed_weighed {r : HitRec} (hr : P r) (bySeverity : Bool) (category : AttackCategory)
    (severity : Nat) (m : Bool) (st : Stage1) (s : Surface) (critical : Bool) :
    Pushed P st true (st.push (if bySeverity then e.scorer.addSeverityHitEx st.breakdown severity m
      else e.scorer.addCategoryHitEx st.breakdown category severity m) r s critical) := by
  cases bySeverity with
  | true =>
    exact Pushed.refl.push (e.scorer.addSeverityHitEx_sane · _ _)
      (add32_pos (pointsForSeverity_pos _)) hr _ _
  | false =>
    exact Pushed.refl.push (e.scorer.addCategoryHitEx_sane · _ _ _)
      (e.scorer.addCategoryHitEx_pos ..) hr _ _

variable (d) (e) (v : DecodedValue)

/-- The shapes of a path. -/
def pathDetects : Bool :=
  v.source == .path && d.pathTautologySegment v.decoded ||
    v.source == .path && 2 ≤ v.decoded.toList.count '\x60' ||
    v.source == .path && d.ptDoubleExecExtension v.decoded

/-- At the strict level, an expression. -/
def exprDetects : Bool :=
  e.level.isStrict && ((d.detectExprInjection v.decoded).isSome ||
    d.detectJsCall v.decoded && (v.field || v.source != .body))

/-- The shapes of any other value: SQL, markup, a serialized object, a command, a smuggled protocol,
a remote include, and at the strict level an expression. -/
def inputDetects : Bool :=
  (d.detectSqli v.decoded).1 && !sqliSearchPhrase d v.decoded (d.detectSqli v.decoded).2 ||
    ((d.detectXss v.decoded).1 && !xssCollected d v (d.detectXss v.decoded).2 ||
      (d.detectDeserShape v.decoded).isSome || d.ciBacktickInterleaved v.decoded ||
      d.ciChrChain v.decoded || d.ssrfProtocolSmuggling v.decoded ||
      d.ptRemoteBackslashInclude v.decoded || e.exprDetects d v)

/-- A detector of stage 1 finds something in the value: a signature that is no search phrase there,
or one of the shapes. -/
def detects : Bool :=
  v.decoded != "" &&
    ((d.scanInto v.decoded).any (fun hit => !isSearchPhrase d v (d.patternId hit.pattern)) ||
      pathDetects d v || v.source != .path && e.inputDetects d v)

/-- A signature finds something in the resolved path. -/
def pathHit (path : String) : Bool :=
  (d.scanInto path).any fun hit =>
    !(d.patternId hit.pattern == "XSS-001" && !d.xssScriptTagShaped path true)

theorem pathDetectors_pushed (hpath : v.source = .path → ∀ r, P r) (st : Stage1) :
    Pushed P st (pathDetects d v) (e.pathDetectors d v st) := by
  refine ((libHitIf_pushed ?_ ..).trans (libHitIf_pushed ?_ ..)).trans (libHitIf_pushed ?_ ..)
  all_goals
    intro hfired
    simp only [Bool.and_eq_true, beq_iff_eq] at hfired
    exact fun _ _ _ _ => hpath hfired.1 _

variable (hP : ∀ r, isSqliRec r = false → P r)

include hP

theorem sigHit_pushed (company : Bool) (st : Stage1) (hit : SignatureHit) :
    Pushed P st (!isSearchPhrase d v (d.patternId hit.pattern)) (e.sigHit d v company st hit) := by
  unfold sigHit
  dsimp only
  cases isSearchPhrase d v (d.patternId hit.pattern) with
  | true => exact .refl
  | false => exact pushed_weighed (hP _ rfl) ..

theorem strictExpr_pushed (st : Stage1) :
    Pushed P st (e.exprDetects d v) (e.strictExpr d v st) := by
  have hhit (container : String) : Pushed P st true (e.exprHit v container st) :=
    Pushed.refl.push (e.scorer.addExprHitEx_sane · _) (add32_pos (by decide)) (hP _ rfl) _ _
  unfold strictExpr exprDetects
  cases e.level.isStrict with
  | false => exact .refl
  | true =>
    cases d.detectExprInjection v.decoded with
    | some container => exact hhit container
    | none =>
      show Pushed P st (d.detectJsCall v.decoded && (v.field || v.source != .body))
        (if d.detectJsCall v.decoded && (v.field || v.source != .body) then _ else _)
      cases d.detectJsCall v.decoded && (v.field || v.source != .body) with
      | true => exact hhit "js-call"
      | false => exact .refl

/-- The detectors behind the one for SQL leave no record of its kind. -/
theorem inputDetectors_pushed (st : Stage1) :
    ∃ hit, (e.inputDetects d v = ((d.detectSqli v.decoded).1 &&
        !sqliSearchPhrase d v.decoded (d.detectSqli v.decoded).2 || hit)) ∧
      Pushed P (e.libHitIf ((d.detectSqli v.decoded).1 &&
        !sqliSearchPhrase d v.decoded (d.detectSqli v.decoded).2) v .sqlInjection
        (if isMetaHeader d v || e.isWeakBody v then 2 else 5) (!(isMetaHeader d v || e.isWeakBody v))
        "libinjection-sqli" (d.detectSqli v.decoded).2 st) hit (e.inputDetectors d v st) := by
  have hother {kind : String} (h : (kind == "libinjection-sqli") = false) {fired : Bool} :
      fired = true → ∀ fp source name m, P (.lib kind fp source name m) :=
    fun _ _ _ _ _ => hP _ h
  refine ⟨_, rfl, Pushed.trans ?_ (strictExpr_pushed d e v hP _)⟩
  iterate 5 refine Pushed.trans ?_ (libHitIf_pushed (hother (by decide +kernel)) ..)
  exact libHitIf_pushed (hother (by decide +kernel)) ..

end

variable (d e)

theorem scanValue_pushed (st : Stage1) (v : DecodedValue) :
    Pushed (fun _ => True) st (e.detects d v) (e.scanValue d st v) := by
  have hP : ∀ r, isSqliRec r = false → (fun _ => True) r := fun _ _ => trivial
  have hinput (st : Stage1) :
      Pushed (fun _ => True) st (e.inputDetects d v) (e.inputDetectors d v st) := by
    obtain ⟨_, heq, hrest⟩ := inputDetectors_pushed d e v hP st
    exact heq ▸ (libHitIf_pushed (fun _ _ _ _ _ => trivial) ..).trans hrest
  unfold scanValue detects
  by_cases hempty : v.decoded = ""
  · simpa [hempty] using Pushed.refl
  · have hsigs (company : Bool) := (pushed_foldl (sigHit_pushed d e v hP company)
      (d.scanInto v.decoded) st).trans (pathDetectors_pushed d e v (fun _ _ => trivial) _)
    rw [if_neg hempty, bne_iff_ne.mpr hempty, Bool.true_and]
    dsimp only
    cases hpath : v.source == .path with
    | true =>
      have hne : (v.source != .path) = false := by simpa using hpath
      rw [if_pos rfl, hne, Bool.false_and, Bool.or_false]
      exact hsigs _
    | false =>
      have hne : (v.source != .path) = true := by simpa using hpath
      rw [if_neg Bool.false_ne_true, hne, Bool.true_and]
      exact (hsigs _).trans (hinput _)

theorem pathSigHit_pushed (path : String) (st : Stage1) (hit : SignatureHit) :
    Pushed (fun _ => True) st
      (!(d.patternId hit.pattern == "XSS-001" && !d.xssScriptTagShaped path true))
      (e.pathSigHit d path st hit) := by
  unfold pathSigHit
  cases d.patternId hit.pattern == "XSS-001" && !d.xssScriptTagShaped path true with
  | true => exact .refl
  | false => exact pushed_weighed trivial ..

theorem foldl_scanValue_pushed (values : List DecodedValue) (st : Stage1) :
    Pushed (fun _ => True) st (values.any (e.detects d)) (values.foldl (e.scanValue d) st) :=
  pushed_foldl (scanValue_pushed d e) values st

theorem foldl_pathSigHit_pushed (path : String) (st : Stage1) :
    Pushed (fun _ => True) st (pathHit d path)
      ((d.scanInto path).foldl (e.pathSigHit d path) st) :=
  pushed_foldl (pathSigHit_pushed d e path) _ st

/-- Stage 1 has a hit exactly if a detector finds something in a value or in the path. -/
theorem stage1_pushed (n : NormalizedRequest) :
    Pushed (fun _ => True) .init (n.decodedValues.any (e.detects d) || pathHit d n.path)
      (e.stage1 d n) :=
  (foldl_scanValue_pushed d e n.decodedValues .init).trans (foldl_pathSigHit_pushed d e n.path _)

theorem stage1_sane (n : NormalizedRequest) : Sane (e.stage1 d n).breakdown :=
  (stage1_pushed d e n).sane sane_clean

variable {d e}

/-! ## Stage 2 -/

def forcesBlock (c : Crates) (e : WafEngine) (ctx : Contexts) (rule : CompiledRule) : Bool :=
  e.fires c ctx rule && rule.action == .block && !e.ruleMonitored rule

def CompiledRule.isChallenge (rule : CompiledRule) : Bool :=
  rule.action == .challenge || rule.action == .jsChallenge

def forcesChallenge (c : Crates) (e : WafEngine) (ctx : Contexts) (rule : CompiledRule) : Bool :=
  e.fires c ctx rule && CompiledRule.isChallenge rule && !e.ruleMonitored rule

/-- What a rule adds to the blocking total: a log rule always counts. -/
def blockPoints (c : Crates) (e : WafEngine) (ctx : Contexts) (rule : CompiledRule) : Nat :=
  if e.fires c ctx rule && (rule.action == .log || !e.ruleMonitored rule) then
    pointsForSeverity rule.severity
  else 0

/-- The blocking points of the rules that fire. -/
def blockScore (c : Crates) (e : WafEngine) (ctx : Contexts) (rules : List CompiledRule) : Nat :=
  (rules.map (e.blockPoints c ctx)).sum

/-- The forced action, given whether some rule forces a block, a challenge. -/
def forcedOf (block challenge : Bool) : Option WafAction :=
  if block then some .block else if challenge then some .challenge else none

def forcedBy (c : Crates) (e : WafEngine) (ctx : Contexts) (rules : List CompiledRule) :
    Option WafAction :=
  forcedOf (rules.any (e.forcesBlock c ctx)) (rules.any (e.forcesChallenge c ctx))

/-- An action forced so far and one forced later: a block stands, otherwise the later one wins. -/
def joinForced (earlier later : Option WafAction) : Option WafAction :=
  if earlier = some .block then some .block else later.or earlier

theorem joinForced_none (a : Option WafAction) : joinForced a none = a := by
  unfold joinForced
  split
  · rename_i h
    exact h.symm
  · rfl

theorem joinForced_forcedOf (a : Option WafAction) (b₁ c₁ b₂ c₂ : Bool) :
    joinForced (joinForced a (forcedOf b₁ c₁)) (forcedOf b₂ c₂) =
      joinForced a (forcedOf (b₁ || b₂) (c₁ || c₂)) := by
  by_cases ha : a = some .block <;> cases b₁ <;> cases c₁ <;> cases b₂ <;> cases c₂ <;>
    simp [joinForced, forcedOf, ha]

section

variable {ctx : Contexts} {st : Stage2} {rule : CompiledRule}

theorem action_ne_allow_of_fires (h : e.fires c ctx rule = true) : rule.action ≠ .allow := by
  simp only [fires, Bool.and_eq_true, bne_iff_ne] at h
  exact h.1.2

/-- One step of stage 2: what it does to the two totals and to the forced action. -/
structure StepSpec (c : Crates) (e : WafEngine) (ctx : Contexts) (rules : List CompiledRule)
    (st st' : Stage2) : Prop where
  sane : Sane st'.breakdown
  blockTotal : st'.breakdown.blockTotal = add32 st.breakdown.blockTotal (e.blockScore c ctx rules)
  total_pos : 0 < st'.breakdown.total ↔
    0 < st.breakdown.total ∨ rules.any (e.fires c ctx) = true
  forced : st'.forced = joinForced st.forced (e.forcedBy c ctx rules)

theorem blockScore_singleton : e.blockScore c ctx [rule] = e.blockPoints c ctx rule := by
  simp [blockScore]

theorem stepSpec_nil (hs : Sane st.breakdown) : StepSpec c e ctx [] st st where
  sane := hs
  blockTotal := (satAdd.zero_right hs.blockTotal_le).symm
  total_pos := by simp
  forced := (joinForced_none _).symm

theorem stepSpec_idle (hs : Sane st.breakdown) (hf : e.fires c ctx rule = false) :
    StepSpec c e ctx [rule] st st where
  sane := hs
  blockTotal := by
    rw [blockScore_singleton, blockPoints, hf]
    exact (satAdd.zero_right hs.blockTotal_le).symm
  total_pos := by simp [hf]
  forced := by
    simp only [forcedBy, forcesBlock, forcesChallenge, List.any_cons, List.any_nil, hf,
      Bool.false_and, Bool.or_false]
    exact (joinForced_none _).symm

/-- A log rule counts as if it were not monitored. -/
theorem breakdown_applyRule (h : rule.action ≠ .allow) (st : Stage2) :
    (e.applyRule st rule).breakdown =
      e.scorer.addSeverityHitEx st.breakdown rule.severity
        (rule.action != .log && e.ruleMonitored rule) := by
  unfold applyRule
  cases ha : rule.action with
  | allow => exact absurd ha h
  | log => rfl
  | block | challenge | jsChallenge =>
    dsimp only
    split <;> rfl

theorem forced_applyRule (hf : e.fires c ctx rule = true) :
    (e.applyRule st rule).forced = joinForced st.forced (e.forcedBy c ctx [rule]) := by
  cases ha : rule.action with
  | allow => exact absurd ha (action_ne_allow_of_fires hf)
  | log =>
    simp [applyRule, ha, forcedBy, forcedOf, forcesBlock, forcesChallenge, CompiledRule.isChallenge,
      joinForced_none]
  | block =>
    cases hm : e.ruleMonitored rule
    · simp [applyRule, ha, hm, forcedBy, forcedOf, forcesBlock, hf, joinForced]
    · simp [applyRule, ha, hm, forcedBy, forcedOf, forcesBlock, forcesChallenge, joinForced_none]
  | challenge | jsChallenge =>
    cases hm : e.ruleMonitored rule
    · by_cases hforced : st.forced = some .block
      · simp [applyRule, ha, hm, hforced, joinForced]
      · simp [applyRule, ha, hm, hforced, joinForced, forcedBy, forcedOf, forcesBlock, forcesChallenge,
          CompiledRule.isChallenge, hf]
    · simp [applyRule, ha, hm, forcedBy, forcedOf, forcesBlock, forcesChallenge, joinForced_none]

theorem stepSpec_applyRule (hs : Sane st.breakdown) (hf : e.fires c ctx rule = true) :
    StepSpec c e ctx [rule] st (e.applyRule st rule) := by
  have hb := breakdown_applyRule (e := e) (action_ne_allow_of_fires hf) st
  refine ⟨?_, ?_, ?_, forced_applyRule hf⟩
  · rw [hb]
    exact e.scorer.addSeverityHitEx_sane hs _ _
  · have hcounts : (rule.action == .log || !e.ruleMonitored rule) =
        !(rule.action != .log && e.ruleMonitored rule) := by
      rw [Bool.not_and, bne, Bool.not_not]
    rw [hb, blockScore_singleton, blockPoints, hf, hcounts]
    cases rule.action != .log && e.ruleMonitored rule <;>
      simp [add32, satAdd.zero_right hs.blockTotal_le]
  · rw [hb]
    simp [hf, add32_pos (a := st.breakdown.total) (pointsForSeverity_pos rule.severity)]

theorem stepSpec_stage2Step (hs : Sane st.breakdown) :
    StepSpec c e ctx [rule] st (e.stage2Step c ctx st rule) := by
  unfold stage2Step
  cases hf : e.fires c ctx rule with
  | false => exact stepSpec_idle hs hf
  | true => exact stepSpec_applyRule hs hf

theorem forcedBy_cons (rules : List CompiledRule) (a : Option WafAction) :
    joinForced (joinForced a (e.forcedBy c ctx [rule])) (e.forcedBy c ctx rules) =
      joinForced a (e.forcedBy c ctx (rule :: rules)) := by
  simp only [forcedBy, joinForced_forcedOf, List.any_cons, List.any_nil, Bool.or_false]

theorem StepSpec.cons {st' st'' : Stage2} {rules : List CompiledRule}
    (h : StepSpec c e ctx [rule] st st') (h' : StepSpec c e ctx rules st' st'') :
    StepSpec c e ctx (rule :: rules) st st'' where
  sane := h'.sane
  blockTotal := by
    rw [h'.blockTotal, h.blockTotal, blockScore_singleton]
    exact satAdd.satAdd_satAdd _ _ _ _
  total_pos := by
    rw [h'.total_pos, h.total_pos]
    simp [or_assoc]
  forced := by rw [h'.forced, h.forced, forcedBy_cons]

theorem stepSpec_foldl : ∀ (rules : List CompiledRule) {st : Stage2}, Sane st.breakdown →
    StepSpec c e ctx rules st (rules.foldl (e.stage2Step c ctx) st)
  | [], _, hs => stepSpec_nil hs
  | _ :: rules, _, hs =>
    have hstep := stepSpec_stage2Step hs
    hstep.cons (stepSpec_foldl rules hstep.sane)

end

/-! ## The verdict -/

section

variable {ctx : Contexts} {rules : List CompiledRule} {b : ScoreBreakdown}

theorem stepSpec_stage2 (hs : Sane b) :
    StepSpec c e ctx rules (.init b) (e.stage2 c ctx rules b) :=
  stepSpec_foldl rules hs

theorem forced_stage2 (hs : Sane b) :
    (e.stage2 c ctx rules b).forced = e.forcedBy c ctx rules := by
  rw [(stepSpec_stage2 hs).forced]
  simp [joinForced, Stage2.init]

theorem blockTotal_stage2 (hs : Sane b) :
    (e.stage2 c ctx rules b).breakdown.blockTotal =
      add32 b.blockTotal (e.blockScore c ctx rules) :=
  (stepSpec_stage2 hs).blockTotal

/-- The action of the rules: the forced one, or what the scores say. -/
def ruleAction (c : Crates) (e : WafEngine) (ctx : Contexts) (rules : List CompiledRule)
    (b : ScoreBreakdown) : WafAction :=
  match e.forcedBy c ctx rules with
  | some a => a
  | none =>
    if e.scorer.threshold ≤ b.blockTotal + e.blockScore c ctx rules then .block
    else if 0 < b.total ∨ rules.any (e.fires c ctx) = true then .monitor
    else .pass

theorem finalAction_stage2 (hs : Sane b) :
    e.finalAction (e.stage2 c ctx rules b) = e.ruleAction c ctx rules b := by
  have hthr : e.scorer.threshold ≤ (e.stage2 c ctx rules b).breakdown.blockTotal ↔
      e.scorer.threshold ≤ b.blockTotal + e.blockScore c ctx rules := by
    rw [blockTotal_stage2 hs]
    exact satAdd.le_iff e.scorer.threshold_le
  have htot : 0 < (e.stage2 c ctx rules b).breakdown.total ↔
      0 < b.total ∨ rules.any (e.fires c ctx) = true := (stepSpec_stage2 hs).total_pos
  rw [finalAction, ruleAction, forced_stage2 hs]
  cases e.forcedBy c ctx rules with
  | some _ => rfl
  | none => simp only [shouldBlock, decide_eq_true_eq, hthr, htot]

theorem forcedOf_isEnforcing {block challenge : Bool} {a : WafAction}
    (h : forcedOf block challenge = some a) : a.isEnforcing = true := by
  cases block <;> cases challenge <;> simp [forcedOf] at h <;> subst h <;> rfl

theorem ruleAction_isEnforcing :
    (e.ruleAction c ctx rules b).isEnforcing =
      ((e.forcedBy c ctx rules).isSome ||
        decide (e.scorer.threshold ≤ b.blockTotal + e.blockScore c ctx rules)) := by
  unfold ruleAction
  cases hf : e.forcedBy c ctx rules with
  | some _ => simpa using forcedOf_isEnforcing hf
  | none =>
    by_cases hthr : e.scorer.threshold ≤ b.blockTotal + e.blockScore c ctx rules
    · simp [hthr, WafAction.isEnforcing]
    · simp only [hthr, if_false]
      split <;> simp [WafAction.isEnforcing]

theorem blockScore_of_idle (h : rules.any (e.fires c ctx) = false) :
    e.blockScore c ctx rules = 0 := by
  have hidle : ∀ rule ∈ rules, e.fires c ctx rule = false := by simpa using h
  refine List.sum_eq_zero fun n hn => ?_
  obtain ⟨rule, hr, rfl⟩ := List.mem_map.mp hn
  simp [blockPoints, hidle rule hr]

theorem forcedBy_of_idle (h : rules.any (e.fires c ctx) = false) :
    e.forcedBy c ctx rules = none := by
  have hidle : ∀ rule ∈ rules, e.fires c ctx rule = false := by simpa using h
  have hblock : rules.any (e.forcesBlock c ctx) = false :=
    List.any_eq_false.mpr fun rule hr => by simp [forcesBlock, hidle rule hr]
  have hchallenge : rules.any (e.forcesChallenge c ctx) = false :=
    List.any_eq_false.mpr fun rule hr => by simp [forcesChallenge, hidle rule hr]
  rw [forcedBy, hblock, hchallenge]
  rfl

theorem ruleAction_eq_pass_iff (hs : Sane b) :
    e.ruleAction c ctx rules b = .pass ↔ b.total = 0 ∧ rules.any (e.fires c ctx) = false := by
  constructor
  · intro h
    unfold ruleAction at h
    split at h
    · next a ha =>
      have := forcedOf_isEnforcing ha
      simp [h, WafAction.isEnforcing] at this
    · split_ifs at h with _ hidle
      rw [not_or, Nat.not_lt, Nat.le_zero, Bool.not_eq_true] at hidle
      exact hidle
  · rintro ⟨htotal, hfires⟩
    have hle := hs.block_le
    have hpos := e.scorer.threshold_pos
    rw [ruleAction, forcedBy_of_idle hfires]
    dsimp only
    rw [blockScore_of_idle hfires, if_neg (by omega), if_neg (by simp [htotal, hfires])]

theorem ruleAction_eq_block_iff :
    e.ruleAction c ctx rules b = .block ↔
      (rules.any (e.forcesBlock c ctx) || (!rules.any (e.forcesChallenge c ctx) &&
        e.scorer.threshold ≤ b.blockTotal + e.blockScore c ctx rules)) = true := by
  unfold ruleAction forcedBy forcedOf
  cases rules.any (e.forcesBlock c ctx) with
  | true => simp
  | false =>
    cases rules.any (e.forcesChallenge c ctx) with
    | true => simp
    | false =>
      simp only [Bool.false_eq_true, if_false, Bool.false_or, Bool.not_false, Bool.true_and,
        decide_eq_true_eq]
      split_ifs <;> simp_all

theorem blockTotal_of_pass (hs : Sane b) (h : e.ruleAction c ctx rules b = .pass) :
    add32 b.blockTotal (e.blockScore c ctx rules) = 0 := by
  obtain ⟨htotal, hfires⟩ := (ruleAction_eq_pass_iff hs).mp h
  have hblock : b.blockTotal = 0 := by
    have := hs.block_le
    omega
  rw [hblock, blockScore_of_idle hfires]
  rfl

/-- In monitor mode nothing is enforced. -/
def effective (mode : WafMode) (a : WafAction) : WafAction :=
  if mode == .monitor && a.isEnforcing then .monitor else a

theorem effective_eq_pass_iff {mode : WafMode} {a : WafAction} :
    effective mode a = .pass ↔ a = .pass := by
  cases mode <;> cases a <;> simp [effective, WafAction.isEnforcing]

theorem effective_eq_block_iff {mode : WafMode} {a : WafAction} (h : mode ≠ .off) :
    effective mode a = .block ↔ mode = .block ∧ a = .block := by
  cases mode <;> cases a <;> simp [effective, WafAction.isEnforcing] at h ⊢

def judgeAction (c : Crates) (e : WafEngine) (rules : List CompiledRule) (ctx : Contexts)
    (s1 : Stage1) : WafAction :=
  if rules.any (e.allows c ctx) then .pass
  else if e.fastPathBlockOnCritical && s1.criticalHit then effective e.mode .block
  else effective e.mode (e.ruleAction c ctx rules s1.breakdown)

theorem scoredVerdict_action (s1 : Stage1) (s2 : Stage2) (i : BodyInspection) :
    (e.scoredVerdict d s1 s2 i).action = effective e.mode (e.finalAction s2) := by
  unfold scoredVerdict
  dsimp only
  split
  · rename_i h
    simp [h, WafVerdict.pass, effective, WafAction.isEnforcing]
  · rfl

theorem judge_action {s1 : Stage1} (hs : Sane s1.breakdown) (i : BodyInspection) :
    (e.judge c d rules ctx s1 i).action = e.judgeAction c rules ctx s1 := by
  rw [judge, judgeAction, ← List.isSome_find?]
  cases rules.find? (e.allows c ctx) with
  | some _ => rfl
  | none =>
    dsimp only [Option.isSome]
    rw [if_neg Bool.false_ne_true]
    split
    · rfl
    · rw [scoredVerdict_action, finalAction_stage2 hs]

/-- The breakdown of a verdict, from the rule list and stage 1. -/
def judgeBreakdown (c : Crates) (e : WafEngine) (rules : List CompiledRule) (ctx : Contexts)
    (s1 : Stage1) : ScoreBreakdown :=
  let classified (b : ScoreBreakdown) := { b with overallClass := e.scorer.classify b.blockTotal }
  if rules.any (e.allows c ctx) then s1.breakdown
  else if e.fastPathBlockOnCritical && s1.criticalHit then classified s1.breakdown
  else if e.ruleAction c ctx rules s1.breakdown = .pass then .clean
  else classified (e.stage2 c ctx rules s1.breakdown).breakdown

theorem judge_breakdown {s1 : Stage1} (hs : Sane s1.breakdown) (i : BodyInspection) :
    (e.judge c d rules ctx s1 i).breakdown = e.judgeBreakdown c rules ctx s1 := by
  rw [judge, judgeBreakdown, ← List.isSome_find?]
  cases rules.find? (e.allows c ctx) with
  | some _ => rfl
  | none =>
    dsimp only [Option.isSome]
    rw [if_neg Bool.false_ne_true]
    split
    · rfl
    · unfold scoredVerdict
      rw [finalAction_stage2 hs]
      dsimp only
      split <;> rfl

/-- The blocking total of an inspection in closed form: the rules count unless an allow rule or
the fast path came before them. -/
theorem judge_blockTotal {s1 : Stage1} (hs : Sane s1.breakdown) (i : BodyInspection) :
    (e.judge c d rules ctx s1 i).breakdown.blockTotal =
      if rules.any (e.allows c ctx) || (e.fastPathBlockOnCritical && s1.criticalHit) then
        s1.breakdown.blockTotal
      else add32 s1.breakdown.blockTotal (e.blockScore c ctx rules) := by
  rw [judge_breakdown hs, judgeBreakdown]
  cases rules.any (e.allows c ctx) with
  | true => rfl
  | false =>
    cases e.fastPathBlockOnCritical && s1.criticalHit with
    | true => rfl
    | false =>
      simp only [Bool.false_eq_true, if_false, Bool.or_self]
      split
      · next hpass => exact (blockTotal_of_pass hs hpass).symm
      · exact blockTotal_stage2 hs

end

/-! ## An inspection as a judgement on a rule list -/

def withRules (e : WafEngine) (rules : List CompiledRule) : WafEngine := { e with rules := rules }

/-- The request an inspection looks at: without its body when the scan budget is exhausted. -/
def inspected (budget : ScanBudget) (q : RequestData) : RequestData :=
  if budget.admits (estimatedScanBytes q) then q else { q with body := none }

section

variable (c : Crates) (d : Detectors) (e : WafEngine) (budget : ScanBudget) (q : RequestData)

/-- Stage 1 of the request. -/
def firstStage : Stage1 := e.stage1 d (e.normalize c (inspected budget q))

/-- What stage 2 evaluates the rules on. -/
def ruleContexts : Contexts :=
  contexts (inspected budget q) (e.normalize c (inspected budget q))
    (e.firstStage c d budget q).breakdown

/-- The position of the allow rule that ends the inspection, if one does. -/
def exemptedAt : Option Nat := e.rules.findIdx? (e.allows c (e.ruleContexts c d budget q))

/-- An allow rule matches the request. -/
def exempted : Bool := e.rules.any (e.allows c (e.ruleContexts c d budget q))

/-- A detector finds something in the request, or a rule matches it. -/
def noticed : Bool :=
  let n := e.normalize c (inspected budget q)
  n.decodedValues.any (e.detects d) || pathHit d n.path ||
    e.rules.any (e.fires c (e.ruleContexts c d budget q))

/-- What makes for a block: a critical hit where the fast path is on; a block rule that is enforced;
or, when no enforced challenge rule matches, blocking points up to the threshold. -/
def condemned : Bool :=
  let ctx := e.ruleContexts c d budget q
  let s1 := e.firstStage c d budget q
  (e.fastPathBlockOnCritical && s1.criticalHit) || e.rules.any (e.forcesBlock c ctx) ||
    (!e.rules.any (e.forcesChallenge c ctx) &&
      e.scorer.threshold ≤ s1.breakdown.blockTotal + e.blockScore c ctx e.rules)

theorem firstStage_sane : Sane (e.firstStage c d budget q).breakdown := stage1_sane ..

variable {e}

theorem inspectReserved_eq (h : e.mode ≠ .off) :
    e.inspectReserved c d q =
      e.judge c d e.rules
        (contexts q (e.normalize c q) (e.stage1 d (e.normalize c q)).breakdown)
        (e.stage1 d (e.normalize c q)) (e.normalize c q).bodyInspection := by
  simp [inspectReserved, h]

theorem inspect_eq (h : e.mode ≠ .off) :
    e.inspect c d budget q =
      if budget.admits (estimatedScanBytes q) then e.inspectReserved c d q
      else e.inspectWithoutBody c d q :=
  if_neg h

theorem inspect_judge (h : e.mode ≠ .off) :
    ∃ i, (e.inspect c d budget q).action =
        (e.judge c d e.rules (e.ruleContexts c d budget q) (e.firstStage c d budget q) i).action ∧
      (e.inspect c d budget q).breakdown =
        (e.judge c d e.rules (e.ruleContexts c d budget q)
          (e.firstStage c d budget q) i).breakdown ∧
      (e.inspect c d budget q).enforcedRuleId =
        (e.judge c d e.rules (e.ruleContexts c d budget q)
          (e.firstStage c d budget q) i).enforcedRuleId := by
  refine ⟨(e.normalize c (inspected budget q)).bodyInspection, ?_⟩
  rw [inspect_eq c d budget q h]
  unfold ruleContexts firstStage inspected
  split
  · rw [inspectReserved_eq c d q h]
    exact ⟨rfl, rfl, rfl⟩
  · unfold inspectWithoutBody
    rw [inspectReserved_eq c d _ h]
    exact ⟨rfl, rfl, rfl⟩

theorem inspect_action (h : e.mode ≠ .off) :
    (e.inspect c d budget q).action =
      e.judgeAction c e.rules (e.ruleContexts c d budget q) (e.firstStage c d budget q) := by
  obtain ⟨i, ha, -⟩ := inspect_judge c d budget q h
  rw [ha, judge_action (firstStage_sane c d e budget q)]

theorem inspect_blockTotal (h : e.mode ≠ .off) :
    (e.inspect c d budget q).breakdown.blockTotal =
      if e.rules.any (e.allows c (e.ruleContexts c d budget q)) ||
          (e.fastPathBlockOnCritical && (e.firstStage c d budget q).criticalHit) then
        (e.firstStage c d budget q).breakdown.blockTotal
      else add32 (e.firstStage c d budget q).breakdown.blockTotal
        (e.blockScore c (e.ruleContexts c d budget q) e.rules) := by
  obtain ⟨i, -, hb, -⟩ := inspect_judge c d budget q h
  rw [hb, judge_blockTotal (firstStage_sane c d e budget q)]

/-- A request passes if an allow rule matches it, or nothing is noticed. -/
theorem inspect_pass_iff (h : e.mode ≠ .off) :
    (e.inspect c d budget q).action = .pass ↔
      e.exempted c d budget q = true ∨ e.noticed c d budget q = false := by
  have hpushed := stage1_pushed d e (e.normalize c (inspected budget q))
  rw [inspect_action c d budget q h, judgeAction]
  change (if e.exempted c d budget q then _ else _) = _ ↔ _
  cases e.exempted c d budget q with
  | true => simp
  | false =>
    unfold noticed
    dsimp only
    rw [if_neg Bool.false_ne_true, or_iff_right Bool.false_ne_true, Bool.or_eq_false_iff]
    cases hhit : (e.normalize c (inspected budget q)).decodedValues.any (e.detects d) ||
        pathHit d (e.normalize c (inspected budget q)).path with
    | true =>
      -- A hit scores, so that neither the fast path nor the rules let the request pass.
      have hlive : 0 < (e.firstStage c d budget q).breakdown.total := hpushed.pos hhit
      refine iff_of_false ?_ (fun h => Bool.true_eq_false.mp h.1)
      split
      · rw [effective_eq_pass_iff]
        exact WafAction.noConfusion
      · rw [effective_eq_pass_iff, ruleAction_eq_pass_iff (firstStage_sane c d e budget q)]
        exact fun hpass => Nat.ne_of_gt hlive hpass.1
    | false =>
      have hinit : e.firstStage c d budget q = .init := hpushed.idle hhit
      rw [hinit, if_neg (by simp [Stage1.init]), effective_eq_pass_iff]
      exact (ruleAction_eq_pass_iff sane_clean).trans (and_congr_left fun _ => iff_of_true rfl rfl)

/-- A request is blocked in block mode only, when no allow rule matches it and it is condemned. -/
theorem inspect_block_iff :
    (e.inspect c d budget q).action = .block ↔
      e.mode = .block ∧ e.exempted c d budget q = false ∧ e.condemned c d budget q = true := by
  by_cases hoff : e.mode = .off
  · rw [inspect, if_pos hoff, hoff]
    simp [WafVerdict.pass]
  · rw [inspect_action c d budget q hoff, judgeAction]
    change (if e.exempted c d budget q then _ else _) = _ ↔ _
    cases e.exempted c d budget q with
    | true => simp
    | false =>
      unfold condemned
      dsimp only
      rw [if_neg Bool.false_ne_true]
      cases e.fastPathBlockOnCritical && (e.firstStage c d budget q).criticalHit with
      | true =>
        rw [if_pos rfl, effective_eq_block_iff hoff]
        simp
      | false =>
        rw [if_neg Bool.false_ne_true, effective_eq_block_iff hoff, ruleAction_eq_block_iff]
        simp

end

end WafEngine

end PingWaf.Waf
