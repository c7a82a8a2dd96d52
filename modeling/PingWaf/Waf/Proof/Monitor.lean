import PingWaf.Waf.Proof.Verdict

/-!
# Monitor-only rules

A monitored block or challenge rule is inert. Two arms of the rule loop do not look at the monitor
switch: the allow pre-pass and the log arm, whose points reach the blocking total.
-/

namespace PingWaf.Waf

open AnomalyScorer

namespace WafEngine

section

variable (c : Crates) (d : Detectors) (e : WafEngine) (budget : ScanBudget) (q : RequestData)
variable (pre : List CompiledRule) (r : CompiledRule) (post : List CompiledRule)

/-- Taking the rule `r` out changes neither whether the verdict enforces nor the blocking total,
and `r` is not the allow rule that ends the inspection. -/
def NonInterfering : Prop :=
  let on := e.withRules (pre ++ r :: post)
  let off := e.withRules (pre ++ post)
  ((on.inspect c d budget q).action.isEnforcing = (off.inspect c d budget q).action.isEnforcing) ∧
    (on.inspect c d budget q).breakdown.blockTotal =
      (off.inspect c d budget q).breakdown.blockTotal ∧
    on.exemptedAt c d budget q ≠ some pre.length

/-- The rule is the first that allows the request. -/
def ExemptsFirst : Prop :=
  e.allows c (e.ruleContexts c d budget q) r = true ∧
    ∀ a ∈ pre, e.allows c (e.ruleContexts c d budget q) a = false

/-- The rule is a matching log rule that the rule loop reaches, with room left in the score. -/
def LogCounts : Prop :=
  r.action = .log ∧ e.fires c (e.ruleContexts c d budget q) r = true ∧
    (pre ++ post).any (e.allows c (e.ruleContexts c d budget q)) = false ∧
    (e.fastPathBlockOnCritical && (e.firstStage c d budget q).criticalHit) = false ∧
    (e.firstStage c d budget q).breakdown.blockTotal +
      e.blockScore c (e.ruleContexts c d budget q) (pre ++ post) < u32Max

end

/-! ## Lists with one rule more -/

theorem any_insert (p : CompiledRule → Bool) (pre : List CompiledRule) (r : CompiledRule)
    (post : List CompiledRule) : (pre ++ r :: post).any p = ((pre ++ post).any p || p r) := by
  simp only [List.any_append, List.any_cons]
  cases pre.any p <;> cases p r <;> simp

section

variable {c : Crates} {d : Detectors} {e : WafEngine} {ctx : Contexts}
variable {pre : List CompiledRule} {r : CompiledRule} {post : List CompiledRule}

theorem blockScore_insert : e.blockScore c ctx (pre ++ r :: post) =
    e.blockScore c ctx (pre ++ post) + e.blockPoints c ctx r := by
  simp only [blockScore, List.map_append, List.map_cons, List.sum_append, List.sum_cons]
  omega

theorem forcedBy_insert (hm : e.ruleMonitored r = true) :
    e.forcedBy c ctx (pre ++ r :: post) = e.forcedBy c ctx (pre ++ post) := by
  simp [forcedBy, forcesBlock, forcesChallenge, hm]

theorem blockPoints_monitored (hm : e.ruleMonitored r = true)
    (h : ¬(r.action = .log ∧ e.fires c ctx r = true)) : e.blockPoints c ctx r = 0 := by
  unfold blockPoints
  rw [if_neg]
  simp only [hm, Bool.not_true, Bool.or_false, Bool.and_eq_true, beq_iff_eq]
  exact fun hc => h ⟨hc.2, hc.1⟩

theorem blockPoints_log (ha : r.action = .log) (hf : e.fires c ctx r = true) :
    e.blockPoints c ctx r = pointsForSeverity r.severity := by
  simp [blockPoints, ha, hf]

theorem findIdx_eq_length_iff (p : CompiledRule → Bool) :
    (pre ++ r :: post).findIdx? p = some pre.length ↔ p r = true ∧ ∀ a ∈ pre, p a = false := by
  rw [List.findIdx?_eq_some_iff_getElem]
  constructor
  · rintro ⟨hlt, hr, hpre⟩
    refine ⟨by simpa using hr, fun a ha => ?_⟩
    obtain ⟨j, hj, rfl⟩ := List.getElem_of_mem ha
    simpa [List.getElem_append_left hj] using hpre j hj
  · rintro ⟨hr, hpre⟩
    refine ⟨by simp, by simpa using hr, fun j hj => ?_⟩
    simpa [List.getElem_append_left hj] using hpre _ (List.getElem_mem hj)

end

/-! ## The two runs -/

section

variable {c : Crates} {d : Detectors} {e : WafEngine} {budget : ScanBudget} {q : RequestData}
variable {pre : List CompiledRule} {r : CompiledRule} {post : List CompiledRule}

theorem enforcing_withRules (hmode : e.mode = .block) (rules : List CompiledRule) :
    ((e.withRules rules).inspect c d budget q).action.isEnforcing =
      (!rules.any (e.allows c (e.ruleContexts c d budget q)) &&
        ((e.fastPathBlockOnCritical && (e.firstStage c d budget q).criticalHit) ||
          (e.ruleAction c (e.ruleContexts c d budget q) rules
            (e.firstStage c d budget q).breakdown).isEnforcing)) := by
  rw [inspect_action c d budget q (by simp [withRules, hmode])]
  change (e.judgeAction c rules (e.ruleContexts c d budget q)
    (e.firstStage c d budget q)).isEnforcing = _
  unfold judgeAction effective
  rw [hmode]
  cases rules.any (e.allows c (e.ruleContexts c d budget q)) <;>
    cases e.fastPathBlockOnCritical && (e.firstStage c d budget q).criticalHit <;>
    simp [WafAction.isEnforcing]

theorem blockTotal_withRules (hmode : e.mode = .block) (rules : List CompiledRule) :
    ((e.withRules rules).inspect c d budget q).breakdown.blockTotal =
      if rules.any (e.allows c (e.ruleContexts c d budget q)) ||
          (e.fastPathBlockOnCritical && (e.firstStage c d budget q).criticalHit) then
        (e.firstStage c d budget q).breakdown.blockTotal
      else add32 (e.firstStage c d budget q).breakdown.blockTotal
        (e.blockScore c (e.ruleContexts c d budget q) rules) :=
  inspect_blockTotal c d budget q (by simp [withRules, hmode])

theorem not_nonInterfering_of_logCounts (hmode : e.mode = .block)
    (h : LogCounts c d e budget q pre r post) : ¬NonInterfering c d e budget q pre r post := by
  obtain ⟨hlog, hfires, hallow, hfast, hroom⟩ := h
  rintro ⟨-, hblock, -⟩
  have hr : e.allows c (e.ruleContexts c d budget q) r = false := by simp [allows, hlog]
  rw [blockTotal_withRules hmode, blockTotal_withRules hmode, any_insert, hallow, hr, hfast,
    blockScore_insert, blockPoints_log hlog hfires] at hblock
  have hfull := (satAdd.add_eq_iff (pointsForSeverity_pos r.severity)).mp hblock
  omega

/-- With no allow rule in play, a monitored rule that is not a reached log rule changes neither
the blocking total nor whether the verdict enforces. -/
theorem same_judgement_of_monitored (hmode : e.mode = .block) (hm : e.ruleMonitored r = true)
    (hallow : (pre ++ post).any (e.allows c (e.ruleContexts c d budget q)) = false)
    (hr : e.allows c (e.ruleContexts c d budget q) r = false)
    (hlog : ¬LogCounts c d e budget q pre r post) :
    ((e.withRules (pre ++ r :: post)).inspect c d budget q).action.isEnforcing =
        ((e.withRules (pre ++ post)).inspect c d budget q).action.isEnforcing ∧
      ((e.withRules (pre ++ r :: post)).inspect c d budget q).breakdown.blockTotal =
        ((e.withRules (pre ++ post)).inspect c d budget q).breakdown.blockTotal := by
  rw [enforcing_withRules hmode, enforcing_withRules hmode, blockTotal_withRules hmode,
    blockTotal_withRules hmode, any_insert, hallow, hr, ruleAction_isEnforcing,
    ruleAction_isEnforcing, forcedBy_insert hm, blockScore_insert]
  cases hfast : e.fastPathBlockOnCritical && (e.firstStage c d budget q).criticalHit with
  | true => simp
  | false =>
    by_cases hcounts : r.action = .log ∧ e.fires c (e.ruleContexts c d budget q) r = true
    · -- the score is full without the rule, so its points are lost
      have hfull : u32Max ≤ (e.firstStage c d budget q).breakdown.blockTotal +
          e.blockScore c (e.ruleContexts c d budget q) (pre ++ post) :=
        Nat.not_lt.mp fun hlt => hlog ⟨hcounts.1, hcounts.2, hallow, hfast, hlt⟩
      have hthr := e.scorer.threshold_le
      have hpos := pointsForSeverity_pos r.severity
      rw [blockPoints_log hcounts.1 hcounts.2]
      refine ⟨?_, (satAdd.add_eq_iff hpos).mpr hfull⟩
      rw [decide_eq_true (p := e.scorer.threshold ≤ _) (by omega),
        decide_eq_true (p := e.scorer.threshold ≤ _) (by omega)]
      rfl
    · rw [blockPoints_monitored hm hcounts]
      exact ⟨rfl, rfl⟩

/-- **A monitored rule interferes with an enforcing verdict in two ways only**: as the first
matching allow rule, and as a log rule that stage 2 reaches. -/
theorem monitored_rule_noninterfering_iff (c : Crates) (d : Detectors) (e : WafEngine)
    (budget : ScanBudget) (q : RequestData) (pre : List CompiledRule) (r : CompiledRule)
    (post : List CompiledRule) (hmode : e.mode = .block) (hm : e.ruleMonitored r = true) :
    NonInterfering c d e budget q pre r post ↔
      ¬ExemptsFirst c d e budget q pre r ∧ ¬LogCounts c d e budget q pre r post := by
  have hexempt : (e.withRules (pre ++ r :: post)).exemptedAt c d budget q = some pre.length ↔
      ExemptsFirst c d e budget q pre r := findIdx_eq_length_iff _
  constructor
  · intro h
    exact ⟨fun hx => h.2.2 (hexempt.mpr hx), fun hl => not_nonInterfering_of_logCounts hmode hl h⟩
  · rintro ⟨hx, hl⟩
    cases hallow : (pre ++ post).any (e.allows c (e.ruleContexts c d budget q)) with
    | true =>
      -- another allow rule ends both inspections
      refine ⟨?_, ?_, mt hexempt.mp hx⟩
      · rw [enforcing_withRules hmode, enforcing_withRules hmode, any_insert, hallow]
        rfl
      · rw [blockTotal_withRules hmode, blockTotal_withRules hmode, any_insert, hallow]
        rfl
    | false =>
      have hr : e.allows c (e.ruleContexts c d budget q) r = false := by
        refine Bool.eq_false_iff.mpr fun hr => hx ⟨hr, fun a ha => ?_⟩
        exact Bool.eq_false_iff.mpr (List.any_eq_false.mp hallow a (List.mem_append_left _ ha))
      obtain ⟨henf, hblock⟩ := same_judgement_of_monitored hmode hm hallow hr hl
      exact ⟨henf, hblock, mt hexempt.mp hx⟩

end

/-! ## A monitored log rule that blocks -/

/-- An engine with default settings apart from its threshold, without managed rules. -/
def bare (threshold : UInt32) (monitored : List String) : WafEngine where
  rules := []
  scorer := .new threshold 2
  mode := .block
  level := .normal
  stackSet := .all
  maxDecodeLayers := 3
  fastPathBlockOnCritical := true
  monitorCategories := .empty
  monitorStacks := .empty
  monitorManagedRules := []
  monitorCustomRules := monitored

def anyPathRule (id : String) (action : RuleAction) : CompiledRule where
  id := id
  name := id
  expression := .field ⟨.requestPath, none⟩ .startsWith (.str "/")
  action := action
  severity := 5
  tags := []
  enabled := true
  paranoiaLevel := 1
  stackSet := .generic

def getRoot : RequestData where
  method := "GET"
  path := "/"
  query := ""
  headers := [("host", "example.com")]
  body := none
  clientIp := "192.0.2.1"
  countryCode := none
  scheme := "https"

def freeBudget : ScanBudget := ⟨1024, 0⟩

/-- With a threshold of five, one monitored log rule of severity five turns a pass into a block. -/
theorem monitored_log_rule_blocks :
    (bare 5 ["watch"]).ruleMonitored (anyPathRule "watch" .log) = true ∧
      (((bare 5 ["watch"]).withRules [anyPathRule "watch" .log]).inspect .inert .silent freeBudget
        getRoot).action = .block ∧
      (((bare 5 ["watch"]).withRules []).inspect .inert .silent freeBudget getRoot).action =
        .pass := by
  decide +kernel

/-- A monitored block rule on the same engine meets the condition. -/
theorem monitored_block_rule_inert :
    NonInterfering .inert .silent (bare 5 ["watch"]) freeBudget getRoot []
      (anyPathRule "watch" .block) [] :=
  (monitored_rule_noninterfering_iff .inert .silent (bare 5 ["watch"]) freeBudget getRoot []
    (anyPathRule "watch" .block) [] rfl (by decide)).mpr
    ⟨fun h => absurd h.1 (by decide +kernel), fun h => absurd h.1 (by decide)⟩

end WafEngine

end PingWaf.Waf
