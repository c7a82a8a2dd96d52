import PingWaf.Waf.Proof.Monitor

/-!
# The order of the rules

The closed form of the action (`judge_action`) reads the rule list through `any` and a sum, so a
permutation does not change it. The breakdown is a fold whose steps commute. The rule that is named
is the first one that forces the action: which one depends on the order.
-/

namespace PingWaf.Waf

open AnomalyScorer

namespace WafEngine

section

variable {c : Crates} {d : Detectors} {e : WafEngine} {ctx : Contexts}

/-! ## The breakdown -/

theorem add32_right_comm (a b c : Nat) : add32 (add32 a b) c = add32 (add32 a c) b := by
  unfold add32
  rw [satAdd.satAdd_satAdd, satAdd.satAdd_satAdd, Nat.add_comm]

theorem addSeverityHitEx_comm (s : AnomalyScorer) (b : ScoreBreakdown) (sev sev' : Nat)
    (m m' : Bool) :
    s.addSeverityHitEx (s.addSeverityHitEx b sev m) sev' m' =
      s.addSeverityHitEx (s.addSeverityHitEx b sev' m') sev m := by
  have htotal := add32_right_comm b.total (pointsForSeverity sev) (pointsForSeverity sev')
  have hblock := add32_right_comm b.blockTotal (pointsForSeverity sev) (pointsForSeverity sev')
  cases m <;> cases m' <;> simp [addSeverityHitEx, htotal, hblock]

/-- What a rule does to the breakdown: a log rule counts as if it were not monitored. -/
def scoreStep (c : Crates) (e : WafEngine) (ctx : Contexts) (b : ScoreBreakdown)
    (rule : CompiledRule) : ScoreBreakdown :=
  if e.fires c ctx rule then
    e.scorer.addSeverityHitEx b rule.severity (rule.action != .log && e.ruleMonitored rule)
  else b

theorem breakdown_stage2Step (st : Stage2) (rule : CompiledRule) :
    (e.stage2Step c ctx st rule).breakdown = e.scoreStep c ctx st.breakdown rule := by
  unfold stage2Step scoreStep
  split
  · next hf => exact breakdown_applyRule (action_ne_allow_of_fires hf) st
  · rfl

theorem breakdown_stage2 (rules : List CompiledRule) (b : ScoreBreakdown) :
    (e.stage2 c ctx rules b).breakdown = rules.foldl (e.scoreStep c ctx) b :=
  (List.foldl_hom Stage2.breakdown fun st rule => (breakdown_stage2Step st rule).symm).symm

theorem breakdown_stage2_perm {rules rules' : List CompiledRule} (h : rules.Perm rules')
    (b : ScoreBreakdown) :
    (e.stage2 c ctx rules b).breakdown = (e.stage2 c ctx rules' b).breakdown := by
  rw [breakdown_stage2, breakdown_stage2]
  refine h.foldl_eq' (fun x _ y _ b => ?_) b
  unfold scoreStep
  split <;> split
  · exact addSeverityHitEx_comm _ _ _ _ _ _
  all_goals rfl

/-! ## The judgement -/

theorem ruleAction_perm {rules rules' : List CompiledRule} (h : rules.Perm rules')
    (b : ScoreBreakdown) : e.ruleAction c ctx rules b = e.ruleAction c ctx rules' b := by
  have hscore : e.blockScore c ctx rules = e.blockScore c ctx rules' := (h.map _).sum_eq
  have hforced : e.forcedBy c ctx rules = e.forcedBy c ctx rules' := by
    unfold forcedBy
    rw [h.any_eq, h.any_eq]
  unfold ruleAction
  rw [hforced, hscore, h.any_eq]

theorem judgeBreakdown_perm {rules rules' : List CompiledRule} (h : rules.Perm rules')
    (s1 : Stage1) : e.judgeBreakdown c rules ctx s1 = e.judgeBreakdown c rules' ctx s1 := by
  unfold judgeBreakdown
  rw [h.any_eq, ruleAction_perm h, breakdown_stage2_perm h]

theorem judgeAction_perm {rules rules' : List CompiledRule} (h : rules.Perm rules')
    (s1 : Stage1) : e.judgeAction c rules ctx s1 = e.judgeAction c rules' ctx s1 := by
  unfold judgeAction
  rw [h.any_eq, ruleAction_perm h]

/-! ## The rule that is named -/

def RuleAction.forces : RuleAction → Option WafAction
  | .block => some .block
  | .challenge | .jsChallenge => some .challenge
  | .log | .allow => none

/-- The rule fires, is enforced and forces the action. -/
structure Forces (c : Crates) (e : WafEngine) (ctx : Contexts) (a : WafAction)
    (rule : CompiledRule) : Prop where
  enabled : rule.enabled = true
  fires : e.fires c ctx rule = true
  enforced : e.ruleMonitored rule = false
  action : RuleAction.forces rule.action = some a

theorem Forces.intro {a : WafAction} {rule : CompiledRule} (hf : e.fires c ctx rule = true)
    (hm : e.ruleMonitored rule = false) (ha : RuleAction.forces rule.action = some a) :
    Forces c e ctx a rule := by
  refine ⟨?_, hf, hm, ha⟩
  simp only [WafEngine.fires, isActive, Bool.and_eq_true] at hf
  exact hf.1.1.1.1

/-- Each register holds the name of a rule that forces its action, and holds one when the action is
forced. -/
structure Credited (c : Crates) (e : WafEngine) (ctx : Contexts) (rules : List CompiledRule)
    (st : Stage2) : Prop where
  block : ∀ id, st.enforcedBlock = some id →
    ∃ rule ∈ rules, Forces c e ctx .block rule ∧ rule.id = id
  challenge : ∀ id, st.enforcedChallenge = some id →
    ∃ rule ∈ rules, Forces c e ctx .challenge rule ∧ rule.id = id
  blocked : st.forced = some .block → st.enforcedBlock.isSome = true
  challenged : st.forced = some .challenge → st.enforcedChallenge.isSome = true

theorem register_cases {register : Option String} {name id : String}
    (h : register.or (some name) = some id) : register = some id ∨ name = id := by
  cases register with
  | none => exact .inr (Option.some.inj h)
  | some _ => exact .inl h

theorem credited_applyRule {rules : List CompiledRule} {st : Stage2} {rule : CompiledRule}
    (h : Credited c e ctx rules st) (hmem : rule ∈ rules) (hf : e.fires c ctx rule = true) :
    Credited c e ctx rules (e.applyRule st rule) := by
  have hsame (recs : List RuleRec) (b : ScoreBreakdown) :
      Credited c e ctx rules { st with ruleRecs := recs, breakdown := b } :=
    ⟨h.block, h.challenge, h.blocked, h.challenged⟩
  unfold applyRule
  cases ha : rule.action with
  | allow | log => exact hsame _ _
  | block =>
    dsimp only
    cases hm : e.ruleMonitored rule with
    | true => exact hsame _ _
    | false =>
      refine ⟨fun id hid => ?_, h.challenge, fun _ => by simp, nofun⟩
      rcases register_cases hid with hold | rfl
      · exact h.block id hold
      · exact ⟨rule, hmem, .intro hf hm (by rw [ha]; rfl), rfl⟩
  | challenge | jsChallenge =>
    dsimp only
    split
    · exact hsame _ _
    · next hfree =>
      have hm : e.ruleMonitored rule = false := by simp at hfree; exact hfree.1
      refine ⟨h.block, fun id hid => ?_, nofun, fun _ => by simp⟩
      rcases register_cases hid with hold | rfl
      · exact h.challenge id hold
      · exact ⟨rule, hmem, .intro hf hm (by rw [ha]; rfl), rfl⟩

theorem credited_stage2 (rules : List CompiledRule) (b : ScoreBreakdown) :
    Credited c e ctx rules (e.stage2 c ctx rules b) := by
  refine List.foldlRecOn (motive := Credited c e ctx rules) rules _ ⟨nofun, nofun, nofun, nofun⟩
    fun st hst rule hmem => ?_
  unfold stage2Step
  split
  · next hf => exact credited_applyRule hst hmem hf
  · exact hst

theorem enforcedRule_stage2 {rules : List CompiledRule} {b : ScoreBreakdown} {a : WafAction}
    (hforced : (e.stage2 c ctx rules b).forced = some a) (ha : a.isEnforcing = true) :
    ∃ rule ∈ rules, Forces c e ctx a rule ∧
      enforcedRule (e.stage2 c ctx rules b) = some rule.id := by
  have hcred : Credited c e ctx rules (e.stage2 c ctx rules b) := credited_stage2 rules b
  unfold enforcedRule
  rw [hforced]
  cases a with
  | pass | monitor => cases ha
  | block =>
    obtain ⟨id, hid⟩ := Option.isSome_iff_exists.mp (hcred.blocked hforced)
    obtain ⟨rule, hmem, hrule, rfl⟩ := hcred.block id hid
    exact ⟨rule, hmem, hrule, hid⟩
  | challenge =>
    obtain ⟨id, hid⟩ := Option.isSome_iff_exists.mp (hcred.challenged hforced)
    obtain ⟨rule, hmem, hrule, rfl⟩ := hcred.challenge id hid
    exact ⟨rule, hmem, hrule, hid⟩

end

/-! ## Inspections -/

section

variable (c : Crates) (d : Detectors) (e : WafEngine) (budget : ScanBudget) (q : RequestData)

def secondStage : Stage2 :=
  e.stage2 c (e.ruleContexts c d budget q) e.rules (e.firstStage c d budget q).breakdown

/-- The inspection gets through the allow rules and the fast path, and a rule forces the action. -/
structure RuleForced (a : WafAction) : Prop where
  unexempted : e.rules.any (e.allows c (e.ruleContexts c d budget q)) = false
  notCritical : (e.fastPathBlockOnCritical && (e.firstStage c d budget q).criticalHit) = false
  forced : (e.secondStage c d budget q).forced = some a

end

section

variable {c : Crates} {d : Detectors} {e : WafEngine} {budget : ScanBudget} {q : RequestData}

theorem inspect_breakdown (h : e.mode ≠ .off) :
    (e.inspect c d budget q).breakdown =
      e.judgeBreakdown c e.rules (e.ruleContexts c d budget q) (e.firstStage c d budget q) := by
  obtain ⟨i, -, hb, -⟩ := inspect_judge c d budget q h
  rw [hb, judge_breakdown (firstStage_sane c d e budget q)]

theorem inspect_off (h : e.mode = .off) : e.inspect c d budget q = .pass := if_pos h

theorem inspect_withRules_perm {rules : List CompiledRule} (h : rules.Perm e.rules) :
    ((e.withRules rules).inspect c d budget q).action = (e.inspect c d budget q).action ∧
      ((e.withRules rules).inspect c d budget q).breakdown =
        (e.inspect c d budget q).breakdown := by
  by_cases hmode : e.mode = .off
  · have hoff : (e.withRules rules).mode = .off := hmode
    rw [inspect_off hmode, inspect_off hoff]
    exact ⟨rfl, rfl⟩
  · have hon : (e.withRules rules).mode ≠ .off := hmode
    constructor
    · rw [inspect_action c d budget q hmode, inspect_action c d budget q hon]
      exact judgeAction_perm h _
    · rw [inspect_breakdown hmode, inspect_breakdown hon]
      exact judgeBreakdown_perm h _

theorem enforcedRuleId_finalizeVerdict (hmode : e.mode = .block) (b : ScoreBreakdown)
    (matched : List String) (enforced : Option String) (details : List String)
    (requested : WafAction) (reason : String) (surfaces : List Surface) :
    (e.finalizeVerdict b matched enforced details requested reason surfaces).enforcedRuleId =
      if requested = .monitor then none else enforced := by
  simp only [finalizeVerdict, hmode]
  rfl

theorem inspect_ruleForced (hmode : e.mode = .block) {a : WafAction}
    (h : RuleForced c d e budget q a) :
    (e.inspect c d budget q).action = a ∧
      ∃ rule ∈ e.rules, Forces c e (e.ruleContexts c d budget q) a rule ∧
        (e.inspect c d budget q).enforcedRuleId = some rule.id := by
  have hon : e.mode ≠ .off := by rw [hmode]; decide
  have ha : a.isEnforcing = true := by
    have hforced := h.forced
    unfold secondStage at hforced
    rw [forced_stage2 (firstStage_sane c d e budget q)] at hforced
    exact forcedOf_isEnforcing hforced
  obtain ⟨i, haction, -, hid⟩ := inspect_judge c d budget q hon
  obtain ⟨rule, hmem, hrule, hname⟩ := enforcedRule_stage2 h.forced ha
  have hfind : e.rules.find? (e.allows c (e.ruleContexts c d budget q)) = none := by
    simpa using h.unexempted
  have hfinal : e.finalAction (e.secondStage c d budget q) = a := by
    unfold finalAction
    rw [h.forced]
  have hjudge : e.judge c d e.rules (e.ruleContexts c d budget q) (e.firstStage c d budget q) i =
      e.scoredVerdict d (e.firstStage c d budget q) (e.secondStage c d budget q) i := by
    unfold judge
    rw [hfind]
    dsimp only
    rw [h.notCritical]
    rfl
  rw [hjudge] at haction hid
  have hpass : a ≠ .pass := by rintro rfl; cases ha
  have hmonitor : a ≠ .monitor := by rintro rfl; cases ha
  refine ⟨?_, rule, hmem, hrule, ?_⟩
  · rw [haction, scoredVerdict_action, hfinal, hmode]
    rfl
  · rw [hid]
    unfold scoredVerdict
    rw [hfinal, if_neg hpass, enforcedRuleId_finalizeVerdict hmode]
    exact (if_neg hmonitor).trans hname

/-- **The order of the rules decides neither action nor score**, and an enforced rule is one that
forces the action. -/
theorem rule_order_irrelevant (c : Crates) (d : Detectors) (e : WafEngine) (budget : ScanBudget)
    (q : RequestData) (rules : List CompiledRule) (h : rules.Perm e.rules) :
    ((e.withRules rules).inspect c d budget q).action = (e.inspect c d budget q).action ∧
      ((e.withRules rules).inspect c d budget q).breakdown =
        (e.inspect c d budget q).breakdown ∧
      (e.mode = .block → ∀ a, RuleForced c d e budget q a →
        (e.inspect c d budget q).action = a ∧
          ∃ rule ∈ e.rules, Forces c e (e.ruleContexts c d budget q) a rule ∧
            (e.inspect c d budget q).enforcedRuleId = some rule.id) := by
  obtain ⟨haction, hbreakdown⟩ := inspect_withRules_perm h
  exact ⟨haction, hbreakdown, fun hmode a hforced => inspect_ruleForced hmode hforced⟩

end

/-! ## Two rules on one path -/

def twoRules : List CompiledRule := [anyPathRule "ask" .jsChallenge, anyPathRule "stop" .block]

theorem twoRules_swapped :
    (((bare 20 []).withRules twoRules.reverse).inspect .inert .silent freeBudget getRoot).action =
        (((bare 20 []).withRules twoRules).inspect .inert .silent freeBudget getRoot).action ∧
      (((bare 20 []).withRules twoRules).inspect .inert .silent freeBudget getRoot).action = .block ∧
      ∃ rule ∈ twoRules,
        Forces .inert ((bare 20 []).withRules twoRules)
          (((bare 20 []).withRules twoRules).ruleContexts .inert .silent freeBudget getRoot) .block
          rule ∧
        (((bare 20 []).withRules twoRules).inspect .inert .silent freeBudget getRoot).enforcedRuleId =
          some rule.id := by
  obtain ⟨haction, -, hforced⟩ := rule_order_irrelevant .inert .silent ((bare 20 []).withRules twoRules)
    freeBudget getRoot twoRules.reverse (List.reverse_perm twoRules)
  exact ⟨haction, hforced rfl .block ⟨by decide +kernel, by decide +kernel, by decide +kernel⟩⟩

end WafEngine

end PingWaf.Waf
