import PingWaf.Waf.Proof.Monitor

/-!
# Adding a rule

One more rule can weaken a verdict, in the order pass, monitor, challenge, block, in one situation:
the score of the other hits alone reaches the threshold, no other rule forces an action, and the new
rule forces a challenge, which then takes the place of the threshold's block.
-/

namespace PingWaf.Waf

open AnomalyScorer

namespace WafEngine

/-- The action of the rules as a function of four flags: a block is forced, a challenge is forced,
the threshold is reached, something fired. -/
def actionOf (block challenge reached fired : Bool) : WafAction :=
  if block then .block else if challenge then .challenge else if reached then .block
  else if fired then .monitor else .pass

theorem rank_actionOf_le_iff : ∀ (monitorMode block challenge block' challenge' : Bool)
    (reached reached' fired fired' : Bool), (reached → reached') → (fired → fired') →
    (block' && challenge') = false →
    let mode := if monitorMode then WafMode.monitor else .block
    ((effective mode (actionOf block challenge reached fired)).rank ≤
        (effective mode (actionOf (block || block') (challenge || challenge') reached'
          fired')).rank ↔
      ¬(monitorMode = false ∧ challenge' ∧ !block ∧ !challenge ∧ reached)) := by
  decide

section

variable {c : Crates} {e : WafEngine} {ctx : Contexts} {b : ScoreBreakdown}

theorem ruleAction_eq_actionOf (rules : List CompiledRule) :
    e.ruleAction c ctx rules b =
      actionOf (rules.any (e.forcesBlock c ctx)) (rules.any (e.forcesChallenge c ctx))
        (e.scorer.threshold ≤ b.blockTotal + e.blockScore c ctx rules)
        (0 < b.total ∨ rules.any (e.fires c ctx) = true) := by
  unfold ruleAction forcedBy forcedOf actionOf
  cases rules.any (e.forcesBlock c ctx) <;> cases rules.any (e.forcesChallenge c ctx) <;> simp

theorem forces_exclusive (r : CompiledRule) :
    (e.forcesBlock c ctx r && e.forcesChallenge c ctx r) = false := by
  cases ha : r.action <;> simp [forcesBlock, forcesChallenge, CompiledRule.isChallenge, ha]

theorem blockScore_append_singleton (rules : List CompiledRule) (r : CompiledRule) :
    e.blockScore c ctx (rules ++ [r]) = e.blockScore c ctx rules + e.blockPoints c ctx r := by
  simp [blockScore]

/-- The new rule forces a challenge where the threshold alone would have blocked. -/
def WeakensAt (c : Crates) (e : WafEngine) (ctx : Contexts) (s1 : Stage1) (r : CompiledRule) :
    Prop :=
  e.mode = .block ∧ e.forcesChallenge c ctx r = true ∧
    e.rules.any (e.allows c ctx) = false ∧
    (e.fastPathBlockOnCritical && s1.criticalHit) = false ∧
    e.rules.any (e.forcesBlock c ctx) = false ∧ e.rules.any (e.forcesChallenge c ctx) = false ∧
    e.scorer.threshold ≤ s1.breakdown.blockTotal + e.blockScore c ctx e.rules

theorem rank_ruleAction_le_iff (hmode : e.mode ≠ .off) (r : CompiledRule) :
    (effective e.mode (e.ruleAction c ctx e.rules b)).rank ≤
        (effective e.mode (e.ruleAction c ctx (e.rules ++ [r]) b)).rank ↔
      ¬(e.mode = .block ∧ e.forcesChallenge c ctx r = true ∧
        e.rules.any (e.forcesBlock c ctx) = false ∧
        e.rules.any (e.forcesChallenge c ctx) = false ∧
        e.scorer.threshold ≤ b.blockTotal + e.blockScore c ctx e.rules) := by
  have hm : e.mode = if (e.mode == .monitor) then WafMode.monitor else .block := by
    cases h : e.mode <;> first | rfl | exact absurd h hmode
  have hblock : (e.mode == .monitor) = false ↔ e.mode = .block := by
    cases h : e.mode <;> simp [h] at hmode ⊢
  have hflags := rank_actionOf_le_iff (e.mode == .monitor)
    (e.rules.any (e.forcesBlock c ctx)) (e.rules.any (e.forcesChallenge c ctx))
    (e.forcesBlock c ctx r) (e.forcesChallenge c ctx r)
    (e.scorer.threshold ≤ b.blockTotal + e.blockScore c ctx e.rules)
    (e.scorer.threshold ≤ b.blockTotal + e.blockScore c ctx (e.rules ++ [r]))
    (0 < b.total ∨ e.rules.any (e.fires c ctx) = true)
    (0 < b.total ∨ (e.rules ++ [r]).any (e.fires c ctx) = true)
    (by simp only [blockScore_append_singleton, decide_eq_true_eq]; omega)
    (by simp only [List.any_append, Bool.or_eq_true, decide_eq_true_eq]; tauto)
    (forces_exclusive r)
  rw [← hm] at hflags
  rw [ruleAction_eq_actionOf, ruleAction_eq_actionOf]
  simp only [List.any_append, List.any_cons, List.any_nil, Bool.or_false] at hflags ⊢
  simp only [hflags, hblock, decide_eq_true_eq, Bool.not_eq_true']

/-- **One more rule never weakens the verdict, except by challenging what the threshold alone
would have blocked.** -/
theorem appended_rule_strengthens_iff (c : Crates) (d : Detectors) (e : WafEngine)
    (budget : ScanBudget) (q : RequestData) (r : CompiledRule) (hr : r.action ≠ .allow) :
    (e.inspect c d budget q).action.rank ≤
        ((e.withRules (e.rules ++ [r])).inspect c d budget q).action.rank ↔
      ¬WeakensAt c e (e.ruleContexts c d budget q) (e.firstStage c d budget q) r := by
  by_cases hoff : e.mode = .off
  · simp [inspect, withRules, hoff, WeakensAt]
  · have hallow : e.allows c (e.ruleContexts c d budget q) r = false := by simp [allows, hr]
    rw [inspect_action c d budget q hoff,
      inspect_action c d budget q (e := e.withRules (e.rules ++ [r])) hoff]
    change (e.judgeAction c e.rules (e.ruleContexts c d budget q)
        (e.firstStage c d budget q)).rank ≤
      (e.judgeAction c (e.rules ++ [r]) (e.ruleContexts c d budget q)
        (e.firstStage c d budget q)).rank ↔ _
    unfold judgeAction WeakensAt
    simp only [List.any_append, List.any_cons, List.any_nil, hallow, Bool.or_false]
    split
    · simp_all
    · split
      · simp_all
      · rw [rank_ruleAction_le_iff hoff]
        simp_all

end

/-! ## A challenge rule that weakens a block -/

/-- A log rule of severity five alone reaches the threshold of five and blocks; a challenge rule
added behind it turns the block into a challenge. -/
theorem appended_challenge_weakens :
    (((bare 5 []).withRules [anyPathRule "count" .log]).inspect .inert .silent freeBudget
        getRoot).action = .block ∧
      (((bare 5 []).withRules ([anyPathRule "count" .log] ++ [anyPathRule "ask" .challenge])).inspect
        .inert .silent freeBudget getRoot).action = .challenge ∧
      ¬(WafAction.rank .block ≤ WafAction.rank .challenge) := by
  decide +kernel

/-- A block rule in the same place meets the condition. -/
theorem appended_block_strengthens :
    (((bare 5 []).withRules [anyPathRule "count" .log]).inspect .inert .silent freeBudget
        getRoot).action.rank ≤
      (((bare 5 []).withRules [anyPathRule "count" .log, anyPathRule "stop" .block]).inspect .inert
        .silent freeBudget getRoot).action.rank :=
  (appended_rule_strengthens_iff .inert .silent ((bare 5 []).withRules [anyPathRule "count" .log])
    freeBudget getRoot (anyPathRule "stop" .block) (by decide)).mpr
    fun h => absurd h.2.1 (by decide +kernel)

end WafEngine

end PingWaf.Waf
