import PingWaf.Waf.Proof.Verdict

/-!
# Monitor mode

Every exit of the pipeline gives verdicts that stand in the relation `Observes`: the allow rule and
the clean pass return before the mode is looked at, the two others go through `finalizeVerdict`.
-/

namespace PingWaf.Waf

namespace WafEngine

def withMode (e : WafEngine) (mode : WafMode) : WafEngine := { e with mode := mode }

/-- The verdict `v` sees what `w` sees and enforces nothing. -/
structure Observes (v w : WafVerdict) : Prop where
  score : v.score = w.score
  matchedRules : v.matchedRules = w.matchedRules
  breakdown : v.breakdown = w.breakdown
  action : v.action = effective .monitor w.action
  enforcedRuleId : v.enforcedRuleId = none

theorem isEnforcing_effective_monitor (a : WafAction) :
    (effective .monitor a).isEnforcing = false := by
  cases a <;> rfl

section

variable {c : Crates} {d : Detectors} (e : WafEngine)

/-- An action other than a pass: in monitor mode it is `monitor`, so that no rule is named. -/
theorem observes_finalizeVerdict (b : ScoreBreakdown) (matched : List String)
    (enforced : Option String) (details : List String) {requested : WafAction}
    (hpass : requested ≠ .pass) (reason : String) (surfaces : List Surface) :
    Observes
      ((e.withMode .monitor).finalizeVerdict b matched enforced details requested reason surfaces)
      ((e.withMode .block).finalizeVerdict b matched enforced details requested reason surfaces)
    where
  score := rfl
  matchedRules := rfl
  breakdown := rfl
  action := rfl
  enforcedRuleId := by
    cases requested with
    | pass => exact absurd rfl hpass
    | monitor | block | challenge => rfl

theorem observes_scoredVerdict (s1 : Stage1) (s2 : Stage2) (inspection : BodyInspection) :
    Observes ((e.withMode .monitor).scoredVerdict d s1 s2 inspection)
      ((e.withMode .block).scoredVerdict d s1 s2 inspection) := by
  have hsame : (e.withMode .block).finalAction s2 = (e.withMode .monitor).finalAction s2 := rfl
  unfold scoredVerdict
  rw [hsame]
  dsimp only
  split
  · exact ⟨rfl, rfl, rfl, rfl, rfl⟩
  · next hpass => exact e.observes_finalizeVerdict _ _ _ _ hpass _ _

theorem observes_judge (rules : List CompiledRule) (ctx : Contexts) (s1 : Stage1)
    (inspection : BodyInspection) :
    Observes ((e.withMode .monitor).judge c d rules ctx s1 inspection)
      ((e.withMode .block).judge c d rules ctx s1 inspection) := by
  have hallow : (e.withMode .block).allows c ctx = (e.withMode .monitor).allows c ctx := rfl
  have hfast : (e.withMode .block).fastPathBlockOnCritical =
    (e.withMode .monitor).fastPathBlockOnCritical := rfl
  unfold judge
  rw [hallow, hfast]
  split
  · exact ⟨rfl, rfl, rfl, rfl, rfl⟩
  · split
    · exact e.observes_finalizeVerdict _ _ _ _ (by decide) _ _
    · exact e.observes_scoredVerdict s1 _ inspection

theorem observes_inspectReserved (q : RequestData) :
    Observes ((e.withMode .monitor).inspectReserved c d q)
      ((e.withMode .block).inspectReserved c d q) := by
  rw [inspectReserved_eq c d q (by simp [withMode]), inspectReserved_eq c d q (by simp [withMode])]
  exact e.observes_judge e.rules _ _ _

theorem observes_inspectWithoutBody (q : RequestData) :
    Observes ((e.withMode .monitor).inspectWithoutBody c d q)
      ((e.withMode .block).inspectWithoutBody c d q) := by
  have h := e.observes_inspectReserved (c := c) (d := d) { q with body := none }
  exact ⟨h.score, congrArg (· ++ _) h.matchedRules, h.breakdown, h.action, h.enforcedRuleId⟩

end

/-- **Monitor mode is block mode without enforcement.** -/
theorem monitor_mode_observes (c : Crates) (d : Detectors) (e : WafEngine) (budget : ScanBudget)
    (q : RequestData) :
    Observes ((e.withMode .monitor).inspect c d budget q)
        ((e.withMode .block).inspect c d budget q) ∧
      ((e.withMode .monitor).inspect c d budget q).action ≠ .block ∧
      ((e.withMode .monitor).inspect c d budget q).action ≠ .challenge := by
  have hobs : Observes ((e.withMode .monitor).inspect c d budget q)
      ((e.withMode .block).inspect c d budget q) := by
    rw [inspect_eq c d budget q (by simp [withMode]), inspect_eq c d budget q (by simp [withMode])]
    split
    · exact e.observes_inspectReserved q
    · exact e.observes_inspectWithoutBody q
  have hidle := isEnforcing_effective_monitor ((e.withMode .block).inspect c d budget q).action
  rw [← hobs.action] at hidle
  refine ⟨hobs, ?_, ?_⟩ <;>
  · intro h
    rw [h] at hidle
    cases hidle

end WafEngine

end PingWaf.Waf
