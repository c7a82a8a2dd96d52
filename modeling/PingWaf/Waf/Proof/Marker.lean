import PingWaf.Waf.Proof.Monitor

/-!
# The mark of a body that was not inspected

The verdict's text carries a mark when the detectors saw only a part of the body, or none of it.
Four of the exits of the pipeline put the mark in; the allow pre-pass returns with a line of its own
that has none (`partial_body_marked_iff`).
-/

namespace PingWaf.Waf

open Text

namespace WafEngine

section

variable (c : Crates) (d : Detectors) (e : WafEngine) (budget : ScanBudget) (q : RequestData)

def budgetNote : String := "body skipped: concurrent scan budget exhausted"

/-- The mark of the inspection: of the exhausted budget, or of the part that was decoded. -/
def bodyNote : Option String :=
  if budget.admits (estimatedScanBytes q) then (e.normalize c q).bodyInspection.detail
  else some budgetNote

/-- The text of the verdict carries the note. -/
def Marked : Prop :=
  ∀ note, bodyNote c e budget q = some note →
    hasSub (e.inspect c d budget q).details note = true

/-- What the allow pre-pass logs: the rule, and where stage 1 had hits. -/
def allowLine (surfaces : List Surface) (rule : CompiledRule) : String :=
  "allow-rule matched: " ++ rule.id ++ " [" ++ rule.name ++ "]" ++
    ((surfacesMarker surfaces).map (" " ++ ·)).getD ""

/-- No allow rule exempts a request whose body is marked, or the name of the first one spells the
mark. -/
def NotExempted : Prop :=
  budget.admits (estimatedScanBytes q) = true → ∀ note rule,
    (e.normalize c q).bodyInspection.detail = some note →
    e.rules.find? (e.allows c (e.ruleContexts c d budget q)) = some rule →
    hasSub (allowLine (e.firstStage c d budget q).surfaces rule) note = true

end

section

variable {c : Crates} {d : Detectors} {e : WafEngine} {budget : ScanBudget} {q : RequestData}

theorem hasSub_finalizeVerdict {details : List String} {note : String} (h : note ∈ details)
    (b : ScoreBreakdown) (matched : List String) (enforced : Option String) (requested : WafAction)
    (reason : String) (surfaces : List Surface) :
    hasSub (e.finalizeVerdict b matched enforced details requested reason surfaces).details note =
      true := by
  have hjoined : hasSub (reason ++ ": " ++ "; ".intercalate details) note = true :=
    hasSub_append_right (hasSub_intercalate h _) _
  simp only [finalizeVerdict, if_neg (List.ne_nil_of_mem h)]
  -- the surfaces and the downgrade are put behind the joined details
  generalize reason ++ ": " ++ "; ".intercalate details = text at hjoined ⊢
  split <;> split <;> repeat' apply hasSub_append_left
  all_goals exact hjoined

theorem hasSub_scoredVerdict {i : BodyInspection} {note : String} (h : i.detail = some note)
    (s1 : Stage1) (s2 : Stage2) : hasSub (e.scoredVerdict d s1 s2 i).details note = true := by
  unfold scoredVerdict
  rw [h]
  dsimp only
  split
  · exact hasSub_self note
  · exact hasSub_finalizeVerdict (by simp) _ _ _ _ _ _

theorem hasSub_judge_iff {i : BodyInspection} {note : String} (h : i.detail = some note)
    (rules : List CompiledRule) (ctx : Contexts) (s1 : Stage1) :
    hasSub (e.judge c d rules ctx s1 i).details note = true ↔
      ∀ rule, rules.find? (e.allows c ctx) = some rule →
        hasSub (allowLine s1.surfaces rule) note = true := by
  unfold judge
  cases hfind : rules.find? (e.allows c ctx) with
  | some rule =>
    constructor
    · rintro hsub _ ⟨⟩
      exact hsub
    · intro hall
      exact hall rule rfl
  | none =>
    refine iff_of_true ?_ nofun
    dsimp only
    split
    · exact hasSub_finalizeVerdict (by simp [h]) _ _ _ _ _ _
    · exact hasSub_scoredVerdict h _ _

theorem hasSub_inspectWithoutBody (q : RequestData) :
    hasSub (e.inspectWithoutBody c d q).details budgetNote = true :=
  hasSub_append_right (hasSub_self _) _

/-- **A body that was not fully inspected is marked exactly when no allow rule exempts it**, a name
that spells the mark apart. -/
theorem partial_body_marked_iff (c : Crates) (d : Detectors) (e : WafEngine) (budget : ScanBudget)
    (q : RequestData) (hmode : e.mode ≠ .off) :
    Marked c d e budget q ↔ NotExempted c d e budget q := by
  unfold Marked NotExempted bodyNote
  rw [inspect_eq c d budget q hmode]
  by_cases hroom : budget.admits (estimatedScanBytes q) = true
  · have hsame : inspected budget q = q := if_pos hroom
    simp only [hroom, if_true, forall_const, ruleContexts, firstStage, hsame,
      inspectReserved_eq c d q hmode]
    refine forall_congr' fun note => ?_
    constructor
    · intro h rule hnote hfind
      exact (hasSub_judge_iff hnote _ _ _).mp (h hnote) rule hfind
    · intro h hnote
      exact (hasSub_judge_iff hnote _ _ _).mpr fun rule => h rule hnote
  · simp only [hroom, Bool.false_eq_true, if_false, false_imp_iff, iff_true]
    rintro note ⟨⟩
    exact hasSub_inspectWithoutBody q

end

/-! ## A body in an encoding that is not undone -/

def brotliPost : RequestData where
  method := "POST"
  path := "/"
  query := ""
  headers := [("content-encoding", "br")]
  body := some [0x8B, 0x00]
  clientIp := "192.0.2.1"
  countryCode := none
  scheme := "https"

def wideBudget : ScanBudget := ⟨1024 * 1024, 0⟩

theorem brotliPost_marked :
    bodyNote .inert (bare 20 []) wideBudget brotliPost =
        some "body=uninspected(unsupported-content-encoding:br)" ∧
      Marked .inert .silent (bare 20 []) wideBudget brotliPost := by
  refine ⟨by decide +kernel, ?_⟩
  refine (partial_body_marked_iff .inert .silent (bare 20 []) wideBudget brotliPost (by decide)).mpr ?_
  intro _ note rule _ hfind
  cases hfind

/-- Under an allow rule on every path the body passes without a mark. -/
theorem exempted_brotliPost_unmarked :
    bodyNote .inert ((bare 20 []).withRules [anyPathRule "site" .allow]) wideBudget brotliPost =
        some "body=uninspected(unsupported-content-encoding:br)" ∧
      (((bare 20 []).withRules [anyPathRule "site" .allow]).inspect .inert .silent wideBudget
        brotliPost).action = .pass ∧
      (((bare 20 []).withRules [anyPathRule "site" .allow]).inspect .inert .silent wideBudget
        brotliPost).details = "allow-rule matched: site [site]" ∧
      hasSub "allow-rule matched: site [site]"
        "body=uninspected(unsupported-content-encoding:br)" = false := by
  decide +kernel

end WafEngine

end PingWaf.Waf
