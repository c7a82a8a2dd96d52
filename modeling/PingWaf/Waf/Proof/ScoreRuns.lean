import PingWaf.Waf.Score

/-!
# Runs of scoring hits

The breakdown of a request after any sequence of hits, against the class that unbounded arithmetic
gives its blocking total.
-/

namespace PingWaf.Waf

def ScoreClass.rank : ScoreClass → Nat
  | .clean => 0
  | .likelyClean => 1
  | .likelyAttack => 2
  | .attack => 3

namespace AnomalyScorer

/-- The class of a score, with a doubling that has no width. -/
def exactClass (s : AnomalyScorer) (total : Nat) : ScoreClass :=
  if total = 0 then .clean
  else if s.threshold ≤ total then .attack
  else if s.threshold ≤ total * 2 then .likelyAttack
  else .likelyClean

/-- What adds points to a score. -/
inductive Hit where
  | severity (severity : Nat) (monitored : Bool)
  | category (category : AttackCategory) (severity : Nat) (monitored : Bool)
  | expr (monitored : Bool)

def addHit (s : AnomalyScorer) (b : ScoreBreakdown) : Hit → ScoreBreakdown
  | .severity severity monitored => s.addSeverityHitEx b severity monitored
  | .category category severity monitored => s.addCategoryHitEx b category severity monitored
  | .expr monitored => s.addExprHitEx b monitored

/-- The breakdown after the hits. -/
def scored (s : AnomalyScorer) (hits : List Hit) : ScoreBreakdown := hits.foldl s.addHit .clean

/-- What a hit adds to the blocking total: nothing if it is monitor-only. -/
def Hit.enforced : Hit → Nat
  | .severity level monitored | .category _ level monitored =>
    if monitored then 0 else pointsForSeverity level
  | .expr monitored => if monitored then 0 else 4

/-- The points that count for a block, without a bound. -/
def enforcedPoints (hits : List Hit) : Nat := (hits.map Hit.enforced).sum

/-- Each blocking sub-score is part of its sub-score, which is a `u8`. -/
structure SubScores (b : ScoreBreakdown) : Prop where
  sqli : b.blockSqliScore ≤ b.sqliScore ∧ b.sqliScore ≤ u8Max
  xss : b.blockXssScore ≤ b.xssScore ∧ b.xssScore ≤ u8Max
  rce : b.blockRceScore ≤ b.rceScore ∧ b.rceScore ≤ u8Max

/-- `fits`: the doubling of `classify` does not leave `u32`. -/
structure Sound (s : AnomalyScorer) (b : ScoreBreakdown) : Prop where
  sane : Sane b
  subs : SubScores b
  fits : b.blockTotal < s.threshold → b.blockTotal * 2 ≤ u32Max
  exact : b.overallClass = s.exactClass b.blockTotal

/-- After hits with `n` enforced points. -/
structure Tallied (s : AnomalyScorer) (n : Nat) (b : ScoreBreakdown) : Prop where
  sane : Sane b
  subs : SubScores b
  total_eq : b.blockTotal = min n u32Max
  class_eq : b.overallClass = s.classify b.blockTotal

variable {s : AnomalyScorer} {n m : Nat} {b b' : ScoreBreakdown}

theorem add8_part {part score : Nat} (bump : Nat) (monitored : Bool)
    (h : part ≤ score ∧ score ≤ u8Max) :
    (if monitored then part else add8 part bump) ≤ add8 score bump ∧ add8 score bump ≤ u8Max := by
  unfold add8 satAdd
  cases monitored <;> simp <;> omega

theorem addCategoryHitEx_subs (s : AnomalyScorer) (h : SubScores b) (category : AttackCategory)
    (severity : Nat) (m : Bool) : SubScores (s.addCategoryHitEx b category severity m) := by
  obtain ⟨hsqli, hxss, hrce⟩ := h
  cases category with
  | sqlInjection => exact ⟨add8_part _ m hsqli, hxss, hrce⟩
  | xss => exact ⟨hsqli, add8_part _ m hxss, hrce⟩
  | commandInjection | deserialization => exact ⟨hsqli, hxss, add8_part _ m hrce⟩
  | pathTraversal | ssrf | crlfInjection | xxe | templateInjection => exact ⟨hsqli, hxss, hrce⟩

theorem Tallied.total_add (h : Tallied s n b) (points : Nat) (monitored : Bool) :
    (if monitored then b.blockTotal else add32 b.blockTotal points) =
      min (n + if monitored then 0 else points) u32Max := by
  have htotal := h.total_eq
  unfold add32 satAdd
  cases monitored <;> simp <;> omega

theorem Tallied.add (h : Tallied s n b) (hit : Hit) : Tallied s (n + hit.enforced) (s.addHit b hit) := by
  have hsubs := h.subs
  cases hit with
  | severity severity m =>
    exact ⟨addSeverityHitEx_sane s h.sane severity m, ⟨hsubs.sqli, hsubs.xss, hsubs.rce⟩,
      h.total_add _ m, rfl⟩
  | category category severity m =>
    have htotal : (s.addCategoryHitEx b category severity m).blockTotal =
        if m then b.blockTotal else add32 b.blockTotal (pointsForSeverity severity) :=
      (bumpFamily_totals _ _ _ _).2
    exact ⟨addCategoryHitEx_sane s h.sane category severity m,
      addCategoryHitEx_subs s h.subs category severity m, htotal.trans (h.total_add _ m),
      congrArg s.classify htotal.symm⟩
  | expr m =>
    exact ⟨addExprHitEx_sane s h.sane m, ⟨hsubs.sqli, hsubs.xss, add8_part 48 m hsubs.rce⟩,
      h.total_add 4 m, rfl⟩

theorem tallied_scored (s : AnomalyScorer) (hits : List Hit) :
    Tallied s (enforcedPoints hits) (s.scored hits) := by
  induction hits using List.reverseRecOn with
  | nil =>
    have hzero : 0 ≤ 0 ∧ 0 ≤ u8Max := by decide
    exact ⟨sane_clean, ⟨hzero, hzero, hzero⟩, rfl, rfl⟩
  | append_singleton _ hit ih => simpa [scored, enforcedPoints] using ih.add hit

theorem Tallied.sound_iff (h : Tallied s n b) : Sound s b ↔ n < 2 ^ 31 ∨ s.threshold ≤ n := by
  have htotal := h.total_eq
  have hle := s.threshold_le
  unfold u32Max at htotal hle
  constructor
  · intro hs
    have hfits := hs.fits
    unfold u32Max at hfits
    omega
  · intro hn
    have hfits : b.blockTotal < s.threshold → b.blockTotal * 2 < 2 ^ 32 := by omega
    refine ⟨h.sane, h.subs, fun hlt => Nat.le_of_lt_succ (hfits hlt), ?_⟩
    rw [h.class_eq, classify, exactClass]
    by_cases hlt : b.blockTotal < s.threshold
    · rw [Nat.mod_eq_of_lt (hfits hlt)]
    · simp only [if_pos (not_lt.mp hlt)]

theorem exactClass_mono (s : AnomalyScorer) (h : n ≤ m) :
    (s.exactClass n).rank ≤ (s.exactClass m).rank := by
  unfold exactClass
  split_ifs <;> first | omega | decide

/-- For every sequence of hits: after each of them the breakdown is within bounds, nothing overflows,
and its class is the exact one and never falls, if and only if no part of the sequence leaves the
enforced points between 2^31 and the threshold. -/
theorem score_sound_iff (s : AnomalyScorer) (hits : List Hit) :
    (∀ next, next <+: hits → Sound s (s.scored next) ∧ ∀ done, done <+: next →
      (s.scored done).overallClass.rank ≤ (s.scored next).overallClass.rank) ↔
    ∀ done, done <+: hits → enforcedPoints done < 2 ^ 31 ∨ s.threshold ≤ enforcedPoints done := by
  have hiff (done : List Hit) := (tallied_scored s done).sound_iff
  constructor
  · intro h done hdone
    exact (hiff done).mp (h done hdone).1
  · intro h next hnext
    refine ⟨(hiff next).mpr (h next hnext), fun done hdone => ?_⟩
    rw [((hiff next).mpr (h next hnext)).exact,
      ((hiff done).mpr (h done (hdone.trans hnext))).exact]
    obtain ⟨rest, rfl⟩ := hdone
    refine exactClass_mono s ?_
    rw [(tallied_scored s done).total_eq, (tallied_scored s (done ++ rest)).total_eq]
    simp only [enforcedPoints, List.map_append, List.sum_append]
    omega

/-- One more critical hit takes a request from `LikelyAttack` back to `LikelyClean`. -/
theorem doubled_score_wraps :
    ((new 3000000000 1).scored (.replicate 429496729 (.severity 5 false))).overallClass =
      .likelyAttack ∧
    ((new 3000000000 1).scored (.replicate 429496730 (.severity 5 false))).overallClass =
      .likelyClean := by
  have hclass (k : Nat) : ((new 3000000000 1).scored (.replicate k (.severity 5 false))).overallClass
      = (new 3000000000 1).classify (min (k * 5) u32Max) := by
    have h := tallied_scored (new 3000000000 1) (.replicate k (.severity 5 false))
    have hpoints : enforcedPoints (.replicate k (.severity 5 false)) = k * 5 := by
      simp [enforcedPoints, Hit.enforced, pointsForSeverity]
    rw [h.class_eq, h.total_eq, hpoints]
  rw [hclass, hclass]
  exact ⟨rfl, rfl⟩

end AnomalyScorer

end PingWaf.Waf
