import PingWaf.Challenge.Plain
import PingWaf.Challenge.Plugin

/-!
# Escalation with the request rate

A higher rate never weakens the decision, whatever the threshold is (`strength_mono`): the two
comparisons are made in the order of their levels. The multiples of the threshold are 32-bit products,
however, so that they are the multiples only up to a third of the range (`escalation_exact_iff`).
-/

namespace PingWaf.Challenge

open Waf (u32Max)

/-- How much a decision asks of the client. -/
def ChallengeDecision.strength : ChallengeDecision → Nat
  | .pass => 0
  | .jsChallenge => 1
  | .managedChallenge => 2
  | .interactiveChallenge => 3
  | .block => 4

/-- The decision above two thresholds. -/
def levelAt (interactive managed rate : Nat) : ChallengeDecision :=
  if interactive < rate then .interactiveChallenge
  else if managed < rate then .managedChallenge
  else .jsChallenge

/-- The decision if the products did not overflow. -/
def unboundedLevel (threshold rate : Nat) : ChallengeDecision :=
  levelAt (threshold * 3) (threshold * 2) rate

theorem levelAt_mono {a b r r' : Nat} (h : r ≤ r') :
    (levelAt a b r).strength ≤ (levelAt a b r').strength := by
  unfold levelAt
  by_cases ha : a < r
  · simp [ha, Nat.lt_of_lt_of_le ha h]
  · by_cases hb : b < r
    · simp only [ha, hb, Nat.lt_of_lt_of_le hb h, if_false, if_true]
      split_ifs <;> decide
    · simp only [ha, hb, if_false]
      split_ifs <;> decide

def ChallengeRequest.atRate (q : ChallengeRequest) (rate : Nat) : ChallengeRequest :=
  { q with requestRate := rate }

section

variable (c : Primitives) (e : ChallengeEngine) (q : ChallengeRequest) {r r' : Nat}

theorem decideChallengeLevel_atRate (rate : Nat) :
    e.decideChallengeLevel (q.atRate rate) =
      levelAt (e.config.rateThreshold * 3 % 2 ^ 32) (e.config.rateThreshold * 2 % 2 ^ 32) rate := rfl

theorem level_mono (h : r ≤ r') :
    (e.decideChallengeLevel (q.atRate r)).strength ≤
      (e.decideChallengeLevel (q.atRate r')).strength := by
  rw [decideChallengeLevel_atRate, decideChallengeLevel_atRate]
  exact levelAt_mono h

theorem withoutClearance_mono (h : r ≤ r') :
    (e.withoutClearance (q.atRate r)).strength ≤ (e.withoutClearance (q.atRate r')).strength := by
  have hlevel := level_mono e q h
  unfold ChallengeEngine.withoutClearance
  by_cases hattack : e.config.underAttackMode = true
  · simp [hattack]
  · simp only [hattack]
    by_cases hr : e.config.rateThreshold < (q.atRate r).requestRate
    · have hr' : e.config.rateThreshold < (q.atRate r').requestRate := Nat.lt_of_lt_of_le hr h
      simpa [hr, hr'] using hlevel
    · simp [hr, ChallengeDecision.strength]

theorem strength_mono (now : Int) (h : r ≤ r') :
    (e.shouldChallenge c (q.atRate r) now).strength ≤
      (e.shouldChallenge c (q.atRate r') now).strength := by
  have hlevel := level_mono e q h
  have hwithout := withoutClearance_mono e q h
  have hexempts : e.exempts c (q.atRate r') = e.exempts c (q.atRate r) := rfl
  have hcookie : e.extractClearance (q.atRate r') = e.extractClearance (q.atRate r) := rfl
  have hbound : ∀ payload, cookieBoundToSite payload (q.atRate r') =
      cookieBoundToSite payload (q.atRate r) := fun _ => rfl
  unfold ChallengeEngine.shouldChallenge
  rw [hexempts, hcookie]
  split
  · exact Nat.le_refl _
  · split
    · exact hwithout
    · split
      · exact hwithout
      · next payload _ =>
        rw [hbound]
        split
        · exact hlevel
        · split
          · exact Nat.le_refl _
          · exact hlevel

theorem wrapped_lt_max {t : Nat} (ht : t ≤ u32Max) (hover : u32Max < t * 3) :
    t * 3 % 2 ^ 32 < u32Max := by
  unfold u32Max at *
  have hlt : t * 3 % 2 ^ 32 < 2 ^ 32 := Nat.mod_lt _ (by decide)
  have hsum := Nat.div_add_mod (t * 3) (2 ^ 32)
  have hquot : t * 3 / 2 ^ 32 < 3 := Nat.div_lt_of_lt_mul (by norm_num; omega)
  generalize t * 3 % 2 ^ 32 = m at *
  generalize t * 3 / 2 ^ 32 = k at *
  norm_num at hlt hsum
  -- three divides neither the double nor the triple of the range less one
  interval_cases k <;> omega

theorem level_exact_iff (ht : e.config.rateThreshold ≤ u32Max) :
    (∀ rate ≤ u32Max,
      e.decideChallengeLevel (q.atRate rate) = unboundedLevel e.config.rateThreshold rate) ↔
      e.config.rateThreshold * 3 ≤ u32Max := by
  constructor
  · intro h
    by_contra hover
    have hover := Nat.lt_of_not_le hover
    -- the highest rate is above the wrapped product, and not above the product
    have htop := h u32Max (Nat.le_refl _)
    rw [decideChallengeLevel_atRate, unboundedLevel, levelAt, levelAt,
      if_pos (wrapped_lt_max ht hover), if_neg (Nat.lt_asymm hover)] at htop
    split at htop <;> cases htop
  · intro hfits rate _
    have hlt : e.config.rateThreshold * 3 < 2 ^ 32 := Nat.lt_of_le_of_lt hfits (by decide)
    rw [decideChallengeLevel_atRate, Nat.mod_eq_of_lt hlt, Nat.mod_eq_of_lt (by omega)]
    rfl

/-- The decision rises with the rate, and the level is that of the unbounded multiples of the
threshold, exactly if three times the threshold fits into 32 bits. -/
theorem escalation_exact_iff (now : Int) (ht : e.config.rateThreshold ≤ u32Max) :
    ((∀ low high, low ≤ high → high ≤ u32Max →
        (e.shouldChallenge c (q.atRate low) now).strength ≤
          (e.shouldChallenge c (q.atRate high) now).strength) ∧
      ∀ rate ≤ u32Max,
        e.decideChallengeLevel (q.atRate rate) = unboundedLevel e.config.rateThreshold rate) ↔
      e.config.rateThreshold * 3 ≤ u32Max := by
  rw [level_exact_iff e q ht, and_iff_right]
  exact fun _ _ h _ => strength_mono c e q now h

end

def siteEngine (threshold : Nat) : ChallengeEngine :=
  buildSiteEngine ⟨true, false, .interactive, 0, [], threshold, true⟩ "secret" "clearance" 20

def shopRequest : ChallengeRequest := ⟨"/", "", [], 1, "shop.example"⟩

theorem default_threshold_escalates :
    (siteEngine 100).config.rateThreshold ≤ u32Max ∧
      ((∀ low high, low ≤ high → high ≤ u32Max →
          ((siteEngine 100).shouldChallenge .plain (shopRequest.atRate low) 0).strength ≤
            ((siteEngine 100).shouldChallenge .plain (shopRequest.atRate high) 0).strength) ∧
        ∀ rate ≤ u32Max,
          (siteEngine 100).decideChallengeLevel (shopRequest.atRate rate) =
            unboundedLevel (siteEngine 100).config.rateThreshold rate) :=
  ⟨by decide, (escalation_exact_iff .plain (siteEngine 100) shopRequest 0 (by decide)).mpr (by decide)⟩

/-- Twice the threshold wraps to zero, so that one request in the window is managed. -/
theorem half_range_threshold_escalates_at_once :
    (siteEngine (2 ^ 31)).decideChallengeLevel (shopRequest.atRate 1) = .managedChallenge ∧
      unboundedLevel (siteEngine (2 ^ 31)).config.rateThreshold 1 = .jsChallenge := by
  decide

end PingWaf.Challenge
