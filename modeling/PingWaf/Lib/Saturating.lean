import Mathlib

/-!
# Saturating counters

Addition that stops at a ceiling, as the saturating adds of fixed-width unsigned integers do. The
order in which points are added does not matter, and a run of additions is one addition of their
sum (`satAdd_satAdd`).
-/

/-- Addition of naturals that never goes above `top`. -/
def satAdd (top a b : Nat) : Nat := min (a + b) top

def maxU64 : Nat := 2 ^ 64 - 1

namespace satAdd

theorem le_top (top a b : Nat) : satAdd top a b ≤ top := Nat.min_le_right _ _

theorem satAdd_satAdd (top a b c : Nat) :
    satAdd top (satAdd top a b) c = satAdd top a (b + c) := by
  unfold satAdd
  omega

theorem zero_right {top a : Nat} (h : a ≤ top) : satAdd top a 0 = a := by
  simp [satAdd, h]

theorem le_add_left {top a : Nat} (h : a ≤ top) (b : Nat) : a ≤ satAdd top a b := by
  unfold satAdd
  omega

theorem eq_add_of_lt {top a b : Nat} (h : satAdd top a b < top) : satAdd top a b = a + b := by
  unfold satAdd at h ⊢
  omega

theorem le_iff {top a b t : Nat} (ht : t ≤ top) : t ≤ satAdd top a b ↔ t ≤ a + b := by
  unfold satAdd
  omega

theorem add_eq_iff {top a b c : Nat} (hc : 0 < c) :
    satAdd top a (b + c) = satAdd top a b ↔ top ≤ a + b := by
  unfold satAdd
  omega

end satAdd
