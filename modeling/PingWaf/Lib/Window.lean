import Mathlib

/-!
# Fixed-window limits

What a limiter with aligned windows and bans promises about the events of one key, as a property
of the history of its decisions: at most `n` events of a window pass (`Limited.window`), and none
passes for `m` units of time after a decision that starts a ban (`Limited.banned`).
-/

namespace FixedWindow

structure Mark where
  now : Nat
  passed : Bool
  /-- The decision starts a ban. -/
  bans : Bool

def passedIn (p w : Nat) (hist : List Mark) : Nat :=
  hist.countP fun x => x.passed && x.now / p == w

structure Limited (p n m : Nat) (hist : List Mark) : Prop where
  window : ∀ w, passedIn p w hist ≤ n
  banned : hist.Pairwise fun x y => x.bans = true → y.now < x.now + m → y.passed = false

variable {p n m w : Nat} {hist : List Mark} {x : Mark}

theorem passedIn_concat (p w : Nat) (hist : List Mark) (x : Mark) :
    passedIn p w (hist ++ [x]) =
      passedIn p w hist + if x.passed = true ∧ x.now / p = w then 1 else 0 := by
  simp [passedIn, List.countP_append, List.countP_cons]

theorem passedIn_stop (hx : x.passed = false) : passedIn p w (hist ++ [x]) = passedIn p w hist := by
  simp [passedIn_concat, hx]

theorem passedIn_other (hw : x.now / p ≠ w) : passedIn p w (hist ++ [x]) = passedIn p w hist := by
  simp [passedIn_concat, hw]

theorem limited_nil (p n m : Nat) : Limited p n m [] :=
  ⟨fun _ => Nat.zero_le n, List.Pairwise.nil⟩

theorem Limited.stop (h : Limited p n m hist) (hx : x.passed = false) :
    Limited p n m (hist ++ [x]) := by
  refine ⟨fun w => ?_, ?_⟩
  · rw [passedIn_stop hx]
    exact h.window w
  · refine List.pairwise_append.mpr ⟨h.banned, List.pairwise_singleton _ _, ?_⟩
    intro y _ z hz _ _
    rw [List.mem_singleton.mp hz]
    exact hx

theorem Limited.pass (h : Limited p n m hist) (hw : passedIn p (x.now / p) hist < n)
    (hb : ∀ y ∈ hist, y.bans = true → y.now + m ≤ x.now) : Limited p n m (hist ++ [x]) := by
  refine ⟨fun w => ?_, ?_⟩
  · by_cases hxw : x.now / p = w
    · subst hxw
      rw [passedIn_concat]
      split <;> omega
    · rw [passedIn_other hxw]
      exact h.window w
  · refine List.pairwise_append.mpr ⟨h.banned, List.pairwise_singleton _ _, ?_⟩
    intro y hy z hz hbans hlt
    obtain rfl := List.mem_singleton.mp hz
    have := hb y hy hbans
    omega

/-! ## Grouped events -/

theorem countP_le_countP_flatMap {α β : Type*} (f : α → List β) {q : α → Bool} {g : β → Bool}
    {l : List α} (h : ∀ a ∈ l, q a = true → ∃ b ∈ f a, g b = true) :
    l.countP q ≤ (l.flatMap f).countP g := by
  induction l with
  | nil => simp
  | cons a _ ih =>
    have hl := ih fun b hb => h b (List.mem_cons_of_mem a hb)
    rw [List.flatMap_cons, List.countP_append, List.countP_cons]
    split
    · next ha =>
      have hpos : 0 < (f a).countP g := List.countP_pos_iff.mpr (h a List.mem_cons_self ha)
      omega
    · omega

end FixedWindow
