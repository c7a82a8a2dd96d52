import Mathlib

/-!
# Escapes resolved in one pass

A decoder that walks a list once. Where the elements at the head spell a symbol, it puts the symbol
out and passes over them; every other element is put out as it is. If what is spelled weighs less
than its spelling, the pass makes the list lighter, unless it leaves it as it is: `weight_go_lt`.
-/

namespace Resolve

open List

variable {α β : Type}

def go (spells : List α → Option (β × Nat)) (lit : α → β) : Nat → List α → List β
  | _, [] => []
  | n + 1, _ :: l => go spells lit n l
  | 0, a :: l =>
    match spells (a :: l) with
    | some (b, consumed) => b :: go spells lit (consumed - 1) l
    | none => lit a :: go spells lit 0 l

def hits (spells : List α → Option (β × Nat)) : List α → Bool
  | [] => false
  | a :: l => (spells (a :: l)).isSome || hits spells l

def weight (w : α → Nat) (l : List α) : Nat := (l.map w).sum

@[simp] theorem weight_nil (w : α → Nat) : weight w [] = 0 := rfl

@[simp] theorem weight_cons (w : α → Nat) (a : α) (l : List α) :
    weight w (a :: l) = w a + weight w l := rfl

theorem weight_append (w : α → Nat) (l l' : List α) :
    weight w (l ++ l') = weight w l + weight w l' := by
  simp [weight]

theorem weight_take_drop (w : α → Nat) (n : Nat) (l : List α) :
    weight w (l.take n) + weight w (l.drop n) = weight w l := by
  rw [← weight_append, take_append_drop]

theorem weight_le_length {w : α → Nat} (hw : ∀ a, w a ≤ 1) (l : List α) :
    weight w l ≤ l.length := by
  induction l with
  | nil => exact Nat.le_refl 0
  | cons a _ _ =>
    have := hw a
    rw [weight_cons, length_cons]
    omega

variable {spells : List α → Option (β × Nat)} {lit : α → β} {l : List α}

theorem go_skip (n : Nat) (l : List α) : go spells lit n l = go spells lit 0 (l.drop n) := by
  induction l generalizing n with
  | nil => cases n <;> simp [go]
  | cons _ _ ih =>
    cases n with
    | zero => rfl
    | succ _ =>
      rw [go, ih, drop_succ_cons]

theorem go_hit {a : α} {b : β} {consumed : Nat} (h : spells (a :: l) = some (b, consumed))
    (hpos : 1 ≤ consumed) :
    go spells lit 0 (a :: l) = b :: go spells lit 0 ((a :: l).drop consumed) := by
  rw [go, h]
  dsimp only
  rw [go_skip]
  obtain ⟨k, rfl⟩ := Nat.exists_eq_add_of_le' hpos
  rfl

theorem go_miss {a : α} (h : spells (a :: l) = none) :
    go spells lit 0 (a :: l) = lit a :: go spells lit 0 l := by
  rw [go, h]

/-- A loop that does at each element what `go` does is `go`. -/
theorem eq_go {f : Nat → List α → List β} (hnil : ∀ n, f n [] = [])
    (hskip : ∀ n a l, f (n + 1) (a :: l) = f n l)
    (hstep : ∀ a l, f 0 (a :: l) =
      (spells (a :: l)).elim (lit a :: f 0 l) fun r => r.1 :: f (r.2 - 1) l)
    (n : Nat) (l : List α) : f n l = go spells lit n l := by
  induction l generalizing n with
  | nil => cases n <;> exact hnil _
  | cons a l ih =>
    cases n with
    | succ n => exact (hskip n a l).trans (ih n)
    | zero =>
      rw [hstep, go]
      cases spells (a :: l) with
      | none => exact congrArg (lit a :: ·) (ih 0)
      | some r => exact congrArg (r.1 :: ·) (ih (r.2 - 1))

theorem length_go_le (n : Nat) (l : List α) : (go spells lit n l).length ≤ l.length := by
  induction l generalizing n with
  | nil => cases n <;> exact Nat.le_refl 0
  | cons _ _ ih =>
    cases n with
    | succ n => exact Nat.le_succ_of_le (ih n)
    | zero =>
      rw [go]
      split
      · exact Nat.succ_le_succ (ih _)
      · exact Nat.succ_le_succ (ih _)

section Blocks

/-! A block of the output without symbols is a block of the input. -/

variable {spells : List α → Option (α × Nat)} {x : List α}

theorem mem_go {a : α} (n : Nat) (h : a ∈ go spells id n l) :
    a ∈ l ∨ ∃ rest consumed, spells rest = some (a, consumed) := by
  induction l generalizing n with
  | nil => cases n <;> cases h
  | cons _ _ ih =>
    cases n with
    | succ n => exact (ih n h).imp_left (mem_cons_of_mem _)
    | zero =>
      rw [go] at h
      split at h
      · next b consumed hs =>
        rcases mem_cons.mp h with rfl | h
        · exact .inr ⟨_, _, hs⟩
        · exact (ih _ h).imp_left (mem_cons_of_mem _)
      · rcases mem_cons.mp h with rfl | h
        · exact .inl mem_cons_self
        · exact (ih 0 h).imp_left (mem_cons_of_mem _)

theorem prefix_of_prefix_go (hspells : ∀ l b n, spells l = some (b, n) → b ∉ x)
    (h : x <+: go spells id 0 l) : x <+: l := by
  induction l generalizing x with
  | nil => exact h
  | cons _ l ih =>
    cases x with
    | nil => exact nil_prefix
    | cons _ _ =>
      rw [go] at h
      split at h
      · next b consumed hs =>
        obtain ⟨rfl, -⟩ := cons_prefix_cons.mp h
        exact absurd mem_cons_self (hspells _ _ _ hs)
      · obtain ⟨rfl, hrest⟩ := cons_prefix_cons.mp h
        refine cons_prefix_cons.mpr ⟨rfl, ih (fun l b n hs hmem => ?_) hrest⟩
        exact hspells l b n hs (mem_cons_of_mem _ hmem)

theorem infix_of_infix_go (hspells : ∀ l b n, spells l = some (b, n) → b ∉ x) (n : Nat)
    (h : x <:+: go spells id n l) : x <:+: l := by
  induction l generalizing n with
  | nil => cases n <;> exact h
  | cons a l ih =>
    cases n with
    | succ n => exact infix_cons (ih n h)
    | zero =>
      have hstep : ∃ d m, go spells id 0 (a :: l) = d :: go spells id m l := by
        rw [go]
        split
        · exact ⟨_, _, rfl⟩
        · exact ⟨_, _, rfl⟩
      obtain ⟨d, m, hgo⟩ := hstep
      rw [hgo] at h
      rcases infix_cons_iff.mp h with hpre | hrest
      · rw [← hgo] at hpre
        exact (prefix_of_prefix_go hspells hpre).isInfix
      · exact infix_cons (ih m hrest)

end Blocks

section

variable {wα : α → Nat} {wβ : β → Nat}

theorem weight_go_le (hlit : ∀ a, wβ (lit a) ≤ wα a)
    (hspells : ∀ l b consumed, spells l = some (b, consumed) →
      1 ≤ consumed ∧ wβ b ≤ weight wα (l.take consumed)) (l : List α) :
    weight wβ (go spells lit 0 l) ≤ weight wα l := by
  -- on the length, since a symbol passes over several elements
  induction hn : l.length using Nat.strongRecOn generalizing l with
  | ind n ih =>
    cases l with
    | nil => exact Nat.le_refl 0
    | cons a l =>
      cases hs : spells (a :: l) with
      | none =>
        rw [go_miss hs, weight_cons, weight_cons]
        have hrest := ih l.length (by rw [← hn]; exact Nat.lt_succ_self _) l rfl
        exact Nat.add_le_add (hlit a) hrest
      | some r =>
        obtain ⟨b, consumed⟩ := r
        obtain ⟨hpos, hb⟩ := hspells _ b consumed hs
        have hlength : ((a :: l).drop consumed).length < n := by
          rw [length_drop, ← hn, length_cons]
          omega
        have hrest := ih _ hlength ((a :: l).drop consumed) rfl
        rw [go_hit hs hpos, weight_cons, ← weight_take_drop wα consumed (a :: l)]
        exact Nat.add_le_add hb hrest

theorem weight_go_lt (hlit : ∀ a, wβ (lit a) ≤ wα a)
    (hspells : ∀ l b consumed, spells l = some (b, consumed) →
      1 ≤ consumed ∧ wβ b < weight wα (l.take consumed)) {l : List α} (h : hits spells l = true) :
    weight wβ (go spells lit 0 l) < weight wα l := by
  have hle := weight_go_le hlit fun l b consumed hs =>
    ⟨(hspells l b consumed hs).1, Nat.le_of_lt (hspells l b consumed hs).2⟩
  induction l with
  | nil => cases h
  | cons a l ih =>
    cases hs : spells (a :: l) with
    | none =>
      rw [hits, hs, Option.isSome_none, Bool.false_or] at h
      rw [go_miss hs, weight_cons, weight_cons]
      exact Nat.add_lt_add_of_le_of_lt (hlit a) (ih h)
    | some r =>
      obtain ⟨b, consumed⟩ := r
      obtain ⟨hpos, hb⟩ := hspells _ b consumed hs
      rw [go_hit hs hpos, weight_cons, ← weight_take_drop wα consumed (a :: l)]
      exact Nat.add_lt_add_of_lt_of_le hb (hle _)

end

end Resolve
