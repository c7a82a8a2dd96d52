import Mathlib

/-!
# Scans from left to right

A scan walks a list once. Where a piece begins at the place it has come to, it takes the piece and
goes on behind it. It takes the pieces that no earlier one it takes reaches into (`mem_pieces_iff`).
-/

namespace Scan

variable {α β : Type} (step : List α → Option (β × Nat))

/-- The pieces of a list from a place on, each with the place it begins at. The second number is what
the last piece still covers. -/
def pieces : Nat → Nat → List α → List (Nat × β)
  | _, _, [] => []
  | i, n + 1, _ :: l => pieces (i + 1) n l
  | i, 0, a :: l =>
    match step (a :: l) with
    | some (b, len) => (i, b) :: pieces (i + 1) (len - 1) l
    | none => pieces (i + 1) 0 l

/-- A piece begins at the place, and no earlier one that is taken reaches beyond it. -/
def Taken (s : List α) (i : Nat) : Prop :=
  (step (s.drop i)).isSome = true ∧
    ∀ j, j < i → Taken s j → ∀ piece, step (s.drop j) = some piece → j + piece.2 ≤ i
termination_by i

/-- The scan may go on at the place: whatever it has taken ends there at the latest. -/
def Clear (s : List α) (i : Nat) : Prop :=
  ∀ j, j < i → Taken step s j → ∀ piece, step (s.drop j) = some piece → j + piece.2 ≤ i

variable {step} {s l : List α} {i n : Nat}

theorem taken_iff : Taken step s i ↔ (step (s.drop i)).isSome = true ∧ Clear step s i := by
  rw [Taken]
  rfl

theorem clear_zero : Clear step s 0 := fun _ h => absurd h (Nat.not_lt_zero _)

theorem Clear.pass (h : Clear step s i) (hnone : step (s.drop i) = none) : Clear step s (i + 1) := by
  intro j hj htaken piece hpiece
  rcases Nat.lt_succ_iff_lt_or_eq.mp hj with hlt | rfl
  · exact Nat.le_succ_of_le (h j hlt htaken piece hpiece)
  · rw [hnone] at hpiece
    cases hpiece

theorem Clear.not_taken (h : Clear step s i) {piece : β × Nat} (hstep : step (s.drop i) = some piece)
    {j : Nat} (hij : i < j) (hj : j < i + piece.2) : ¬ Taken step s j := by
  intro htaken
  have hi : Taken step s i := taken_iff.mpr ⟨by rw [hstep]; rfl, h⟩
  have := (taken_iff.mp htaken).2 i hij hi piece hstep
  omega

theorem Clear.jump (h : Clear step s i) {piece : β × Nat} (hstep : step (s.drop i) = some piece) :
    Clear step s (i + 1 + (piece.2 - 1)) := by
  intro j hj htaken q hq
  rcases Nat.lt_trichotomy j i with hlt | rfl | hgt
  · have := h j hlt htaken q hq
    omega
  · rw [hstep] at hq
    cases hq
    omega
  · rcases Nat.lt_or_ge j (i + piece.2) with hin | hout
    · exact absurd htaken (h.not_taken hstep hgt hin)
    · omega

theorem pieces_of_none (h : ∀ m, step (l.drop m) = none) : pieces step i n l = [] := by
  induction l generalizing i n with
  | nil => cases n <;> rfl
  | cons a l ih =>
    have hl : ∀ m, step (l.drop m) = none := fun m => h (m + 1)
    cases n with
    | succ _ => exact ih hl
    | zero =>
      have hhead : step (a :: l) = none := h 0
      rw [pieces, hhead]
      exact ih hl

theorem drop_succ_of_drop {a : α} (h : s.drop i = a :: l) : s.drop (i + 1) = l := by
  rw [← List.tail_drop, h]
  rfl

theorem mem_pieces_from (hnil : step [] = none) (hl : s.drop i = l) (hclear : Clear step s (i + n))
    (k : Nat) (b : β) :
    (k, b) ∈ pieces step i n l ↔
      i + n ≤ k ∧ Taken step s k ∧ ∃ len, step (s.drop k) = some (b, len) := by
  induction l generalizing i n with
  | nil =>
    simp only [pieces, List.not_mem_nil, false_iff]
    rintro ⟨hle, htaken, -⟩
    have hend : s.drop k = [] :=
      List.drop_eq_nil_of_le (Nat.le_trans (List.drop_eq_nil_iff.mp hl) (by omega))
    have hsome := (taken_iff.mp htaken).1
    rw [hend, hnil] at hsome
    cases hsome
  | cons a l ih =>
    have htail := drop_succ_of_drop hl
    cases n with
    | succ n =>
      have hsum : i + 1 + n = i + (n + 1) := by omega
      rw [pieces, ih htail (by rw [hsum]; exact hclear), hsum]
    | zero =>
      rw [Nat.add_zero] at hclear ⊢
      rw [pieces]
      cases hstep : step (a :: l) with
      | none =>
        rw [← hl] at hstep
        dsimp only
        rw [ih htail (hclear.pass hstep)]
        refine and_congr_left fun ⟨_, len, hlen⟩ => ⟨fun h => by omega, fun h => ?_⟩
        rcases Nat.lt_or_eq_of_le h with hlt | rfl
        · exact hlt
        · rw [hstep] at hlen
          cases hlen
      | some piece =>
        obtain ⟨b', len⟩ := piece
        rw [← hl] at hstep
        dsimp only
        rw [List.mem_cons, ih htail (hclear.jump hstep)]
        have htaken : Taken step s i := taken_iff.mpr ⟨by rw [hstep]; rfl, hclear⟩
        constructor
        · rintro (heq | ⟨hle, hk⟩)
          · obtain ⟨rfl, rfl⟩ := Prod.mk.inj heq
            exact ⟨Nat.le_refl _, htaken, len, hstep⟩
          · exact ⟨by omega, hk⟩
        · rintro ⟨hle, hk, m, hm⟩
          rcases Nat.lt_or_eq_of_le hle with hlt | rfl
          · refine .inr ⟨?_, hk, m, hm⟩
            by_contra hin
            exact hclear.not_taken hstep hlt (by dsimp only; omega) hk
          · rw [hstep] at hm
            cases hm
            exact .inl rfl

theorem mem_pieces_iff (hnil : step [] = none) (s : List α) (k : Nat) (b : β) :
    (k, b) ∈ pieces step 0 0 s ↔ Taken step s k ∧ ∃ len, step (s.drop k) = some (b, len) := by
  rw [mem_pieces_from hnil s.drop_zero clear_zero]
  simp

end Scan
