import Mathlib

/-!
# Segments between separators

A list cut at a separator, and what its segments say of the starts of the list
(`segments_prefix_iff`, `prefix_iff_segments`).

A walk over segments goes down a name, up one level, or stays. What it has gone down to in the
end are the names no later segment climbs over (`foldl_visit`).
-/

namespace Segments

open List

section Cut

variable {α : Type} {sep : α}

theorem intercalate_append {a b : List (List α)} (ha : a ≠ []) (hb : b ≠ []) :
    [sep].intercalate (a ++ b) = [sep].intercalate a ++ sep :: [sep].intercalate b := by
  induction a with
  | nil => exact absurd rfl ha
  | cons _ a ih =>
    cases a with
    | nil =>
      rw [singleton_append, intercalate_cons_of_ne_nil hb]
      simp
    | cons _ _ =>
      rw [cons_append, intercalate_cons_of_ne_nil (by simp), ih (by simp),
        intercalate_cons_cons]
      simp

theorem mem_intercalate_iff {x : α} (hx : x ≠ sep) {pieces : List (List α)} :
    x ∈ [sep].intercalate pieces ↔ ∃ piece ∈ pieces, x ∈ piece := by
  induction pieces with
  | nil => simp [intercalate]
  | cons _ pieces ih =>
    cases pieces with
    | nil => simp [intercalate]
    | cons _ _ =>
      rw [intercalate_cons_cons, mem_append, mem_append, ih]
      simp [hx]

theorem infix_append_cons_iff {x a b : List α} {c : α} (hc : c ∉ x) (hx : x ≠ []) :
    x <:+: a ++ c :: b ↔ x <:+: a ∨ x <:+: b := by
  constructor
  · intro h
    rcases infix_append_iff.mp h with h | h | ⟨l₁, l₂, rfl, h₁, h₂⟩
    · exact .inl h
    · rcases infix_cons_iff.mp h with h | h
      · rcases prefix_cons_iff.mp h with rfl | ⟨_, rfl, -⟩
        · exact absurd rfl hx
        · simp at hc
      · exact .inr h
    · rcases prefix_cons_iff.mp h₂ with rfl | ⟨_, rfl, -⟩
      · exact .inl (by simpa using h₁.isInfix)
      · simp at hc
  · rintro (h | h)
    · exact h.trans (prefix_append _ _).isInfix
    · exact h.trans ((suffix_cons c b).trans (suffix_append _ _)).isInfix

theorem infix_intercalate_iff {x : List α} (hsep : sep ∉ x) (hx : x ≠ []) {pieces : List (List α)} :
    x <:+: [sep].intercalate pieces ↔ ∃ piece ∈ pieces, x <:+: piece := by
  induction pieces with
  | nil => simp [intercalate, hx]
  | cons _ pieces ih =>
    cases pieces with
    | nil => simp [intercalate]
    | cons _ _ =>
      rw [intercalate_cons_cons, append_assoc, singleton_append,
        infix_append_cons_iff hsep hx, ih]
      simp

theorem prefix_iff_forall_getElem? {a b : List α} :
    a <+: b ↔ ∀ (i : Nat) x, a[i]? = some x → b[i]? = some x := by
  rw [prefix_iff_getElem?]
  constructor
  · intro h i x hx
    obtain ⟨hi, rfl⟩ := List.getElem?_eq_some_iff.mp hx
    exact h i hi
  · intro h i hi
    exact h i _ (List.getElem?_eq_getElem hi)

theorem eq_iff_prefix_and_no_more {a b : List α} :
    a = b ↔ a <+: b ∧ ∀ (i : Nat) x, b[i]? = some x → i < a.length := by
  constructor
  · rintro rfl
    exact ⟨prefix_rfl, fun i x hx => (List.getElem?_eq_some_iff.mp hx).1⟩
  · rintro ⟨hpre, hmore⟩
    refine hpre.eq_of_length_le (Nat.le_of_not_lt fun hlt => ?_)
    exact Nat.lt_irrefl _ (hmore a.length _ (List.getElem?_eq_getElem hlt))

theorem intercalate_merge (front ts : List (List α)) (last h : List α) :
    [sep].intercalate (front ++ (last ++ h) :: ts) =
      [sep].intercalate (front ++ [last]) ++ [sep].intercalate (h :: ts) := by
  induction front with
  | nil => cases ts <;> simp [intercalate]
  | cons _ front ih =>
    have hne (x : List α) (l : List (List α)) : front ++ x :: l ≠ [] := by simp
    rw [cons_append, intercalate_cons_of_ne_nil (hne _ _), ih, cons_append,
      intercalate_cons_of_ne_nil (hne _ _), append_assoc _ _ ([sep].intercalate (h :: ts))]

variable [BEq α]

theorem splitOn_cons_other {a : α} (h : (a == sep) = false) (l : List α) :
    (a :: l).splitOn sep = (l.splitOn sep).modifyHead (a :: ·) := by
  rw [splitOn_cons_eq_if_modifyHead, if_neg (by rw [h]; exact Bool.false_ne_true)]

variable [LawfulBEq α]

theorem splitOn_cons_sep (l : List α) : (sep :: l).splitOn sep = [] :: l.splitOn sep := by
  rw [splitOn_cons_eq_if_modifyHead, if_pos (beq_self_eq_true sep)]

theorem not_mem_of_mem_splitOn {l seg : List α} (h : seg ∈ l.splitOn sep) : sep ∉ seg := by
  by_cases hl : sep ∈ l
  · obtain ⟨front, back, rfl, hfront⟩ := eq_append_cons_of_mem hl
    rw [splitOn_append_cons_self_of_not_mem hfront, mem_cons] at h
    obtain rfl | h := h
    · exact hfront
    · exact not_mem_of_mem_splitOn h
  · rw [splitOn_eq_singleton hl, mem_singleton] at h
    exact h ▸ hl
termination_by l.length
decreasing_by grind

theorem mem_splitOn {l seg : List α} (h : seg ∈ l.splitOn sep) : sep ∉ seg ∧ ∀ a ∈ seg, a ∈ l := by
  have hsep := not_mem_of_mem_splitOn h
  refine ⟨hsep, fun a ha => ?_⟩
  have hne : a ≠ sep := fun he => hsep (he ▸ ha)
  have hjoin := (mem_intercalate_iff hne).mpr ⟨seg, h, ha⟩
  rwa [intercalate_splitOn] at hjoin

theorem head?_splitOn {l : List α} (hl : l ≠ []) :
    (l.splitOn sep).head? = some [] ↔ l.head? = some sep := by
  cases l with
  | nil => exact absurd rfl hl
  | cons a l =>
    cases ha : a == sep with
    | true => simp [eq_of_beq ha, splitOn_cons_sep]
    | false =>
      obtain ⟨q, qs, hq⟩ := exists_cons_of_ne_nil (splitOn_ne_nil sep l)
      have hne := beq_eq_false_iff_ne.mp ha
      simp [splitOn_cons_other ha, hq, hne]

theorem getLast?_splitOn {l : List α} (hl : l ≠ []) :
    (l.splitOn sep).getLast? = some [] ↔ l.getLast? = some sep := by
  constructor
  · intro h
    obtain ⟨front, hfront⟩ := getLast?_eq_some_iff.mp h
    have hjoin := congrArg (intercalate [sep]) hfront
    rw [intercalate_splitOn] at hjoin
    cases front with
    | nil => exact absurd hjoin hl
    | cons _ _ =>
      rw [intercalate_append (by simp) (by simp)] at hjoin
      simp [hjoin, intercalate]
  · intro h
    obtain ⟨front, rfl⟩ := getLast?_eq_some_iff.mp h
    rw [splitOn_append_cons_self, splitOn_nil]
    simp

theorem splitOn_inj {a b : List α} : a.splitOn sep = b.splitOn sep ↔ a = b := by
  refine ⟨fun h => ?_, fun h => h ▸ rfl⟩
  have hjoin := congrArg (intercalate [sep]) h
  rwa [intercalate_splitOn, intercalate_splitOn] at hjoin

theorem segments_prefix_iff {p r : List α} :
    (r = p ∨ p ++ [sep] <+: r) ↔ p.splitOn sep <+: r.splitOn sep := by
  constructor
  · rintro (rfl | ⟨t, rfl⟩)
    · exact prefix_rfl
    · rw [append_assoc, singleton_append, splitOn_append_cons_self]
      exact prefix_append _ _
  · rintro ⟨t, ht⟩
    cases t with
    | nil =>
      rw [append_nil] at ht
      exact .inl (splitOn_inj.mp ht.symm)
    | cons q t =>
      have hjoin := congrArg (intercalate [sep]) ht
      rw [intercalate_append (splitOn_ne_nil sep p) (by simp), intercalate_splitOn,
        intercalate_splitOn] at hjoin
      refine .inr ⟨[sep].intercalate (q :: t), ?_⟩
      rw [← hjoin, append_assoc, singleton_append]

/-- All but the last segment are those of the second list, and the last one starts the segment at its
place. -/
theorem prefix_iff_segments {p r last : List α} {front : List (List α)}
    (hp : p.splitOn sep = front ++ [last]) :
    p <+: r ↔ front <+: r.splitOn sep ∧
      ∃ s, (r.splitOn sep)[front.length]? = some s ∧ last <+: s := by
  have hjoin : [sep].intercalate (front ++ [last]) = p := by rw [← hp, intercalate_splitOn]
  constructor
  · rintro ⟨t, rfl⟩
    obtain ⟨h, ts, ht⟩ := exists_cons_of_ne_nil (splitOn_ne_nil sep t)
    have hsep : ∀ seg ∈ front ++ (last ++ h) :: ts, sep ∉ seg := by
      intro seg hseg
      rw [mem_append, mem_cons] at hseg
      obtain hseg | rfl | hseg := hseg
      · exact not_mem_of_mem_splitOn (hp ▸ mem_append_left _ hseg)
      · rw [mem_append, not_or]
        exact ⟨not_mem_of_mem_splitOn (hp ▸ mem_append_right _ mem_cons_self),
          not_mem_of_mem_splitOn (ht ▸ mem_cons_self)⟩
      · exact not_mem_of_mem_splitOn (ht ▸ mem_cons_of_mem _ hseg)
    have hsplit : (p ++ t).splitOn sep = front ++ (last ++ h) :: ts := by
      rw [← splitOn_intercalate sep hsep (by simp), intercalate_merge, hjoin, ← ht,
        intercalate_splitOn]
    rw [hsplit]
    exact ⟨prefix_append _ _, last ++ h, by simp, prefix_append _ _⟩
  · rintro ⟨⟨rest, hrest⟩, s, hs, h, rfl⟩
    rw [← hrest] at hs
    cases rest with
    | nil => simp at hs
    | cons _ ts =>
      obtain rfl : _ = last ++ h := by simpa using hs
      rw [← @intercalate_splitOn _ r _ _ sep, ← hrest, intercalate_merge, hjoin]
      exact prefix_append _ _

end Cut

/-! ## Walks -/

inductive Move where
  | stay | up | down
  deriving DecidableEq

section Walk

variable {α : Type} (move : α → Move)

/-- One segment of a walk, on the stack of the names gone down so far (last one first). -/
def visit (stack : List α) (a : α) : List α :=
  match move a with
  | .stay => stack
  | .up => stack.tail
  | .down => a :: stack

def climb : List α → Nat
  | [] => 0
  | a :: later =>
    match move a with
    | .stay => climb later
    | .up => climb later + 1
    | .down => climb later - 1

def kept : List α → List α
  | [] => []
  | a :: later => if move a = .down ∧ climb move later = 0 then a :: kept later else kept later

/-- One segment of a walk that is `n` names deep; the root has nothing above it. -/
def deeper (n : Nat) (a : α) : Nat :=
  match move a with
  | .stay => n
  | .up => n - 1
  | .down => n + 1

/-- How many names deep a walk from the root ends. -/
def depth (segs : List α) : Nat :=
  segs.foldl (deeper move) 0

/-- The walk goes down to `a` with `i` names above it, and nothing behind `a` climbs over it. -/
def Stands (segs : List α) (i : Nat) (a : α) : Prop :=
  ∃ front back, segs = front ++ a :: back ∧ move a = .down ∧ depth move front = i ∧
    climb move back = 0

theorem climb_cons (a : α) (later : List α) :
    climb move (a :: later) =
      match move a with
      | .stay => climb move later
      | .up => climb move later + 1
      | .down => climb move later - 1 :=
  rfl

theorem kept_cons (a : α) (later : List α) :
    kept move (a :: later) =
      if move a = .down ∧ climb move later = 0 then a :: kept move later else kept move later :=
  rfl

theorem foldl_visit (segs stack : List α) :
    segs.foldl (visit move) stack = (kept move segs).reverse ++ stack.drop (climb move segs) := by
  induction segs generalizing stack with
  | nil => rfl
  | cons a later ih =>
    rw [foldl_cons, ih, kept_cons, climb_cons, visit]
    cases move a with
    | stay => rw [if_neg (fun h => Move.noConfusion h.1)]
    | up => rw [if_neg (fun h => Move.noConfusion h.1), drop_tail]
    | down =>
      -- A name survives exactly when the rest of the walk stays below it.
      cases hc : climb move later with
      | zero =>
        rw [if_pos ⟨rfl, rfl⟩]
        simp
      | succ n =>
        rw [if_neg (fun h => Nat.succ_ne_zero n h.2)]
        simp

theorem length_foldl_visit (segs stack : List α) :
    (segs.foldl (visit move) stack).length = segs.foldl (deeper move) stack.length := by
  induction segs generalizing stack with
  | nil => rfl
  | cons a _ ih =>
    have hone : (visit move stack a).length = deeper move stack.length a := by
      unfold visit deeper
      cases move a with
      | stay => rfl
      | up => exact length_tail
      | down => rfl
    rw [foldl_cons, foldl_cons, ih, hone]

theorem depth_eq (segs : List α) : depth move segs = (kept move segs).length := by
  have h := length_foldl_visit move segs []
  rw [foldl_visit, drop_nil, append_nil, length_reverse] at h
  exact h.symm

theorem climb_append (front back : List α) :
    climb move (front ++ back) =
      climb move front + (climb move back - (kept move front).length) := by
  induction front with
  | nil => simp [climb, kept]
  | cons a front ih =>
    rw [cons_append, climb_cons, climb_cons, kept_cons, ih]
    cases move a with
    | stay => rw [if_neg (fun h => Move.noConfusion h.1)]
    | up =>
      rw [if_neg (fun h => Move.noConfusion h.1)]
      exact Nat.add_right_comm ..
    | down =>
      by_cases hc : climb move front = 0
      · rw [if_pos ⟨rfl, hc⟩, length_cons, hc]
        show 0 + _ - 1 = 0 - 1 + _
        omega
      · rw [if_neg (fun h => hc h.2)]
        show climb move front + _ - 1 = climb move front - 1 + _
        omega

theorem kept_append_cons {front back : List α} {a : α} (ha : move a = .down)
    (hback : climb move back = 0) :
    kept move (front ++ a :: back) = kept move front ++ a :: kept move back := by
  have h := foldl_visit move (front ++ a :: back) []
  have hvisit : visit move (kept move front).reverse a = a :: (kept move front).reverse := by
    rw [visit, ha]
  rw [foldl_append, foldl_cons, foldl_visit move front, drop_nil, append_nil, hvisit,
    foldl_visit move back, hback, drop_zero, drop_nil, append_nil] at h
  have hrev := congrArg reverse h
  rw [reverse_reverse] at hrev
  rw [← hrev]
  simp

theorem getElem?_kept_iff {segs : List α} {i : Nat} {a : α} :
    (kept move segs)[i]? = some a ↔ Stands move segs i a := by
  constructor
  · intro h
    induction segs generalizing i with
    | nil => simp [kept] at h
    | cons x later ih =>
      rw [kept_cons] at h
      split at h
      · next hx =>
        cases i with
        | zero =>
          obtain rfl : x = a := by simpa using h
          exact ⟨[], later, rfl, hx.1, rfl, hx.2⟩
        | succ i =>
          obtain ⟨front, back, rfl, ha, hi, hback⟩ := ih (by simpa using h)
          -- Nothing climbs over `x`, so `front` starts one name deeper and stays there.
          have hfront : climb move front = 0 := by
            have hlater := hx.2
            rw [climb_append] at hlater
            omega
          refine ⟨x :: front, back, rfl, ha, ?_, hback⟩
          rw [depth_eq] at hi ⊢
          rw [kept_cons, if_pos ⟨hx.1, hfront⟩, length_cons, hi]
      · next hx =>
        obtain ⟨front, back, rfl, ha, hi, hback⟩ := ih h
        refine ⟨x :: front, back, rfl, ha, ?_, hback⟩
        have hgone : ¬ (move x = .down ∧ climb move front = 0) := by
          rintro ⟨hdown, hfront⟩
          apply hx
          rw [climb_append, hfront, climb_cons, ha, hback]
          exact ⟨hdown, by simp⟩
        rw [depth_eq] at hi ⊢
        rw [kept_cons, if_neg hgone, hi]
  · rintro ⟨front, back, rfl, ha, rfl, hback⟩
    rw [kept_append_cons move ha hback, depth_eq, getElem?_append_right (Nat.le_refl _),
      Nat.sub_self]
    rfl

theorem kept_of_no_up {segs : List α} (h : ∀ a ∈ segs, move a ≠ .up) :
    climb move segs = 0 ∧ kept move segs = segs.filter fun a => move a = .down := by
  induction segs with
  | nil => exact ⟨rfl, rfl⟩
  | cons a _ ih =>
    obtain ⟨hclimb, hkept⟩ := ih fun b hb => h b (mem_cons_of_mem _ hb)
    have ha := h a mem_cons_self
    rw [climb_cons, kept_cons, hclimb, hkept, filter_cons]
    cases hm : move a with
    | stay => simp
    | up => exact absurd hm ha
    | down => simp

theorem mem_of_mem_kept {a : α} {segs : List α} (h : a ∈ kept move segs) :
    a ∈ segs ∧ move a = .down := by
  induction segs with
  | nil => cases h
  | cons _ _ ih =>
    rw [kept_cons] at h
    split at h
    · next hb =>
      obtain rfl | h := mem_cons.mp h
      · exact ⟨mem_cons_self, hb.1⟩
      · exact ⟨mem_cons_of_mem _ (ih h).1, (ih h).2⟩
    · exact ⟨mem_cons_of_mem _ (ih h).1, (ih h).2⟩

end Walk

end Segments
