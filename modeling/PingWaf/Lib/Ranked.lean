import Mathlib

/-!
# First match in descending rank

Lists sorted stably by descending rank, and the first element that passes a test in the sorted
order. `leads_of_pick` says which element of the unsorted list that is: it passes, everything
before it that passes ranks strictly lower, everything after it ranks no higher.
-/

namespace Ranked

open List

variable {α : Type} (rank : α → Nat) (p : α → Bool)

def order (l : List α) : List α := l.insertionSort fun a b => rank b ≤ rank a

def pick (l : List α) : Option α := (order rank l).find? p

variable {l : List α} {a : α}

theorem mem_order {x : α} : x ∈ order rank l ↔ x ∈ l := mem_insertionSort _

theorem order_pairwise (l : List α) : (order rank l).Pairwise fun a b => rank b ≤ rank a := by
  have : Std.Total fun a b : α => rank b ≤ rank a := ⟨fun a b => Nat.le_total _ _⟩
  have : IsTrans α fun a b => rank b ≤ rank a := ⟨fun _ _ _ hab hbc => hbc.trans hab⟩
  exact pairwise_insertionSort _ l

@[simp] theorem pick_nil : pick rank p [] = none := rfl

theorem find_orderedInsert_of_fails (ha : p a = false) (l : List α) :
    (l.orderedInsert (fun a b => rank b ≤ rank a) a).find? p = l.find? p := by
  induction l with
  | nil => simp [ha]
  | cons b _ ih =>
    by_cases hab : rank b ≤ rank a
    · simp [orderedInsert_cons, hab, find?_cons, ha]
    · simp [orderedInsert_cons, hab, find?_cons, ih]

theorem find_orderedInsert_of_passes (ha : p a = true) (hl : l.Pairwise fun a b => rank b ≤ rank a) :
    (l.orderedInsert (fun a b => rank b ≤ rank a) a).find? p =
      match l.find? p with
      | none => some a
      | some b => if rank b ≤ rank a then some a else some b := by
  induction l with
  | nil => simp [ha]
  | cons b l ih =>
    obtain ⟨hb, hl⟩ := pairwise_cons.mp hl
    by_cases hab : rank b ≤ rank a
    · -- everything after `b` ranks no higher than `b`, so whatever was picked gives way
      have hlow : ∀ c, (b :: l).find? p = some c → rank c ≤ rank a := by
        intro c hc
        rcases mem_cons.mp (mem_of_find?_eq_some hc) with rfl | hmem
        · exact hab
        · exact (hb c hmem).trans hab
      rw [orderedInsert_cons, if_pos hab, find?_cons, ha]
      cases hf : (b :: l).find? p with
      | none => rfl
      | some c => simp [hlow c hf]
    · rw [orderedInsert_cons, if_neg hab, find?_cons, find?_cons]
      cases hpb : p b with
      | true => simp [hab]
      | false => exact ih hl

theorem pick_cons_of_fails (ha : p a = false) (l : List α) :
    pick rank p (a :: l) = pick rank p l :=
  find_orderedInsert_of_fails rank p ha (order rank l)

theorem pick_cons_of_passes (ha : p a = true) (l : List α) :
    pick rank p (a :: l) =
      match pick rank p l with
      | none => some a
      | some b => if rank b ≤ rank a then some a else some b :=
  find_orderedInsert_of_passes rank p ha (order_pairwise rank l)

theorem pick_eq_none_iff : pick rank p l = none ↔ ∀ x ∈ l, p x = false := by
  simp [pick, find?_eq_none, mem_order]

theorem findSome_order {β : Type} (f : α → Option β) (l : List α) :
    (order rank l).findSome? f = (pick rank (fun a => (f a).isSome) l).bind f := by
  unfold pick
  induction order rank l with
  | nil => rfl
  | cons a _ ih =>
    cases hf : f a with
    | none => simp [hf, ih]
    | some _ => simp [hf]

/-- `x` is the pick of a list it splits into `pre` and `post`. -/
structure Leads (pre : List α) (x : α) (post : List α) : Prop where
  passes : p x = true
  before : ∀ y ∈ pre, p y = true → rank y < rank x
  after : ∀ y ∈ post, p y = true → rank y ≤ rank x

variable {rank p}

theorem Leads.cons {a x : α} {pre post : List α} (h : Leads rank p pre x post)
    (ha : p a = true → rank a < rank x) : Leads rank p (a :: pre) x post where
  passes := h.passes
  before y hy hp := by
    rcases mem_cons.mp hy with rfl | hmem
    · exact ha hp
    · exact h.before y hmem hp
  after := h.after

theorem leads_of_pick {x : α} (h : pick rank p l = some x) :
    ∃ pre post, l = pre ++ x :: post ∧ Leads rank p pre x post := by
  induction l generalizing x with
  | nil => simp at h
  | cons a l ih =>
    cases ha : p a with
    | false =>
      rw [pick_cons_of_fails rank p ha] at h
      obtain ⟨pre, post, rfl, hx⟩ := ih h
      exact ⟨a :: pre, post, rfl, hx.cons (by simp [ha])⟩
    | true =>
      rw [pick_cons_of_passes rank p ha] at h
      cases hb : pick rank p l with
      | none =>
        rw [hb] at h
        obtain rfl : a = x := by simpa using h
        refine ⟨[], l, rfl, ha, by simp, fun y hy hp => ?_⟩
        have hfail := (pick_eq_none_iff rank p).mp hb y hy
        simp [hfail] at hp
      | some b =>
        obtain ⟨pre, post, rfl, hlead⟩ := ih hb
        rw [hb] at h
        by_cases hab : rank b ≤ rank a
        · obtain rfl : a = x := by simpa [hab] using h
          refine ⟨[], _, rfl, ha, by simp, fun y hy hp => ?_⟩
          rcases mem_append.mp hy with hy | hy
          · exact (hlead.before y hy hp).le.trans hab
          · rcases mem_cons.mp hy with rfl | hy
            · exact hab
            · exact (hlead.after y hy hp).trans hab
        · obtain rfl : b = x := by simpa [hab] using h
          exact ⟨a :: pre, post, rfl, hlead.cons fun _ => Nat.lt_of_not_le hab⟩

theorem Leads.outranks {pre post pre' post' : List α} {x y : α} (hx : Leads rank p pre x post)
    (hsplit : pre ++ x :: post = pre' ++ y :: post') (hy : p y = true) :
    x = y ∨ (x ∈ pre' ∧ rank y ≤ rank x) ∨ (x ∈ post' ∧ rank y < rank x) := by
  rcases append_eq_append_iff.mp hsplit with ⟨mid, rfl, hmid⟩ | ⟨mid, rfl, hmid⟩
  · cases mid with
    | nil => simp at hmid; exact .inl hmid.1
    | cons m mid =>
      obtain ⟨rfl, rfl⟩ : x = m ∧ post = mid ++ y :: post' := by simpa using hmid
      exact .inr (.inl ⟨by simp, hx.after y (by simp) hy⟩)
  · cases mid with
    | nil => simp at hmid; exact .inl hmid.1.symm
    | cons m mid =>
      obtain ⟨rfl, rfl⟩ : y = m ∧ post' = mid ++ x :: post := by simpa using hmid
      exact .inr (.inr ⟨by simp, hx.before y (by simp) hy⟩)

/-- A search by ascending indices finds what a scan of the list finds, if they leave out no element
with a find. -/
theorem findSome_indices {β : Type} {f : α → Option β} {is : List Nat}
    (hsorted : is.Pairwise (· < ·)) (hall : ∀ i a, l[i]? = some a → (f a).isSome → i ∈ is) :
    (is.findSome? fun i => l[i]?.bind f) = l.findSome? f := by
  cases hfind : l.findSome? f with
  | none =>
    rw [findSome?_eq_none_iff] at hfind ⊢
    exact fun i _ => Option.bind_eq_none_iff.mpr fun a ha => hfind a (mem_of_getElem? ha)
  | some b =>
    obtain ⟨front, a, back, rfl, ha, hfront⟩ := findSome?_eq_some_iff.mp hfind
    have hmem := hall front.length a (by simp) (by simp [ha])
    obtain ⟨before, after, rfl⟩ := append_of_mem hmem
    refine findSome?_eq_some_iff.mpr ⟨before, front.length, after, rfl, by simp [ha], fun i hi => ?_⟩
    have hlt : i < front.length := (pairwise_append.mp hsorted).2.2 i hi _ mem_cons_self
    rw [getElem?_append_left hlt, getElem?_eq_getElem hlt]
    exact hfront _ (getElem_mem hlt)

end Ranked
