import Mathlib

/-!
# Regular expressions over a text

Expressions with literals, character sets, repetition, word boundaries and the end of the text, and
the search for a match anywhere in a text. `ends` computes the places where a match that begins at a
place can end; `mem_ends_iff` says that these are the places of the relation `Takes`.

If every way through an expression passes a literal with some property, a text that it matches holds
one (`literal_of_isMatch`), and no match is shorter than `minLen` (`minLen_le_of_isMatch`).
-/

/-- How expressions read texts: which character of a text a character of a literal stands for, and
which characters make up words. -/
structure Dialect where
  same : Char → Char → Bool
  isWord : Char → Bool

inductive Regex where
  | nothing
  | lit (text : List Char)
  | set (p : Char → Bool)
  | cat (r s : Regex)
  | alt (r s : Regex)
  | star (r : Regex)
  | boundary
  | endOfText

namespace Regex

open List

/-! ## Derived forms -/

def opt (r : Regex) : Regex := alt r nothing

def plus (r : Regex) : Regex := cat r (star r)

def upTo (r : Regex) : Nat → Regex
  | 0 => nothing
  | n + 1 => opt (cat r (upTo r n))

def seq : List Regex → Regex
  | [] => nothing
  | [r] => r
  | r :: rs => cat r (seq rs)

def oneOf (r : Regex) : List Regex → Regex
  | [] => r
  | s :: rs => alt r (oneOf s rs)

/-! ## Matching -/

structure Cursor where
  prev : Option Char
  rest : List Char

def closure (f : Cursor → List Cursor) : Nat → Cursor → List Cursor
  | 0, k => [k]
  | n + 1, k =>
    k :: ((f k).filter fun m => m.rest.length < k.rest.length).flatMap (closure f n)

section

variable (g : Dialect)

def atBoundary (k : Cursor) : Bool :=
  (k.prev.any g.isWord) != (k.rest.head?.any g.isWord)

def behind : List Char → Cursor → Option Cursor
  | [], k => some k
  | w :: ws, ⟨_, a :: l⟩ => if g.same w a then behind ws ⟨some a, l⟩ else none
  | _ :: _, ⟨_, []⟩ => none

def ends : Regex → Cursor → List Cursor
  | nothing, k => [k]
  | lit w, k => (behind g w k).toList
  | set p, k =>
    match k.rest with
    | a :: l => if p a then [⟨some a, l⟩] else []
    | [] => []
  | cat r s, k => (ends r k).flatMap (ends s)
  | alt r s, k => ends r k ++ ends s k
  | star r, k => closure (ends r) k.rest.length k
  | boundary, k => if atBoundary g k then [k] else []
  | endOfText, k => if k.rest = [] then [k] else []

def search (r : Regex) : Option Char → List Char → Bool
  | prev, [] => !(ends g r ⟨prev, []⟩).isEmpty
  | prev, a :: l => !(ends g r ⟨prev, a :: l⟩).isEmpty || search r (some a) l

def isMatch (r : Regex) (text : List Char) : Bool := search g r none text

/-! ## Meaning -/

def Takes : Regex → Cursor → Cursor → Prop
  | nothing, k, m => m = k
  | lit w, k, m => behind g w k = some m
  | set p, k, m => ∃ a, p a = true ∧ k.rest = a :: m.rest ∧ m.prev = some a
  | cat r s, k, m => ∃ j, Takes r k j ∧ Takes s j m
  | alt r s, k, m => Takes r k m ∨ Takes s k m
  | star r, k, m => Relation.ReflTransGen (Takes r) k m
  | boundary, k, m => atBoundary g k = true ∧ m = k
  | endOfText, k, m => k.rest = [] ∧ m = k

variable {g}

/-- What a match takes stands at the head of the text; without it the match stays where it is. -/
def Reads (k m : Cursor) : Prop :=
  ∃ mid, k.rest = mid ++ m.rest ∧ (mid = [] → m = k)

theorem Reads.refl (k : Cursor) : Reads k k := ⟨[], rfl, fun _ => rfl⟩

theorem Reads.trans {k j m : Cursor} (h : Reads k j) (h' : Reads j m) : Reads k m := by
  obtain ⟨a, ha, hak⟩ := h
  obtain ⟨b, hb, hbj⟩ := h'
  refine ⟨a ++ b, by rw [ha, hb, append_assoc], fun hnil => ?_⟩
  obtain ⟨rfl, rfl⟩ := append_eq_nil_iff.mp hnil
  rw [hbj rfl, hak rfl]

theorem Reads.length_le {k m : Cursor} (h : Reads k m) : m.rest.length ≤ k.rest.length := by
  obtain ⟨mid, hmid, -⟩ := h
  rw [hmid, length_append]
  omega

theorem Reads.eq_of_length {k m : Cursor} (h : Reads k m)
    (hlen : k.rest.length ≤ m.rest.length) : m = k := by
  obtain ⟨mid, hmid, hstay⟩ := h
  rw [hmid, length_append] at hlen
  exact hstay (eq_nil_of_length_eq_zero (by omega))

theorem behind_eq_some {w : List Char} {k m : Cursor} (h : behind g w k = some m) :
    ∃ mid, k.rest = mid ++ m.rest ∧ List.Forall₂ (fun a b => g.same a b = true) w mid ∧
      (mid = [] → m = k) := by
  induction w generalizing k with
  | nil =>
    obtain rfl : k = m := by simpa [behind] using h
    exact ⟨[], rfl, .nil, fun _ => rfl⟩
  | cons _ _ ih =>
    obtain ⟨prev, rest⟩ := k
    cases rest with
    | nil => simp [behind] at h
    | cons a l =>
      rw [behind] at h
      split at h
      · next hsame =>
        obtain ⟨mid, hmid, hall, -⟩ := ih h
        have hl : l = mid ++ m.rest := hmid
        refine ⟨a :: mid, ?_, .cons hsame hall, fun hnil => ?_⟩
        · rw [hl]
          rfl
        · cases hnil
      · cases h

variable {r : Regex} {text : List Char}

theorem Takes.reads {k m : Cursor} (h : Takes g r k m) : Reads k m := by
  induction r generalizing k m with
  | nothing =>
    rw [show m = k from h]
    exact .refl k
  | lit _ =>
    obtain ⟨mid, hmid, -, hstay⟩ := behind_eq_some h
    exact ⟨mid, hmid, hstay⟩
  | set _ =>
    obtain ⟨a, -, hrest, -⟩ := h
    exact ⟨[a], hrest, fun hnil => nomatch hnil⟩
  | cat _ _ ihr ihs =>
    obtain ⟨j, hr, hs⟩ := h
    exact (ihr hr).trans (ihs hs)
  | alt _ _ ihr ihs => exact h.elim ihr ihs
  | star r ih =>
    induction (h : Relation.ReflTransGen (Takes g r) k m) with
    | refl => exact .refl k
    | tail _ hstep ihrest => exact ihrest.trans (ih hstep)
  | boundary | endOfText =>
    rw [h.2]
    exact .refl k

theorem mem_closure_iff {f : Cursor → List Cursor} {step : Cursor → Cursor → Prop}
    (hf : ∀ k m, m ∈ f k ↔ step k m) (hreads : ∀ k m, step k m → Reads k m) {n : Nat} {k : Cursor}
    (hn : k.rest.length ≤ n) (m : Cursor) :
    m ∈ closure f n k ↔ Relation.ReflTransGen step k m := by
  induction n generalizing k with
  | zero =>
    rw [closure, mem_singleton]
    constructor
    · rintro rfl
      exact .refl
    · intro h
      have hread : Reads k m := by
        induction h with
        | refl => exact .refl k
        | tail _ hstep ih => exact ih.trans (hreads _ _ hstep)
      exact hread.eq_of_length (by omega)
  | succ _ ih =>
    rw [closure, mem_cons, mem_flatMap]
    constructor
    · rintro (rfl | ⟨j, hj, hm⟩)
      · exact .refl
      · rw [mem_filter, decide_eq_true_eq] at hj
        exact .head ((hf k j).mp hj.1) ((ih (by omega)).mp hm)
    · intro h
      induction h using Relation.ReflTransGen.head_induction_on with
      | refl => exact .inl rfl
      | @head k j hstep hrest ihrest =>
        have hread := hreads k j hstep
        -- a step that gets no further can be left out
        rcases Nat.lt_or_ge j.rest.length k.rest.length with hlt | hge
        · refine .inr ⟨j, mem_filter.mpr ⟨(hf k j).mpr hstep, decide_eq_true hlt⟩, ?_⟩
          exact (ih (by omega)).mpr hrest
        · obtain rfl := hread.eq_of_length hge
          exact ihrest hn

theorem mem_ends_iff (r : Regex) (k m : Cursor) : m ∈ ends g r k ↔ Takes g r k m := by
  induction r generalizing k m with
  | nothing => exact mem_singleton
  | lit _ =>
    rw [ends, Option.mem_toList]
    rfl
  | set _ =>
    obtain ⟨prev, rest⟩ := k
    obtain ⟨prev', rest'⟩ := m
    cases rest with
    | nil => simp [ends, Takes]
    | cons a _ =>
      simp only [ends, Takes]
      split
      · next hp =>
        rw [mem_singleton, Cursor.mk.injEq]
        constructor
        · rintro ⟨rfl, rfl⟩
          exact ⟨a, hp, rfl, rfl⟩
        · rintro ⟨b, -, hrest, hprev⟩
          obtain ⟨rfl, rfl⟩ := cons.inj hrest
          exact ⟨hprev, rfl⟩
      · next hp =>
        refine iff_of_false not_mem_nil ?_
        rintro ⟨b, hb, hrest, -⟩
        obtain ⟨rfl, -⟩ := cons.inj hrest
        exact hp hb
  | cat _ _ ihr ihs =>
    rw [ends, mem_flatMap]
    simp only [ihr, ihs]
    rfl
  | alt _ _ ihr ihs =>
    rw [ends, mem_append, ihr, ihs]
    rfl
  | star _ ih => exact mem_closure_iff ih (fun _ _ h => h.reads) (Nat.le_refl _) m
  | boundary | endOfText =>
    rw [ends]
    split
    · next h => simp [Takes, h]
    · next h => simp [Takes, h]

theorem takes_of_search {prev : Option Char} (h : search g r prev text = true) :
    ∃ front k m, text = front ++ k.rest ∧ Takes g r k m := by
  induction text generalizing prev with
  | nil =>
    rw [search, Bool.not_eq_true', isEmpty_eq_false_iff_exists_mem] at h
    obtain ⟨m, hm⟩ := h
    exact ⟨[], ⟨prev, []⟩, m, rfl, (mem_ends_iff r _ m).mp hm⟩
  | cons a l ih =>
    rw [search, Bool.or_eq_true, Bool.not_eq_true', isEmpty_eq_false_iff_exists_mem] at h
    rcases h with ⟨m, hm⟩ | h
    · exact ⟨[], ⟨prev, a :: l⟩, m, rfl, (mem_ends_iff r _ m).mp hm⟩
    · obtain ⟨front, k, m, hl, htakes⟩ := ih h
      exact ⟨a :: front, k, m, by rw [hl]; rfl, htakes⟩

/-! ## What a match must hold -/

def passes (p : List Char → Bool) : Regex → Bool
  | lit w => p w
  | cat r s => passes p r || passes p s
  | alt r s => passes p r && passes p s
  | _ => false

def minLen : Regex → Nat
  | lit w => w.length
  | set _ => 1
  | cat r s => minLen r + minLen s
  | alt r s => min (minLen r) (minLen s)
  | _ => 0

theorem literal_of_takes {p : List Char → Bool} (hr : passes p r = true) {k m : Cursor}
    (h : Takes g r k m) :
    ∃ w mid, p w = true ∧ mid <:+: k.rest ∧ List.Forall₂ (fun a b => g.same a b = true) w mid := by
  induction r generalizing k m with
  | lit w =>
    obtain ⟨mid, hmid, hall, -⟩ := behind_eq_some h
    exact ⟨w, mid, hr, by rw [hmid]; exact (prefix_append _ _).isInfix, hall⟩
  | cat _ _ ihr ihs =>
    obtain ⟨j, hkj, hjm⟩ := h
    rw [passes, Bool.or_eq_true] at hr
    rcases hr with hr | hs
    · exact ihr hr hkj
    · obtain ⟨w, mid, hw, hmid, hall⟩ := ihs hs hjm
      obtain ⟨a, ha, -⟩ := hkj.reads
      refine ⟨w, mid, hw, hmid.trans ?_, hall⟩
      rw [ha]
      exact (suffix_append _ _).isInfix
  | alt _ _ ihr ihs =>
    rw [passes, Bool.and_eq_true] at hr
    exact h.elim (ihr hr.1) (ihs hr.2)
  | nothing | set _ | star _ | boundary | endOfText => cases hr

theorem minLen_le_of_takes {k m : Cursor} (h : Takes g r k m) :
    minLen r + m.rest.length ≤ k.rest.length := by
  induction r generalizing k m with
  | lit _ =>
    obtain ⟨mid, hmid, hall, -⟩ := behind_eq_some h
    rw [hmid, length_append, minLen, hall.length_eq]
  | set _ =>
    obtain ⟨a, -, hrest, -⟩ := h
    rw [hrest, minLen, length_cons]
    omega
  | cat _ _ ihr ihs =>
    obtain ⟨j, hkj, hjm⟩ := h
    have := ihr hkj
    have := ihs hjm
    rw [minLen]
    omega
  | alt _ _ ihr ihs =>
    rw [minLen]
    rcases h with h | h
    · have := ihr h
      omega
    · have := ihs h
      omega
  | nothing | star _ | boundary | endOfText => simpa [minLen] using h.reads.length_le

theorem literal_of_isMatch {p : List Char → Bool} (hr : passes p r = true)
    (h : isMatch g r text = true) :
    ∃ w mid, p w = true ∧ mid <:+: text ∧ List.Forall₂ (fun a b => g.same a b = true) w mid := by
  obtain ⟨front, k, m, htext, htakes⟩ := takes_of_search h
  obtain ⟨w, mid, hw, hmid, hall⟩ := literal_of_takes hr htakes
  refine ⟨w, mid, hw, hmid.trans ?_, hall⟩
  rw [htext]
  exact (suffix_append _ _).isInfix

theorem minLen_le_of_isMatch (h : isMatch g r text = true) : minLen r ≤ text.length := by
  obtain ⟨front, k, m, htext, htakes⟩ := takes_of_search h
  have := minLen_le_of_takes htakes
  rw [htext, length_append]
  omega

end

end Regex
