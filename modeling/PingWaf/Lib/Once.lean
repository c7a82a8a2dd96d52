import Mathlib

/-!
# Events that happen once

Runs of a state machine over a list of events, counted by a test on each event and the state it
finds. An event that happens at most once is shown by a state predicate that the event brings about
and that rules it out from then on.
-/

namespace Once

variable {σ ε : Type} (step : σ → ε → σ)

def hits (hit : σ → ε → Bool) : σ → List ε → Nat
  | _, [] => 0
  | s, e :: es => (if hit s e then 1 else 0) + hits hit (step s e) es

def Along (ok : σ → ε → Prop) : σ → List ε → Prop
  | _, [] => True
  | s, e :: es => ok s e ∧ Along ok (step s e) es

instance instDecidableAlong (ok : σ → ε → Prop) [∀ s e, Decidable (ok s e)] :
    ∀ s es, Decidable (Along step ok s es)
  | _, [] => .isTrue trivial
  | s, e :: es =>
    have := instDecidableAlong ok (step s e) es
    inferInstanceAs (Decidable (ok s e ∧ Along step ok (step s e) es))

variable {step} {hit : σ → ε → Bool} {ok ok' : σ → ε → Prop} {s : σ} {e : ε} {es : List ε}

theorem along_and (h : Along step ok s es) (h' : Along step ok' s es) :
    Along step (fun s e => ok s e ∧ ok' s e) s es := by
  induction es generalizing s with
  | nil => trivial
  | cons _ _ ih => exact ⟨⟨h.1, h'.1⟩, ih h.2 h'.2⟩

theorem Along.of_append {es' : List ε} (h : Along step ok s (es ++ es')) :
    Along step ok s es ∧ Along step ok (es.foldl step s) es' := by
  induction es generalizing s with
  | nil => exact ⟨trivial, h⟩
  | cons _ _ ih => exact ⟨⟨h.1, (ih h.2).1⟩, (ih h.2).2⟩

theorem Along.keeps {P : σ → Prop} (hstep : ∀ s e, ok s e → P s → P (step s e))
    (h : Along step ok s es) (hs : P s) : P (es.foldl step s) := by
  induction es generalizing s with
  | nil => exact hs
  | cons e _ ih => exact ih h.2 (hstep s e h.1 hs)

/-- Where a step keeps a property exactly if it meets the condition, the property holds in every state
of a run exactly if every event meets it. -/
theorem forall_states_iff {I P : σ → Prop} (hinv : ∀ s e, I s → I (step s e))
    (hstep : ∀ s e, I s → P s → (P (step s e) ↔ ok s e)) (hI : I s) (hP : P s) :
    (∀ done, done <+: es → P (done.foldl step s)) ↔ Along step ok s es := by
  induction es generalizing s with
  | nil =>
    refine iff_of_true (fun done hdone => ?_) trivial
    rw [List.prefix_nil.mp hdone]
    exact hP
  | cons e _ ih =>
    constructor
    · intro h
      have hnext : P (step s e) := h [e] (by simp)
      refine ⟨(hstep s e hI hP).mp hnext, (ih (hinv s e hI) hnext).mp fun done hdone => ?_⟩
      exact h (e :: done) (List.cons_prefix_cons.mpr ⟨rfl, hdone⟩)
    · rintro ⟨hok, hrest⟩ done hdone
      have hnext : P (step s e) := (hstep s e hI hP).mpr hok
      cases done with
      | nil => exact hP
      | cons _ done =>
        obtain ⟨rfl, htail⟩ := List.cons_prefix_cons.mp hdone
        exact (ih (hinv s _ hI) hnext).mpr hrest done htail

theorem Along.keeps_log {P : List ε → σ → Prop}
    (hstep : ∀ log s e, ok s e → P log s → P (log ++ [e]) (step s e))
    (h : Along step ok s es) {log : List ε} (hs : P log s) : P (log ++ es) (es.foldl step s) := by
  induction es generalizing s log with
  | nil => simpa using hs
  | cons e _ ih => simpa using ih h.2 (hstep log s e h.1 hs)

theorem hits_eq_zero {P : σ → Prop}
    (hspent : ∀ s e, ok s e → P s → hit s e = false ∧ P (step s e))
    (h : Along step ok s es) (hs : P s) : hits step hit s es = 0 := by
  induction es generalizing s with
  | nil => rfl
  | cons e _ ih =>
    obtain ⟨hmiss, hnext⟩ := hspent s e h.1 hs
    rw [hits, hmiss, ih h.2 hnext]
    rfl

theorem hits_le_one {P : σ → Prop}
    (hspent : ∀ s e, ok s e → P s → hit s e = false ∧ P (step s e))
    (hfirst : ∀ s e, ok s e → hit s e = true → P (step s e))
    (h : Along step ok s es) : hits step hit s es ≤ 1 := by
  induction es generalizing s with
  | nil => exact Nat.zero_le 1
  | cons e _ ih =>
    rw [hits]
    cases hhit : hit s e with
    | true => rw [hits_eq_zero hspent h.2 (hfirst s e h.1 hhit)]; rfl
    | false =>
      have := ih h.2
      simpa using this

end Once
