import Mathlib

/-!
# Pipelines with early answers

A request passes through a list of layers that share a state. Each layer reports what it did and
either lets the request go on or answers it, which ends the run. The trace of a run lists the reports
of the layers that were reached, each with its answer.
-/

namespace Pipeline

open List

structure Step (σ ο ρ : Type) where
  state : σ
  report : ο
  answer : Option ρ

abbrev Layer (σ ο ρ : Type) := σ → Step σ ο ρ

structure Run (σ ο ρ : Type) where
  state : σ
  trace : List (ο × Option ρ)
  answer : Option ρ

variable {σ ο ρ : Type}

def Step.entry (s : Step σ ο ρ) : ο × Option ρ := (s.report, s.answer)

def run : List (Layer σ ο ρ) → σ → Run σ ο ρ
  | [], s => ⟨s, [], none⟩
  | l :: ls, s =>
    match (l s).answer with
    | some a => ⟨(l s).state, [(l s).entry], some a⟩
    | none =>
      let r := run ls (l s).state
      ⟨r.state, (l s).entry :: r.trace, r.answer⟩

@[simp] theorem run_nil (s : σ) : run ([] : List (Layer σ ο ρ)) s = ⟨s, [], none⟩ := rfl

variable {l : Layer σ ο ρ} {s : σ} {ls : List (Layer σ ο ρ)}

theorem run_cons_answer {a : ρ} (h : (l s).answer = some a) (ls : List (Layer σ ο ρ)) :
    run (l :: ls) s = ⟨(l s).state, [(l s).entry], some a⟩ := by
  simp [run, h]

theorem run_cons_next (h : (l s).answer = none) (ls : List (Layer σ ο ρ)) :
    run (l :: ls) s = ⟨(run ls (l s).state).state, (l s).entry :: (run ls (l s).state).trace,
      (run ls (l s).state).answer⟩ := by
  simp [run, h]

/-- The run reaches the layer behind `pre`, in the state `t`. -/
def Reaches (pre : List (Layer σ ο ρ)) (s t : σ) : Prop :=
  (run pre s).answer = none ∧ (run pre s).state = t

theorem reaches_nil {s t : σ} : Reaches ([] : List (Layer σ ο ρ)) s t ↔ s = t := by
  simp [Reaches]

theorem reaches_cons {s t : σ} :
    Reaches (l :: ls) s t ↔ (l s).answer = none ∧ Reaches ls (l s).state t := by
  unfold Reaches
  cases h : (l s).answer with
  | some _ => simp [run_cons_answer h]
  | none => simp [run_cons_next h]

theorem run_append_of_reaches {pre post : List (Layer σ ο ρ)} {s t : σ} (h : Reaches pre s t) :
    (run (pre ++ post) s).answer = (run post t).answer ∧
      (run (pre ++ post) s).state = (run post t).state ∧
      (run (pre ++ post) s).trace.drop pre.length = (run post t).trace := by
  induction pre generalizing s with
  | nil =>
    obtain rfl := reaches_nil.mp h
    exact ⟨rfl, rfl, rfl⟩
  | cons _ _ ih =>
    obtain ⟨hl, hr⟩ := reaches_cons.mp h
    rw [cons_append, run_cons_next hl]
    simpa using ih hr

theorem run_append_of_answer {pre post : List (Layer σ ο ρ)} {a : ρ}
    (h : (run pre s).answer = some a) : run (pre ++ post) s = run pre s := by
  induction pre generalizing s with
  | nil => cases h
  | cons l _ ih =>
    cases hl : (l s).answer with
    | some _ => rw [cons_append, run_cons_answer hl, run_cons_answer hl]
    | none =>
      rw [run_cons_next hl] at h
      rw [cons_append, run_cons_next hl, run_cons_next hl, ih h]

theorem run_keeps {τ : Type} {f : σ → τ} (h : ∀ x ∈ ls, ∀ s, f (x s).state = f s) (s : σ) :
    f (run ls s).state = f s := by
  induction ls generalizing s with
  | nil => rfl
  | cons l _ ih =>
    have hl := h l mem_cons_self s
    cases ha : (l s).answer with
    | some _ =>
      rw [run_cons_answer ha]
      exact hl
    | none =>
      rw [run_cons_next ha]
      exact (ih (fun x hx => h x (mem_cons_of_mem l hx)) _).trans hl

/-- What a run comes to: what its layers did, and its answer. -/
def Run.outcome (r : Run σ ο ρ) : List (ο × Option ρ) × Option ρ := (r.trace, r.answer)

/-- What comes of a run behind a layer: the answer of the layer with nothing behind it, or what the
layers behind it come to. -/
def Step.andThen (st : Step σ ο ρ) (post : List (Layer σ ο ρ)) : List (ο × Option ρ) × Option ρ :=
  match st.answer with
  | some a => ([], some a)
  | none => (run post st.state).outcome

theorem andThen_answer {st : Step σ ο ρ} {a : ρ} (h : st.answer = some a)
    (post : List (Layer σ ο ρ)) : st.andThen post = ([], some a) := by
  simp [Step.andThen, h]

theorem andThen_next {st : Step σ ο ρ} (h : st.answer = none) (post : List (Layer σ ο ρ)) :
    st.andThen post = (run post st.state).outcome := by
  simp [Step.andThen, h]

theorem later_of_reaches {pre post : List (Layer σ ο ρ)} {s t : σ} (h : Reaches pre s t) :
    ((run (pre ++ l :: post) s).trace.drop (pre.length + 1), (run (pre ++ l :: post) s).answer) =
      (l t).andThen post := by
  obtain ⟨hanswer, -, htrace⟩ := @run_append_of_reaches _ _ _ _ (l :: post) _ _ h
  rw [← drop_drop, htrace, hanswer]
  cases ha : (l t).answer with
  | some _ => simp [run_cons_answer ha, andThen_answer ha]
  | none => simp [run_cons_next ha, andThen_next ha, Run.outcome]

/-- The answer of a run is the one in the last entry of its trace. -/
theorem answer_eq_getLast (ls : List (Layer σ ο ρ)) (s : σ) :
    (run ls s).answer = (run ls s).trace.getLast?.bind Prod.snd := by
  induction ls generalizing s with
  | nil => rfl
  | cons l ls ih =>
    cases hl : (l s).answer with
    | some _ => simp [run_cons_answer hl, Step.entry, hl]
    | none =>
      rw [run_cons_next hl, getLast?_cons]
      dsimp only
      rw [ih]
      cases (run ls (l s).state).trace.getLast? with
      | none => simp [Step.entry, hl]
      | some _ => rfl

theorem outcome_eq_iff {ls ls' : List (Layer σ ο ρ)} {s s' : σ} :
    (run ls s).outcome = (run ls' s').outcome ↔ (run ls s).trace = (run ls' s').trace := by
  constructor
  · exact fun h => congrArg Prod.fst h
  · intro h
    rw [Run.outcome, Run.outcome, answer_eq_getLast, answer_eq_getLast, h]

theorem trace_cons_ne_nil (l : Layer σ ο ρ) (ls : List (Layer σ ο ρ)) (s : σ) :
    (run (l :: ls) s).trace ≠ [] := by
  cases h : (l s).answer with
  | some _ => simp [run_cons_answer h]
  | none => simp [run_cons_next h]

theorem outcome_cons_ne (l : Layer σ ο ρ) (ls : List (Layer σ ο ρ)) (s : σ) (a : Option ρ) :
    (run (l :: ls) s).outcome ≠ ([], a) :=
  fun h => trace_cons_ne_nil l ls s (congrArg Prod.fst h)

theorem trace_singleton (l : Layer σ ο ρ) (s : σ) : (run [l] s).trace = [(l s).entry] := by
  cases h : (l s).answer with
  | some _ => rw [run_cons_answer h]
  | none => simp [run_cons_next h]

theorem trace_concat_congr (ls : List (Layer σ ο ρ)) (l l' : Layer σ ο ρ)
    (h : ∀ s, (l s).entry = (l' s).entry) (s : σ) :
    (run (ls ++ [l]) s).trace = (run (ls ++ [l']) s).trace := by
  induction ls generalizing s with
  | nil => rw [nil_append, nil_append, trace_singleton, trace_singleton, h]
  | cons x _ ih =>
    cases hx : (x s).answer with
    | some _ => rw [cons_append, cons_append, run_cons_answer hx, run_cons_answer hx]
    | none => rw [cons_append, cons_append, run_cons_next hx, run_cons_next hx, ih]

/-- A run over layers that keep `f` comes out behind them, or ends at one of them. -/
theorem run_append_cases {τ : Type} {f : σ → τ} {pre : List (Layer σ ο ρ)}
    (hpre : ∀ x ∈ pre, ∀ s, f (x s).state = f s) (post : List (Layer σ ο ρ)) (s : σ) :
    (∃ t, f t = f s ∧ Reaches pre s t) ∨
      ∃ x ∈ pre, ∃ t, f t = f s ∧ (run (pre ++ post) s).state = (x t).state ∧
        (run (pre ++ post) s).trace.getLast? = some (x t).entry := by
  induction pre generalizing s with
  | nil => exact .inl ⟨s, rfl, reaches_nil.mpr rfl⟩
  | cons l _ ih =>
    have hl : f (l s).state = f s := hpre l mem_cons_self s
    cases ha : (l s).answer with
    | some _ =>
      refine .inr ⟨l, mem_cons_self, s, rfl, ?_⟩
      rw [cons_append, run_cons_answer ha]
      exact ⟨rfl, rfl⟩
    | none =>
      rcases ih (fun x hx => hpre x (mem_cons_of_mem _ hx)) (l s).state with
        ⟨t, ht, hr⟩ | ⟨x, hx, t, ht, hstate, hlast⟩
      · exact .inl ⟨t, ht.trans hl, reaches_cons.mpr ⟨ha, hr⟩⟩
      · refine .inr ⟨x, mem_cons_of_mem _ hx, t, ht.trans hl, ?_⟩
        rw [cons_append, run_cons_next ha]
        exact ⟨hstate, by simp [getLast?_cons, hlast]⟩

/-! ## Changes the layers do not see -/

/-- The layer neither sees the change `f` nor undoes it. -/
def Frames (f : σ → σ) (l : Layer σ ο ρ) : Prop :=
  ∀ s, (l (f s)).entry = (l s).entry ∧ (l (f s)).state = f (l s).state

theorem run_frame {f : σ → σ} (h : ∀ l ∈ ls, Frames f l) (s : σ) :
    (run ls (f s)).trace = (run ls s).trace := by
  induction ls generalizing s with
  | nil => rfl
  | cons l _ ih =>
    obtain ⟨he, hs⟩ := h l mem_cons_self s
    have ha : (l (f s)).answer = (l s).answer := congrArg Prod.snd he
    cases hl : (l s).answer with
    | some _ => rw [run_cons_answer hl, run_cons_answer (ha.trans hl), he]
    | none =>
      rw [run_cons_next hl, run_cons_next (ha.trans hl), he, hs,
        ih fun l' hl' => h l' (mem_cons_of_mem _ hl')]

end Pipeline
