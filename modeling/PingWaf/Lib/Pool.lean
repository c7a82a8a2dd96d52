import PingWaf.Lib.Once

/-!
# Tasks that share a state

Tasks take turns on a shared state, one atomic step of one task at a time; in between the
surroundings change the state and new tasks start. `Rule.run` proves what holds throughout a run in
the manner of rely and guarantee, and `Balances.run` that a counter in the state equals the number
of tasks that hold a share.
-/

namespace Pool

open List

/-- How the surroundings act on the state, how a call starts and what one turn of a task does; a
turn may read an input. -/
structure System (σ τ ε κ ι : Type) where
  env : ε → σ → σ
  start : κ → σ → τ
  step : ι → σ → τ → σ × τ

inductive Act (ε κ ι : Type) where
  | env (e : ε)
  | spawn (call : κ)
  | turn (task : Nat) (input : ι)

structure State (σ τ : Type) where
  shared : σ
  tasks : List τ

variable {σ τ ε κ ι : Type} (S : System σ τ ε κ ι)

def act (p : State σ τ) : Act ε κ ι → State σ τ
  | .env e => { p with shared := S.env e p.shared }
  | .spawn call => { p with tasks := p.tasks ++ [S.start call p.shared] }
  | .turn i input =>
    match p.tasks[i]? with
    | none => p
    | some t => ⟨(S.step input p.shared t).1, p.tasks.set i (S.step input p.shared t).2⟩

def run (p : State σ τ) (acts : List (Act ε κ ι)) : State σ τ := acts.foldl (act S) p

def OnTurn (ok : ι → σ → τ → Prop) (p : State σ τ) : Act ε κ ι → Prop
  | .turn i input => ∀ t, p.tasks[i]? = some t → ok input p.shared t
  | _ => True

instance (ok : ι → σ → τ → Prop) [∀ input s t, Decidable (ok input s t)] (p : State σ τ) :
    ∀ a : Act ε κ ι, Decidable (OnTurn ok p a)
  | .env _ => .isTrue trivial
  | .spawn _ => .isTrue trivial
  | .turn i input => inferInstanceAs (Decidable (∀ t ∈ p.tasks[i]?, ok input p.shared t))

def Turns (ok : ι → σ → τ → Prop) (p : State σ τ) (acts : List (Act ε κ ι)) : Prop :=
  Once.Along (act S) (OnTurn ok) p acts

instance (ok : ι → σ → τ → Prop) [∀ input s t, Decidable (ok input s t)] (p : State σ τ)
    (acts : List (Act ε κ ι)) : Decidable (Turns S ok p acts) :=
  inferInstanceAs (Decidable (Once.Along (act S) (OnTurn ok) p acts))

/-- `I` holds of the shared state and `J` of each task under its number. -/
structure Holds (I : σ → Prop) (J : Nat → σ → τ → Prop) (p : State σ τ) : Prop where
  shared : I p.shared
  task : ∀ i t, p.tasks[i]? = some t → J i p.shared t

structure Rule (ok : ι → σ → τ → Prop) (I : σ → Prop) (J : Nat → σ → τ → Prop) : Prop where
  env : ∀ e s, I s → I (S.env e s)
  env_task : ∀ e s i t, I s → J i s t → J i (S.env e s) t
  start : ∀ call s i, I s → J i s (S.start call s)
  step : ∀ input s i t, ok input s t → I s → J i s t → I (S.step input s t).1
  step_task : ∀ input s i t, ok input s t → I s → J i s t →
    J i (S.step input s t).1 (S.step input s t).2
  others : ∀ input s t j u, ok input s t → I s → J j s u → J j (S.step input s t).1 u

variable {S} {ok : ι → σ → τ → Prop} {I : σ → Prop} {J : Nat → σ → τ → Prop} {p : State σ τ}

theorem Turns.of_append {acts acts' : List (Act ε κ ι)} (h : Turns S ok p (acts ++ acts')) :
    Turns S ok p acts ∧ Turns S ok (run S p acts) acts' :=
  Once.Along.of_append h

theorem run_append (p : State σ τ) (acts acts' : List (Act ε κ ι)) :
    run S p (acts ++ acts') = run S (run S p acts) acts' :=
  foldl_append

variable {i : Nat} {t : τ} {acts : List (Act ε κ ι)}

theorem act_turn_none (h : p.tasks[i]? = none) (input : ι) : act S p (.turn i input) = p := by
  simp [act, h]

theorem act_turn_some (h : p.tasks[i]? = some t) (input : ι) :
    act S p (.turn i input) =
      ⟨(S.step input p.shared t).1, p.tasks.set i (S.step input p.shared t).2⟩ := by
  simp [act, h]

theorem tasks_spawn {call : κ} (h : (act S p (.spawn call)).tasks[i]? = some t) :
    p.tasks[i]? = some t ∨ (i = p.tasks.length ∧ t = S.start call p.shared) := by
  have h' : (p.tasks ++ [S.start call p.shared])[i]? = some t := h
  rw [getElem?_append] at h'
  split at h'
  · exact .inl h'
  · next hlt =>
    rw [getElem?_singleton] at h'
    split at h'
    · exact .inr ⟨by omega, (Option.some.inj h').symm⟩
    · cases h'

theorem tasks_turn {i j : Nat} {t u : τ} {input : ι} (ht : p.tasks[i]? = some t)
    (h : (act S p (.turn i input)).tasks[j]? = some u) :
    (j = i ∧ u = (S.step input p.shared t).2) ∨ (j ≠ i ∧ p.tasks[j]? = some u) := by
  rw [act_turn_some ht] at h
  have h' : (p.tasks.set i (S.step input p.shared t).2)[j]? = some u := h
  by_cases hij : i = j
  · subst hij
    have hlt : i < p.tasks.length := (List.getElem?_eq_some_iff.mp ht).1
    rw [List.getElem?_set_self hlt] at h'
    exact .inl ⟨rfl, (Option.some.inj h').symm⟩
  · rw [getElem?_set_ne hij] at h'
    exact .inr ⟨Ne.symm hij, h'⟩

theorem Rule.act (h : Rule S ok I J) (hp : Holds I J p) {a : Act ε κ ι} (ha : OnTurn ok p a) :
    Holds I J (act S p a) := by
  cases a with
  | env e => exact ⟨h.env e _ hp.shared, fun i t ht => h.env_task e _ i t hp.shared (hp.task i t ht)⟩
  | spawn call =>
    refine ⟨hp.shared, fun i t ht => ?_⟩
    obtain hin | ⟨-, rfl⟩ := tasks_spawn ht
    · exact hp.task i t hin
    · exact h.start call _ i hp.shared
  | turn i input =>
    cases ht : p.tasks[i]? with
    | none => exact (act_turn_none ht input).symm ▸ hp
    | some t =>
      have hshared : (Pool.act S p (.turn i input)).shared = (S.step input p.shared t).1 := by
        rw [act_turn_some ht]
      have hok := ha t ht
      have hJ := hp.task i t ht
      refine ⟨hshared ▸ h.step input _ i t hok hp.shared hJ, fun j u hu => ?_⟩
      rw [hshared]
      obtain ⟨rfl, rfl⟩ | ⟨-, hin⟩ := tasks_turn ht hu
      · exact h.step_task input _ _ t hok hp.shared hJ
      · exact h.others input _ t j u hok hp.shared (hp.task j u hin)

theorem run_keeps {G : State σ τ → Prop}
    (hact : ∀ p (a : Act ε κ ι), OnTurn ok p a → G p → G (Pool.act S p a))
    (hacts : Turns S ok p acts) (hp : G p) : G (Pool.run S p acts) :=
  hacts.keeps hact hp

theorem Rule.run (h : Rule S ok I J) (hacts : Turns S ok p acts) (hp : Holds I J p) :
    Holds I J (run S p acts) :=
  run_keeps (fun _ _ ha hp => h.act hp ha) hacts hp

/-! ## Tallies -/

def tally (test : τ → Bool) (p : State σ τ) : Nat := p.tasks.countP test

theorem tally_spawn (test : τ → Bool) (p : State σ τ) (call : κ) :
    tally test (Pool.act S p (.spawn call)) =
      tally test p + (test (S.start call p.shared)).toNat := by
  unfold tally
  cases h : test (S.start call p.shared) <;> simp [Pool.act, h]

theorem tally_turn (h : p.tasks[i]? = some t) (input : ι) (test : τ → Bool) :
    tally test (Pool.act S p (.turn i input)) + (test t).toNat =
      tally test p + (test (S.step input p.shared t).2).toNat := by
  obtain ⟨hlt, rfl⟩ := List.getElem?_eq_some_iff.mp h
  have hle : (test p.tasks[i]).toNat ≤ p.tasks.countP test := by
    cases ht : test p.tasks[i] with
    | false => exact Nat.zero_le _
    | true => exact countP_pos_iff.mpr ⟨_, getElem_mem hlt, ht⟩
  unfold tally
  rw [act_turn_some h]
  dsimp only
  rw [countP_set hlt]
  cases h1 : test p.tasks[i] <;> cases h2 : test (S.step input p.shared p.tasks[i]).2 <;>
    simp only [h1, Bool.toNat_true, Bool.toNat_false, Bool.false_eq_true, if_true, if_false]
      at hle ⊢ <;> omega

theorem tally_mono {test test' : τ → Bool}
    (h : ∀ (i : Nat) t, p.tasks[i]? = some t → test t = true → test' t = true) :
    tally test p ≤ tally test' p := by
  refine countP_mono_left fun t ht htest => ?_
  obtain ⟨i, hi⟩ := getElem?_of_mem ht
  exact h i t hi htest

theorem tally_eq_zero {test : τ → Bool} (h : ∀ (i : Nat) t, p.tasks[i]? = some t → test t = false) :
    tally test p = 0 := by
  refine countP_eq_zero.mpr fun t ht => ?_
  obtain ⟨i, hi⟩ := getElem?_of_mem ht
  rw [h i t hi]
  exact Bool.false_ne_true

/-! ## Totals -/

section Total

variable {M : Type} [AddCommMonoid M]

def total (f : τ → M) (p : State σ τ) : M := (p.tasks.map f).sum

theorem total_spawn (f : τ → M) (p : State σ τ) (call : κ) :
    total f (Pool.act S p (.spawn call)) = total f p + f (S.start call p.shared) := by
  simp [total, Pool.act]

theorem sum_map_set (f : τ → M) (ts : List τ) {i : Nat} {t : τ} (h : ts[i]? = some t) (t' : τ) :
    ((ts.set i t').map f).sum + f t = (ts.map f).sum + f t' := by
  induction ts generalizing i with
  | nil => cases h
  | cons _ _ ih =>
    cases i with
    | zero =>
      cases h
      simp only [set_cons_zero, map_cons, sum_cons]
      abel
    | succ _ =>
      simp only [set_cons_succ, map_cons, sum_cons, add_assoc]
      rw [ih (by simpa using h)]

theorem total_turn {i : Nat} {t : τ} (h : p.tasks[i]? = some t) (input : ι) (f : τ → M) :
    total f (Pool.act S p (.turn i input)) + f t =
      total f p + f (S.step input p.shared t).2 := by
  rw [act_turn_some h]
  exact sum_map_set f p.tasks h _

end Total

def Balanced (amount : σ → Int) (holds : τ → Bool) (p : State σ τ) : Prop :=
  amount p.shared = tally holds p

/-- What has to be shown of an amount: the surroundings leave it, a new task holds nothing, and a
turn changes it by what its task takes or gives back. -/
structure Balances (S : System σ τ ε κ ι) (ok : ι → σ → τ → Prop) (J : Nat → σ → τ → Prop)
    (amount : σ → Int) (holds : τ → Bool) : Prop where
  env : ∀ e s, amount (S.env e s) = amount s
  start : ∀ call s, holds (S.start call s) = false
  step : ∀ input s i t, ok input s t → J i s t →
    amount (S.step input s t).1 + (holds t).toNat = amount s + (holds (S.step input s t).2).toNat

theorem Balances.act {amount : σ → Int} {holds : τ → Bool} (h : Balances S ok J amount holds)
    (hp : Holds I J p) {a : Act ε κ ι} (ha : OnTurn ok p a) (hb : Balanced amount holds p) :
    Balanced amount holds (Pool.act S p a) := by
  cases a with
  | env e => exact (h.env e _).trans hb
  | spawn _ =>
    unfold Balanced
    rw [tally_spawn, h.start, Bool.toNat_false, Nat.add_zero]
    exact hb
  | turn i input =>
    cases ht : p.tasks[i]? with
    | none => exact (act_turn_none ht input).symm ▸ hb
    | some t =>
      have hmoved := h.step input _ i t (ha t ht) (hp.task i t ht)
      have htally := tally_turn (S := S) ht input holds
      unfold Balanced at hb ⊢
      have hshared : (Pool.act S p (.turn i input)).shared = (S.step input p.shared t).1 := by
        rw [act_turn_some ht]
      rw [hshared]
      omega

theorem Balances.run {amount : σ → Int} {holds : τ → Bool} (h : Balances S ok J amount holds)
    (hrule : Rule S ok I J) (hacts : Turns S ok p acts) (hp : Holds I J p)
    (hb : Balanced amount holds p) :
    Balanced amount holds (Pool.run S p acts) :=
  (run_keeps (G := fun p => Holds I J p ∧ Balanced amount holds p)
    (fun _ _ ha hg => ⟨hrule.act hg.1 ha, h.act hg.1 ha hg.2⟩) hacts ⟨hp, hb⟩).2

end Pool
