import PingWaf.Routing.InFlight

/-!
# The limits of locations are exact

Both counters are the number of requests that hold a place (`Pool.Balances`), those that were let
past among them.
-/

namespace PingWaf.Routing

open Pool InFlight

variable {maxProcessing : Nat → Int} {p : State Processing InFlight}

theorem server_balances : Balances (requests maxProcessing) (fun _ _ _ => True)
    (fun _ _ _ => True) Processing.server inServer where
  env e := e.elim
  start _ _ := rfl
  step found s i t _ _ := by
    cases t with
    | begun => cases found <;> rfl
    | closing place => cases place <;> simp [requests, step, onResponse, inServer]
    | _ => simp [requests, step, initializeContext, onRequest, endRequest, inServer]

theorem location_balances (i : Nat) : Balances (requests maxProcessing) (fun _ _ _ => True)
    (fun _ _ _ => True) (fun s => s.location i) (inLocation i) where
  env e := e.elim
  start _ _ := rfl
  step found s j t _ _ := by
    cases t with
    | begun => cases found <;> rfl
    | placed location =>
      by_cases h : location = i
      · simp [requests, step, onRequest, inLocation, h]
      · simp [requests, step, onRequest, inLocation, h, Function.update_of_ne (Ne.symm h)]
    | closing place =>
      cases place with
      | none => rfl
      | some c =>
        by_cases h : c.1 = i
        · simp [requests, step, onResponse, inLocation, h]
        · simp [requests, step, onResponse, inLocation, h, Function.update_of_ne (Ne.symm h)]
    | _ => simp [requests, step, initializeContext, endRequest, inLocation]

theorem past_inLocation {i : Nat} {t : InFlight} (h : t.past i = true) : t.inLocation i = true := by
  cases t with
  | counted _ _ => simp_all [past, inLocation]
  | closing place => cases place <;> simp_all [past, inLocation]
  | _ => cases h

/-- A turn lets a request past only if the counter allows it. -/
theorem past_step {i : Nat} (hmax : maxProcessing i ≠ 0) (found : Option Nat) (s : Processing)
    (t : InFlight) : (InFlight.past i (step maxProcessing found s t).2).toNat ≤ (t.past i).toNat ∨
      s.location i + 1 ≤ maxProcessing i ∧ t.inLocation i = false := by
  cases t with
  | begun => cases found <;> exact .inl (Nat.le_refl _)
  | placed location =>
    by_cases h : location = i
    · subst h
      by_cases hle : s.location location + 1 ≤ maxProcessing location
      · exact .inr ⟨hle, rfl⟩
      · simp [step, onRequest, past, hmax, lt_of_not_ge hle]
    · simp [step, onRequest, past, h]
  | closing place => cases place <;> exact .inl (Nat.zero_le _)
  | _ => exact .inl (Nat.le_refl _)

/-- No more requests are past the location than it allows. -/
def Limited (maxProcessing : Nat → Int) (i : Nat) (p : State Processing InFlight) : Prop :=
  maxProcessing i ≠ 0 → (tally (past i) p : Int) ≤ max (maxProcessing i) 0

theorem Limited.act {i : Nat} (h : Limited maxProcessing i p)
    (hb : Pool.Balanced (fun s => s.location i) (inLocation i) p) (a : Act Empty Unit (Option Nat)) :
    Limited maxProcessing i (Pool.act (requests maxProcessing) p a) := by
  intro hmax
  have hle := h hmax
  cases a with
  | env e => exact e.elim
  | spawn _ =>
    rw [tally_spawn]
    simpa [requests, past] using hle
  | turn j found =>
    cases ht : p.tasks[j]? with
    | none =>
      rw [act_turn_none ht]
      exact hle
    | some t =>
      have hturn := tally_turn (S := requests maxProcessing) ht found (past i)
      have hstep : ((requests maxProcessing).step found p.shared t).2 =
          (step maxProcessing found p.shared t).2 := rfl
      rw [hstep] at hturn
      obtain hfewer | ⟨hroom, hnot⟩ := past_step hmax found p.shared t
      · omega
      · have hmono : tally (past i) p ≤ tally (inLocation i) p :=
          tally_mono fun _ _ _ => past_inLocation
        have hone := Bool.toNat_le (InFlight.past i (step maxProcessing found p.shared t).2)
        unfold Pool.Balanced at hb
        dsimp only at hb
        omega

/-- At every point of every interleaving the counters of the server and of each location are the
numbers of requests admitted and not yet logged, with those that were rejected; no more requests are
past a location's limit than it allows; and where no request is in flight the counters are zero. -/
theorem location_limits_exact (maxProcessing : Nat → Int)
    (acts : List (Act Empty Unit (Option Nat))) :
    let p := run (requests maxProcessing) idleServer acts
    p.shared.server = tally inServer p ∧
      (∀ i, p.shared.location i = tally (inLocation i) p ∧ Limited maxProcessing i p) ∧
      ((∀ t ∈ p.tasks, t = .arrived ∨ t = .logged) →
        p.shared.server = 0 ∧ ∀ i, p.shared.location i = 0) := by
  have hall : ∀ q : State Processing InFlight, Holds (fun _ => True) (fun _ _ _ => True) q :=
    fun _ => ⟨trivial, fun _ _ _ => trivial⟩
  have hturn : ∀ (q : State Processing InFlight) (a : Act Empty Unit (Option Nat)),
      OnTurn (fun _ _ _ => True) q a :=
    fun q a => by cases a <;> simp [OnTurn]
  obtain ⟨hserver, hplaces⟩ := List.foldlRecOn
      (motive := fun q => Pool.Balanced Processing.server inServer q ∧ ∀ i,
        Pool.Balanced (fun s : Processing => s.location i) (inLocation i) q ∧
          Limited maxProcessing i q)
      acts (Pool.act (requests maxProcessing)) (b := idleServer)
      ⟨rfl, fun i => ⟨rfl, fun _ => Int.le_max_right _ _⟩⟩ (by
    intro q hq a _
    refine ⟨server_balances.act (hall q) (hturn q a) hq.1, fun i => ⟨?_, ?_⟩⟩
    · exact (location_balances i).act (hall q) (hturn q a) (hq.2 i).1
    · exact (hq.2 i).2.act (hq.2 i).1 a)
  refine ⟨hserver, hplaces, fun hidle => ⟨hserver.trans ?_, fun i => (hplaces i).1.trans ?_⟩⟩
  all_goals
    rw [tally_eq_zero fun j t ht => ?_]
    · rfl
    · obtain rfl | rfl := hidle t (List.mem_of_getElem? ht) <;> rfl

end PingWaf.Routing
