import PingWaf.Waf.ScanBudget

/-!
# The scan budget is conserved

A step moves bytes between the counter and the guard of one inspection (`held_step`), so the counter
is always what the live guards hold.
-/

namespace PingWaf.Waf

open Pool Inspection

/-- The counter is what the live guards hold, and within the limit. -/
structure Conserved (limit : Nat) (p : State Nat Inspection) : Prop where
  total : p.shared = total held p
  le : p.shared ≤ limit

variable {limit : Nat} {p : State Nat Inspection}

theorem maxTotalScanBytes_lt (env : Option Nat) : maxTotalScanBytes env < 2 ^ 32 := by
  unfold maxTotalScanBytes
  omega

theorem dropGuard_eq {total bytes : Nat} (hb : bytes ≤ total) (ht : total < 2 ^ 64) :
    dropGuard total bytes = total - bytes := by
  unfold dropGuard
  omega

theorem tryAcquire_cases (hlim : limit < 2 ^ 32) (spurious : Bool) (total bytes used : Nat) :
    ((tryAcquire limit spurious total bytes used).1 = total ∧
      (tryAcquire limit spurious total bytes used).2.held = 0) ∨
    (total = used ∧ used + bytes ≤ limit ∧
      tryAcquire limit spurious total bytes used = (used + bytes, .reserved bytes)) := by
  unfold tryAcquire satAdd maxU64
  split
  · exact .inl ⟨rfl, rfl⟩
  · split
    · next hover h => exact .inr ⟨h.1, by omega, rfl⟩
    · exact .inl ⟨rfl, rfl⟩

/-- A step moves bytes between the counter and the inspection, and reserves within the limit. -/
theorem held_step (hlim : limit < 2 ^ 32) {total : Nat} {t : Inspection} (spurious : Bool)
    (ht : total ≤ limit) (hheld : t.held ≤ total) :
    (step limit spurious total t).1 + t.held = total + (step limit spurious total t).2.held ∧
      (step limit spurious total t).1 ≤ limit := by
  cases t with
  | trying bytes used =>
    show (tryAcquire limit spurious total bytes used).1 + 0 =
      total + (tryAcquire limit spurious total bytes used).2.held ∧ _ ≤ limit
    obtain ⟨hsame, hnone⟩ | ⟨rfl, hroom, hdone⟩ := tryAcquire_cases hlim spurious total bytes used
    · exact ⟨by rw [hsame, hnone], hsame.le.trans ht⟩
    · simp only [step, hdone, held]
      omega
  | reserved bytes =>
    have hb : bytes ≤ total := hheld
    simp only [step, held, dropGuard_eq hb (by omega)]
    omega
  | _ => exact ⟨rfl, ht⟩

theorem Conserved.held_le (h : Conserved limit p) {i : Nat} {t : Inspection}
    (ht : p.tasks[i]? = some t) : t.held ≤ p.shared := by
  have hmem : t.held ∈ p.tasks.map held := List.mem_map_of_mem (List.mem_of_getElem? ht)
  rw [h.total]
  exact List.le_sum_of_mem hmem

theorem Conserved.act (hlim : limit < 2 ^ 32) (h : Conserved limit p)
    (a : Act Empty (Option Nat) Bool) : Conserved limit (act (inspections limit) p a) := by
  cases a with
  | env e => exact e.elim
  | spawn call =>
    refine ⟨?_, h.le⟩
    rw [total_spawn, ← h.total]
    cases call <;> rfl
  | turn i spurious =>
    cases ht : p.tasks[i]? with
    | none => exact (act_turn_none ht spurious).symm ▸ h
    | some t =>
      obtain ⟨hmove, hle⟩ := held_step hlim spurious h.le (h.held_le ht)
      have hturn := total_turn (S := inspections limit) ht spurious held
      have hshared : (Pool.act (inspections limit) p (.turn i spurious)).shared =
          (step limit spurious p.shared t).1 := by rw [act_turn_some ht]; rfl
      refine ⟨?_, hshared ▸ hle⟩
      rw [hshared]
      have htotal := h.total
      simp only [inspections] at hturn ⊢
      omega

/-- At every point of every interleaving of inspections the counter is the sum of what the live
guards have reserved, and within the budget; leaving an inspection gives back what its guard has
reserved, once; and without inspections the whole budget is free. -/
theorem scan_budget_conserved (env : Option Nat) (acts : List (Act Empty (Option Nat) Bool)) :
    let S := inspections (maxTotalScanBytes env)
    let p := run S ⟨0, []⟩ acts
    total held p = p.shared ∧ p.shared ≤ maxTotalScanBytes env ∧
      (∀ i bytes spurious, p.tasks[i]? = some (.reserved bytes) →
        (act S p (.turn i spurious)).shared + bytes = p.shared ∧
          (act S p (.turn i spurious)).tasks[i]? = some .ended) ∧
      (∀ i spurious, p.tasks[i]? = some .ended → act S p (.turn i spurious) = p) ∧
      ((∀ t ∈ p.tasks, t = .ended) → p.shared = 0) := by
  intro S p
  have hlim := maxTotalScanBytes_lt env
  have h : Conserved (maxTotalScanBytes env) p :=
    List.foldlRecOn acts _ ⟨rfl, Nat.zero_le _⟩ fun q hq a _ => hq.act hlim a
  refine ⟨h.total.symm, h.le, fun i bytes spurious hi => ?_, fun i spurious hi => ?_, fun hall => ?_⟩
  · have hb : bytes ≤ p.shared := h.held_le hi
    have hle := h.le
    rw [act_turn_some hi]
    refine ⟨?_, by simp [(List.getElem?_eq_some_iff.mp hi).1, S, inspections, step]⟩
    show dropGuard p.shared bytes + bytes = p.shared
    rw [dropGuard_eq hb (by omega)]
    omega
  · rw [act_turn_some hi]
    show State.mk p.shared (p.tasks.set i .ended) = p
    obtain ⟨hlt, hget⟩ := List.getElem?_eq_some_iff.mp hi
    rw [← hget, List.set_getElem_self]
  · rw [h.total]
    refine List.sum_eq_zero fun n hn => ?_
    obtain ⟨t, ht, rfl⟩ := List.mem_map.mp hn
    rw [hall t ht]
    rfl

end PingWaf.Waf
