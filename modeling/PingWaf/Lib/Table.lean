import Mathlib

/-!
# Tables

Maps with finitely many entries, as association lists without repeated keys, and the two
operations of a concurrent map that `AList` lacks: the number of entries and the removal of every
entry that fails a test.
-/

abbrev Table (α β : Type) := AList fun _ : α => β

namespace Table

open List

variable {α β : Type}

def size (t : Table α β) : Nat := t.entries.length

def count (t : Table α β) (p : β → Bool) : Nat := t.entries.countP fun e => p e.2

def retain (t : Table α β) (p : α → β → Bool) : Table α β where
  entries := t.entries.filter fun e => p e.1 e.2
  nodupKeys := t.nodupKeys.sublist List.filter_sublist

variable [DecidableEq α]

@[grind =] theorem lookup_retain (t : Table α β) (p : α → β → Bool) (k : α) :
    (t.retain p).lookup k = (t.lookup k).filter (p k) := by
  apply Option.ext
  intro v
  have hmem : v ∈ (t.retain p).lookup k ↔ (⟨k, v⟩ : Sigma fun _ : α => β) ∈ (t.retain p).entries :=
    AList.mem_lookup_iff
  have hmem' : v ∈ t.lookup k ↔ (⟨k, v⟩ : Sigma fun _ : α => β) ∈ t.entries :=
    AList.mem_lookup_iff
  simp only [Option.mem_def] at hmem hmem'
  rw [hmem, Option.filter_eq_some_iff, hmem']
  simp [retain, mem_filter]

theorem lookup_retain_of_some {t : Table α β} {p : α → β → Bool} {k : α} {v : β}
    (h : t.lookup k = some v) (hp : p k v = true) : (t.retain p).lookup k = some v := by
  simp [lookup_retain, h, hp]

theorem lookup_foldl_insert (l : List (α × β)) (t : Table α β) (k : α) :
    (l.foldl (fun t e => t.insert e.1 e.2) t).lookup k =
      ((l.reverse.find? fun e => e.1 == k).map (·.2)).or (t.lookup k) := by
  induction l generalizing t with
  | nil => simp
  | cons e l ih =>
    rw [foldl_cons, ih, reverse_cons, find?_append]
    by_cases hk : e.1 = k
    · subst hk
      cases l.reverse.find? fun x => x.1 == e.1 <;> simp
    · have hk' : (e.1 == k) = false := by simpa using hk
      rw [AList.lookup_insert_ne (Ne.symm hk)]
      simp [hk']

@[grind =] theorem lookup_erase_eq (t : Table α β) (k k' : α) :
    AList.lookup k (t.erase k') = if k = k' then none else t.lookup k := by
  by_cases hk : k = k'
  · subst hk
    simp
  · simp [hk, AList.lookup_erase_ne hk]

@[grind =] theorem lookup_insert_eq (t : Table α β) (k k' : α) (v : β) :
    AList.lookup k (t.insert k' v) = if k = k' then some v else t.lookup k := by
  by_cases hk : k = k'
  · subst hk
    simp
  · simp [hk, AList.lookup_insert_ne hk]

@[grind =] theorem lookup_foldl_erase (ks : List α) (t : Table α β) (k : α) :
    AList.lookup k (ks.foldl (fun t k => t.erase k) t) = if k ∈ ks then none else t.lookup k := by
  induction ks generalizing t with
  | nil => simp
  | cons k' ks ih =>
    rw [foldl_cons, ih, lookup_erase_eq]
    by_cases hmem : k ∈ ks
    · simp [hmem]
    · by_cases hk : k = k'
      · simp [hk]
      · simp [hmem, hk]

/-! ## Lists with a key -/

section

variable {κ : Type} [DecidableEq κ]

def upsertBy (k : β → κ) (x : β) : List β → List β
  | [] => [x]
  | y :: l => if k y = k x then x :: l else y :: upsertBy k x l

theorem mem_upsertBy {k : β → κ} {x y : β} {l : List β} (hl : (l.map k).Nodup) :
    y ∈ upsertBy k x l ↔ y = x ∨ (y ∈ l ∧ k y ≠ k x) := by
  induction l with
  | nil => simp [upsertBy]
  | cons _ l ih =>
    rw [map_cons, nodup_cons] at hl
    unfold upsertBy
    split
    · next hz =>
      have hrest : y ∈ l → k y ≠ k x :=
        fun hy hkey => hl.1 (mem_map.mpr ⟨y, hy, hkey.trans hz.symm⟩)
      rw [mem_cons, mem_cons]
      constructor
      · rintro (rfl | hy)
        · exact .inl rfl
        · exact .inr ⟨.inr hy, hrest hy⟩
      · rintro (rfl | ⟨rfl | hy, hne⟩)
        · exact .inl rfl
        · exact absurd hz hne
        · exact .inr hy
    · next hz =>
      rw [mem_cons, mem_cons, ih hl.2]
      constructor
      · rintro (rfl | rfl | ⟨hy, hne⟩)
        · exact .inr ⟨.inl rfl, hz⟩
        · exact .inl rfl
        · exact .inr ⟨.inr hy, hne⟩
      · rintro (rfl | ⟨rfl | hy, hne⟩)
        · exact .inr (.inl rfl)
        · exact .inl rfl
        · exact .inr (.inr ⟨hy, hne⟩)

theorem mem_or_of_mem_upsertBy {k : β → κ} {x y : β} {l : List β} (h : y ∈ upsertBy k x l) :
    y = x ∨ y ∈ l := by
  induction l with
  | nil => exact .inl (mem_singleton.mp h)
  | cons z l ih =>
    unfold upsertBy at h
    split at h
    · exact (mem_cons.mp h).imp_right (mem_cons_of_mem z)
    · rcases mem_cons.mp h with rfl | h
      · exact .inr mem_cons_self
      · exact (ih h).imp_right (mem_cons_of_mem z)

theorem mem_upsertBy_self (k : β → κ) (x : β) (l : List β) : x ∈ upsertBy k x l := by
  induction l with
  | nil => exact mem_singleton_self x
  | cons z l ih =>
    unfold upsertBy
    split
    · exact mem_cons_self
    · exact mem_cons_of_mem z ih

theorem mem_upsertBy_of_ne {k : β → κ} {x y : β} {l : List β} (h : y ∈ l) (hne : k y ≠ k x) :
    y ∈ upsertBy k x l := by
  induction l with
  | nil => cases h
  | cons z l ih =>
    unfold upsertBy
    rcases mem_cons.mp h with rfl | h
    · rw [if_neg hne]
      exact mem_cons_self
    · split
      · exact mem_cons_of_mem x h
      · exact mem_cons_of_mem z (ih h)

theorem keys_upsertBy (k : β → κ) (x : β) (l : List β) :
    (upsertBy k x l).map k = if k x ∈ l.map k then l.map k else l.map k ++ [k x] := by
  induction l with
  | nil => rfl
  | cons _ l ih =>
    unfold upsertBy
    split
    · next hz => simp [hz]
    · next hz =>
      rw [map_cons, ih, map_cons]
      by_cases hmem : k x ∈ l.map k
      · rw [if_pos hmem, if_pos (mem_cons_of_mem _ hmem)]
      · rw [if_neg hmem, if_neg, cons_append]
        rw [mem_cons, not_or]
        exact ⟨Ne.symm hz, hmem⟩

theorem nodup_keys_upsertBy (k : β → κ) (x : β) {l : List β} (hl : (l.map k).Nodup) :
    ((upsertBy k x l).map k).Nodup := by
  rw [keys_upsertBy]
  split
  · exact hl
  · next hmem =>
    rw [← concat_eq_append]
    exact hl.concat hmem

end

/-! ## Totals -/

section

def total (t : Table α β) (f : α → β → Nat) : Nat := (t.entries.map fun e => f e.1 e.2).sum

def weight (t : Table α β) (f : α → β → Nat) (k : α) : Nat := ((t.lookup k).map (f k)).getD 0

variable {t : Table α β} {f : α → β → Nat}

theorem weight_of_some {k : α} {v : β} (h : t.lookup k = some v) : t.weight f k = f k v := by
  unfold weight
  rw [h]
  rfl

theorem total_insert (t : Table α β) (f : α → β → Nat) (k : α) (v : β) :
    total (t.insert k v) f = f k v + total (t.erase k) f := rfl

theorem total_erase (t : Table α β) (f : α → β → Nat) (k : α) :
    total (t.erase k) f + t.weight f k = t.total f := by
  by_cases hk : k ∈ t
  · obtain ⟨v, l₁, l₂, hnot, hentries, herase⟩ := exists_of_kerase (AList.mem_keys.mp hk)
    have hlookup : t.lookup k = some v := by
      apply AList.mem_lookup_iff.mpr
      rw [hentries]
      exact mem_append_right _ mem_cons_self
    rw [weight_of_some hlookup]
    unfold total
    have herased : (t.erase k).entries = l₁ ++ l₂ := herase
    rw [herased, hentries]
    simp only [map_append, map_cons, sum_append, sum_cons]
    omega
  · have herased : (t.erase k).entries = t.entries :=
      kerase_of_notMem_keys fun h => hk (AList.mem_keys.mpr h)
    unfold weight total
    rw [AList.lookup_eq_none.mpr hk, herased]
    rfl

omit [DecidableEq α] in
theorem size_eq_total (t : Table α β) : t.size = t.total fun _ _ => 1 := by
  simp [size, total]

theorem size_insert (t : Table α β) (k : α) (v : β) :
    size (t.insert k v) = t.size + if t.lookup k = none then 1 else 0 := by
  have herase := total_erase t (fun _ _ => 1) k
  rw [size_eq_total, size_eq_total, total_insert]
  cases hk : t.lookup k with
  | none =>
    have hweight : t.weight (fun _ _ => 1) k = 0 := by simp [weight, hk]
    simp
    omega
  | some _ =>
    have hweight : t.weight (fun _ _ => 1) k = 1 := weight_of_some hk
    simp
    omega

def Fresh (t : Table α β) (ks : List α) : Prop := ks.Nodup ∧ ∀ k ∈ ks, t.lookup k = none

theorem fresh_cons {k : α} {ks : List α} (v : β) :
    t.Fresh (k :: ks) ↔ t.lookup k = none ∧ Fresh (t.insert k v) ks := by
  simp only [Fresh, nodup_cons, forall_mem_cons, lookup_insert_eq]
  constructor
  · rintro ⟨⟨hk, hnodup⟩, hnone, hrest⟩
    refine ⟨hnone, hnodup, fun k' hk' => ?_⟩
    rw [if_neg (by rintro rfl; exact hk hk')]
    exact hrest k' hk'
  · rintro ⟨hnone, hnodup, hrest⟩
    have hne : ∀ k' ∈ ks, k' ≠ k := by
      rintro k' hk' rfl
      simpa using hrest k' hk'
    refine ⟨⟨fun hk => hne k hk rfl, hnodup⟩, hnone, fun k' hk' => ?_⟩
    simpa [hne k' hk'] using hrest k' hk'

section

variable {γ : Type} (k : γ → α) (v : γ → β)

theorem total_foldl_insert (l : List γ) (t : Table α β) (h : t.Fresh (l.map k)) :
    total (l.foldl (fun t x => t.insert (k x) (v x)) t) f =
      t.total f + (l.map fun x => f (k x) (v x)).sum := by
  induction l generalizing t with
  | nil => simp
  | cons x _ ih =>
    obtain ⟨hnone, hrest⟩ := (fresh_cons (v x)).mp h
    have herase := total_erase t f (k x)
    have hweight : t.weight f (k x) = 0 := by simp [weight, hnone]
    rw [foldl_cons, ih _ hrest, total_insert, map_cons, sum_cons]
    omega

theorem size_foldl_insert (l : List γ) (t : Table α β) :
    size (l.foldl (fun t x => t.insert (k x) (v x)) t) ≤ t.size + l.length ∧
      (size (l.foldl (fun t x => t.insert (k x) (v x)) t) = t.size + l.length ↔
        t.Fresh (l.map k)) := by
  induction l generalizing t with
  | nil => simp [Fresh]
  | cons x _ ih =>
    obtain ⟨hle, hiff⟩ := ih (t.insert (k x) (v x))
    rw [foldl_cons, map_cons, fresh_cons (v x), length_cons, ← hiff]
    rw [size_insert] at hle ⊢
    by_cases hnone : t.lookup (k x) = none
    · simp only [hnone, if_true, true_and] at hle ⊢
      omega
    · simp only [hnone, if_false, false_and, iff_false] at hle ⊢
      omega

end

theorem total_eq_zero (h : ∀ k, t.lookup k = none) : t.total f = 0 := by
  have hentries : t.entries = [] := by
    apply eq_nil_iff_forall_not_mem.mpr
    intro e he
    have hlookup : t.lookup e.1 = some e.2 := AList.mem_lookup_iff.mpr he
    rw [h e.1] at hlookup
    cases hlookup
  unfold total
  rw [hentries]
  rfl

theorem sum_map_ite {γ : Type} (l : List γ) (p : γ → Prop) [DecidablePred p] (g : γ → Nat) :
    (l.map fun x => if p x then g x else 0).sum = ((l.filter fun x => p x).map g).sum := by
  induction l with
  | nil => rfl
  | cons x _ ih =>
    by_cases hx : p x
    · simp [hx, ih]
    · simp [hx, ih]

theorem weight_erase_ne {k k' : α} (h : k ≠ k') : weight (t.erase k') f k = t.weight f k := by
  unfold weight
  rw [AList.lookup_erase_ne h]

theorem sum_weight_le_total {ks : List α} (hks : ks.Nodup) :
    (ks.map (t.weight f)).sum ≤ t.total f := by
  induction ks generalizing t with
  | nil => exact Nat.zero_le _
  | cons k ks ih =>
    obtain ⟨hk, hks⟩ := nodup_cons.mp hks
    have hrest : ks.map (weight (t.erase k) f) = ks.map (t.weight f) :=
      map_congr_left fun k' hk' => weight_erase_ne fun heq => hk (heq ▸ hk')
    have hsum := ih hks (t := t.erase k)
    rw [hrest] at hsum
    have herase := total_erase t f k
    rw [map_cons, sum_cons]
    omega

end

/-! ## Changing one entry -/

section

def adjust (t : Table α β) (k : α) (g : β → β) : Table α β :=
  match t.lookup k with
  | some v => t.insert k (g v)
  | none => t

@[grind =] theorem lookup_adjust (t : Table α β) (k k' : α) (g : β → β) :
    (t.adjust k g).lookup k' = if k' = k then (t.lookup k).map g else t.lookup k' := by
  unfold adjust
  cases hk : t.lookup k with
  | none =>
    by_cases heq : k' = k
    · subst heq
      simp [hk]
    · simp [heq]
  | some _ =>
    by_cases heq : k' = k
    · subst heq
      simp
    · simp [heq, AList.lookup_insert_ne heq]

def mapVal {γ : Type} (t : Table α β) (g : β → γ) : Table α γ where
  entries := t.entries.map fun e => ⟨e.1, g e.2⟩
  nodupKeys := by
    have hkeys : (t.entries.map fun e => (⟨e.1, g e.2⟩ : Sigma fun _ : α => γ)).keys =
        t.entries.keys := by
      simp [List.keys, Function.comp_def]
    unfold List.NodupKeys
    rw [hkeys]
    exact t.nodupKeys

end

/-! ## A property of every entry -/

def Each (t : Table α β) (P : α → β → Prop) : Prop := ∀ k v, t.lookup k = some v → P k v

section

variable {t : Table α β} {P : α → β → Prop}

theorem each_empty : (∅ : Table α β).Each P := by
  intro k v h
  rw [AList.lookup_empty] at h
  cases h

theorem Each.insert (h : t.Each P) {k : α} {v : β} (hv : P k v) : Each (t.insert k v) P := by
  intro k' v' h'
  by_cases hk : k' = k
  · subst hk
    rw [AList.lookup_insert] at h'
    exact Option.some.inj h' ▸ hv
  · rw [AList.lookup_insert_ne hk] at h'
    exact h k' v' h'

theorem Each.erase (h : t.Each P) (k : α) : Each (t.erase k) P := by
  intro k' v' h'
  by_cases hk : k' = k
  · subst hk
    rw [AList.lookup_erase] at h'
    cases h'
  · rw [AList.lookup_erase_ne hk] at h'
    exact h k' v' h'

theorem Each.retain (h : t.Each P) (p : α → β → Bool) : (t.retain p).Each P := by
  intro k v h'
  rw [lookup_retain, Option.filter_eq_some_iff] at h'
  exact h k v h'.1

theorem Each.adjust (h : t.Each P) {k : α} {g : β → β} (hg : ∀ v, P k v → P k (g v)) :
    (t.adjust k g).Each P := by
  unfold Table.adjust
  cases hk : t.lookup k with
  | none => exact h
  | some v => exact h.insert (hg v (h k v hk))

end

end Table
