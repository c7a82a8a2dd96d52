import PingWaf.Cache.Proof.Ledger

/-!
# Quotas on disk

A pass of eviction frees what is over the ceiling if it looks at entries enough. The files of a
domain take no more than its ledger says (`diskBytes_le_recorded`), so that a domain with a ceiling
is under it on disk as well after the pass.
-/

namespace PingWaf.Cache

namespace Edge

open DomainUsage List Table

variable {c : FileCache} {d : CacheDomain} {u : DomainUsage} {s : Edge}

/-! ## What a pass frees -/

theorem isOverQuota_eq_false_iff :
    u.isOverQuota = false ↔ u.maxBytes = 0 ∨ u.currentBytes ≤ u.maxBytes := by
  unfold isOverQuota
  rw [Bool.and_eq_false_iff, decide_eq_false_iff_not, decide_eq_false_iff_not]
  omega

variable {st : Table RelPath StoredObject × DomainUsage} {key : HashedKey} {order : List HashedKey}
  {path : RelPath} {keys : List HashedKey}

theorem evictOne_of_fits (h : st.2.isOverQuota = false) (key : HashedKey) :
    evictOne d st key = st := by
  unfold evictOne
  rw [h]
  rfl

theorem evictOne_of_over (h : st.2.isOverQuota = true) (key : HashedKey) :
    evictOne d st key = (st.1.erase (entryPath d key (st.2.entries.lookup key)),
      st.2.recordRemove key (((st.2.entries.lookup key).map (·.sizeBytes)).getD 0)) := by
  unfold evictOne
  rw [h]
  rfl

theorem pass_of_fits (h : st.2.isOverQuota = false) (keys : List HashedKey) :
    keys.foldl (evictOne d) st = st := by
  induction keys with
  | nil => rfl
  | cons _ _ ih => rw [foldl_cons, evictOne_of_fits h, ih]

theorem pass_lookup {e : LedgerEntry} (keys : List HashedKey)
    (h : (keys.foldl (evictOne d) st).2.entries.lookup key = some e) :
    st.2.entries.lookup key = some e := by
  induction keys generalizing st with
  | nil => exact h
  | cons _ _ ih =>
    have hstep := ih h
    unfold evictOne at hstep
    split at hstep
    · exact hstep
    · dsimp only [recordRemove] at hstep
      rw [lookup_erase_eq] at hstep
      split at hstep
      · cases hstep
      · exact hstep

theorem pass_maxBytes (keys : List HashedKey) (st : Table RelPath StoredObject × DomainUsage) :
    (keys.foldl (evictOne d) st).2.maxBytes = st.2.maxBytes := by
  induction keys generalizing st with
  | nil => rfl
  | cons key _ ih =>
    have hstep : (evictOne d st key).2.maxBytes = st.2.maxBytes := by
      unfold evictOne
      split <;> rfl
    rw [foldl_cons, ih, hstep]

/-- A pass over entries picked until enough is freed brings the domain under its ceiling, unless they
all together are not enough; then none of them is left. -/
theorem pass_pickOldest {l : List (HashedKey × LedgerEntry)} {mustFree : Nat}
    (st : Table RelPath StoredObject × DomainUsage)
    (hl : ∀ p ∈ l, st.2.entries.lookup p.1 = some p.2) (hnodup : (l.map Prod.fst).Nodup)
    (hfree : st.2.currentBytes ≤ st.2.maxBytes + mustFree) :
    ((pickOldest mustFree l).foldl (evictOne d) st).2.isOverQuota = false ∨
      (∀ p ∈ l, ((pickOldest mustFree l).foldl (evictOne d) st).2.entries.lookup p.1 = none) ∧
        (l.map (·.2.sizeBytes)).sum < mustFree := by
  induction l generalizing mustFree st with
  | nil =>
    rcases Nat.eq_zero_or_pos mustFree with rfl | hpos
    · exact .inl (isOverQuota_eq_false_iff.mpr (.inr hfree))
    · exact .inr ⟨fun _ hmem => (not_mem_nil hmem).elim, hpos⟩
  | cons p rest ih =>
    obtain ⟨key, e⟩ := p
    rcases Nat.eq_zero_or_pos mustFree with rfl | hpos
    · exact .inl (isOverQuota_eq_false_iff.mpr (.inr hfree))
    rw [pickOldest, if_neg (by omega), foldl_cons]
    cases hover : st.2.isOverQuota with
    | false =>
      rw [evictOne_of_fits hover, pass_of_fits hover]
      exact .inl hover
    | true =>
      have hkey : st.2.entries.lookup key = some e := hl (key, e) mem_cons_self
      have hstep : evictOne d st key =
          (st.1.erase (entryPath d key (some e)), st.2.recordRemove key e.sizeBytes) := by
        rw [evictOne_of_over hover, hkey]
        rfl
      obtain ⟨hnot, hnodup⟩ := nodup_cons.mp hnodup
      have hrest : ∀ p ∈ rest, (evictOne d st key).2.entries.lookup p.1 = some p.2 := by
        intro p hp
        rw [hstep]
        dsimp only [recordRemove]
        rw [lookup_erase_eq, if_neg]
        · exact hl p (mem_cons_of_mem _ hp)
        · exact fun heq => hnot (mem_map.mpr ⟨p, hp, heq⟩)
      have hfree' : (evictOne d st key).2.currentBytes ≤
          (evictOne d st key).2.maxBytes + (mustFree - e.sizeBytes) := by
        rw [hstep]
        dsimp only [recordRemove]
        rw [hkey]
        dsimp only [Option.map_some, Option.getD_some]
        omega
      rcases ih (evictOne d st key) hrest hnodup hfree' with hfits | ⟨hgone, hsum⟩
      · exact .inl hfits
      · refine .inr ⟨?_, ?_⟩
        · intro p hp
          rcases mem_cons.mp hp with rfl | hp
          · apply Option.eq_none_iff_forall_ne_some.mpr
            intro e' he'
            have hback := pass_lookup _ he'
            rw [hstep] at hback
            dsimp only [recordRemove] at hback
            rw [lookup_erase_eq, if_pos rfl] at hback
            cases hback
          · exact hgone p hp
        · rw [map_cons, sum_cons]
          dsimp only
          omega

/-! ## The entries that a pass looks at -/

theorem perm_iteration (order : List HashedKey) : (u.iteration order).Perm u.entries.keys := by
  unfold iteration
  split
  · next h => exact h
  · exact .refl _

theorem mem_scanned {p : HashedKey × LedgerEntry} (h : p ∈ u.scanned order) :
    u.entries.lookup p.1 = some p.2 := by
  obtain ⟨key, -, hp⟩ := mem_filterMap.mp h
  obtain ⟨e, he, rfl⟩ := Option.map_eq_some_iff.mp hp
  exact he

theorem nodup_scanned (u : DomainUsage) (order : List HashedKey) :
    ((u.scanned order).map Prod.fst).Nodup := by
  have hsub : ∀ l : List HashedKey, ((l.filterMap fun key =>
      (u.entries.lookup key).map fun e => (key, e)).map Prod.fst).Sublist l := by
    intro l
    induction l with
    | nil => exact .slnil
    | cons key _ ih =>
      cases he : u.entries.lookup key with
      | none =>
        rw [filterMap_cons_none (by rw [he]; rfl)]
        exact ih.cons key
      | some e =>
        rw [filterMap_cons_some (b := (key, e)) (by rw [he]; rfl)]
        exact ih.cons_cons key
  have hnodup : (u.iteration order).Nodup :=
    (perm_iteration order).nodup_iff.mpr u.entries.keys_nodup
  exact (hnodup.sublist (take_sublist _ _)).sublist (hsub _)

theorem scanned_all (hfew : u.entries.size ≤ evictionScanLimit) {e : LedgerEntry}
    (he : u.entries.lookup key = some e) : (key, e) ∈ u.scanned order := by
  have hperm := perm_iteration (u := u) order
  have hlength : (u.iteration order).length ≤ evictionScanLimit := by
    rw [hperm.length_eq]
    unfold AList.keys keys
    rw [length_map]
    exact hfew
  unfold scanned
  rw [take_of_length_le hlength]
  refine mem_filterMap.mpr ⟨key, hperm.mem_iff.mpr ?_, by rw [he]; rfl⟩
  apply AList.mem_keys.mp
  rw [← AList.lookup_isSome, he]
  rfl

/-! ## What is on disk -/

theorem diskBytes_le_recorded (hlaid : s.Laid c) (ht : ∀ key, TrackedAt c d s.disk u key) :
    s.diskBytes d ≤ u.recorded := by
  have hfiles : ∀ e ∈ s.disk.entries.filter (fun e => e.1.domain = d),
      e.1 = c.relPath d e.1.key ∧
        e.2.object.fileLen = u.entries.weight (fun _ e => e.sizeBytes) e.1.key := by
    intro e he
    obtain ⟨hmem, hdomain⟩ := mem_filter.mp he
    have hlookup : s.disk.lookup e.1 = some e.2 := AList.mem_lookup_iff.mpr hmem
    have hpath := hlaid e.1 e.2 hlookup
    rw [of_decide_eq_true hdomain] at hpath
    obtain ⟨entry, hentry, hsize⟩ := ht e.1.key e.2 (hpath ▸ hlookup)
    exact ⟨hpath, by rw [weight_of_some hentry, hsize]⟩
  have hsum : s.diskBytes d = (((s.disk.entries.filter fun e => e.1.domain = d).map
      fun e => e.1.key).map (u.entries.weight fun _ e => e.sizeBytes)).sum := by
    unfold diskBytes total
    rw [sum_map_ite, map_map]
    exact congrArg sum (map_congr_left fun e he => (hfiles e he).2)
  rw [hsum]
  apply sum_weight_le_total
  apply List.Nodup.map_on
  · intro e he e' he' hkey
    have hpath : e.1 = e'.1 := by
      rw [(hfiles e he).1, (hfiles e' he').1, hkey]
    obtain ⟨hmem, -⟩ := mem_filter.mp he
    obtain ⟨hmem', -⟩ := mem_filter.mp he'
    exact s.disk.nodupKeys.eq_of_fst_eq hmem hmem' hpath
  · exact s.disk.nodupKeys.nodup.filter _

theorem diskBytes_le_maxBytes (hlaid : s.Laid c) (ht : Tracks c d s.disk u)
    (hfits : u.isOverQuota = false) (hquota : 0 < u.maxBytes) : s.diskBytes d ≤ u.maxBytes := by
  have hrecorded := diskBytes_le_recorded hlaid ht.tracked
  have hcounted := ht.sound.counted
  have hcurrent := (isOverQuota_eq_false_iff.mp hfits).resolve_left (Nat.ne_of_gt hquota)
  omega

theorem diskBytes_eq_zero (hlaid : s.Laid c) (ht : Tracks c d s.disk u)
    (hnone : ∀ key, u.entries.lookup key = none) : s.diskBytes d = 0 := by
  have hrecorded := diskBytes_le_recorded hlaid ht.tracked
  have hzero : u.recorded = 0 := total_eq_zero hnone
  omega

theorem getEvictionCandidates_of_over (hover : u.isOverQuota = true) (order : List HashedKey) :
    u.getEvictionCandidates order = pickOldest (u.currentBytes - u.maxBytes)
      ((u.scanned order).mergeSort fun a b => a.2.lastAccessed ≤ b.2.lastAccessed) := by
  unfold getEvictionCandidates
  rw [if_neg]
  intro hfits
  rw [isOverQuota_eq_false_iff.mpr hfits] at hover
  cases hover

theorem diskBytes_evictToFit (h : Inv c d s) (hu : s.usage.lookup d = some u)
    (hright : ∀ key, RightAt c d u key) (hquota : 0 < u.maxBytes)
    (hreach : u.entries.size ≤ evictionScanLimit ∨
      u.currentBytes - u.maxBytes ≤ ((u.scanned order).map (·.2.sizeBytes)).sum) :
    (s.evictToFit d order).diskBytes d ≤ u.maxBytes := by
  cases hover : u.isOverQuota with
  | false =>
    rw [evictToFit_of_fits hu hover]
    exact diskBytes_le_maxBytes h.laid (h.known hu) hover hquota
  | true =>
    have hlaid : (s.evictToFit d order).Laid c :=
      fun path o ho => h.laid path o (fewer_evictToFit s d order path o ho)
    have htracks := (h.passing hu hright order).tracks
    have hmax := pass_maxBytes (d := d) (u.getEvictionCandidates order) (s.disk, u)
    have hperm := mergeSort_perm (u.scanned order)
      fun a b => a.2.lastAccessed ≤ b.2.lastAccessed
    have hexcess : u.currentBytes ≤ u.maxBytes + (u.currentBytes - u.maxBytes) := by
      omega
    have hfreed := pass_pickOldest (d := d) (s.disk, u)
      (fun p hp => mem_scanned (hperm.mem_iff.mp hp))
      ((hperm.map Prod.fst).nodup_iff.mpr (nodup_scanned u order)) hexcess
    rw [evictToFit_of_over hu hover] at hlaid ⊢
    rw [← getEvictionCandidates_of_over hover order] at hfreed
    rcases hfreed with hfits | ⟨hgone, hsum⟩
    · have hle := diskBytes_le_maxBytes hlaid htracks hfits (hmax ▸ hquota)
      rw [hmax] at hle
      exact hle
    · rcases hreach with hfew | henough
      · -- every entry has been looked at, so that none is left
        have hnone : ∀ key, ((u.getEvictionCandidates order).foldl (evictOne d)
            (s.disk, u)).2.entries.lookup key = none := by
          intro key
          apply Option.eq_none_iff_forall_ne_some.mpr
          intro e he
          have hnot := hgone (key, e) (hperm.mem_iff.mpr (scanned_all hfew (pass_lookup _ he)))
          rw [he] at hnot
          cases hnot
        rw [diskBytes_eq_zero hlaid htracks hnone]
        exact Nat.zero_le _
      · rw [(hperm.map fun p => p.2.sizeBytes).sum_eq] at hsum
        omega

/-! ## What a pass leaves -/

/-- The ledger does not go by this path for the key, with or without an entry. -/
def Misses (d : CacheDomain) (u : DomainUsage) (path : RelPath) (key : HashedKey) : Prop :=
  keyPath d key ≠ path ∧ ∀ e, u.entries.lookup key = some e → entryPath d key (some e) ≠ path

theorem Misses.entryPath_ne (h : Misses d u path key) :
    entryPath d key (u.entries.lookup key) ≠ path := by
  cases he : u.entries.lookup key with
  | none => exact h.1
  | some e => exact h.2 e he

theorem Misses.recordRemove (h : Misses d u path key) (key' : HashedKey) (size : Nat) :
    Misses d (u.recordRemove key' size) path key := by
  refine ⟨h.1, fun e he => h.2 e ?_⟩
  rw [DomainUsage.recordRemove, lookup_erase_eq] at he
  split at he
  · cases he
  · exact he

theorem pass_leaves (st : Table RelPath StoredObject × DomainUsage)
    (h : ∀ key ∈ keys, Misses d st.2 path key) :
    (keys.foldl (evictOne d) st).1.lookup path = st.1.lookup path := by
  induction keys generalizing st with
  | nil => rfl
  | cons key keys ih =>
    have hrest : ∀ key' ∈ keys, Misses d st.2 path key' :=
      fun key' hkey' => h key' (mem_cons_of_mem _ hkey')
    rw [foldl_cons]
    cases hover : st.2.isOverQuota with
    | false => rw [evictOne_of_fits hover, ih st hrest]
    | true =>
      rw [evictOne_of_over hover, ih _ fun key' hkey' => (hrest key' hkey').recordRemove _ _]
      dsimp only
      rw [lookup_erase_eq, if_neg]
      exact (h key mem_cons_self).entryPath_ne.symm

theorem evictToFit_leaves (hu : s.usage.lookup d = some u)
    (h : ∀ key ∈ u.getEvictionCandidates order, Misses d u path key) :
    (s.evictToFit d order).disk.lookup path = s.disk.lookup path := by
  cases hover : u.isOverQuota with
  | false => rw [evictToFit_of_fits hu hover]
  | true =>
    rw [evictToFit_of_over hu hover]
    exact pass_leaves (s.disk, u) h

theorem mem_pickOldest {mustFree : Nat} {l : List (HashedKey × LedgerEntry)}
    (h : key ∈ pickOldest mustFree l) : key ∈ l.map Prod.fst := by
  induction l generalizing mustFree with
  | nil => cases h
  | cons _ _ ih =>
    unfold pickOldest at h
    split at h
    · cases h
    · rcases mem_cons.mp h with rfl | h
      · exact mem_cons_self
      · exact mem_cons_of_mem _ (ih h)

theorem mem_getEvictionCandidates (h : key ∈ u.getEvictionCandidates order) :
    key ∈ (u.iteration order).take evictionScanLimit := by
  unfold getEvictionCandidates at h
  split at h
  · cases h
  · obtain ⟨p, hp, rfl⟩ := mem_map.mp (mem_pickOldest h)
    obtain ⟨key, hkey, hentry⟩ := mem_filterMap.mp
      ((mergeSort_perm (u.scanned order) _).mem_iff.mp hp)
    obtain ⟨e, -, rfl⟩ := Option.map_eq_some_iff.mp hentry
    exact hkey

theorem fileLen_le_diskBytes {o : StoredObject} (ho : s.disk.lookup path = some o) :
    o.object.fileLen ≤ s.diskBytes path.domain := by
  have htotal := total_erase s.disk
    (fun p o => if p.domain = path.domain then o.object.fileLen else 0) path
  rw [weight_of_some ho, if_pos rfl] at htotal
  unfold diskBytes
  omega

/-! ## The quota -/

/-- A pass that meets the right paths, and looks at all the entries or at enough of them, leaves a
domain with a ceiling no more files than that. -/
theorem quota_kept (c : FileCache) (d : CacheDomain) {start : Edge} (hstart : start.Started c)
    (events : List Event) (order : List HashedKey)
    (hok : Once.Along (step c) (fun s event => orderly c d s event = true) start
      (events ++ [.evict d order]))
    {u : DomainUsage} (hu : (start.run c events).usage.lookup d = some u) (hquota : 0 < u.maxBytes)
    (hreach : u.entries.size ≤ evictionScanLimit ∨
      u.currentBytes - u.maxBytes ≤ ((u.scanned order).map (·.2.sizeBytes)).sum) :
    ((start.run c events).step c (.evict d order)).diskBytes d ≤ u.maxBytes := by
  obtain ⟨hevents, hevict, -⟩ := hok.of_append
  have hinv := inv_run hstart hevents
  exact diskBytes_evictToFit hinv hu (rightAt_of_evict hevict hu) hquota hreach

/-! ### A crowded domain -/

theorem safe_shop : isSafeComponent "shop" = true := by decide

def shop : CacheDomain := ⟨"shop", safe_shop⟩

def flat : FileCache := ⟨"/cache", false, 256, []⟩

def keyOf (n : Nat) : HashedKey where
  text := String.ofList (List.replicate (n + 1) 'a')
  hex := by
    have hex : (Text.hexVal 'a').isSome = true := by decide
    have hne : String.ofList (List.replicate (n + 1) 'a') ≠ "" := by
      intro h
      have := congrArg String.toList h
      simp at this
    simp [hex, hne]

theorem keyOf_inj {n m : Nat} : keyOf n = keyOf m ↔ n = m := by
  constructor
  · intro h
    have hlength := congrArg (fun key => key.text.toList.length) h
    simpa [keyOf] using hlength
  · rintro rfl
    rfl

def blob (n : Nat) : CacheObject := ⟨[], [], List.replicate n 0⟩

theorem fileLen_blob (n : Nat) : (blob n).fileLen = 8 + n := by
  simp [blob, CacheObject.fileLen, CacheObject.size, metaSizeLength]

/-- The ceiling, the ledger's keys from the newest to the oldest, and a file over the ceiling. -/
def Crowded (keys : List HashedKey) (s : Edge) : Prop :=
  ∃ u o, s.usage.lookup shop = some u ∧ u.maxBytes = bytesPerMb ∧ u.entries.keys = keys ∧
    (∀ key, RightAt flat shop u key) ∧ s.disk.lookup (flat.relPath shop (keyOf 0)) = some o ∧
    bytesPerMb < o.object.fileLen

theorem Crowded.over (h : Crowded keys s) : bytesPerMb < s.diskBytes shop := by
  obtain ⟨u, o, -, -, -, -, ho, hlen⟩ := h
  exact Nat.lt_of_lt_of_le hlen (fileLen_le_diskBytes ho)

def crowdStart (size : Nat) : List Event :=
  [.setQuota shop 1, .put shop (keyOf 0) (blob size) false 0]

theorem crowded_start {size : Nat} (h : bytesPerMb ≤ size) :
    Crowded [keyOf 0] (fresh.run flat (crowdStart size)) := by
  refine ⟨_, ⟨blob size, shop, 1⟩, rfl, rfl, rfl, ?_, rfl, ?_⟩
  · intro key
    apply RightAt.recordWrite _ rfl
    intro _ he
    cases he
  · rw [fileLen_blob]
    omega

theorem orderly_start (size : Nat) :
    Once.Along (step flat) (fun s event => orderly flat shop s event = true) fresh
      (crowdStart size ++ [.evict shop []]) :=
  ⟨rfl, rfl, rfl, trivial⟩

theorem size_start (size : Nat) :
    ∃ u, (fresh.run flat (crowdStart size)).usage.lookup shop = some u ∧
      u.maxBytes = bytesPerMb ∧ u.entries.size = 1 :=
  ⟨_, rfl, rfl, rfl⟩

/-- A file over the ceiling, and then none. -/
theorem first_file_is_evicted :
    bytesPerMb < (fresh.run flat (crowdStart bytesPerMb)).diskBytes shop ∧
      ((fresh.run flat (crowdStart bytesPerMb)).step flat (.evict shop [])).diskBytes shop ≤
        bytesPerMb := by
  refine ⟨(crowded_start (Nat.le_refl bytesPerMb)).over, ?_⟩
  obtain ⟨u, hu, hmax, hsize⟩ := size_start bytesPerMb
  have hquota : 0 < u.maxBytes := by
    rw [hmax]
    decide
  have hfew : u.entries.size ≤ evictionScanLimit := by
    rw [hsize]
    decide
  have hkept := quota_kept flat shop (.inl rfl) (crowdStart bytesPerMb) []
    (orderly_start bytesPerMb) hu hquota (.inl hfew)
  rw [hmax] at hkept
  exact hkept

theorem crowded_put (h : Crowded keys s) (hnew : key ∉ keys) (hkey : key ≠ keyOf 0) :
    Crowded (key :: keys) (s.step flat (.put shop key (blob 0) false 0)) := by
  obtain ⟨u, o, hu, hmax, rfl, hright, ho, hlen⟩ := h
  refine ⟨u.recordWrite key (blob 0).fileLen 0, o, ?_, hmax, ?_, ?_, ?_, hlen⟩
  · change (Edge.store flat s shop key _ false 0).usage.lookup shop = _
    unfold store
    dsimp only
    rw [if_neg (by decide), lookup_onUsage, if_pos rfl]
    dsimp only
    rw [putHot_usage, hu]
    rfl
  · change (u.entries.insert key _).keys = _
    rw [AList.keys_insert, erase_of_not_mem hnew]
  · exact fun key' => (hright key').recordWrite rfl _ _
  · have hne : flat.relPath shop (keyOf 0) ≠ flat.relPath shop key :=
      fun heq => hkey (relPath_inj.mp heq).2.symm
    change (s.store flat shop key _ false 0).disk.lookup _ = some o
    unfold store
    dsimp only
    rw [if_neg (by decide), onUsage_disk]
    dsimp only
    rw [lookup_insert_eq, if_neg hne, putHot_disk, ho]

def crowdKeys (n : Nat) : List HashedKey := (List.range n).map fun i => keyOf (i + 1)

def crowd (n : Nat) : List Event :=
  crowdStart bytesPerMb ++ (crowdKeys n).map fun key => .put shop key (blob 0) false 0

theorem crowded_crowd (n : Nat) :
    Crowded ((crowdKeys n).reverse ++ [keyOf 0]) (fresh.run flat (crowd n)) := by
  induction n with
  | zero => exact crowded_start (Nat.le_refl _)
  | succ n ih =>
    have hkeys : crowdKeys (n + 1) = crowdKeys n ++ [keyOf (n + 1)] := by
      unfold crowdKeys
      rw [range_succ, map_append]
      rfl
    have hrun : fresh.run flat (crowd (n + 1)) =
        (fresh.run flat (crowd n)).step flat (.put shop (keyOf (n + 1)) (blob 0) false 0) := by
      unfold run crowd
      rw [hkeys, map_append, ← append_assoc, foldl_append]
      rfl
    rw [hrun, hkeys, reverse_append]
    apply crowded_put ih
    · simp [crowdKeys, keyOf_inj]
    · simp [keyOf_inj]

theorem crowded_evict (h : Crowded (keys ++ [keyOf 0]) s) (hfirst : keyOf 0 ∉ keys)
    (hlength : keys.length = evictionScanLimit) :
    (s.usage.lookup shop).map (·.maxBytes) = some bytesPerMb ∧
      bytesPerMb < (s.step flat (.evict shop [])).diskBytes shop := by
  obtain ⟨u, o, hu, hmax, hkeys, hright, ho, hlen⟩ := h
  refine ⟨by rw [hu, Option.map_some, hmax], ?_⟩
  have hiteration : u.iteration [] = keys ++ [keyOf 0] := by
    unfold iteration
    rw [hkeys, if_neg]
    intro hperm
    have := hperm.length_eq
    simp at this
  have hstays : (s.evictToFit shop []).disk.lookup (flat.relPath shop (keyOf 0)) = some o := by
    rw [evictToFit_leaves hu, ho]
    intro key hkey
    have hmem := mem_getEvictionCandidates hkey
    rw [hiteration, take_left' hlength] at hmem
    have hpath : flat.relPath shop key ≠ flat.relPath shop (keyOf 0) :=
      fun heq => hfirst ((relPath_inj.mp heq).2 ▸ hmem)
    exact ⟨hpath, fun e he => (hright key e he).symm ▸ hpath⟩
  exact Nat.lt_of_lt_of_le hlen (fileLen_le_diskBytes hstays)

/-- With a file more than a pass looks at, a file over the ceiling can stay. -/
theorem quota_exceeded_in_crowd :
    ((fresh.run flat (crowd evictionScanLimit)).usage.lookup shop).map (·.maxBytes) =
        some bytesPerMb ∧
      bytesPerMb <
        ((fresh.run flat (crowd evictionScanLimit)).step flat (.evict shop [])).diskBytes shop := by
  apply crowded_evict (crowded_crowd evictionScanLimit)
  · simp [crowdKeys, keyOf_inj]
  · simp [crowdKeys]

end Edge

end PingWaf.Cache
