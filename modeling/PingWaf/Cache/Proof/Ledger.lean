import PingWaf.Lib.Once
import PingWaf.Cache.Proof.Steps

/-!
# The ledger and the files

The ledger of a domain keeps an entry for every file (`TrackedAt`), counts at least what its
entries say (`Sound.counted`) and knows where the files are that a scan has found (`Sound.placed`).
Every event keeps that (`Inv`) as long as the ledger's paths are those of the files (`orderly`).
-/

namespace PingWaf.Cache

open Text List Option Table

/-! ## What a ledger knows -/

variable {c : FileCache} {d d' : CacheDomain} {key : HashedKey} {u : DomainUsage} {s : Edge}
  {disk disk' : Table RelPath StoredObject}

namespace DomainUsage

def recorded (u : DomainUsage) : Nat := u.entries.total fun _ e => e.sizeBytes

/-- The ledger counts at least what its entries say, and the places that a scan has noted are those
of the file backend. -/
structure Sound (c : FileCache) (d : CacheDomain) (u : DomainUsage) : Prop where
  counted : u.recorded ≤ u.currentBytes
  placed : Noted c d u

def TrackedAt (c : FileCache) (d : CacheDomain) (disk : Table RelPath StoredObject)
    (u : DomainUsage) (key : HashedKey) : Prop :=
  ∀ o, disk.lookup (c.relPath d key) = some o →
    ∃ e, u.entries.lookup key = some e ∧ e.sizeBytes = o.object.fileLen

/-- Where the ledger has an entry for the key, it goes by the right path. -/
def RightAt (c : FileCache) (d : CacheDomain) (u : DomainUsage) (key : HashedKey) : Prop :=
  ∀ e, u.entries.lookup key = some e → entryPath d key (some e) = c.relPath d key

/-- The entry of the key names the file that the cache writes. -/
def goesRight (c : FileCache) (d : CacheDomain) (u : DomainUsage) (key : HashedKey) : Bool :=
  (u.entries.lookup key).all fun e => entryPath d key (some e) = c.relPath d key

theorem goesRight_iff : goesRight c d u key = true ↔ RightAt c d u key := by
  unfold goesRight RightAt
  simp [Option.all_eq_true]

theorem recorded_erase (u : DomainUsage) (key : HashedKey) :
    Table.total (u.entries.erase key) (fun _ e => e.sizeBytes) +
        ((u.entries.lookup key).map (·.sizeBytes)).getD 0 = u.recorded :=
  total_erase u.entries (fun _ e => e.sizeBytes) key

theorem sound_new (maxBytes : Nat) : Sound c d (.new maxBytes) :=
  ⟨Nat.le_refl 0, noted_new maxBytes⟩

theorem sound_reset : Sound c d u.reset := ⟨Nat.le_refl 0, noted_reset⟩

theorem Sound.recordWrite (h : Sound c d u) (key : HashedKey) (size now : Nat) :
    Sound c d (u.recordWrite key size now) := by
  refine ⟨?_, h.placed.recordWrite key size now⟩
  have hcounted := h.counted
  have herase := u.recorded_erase key
  unfold DomainUsage.recordWrite DomainUsage.recorded
  dsimp only
  rw [total_insert]
  dsimp only
  omega

theorem recorded_adjust (u : DomainUsage) (key : HashedKey) {g : LedgerEntry → LedgerEntry}
    (hg : ∀ e, (g e).sizeBytes = e.sizeBytes) :
    (u.entries.adjust key g).total (fun _ e => e.sizeBytes) = u.recorded := by
  unfold adjust
  have herase := u.recorded_erase key
  cases hlookup : u.entries.lookup key with
  | none => rfl
  | some _ =>
    rw [hlookup] at herase
    dsimp only
    rw [total_insert, hg]
    rw [← herase, Nat.add_comm]
    rfl

theorem Sound.recordAccess (h : Sound c d u) (key : HashedKey) (now : Nat) :
    Sound c d (u.recordAccess key now) := by
  refine ⟨?_, h.placed.recordAccess key now⟩
  have hsame := u.recorded_adjust key (g := fun e => { e with lastAccessed := now }) fun _ => rfl
  exact hsame.le.trans h.counted

theorem Sound.recordRemove (h : Sound c d u) {key : HashedKey} {size : Nat}
    (hsize : u.entries.lookup key = none → size = 0) : Sound c d (u.recordRemove key size) := by
  refine ⟨?_, h.placed.recordRemove key size⟩
  have hcounted := h.counted
  have herase := u.recorded_erase key
  unfold DomainUsage.recordRemove DomainUsage.recorded
  dsimp only
  cases hlookup : u.entries.lookup key with
  | none =>
    have hzero := hsize hlookup
    simp only [hlookup, map_none, getD_none] at herase ⊢
    omega
  | some _ =>
    simp only [hlookup, map_some, getD_some] at herase ⊢
    omega

theorem Sound.restore (h : Sound c d u) {path : RelPath} (hpath : path = c.relPath d path.key)
    (size atime now : Nat) : Sound c d (u.restore path size atime now) := by
  refine ⟨?_, h.placed.restore hpath size atime now⟩
  have hcounted := h.counted
  have herase := u.recorded_erase path.key
  unfold DomainUsage.restore DomainUsage.recorded
  dsimp only
  rw [total_insert]
  dsimp only
  omega

/-! ### Entries of files -/

theorem TrackedAt.fewer (h : TrackedAt c d disk u key) (hfewer : Edge.Fewer disk disk') :
    TrackedAt c d disk' u key :=
  fun o ho => h o (hfewer _ o ho)

theorem TrackedAt.recordAccess (h : TrackedAt c d disk u key) (key' : HashedKey) (now : Nat) :
    TrackedAt c d disk (u.recordAccess key' now) key := by
  intro o ho
  obtain ⟨e, he, hsize⟩ := h o ho
  rw [DomainUsage.recordAccess, lookup_adjust]
  split
  · next heq =>
    subst heq
    exact ⟨{ e with lastAccessed := now }, by rw [he]; rfl, hsize⟩
  · exact ⟨e, he, hsize⟩

theorem TrackedAt.recordRemove (h : TrackedAt c d disk u key) {key' : HashedKey} {size : Nat}
    (hgone : disk.lookup (c.relPath d key') = none) :
    TrackedAt c d disk (u.recordRemove key' size) key := by
  intro o ho
  obtain ⟨e, he, hsize⟩ := h o ho
  refine ⟨e, ?_, hsize⟩
  rw [DomainUsage.recordRemove, lookup_erase_eq, if_neg, he]
  rintro rfl
  rw [hgone] at ho
  cases ho

theorem TrackedAt.recordWrite (h : TrackedAt c d disk u key) (key' : HashedKey)
    (o : StoredObject) (now : Nat) :
    TrackedAt c d (disk.insert (c.relPath d key') o)
      (u.recordWrite key' o.object.fileLen now) key := by
  intro o' ho'
  rw [lookup_insert_eq] at ho'
  rw [DomainUsage.recordWrite, lookup_insert_eq]
  by_cases hkey : key = key'
  · subst hkey
    rw [if_pos rfl] at ho' ⊢
    exact ⟨_, rfl, by rw [← Option.some.inj ho']⟩
  · have hne : c.relPath d key ≠ c.relPath d key' := fun heq => hkey (relPath_inj.mp heq).2
    rw [if_neg hne] at ho'
    rw [if_neg hkey]
    exact h o' ho'

theorem trackedAt_restore {path : RelPath} {o : StoredObject} (hpath : path = c.relPath d path.key)
    (hfile : disk.lookup path = some o) (atime now : Nat)
    (h : key = path.key ∨ TrackedAt c d disk u key) :
    TrackedAt c d disk (u.restore path o.object.fileLen atime now) key := by
  intro o' ho'
  rw [DomainUsage.restore, lookup_insert_eq]
  by_cases hkey : key = path.key
  · rw [if_pos hkey]
    rw [hkey, ← hpath, hfile] at ho'
    exact ⟨_, rfl, by rw [Option.some.inj ho']⟩
  · rw [if_neg hkey]
    exact h.resolve_left hkey o' ho'

theorem RightAt.recordRemove (h : RightAt c d u key) (key' : HashedKey) (size : Nat) :
    RightAt c d (u.recordRemove key' size) key := by
  intro e he
  rw [DomainUsage.recordRemove, lookup_erase_eq] at he
  split at he
  · cases he
  · exact h e he

theorem RightAt.recordWrite (h : RightAt c d u key) {key' : HashedKey}
    (hflat : keyPath d key' = c.relPath d key') (size now : Nat) :
    RightAt c d (u.recordWrite key' size now) key := by
  intro e he
  rw [DomainUsage.recordWrite, lookup_insert_eq] at he
  split at he
  · next heq =>
    rw [← Option.some.inj he, heq]
    exact hflat
  · exact h e he

structure Tracks (c : FileCache) (d : CacheDomain) (disk : Table RelPath StoredObject)
    (u : DomainUsage) : Prop where
  sound : Sound c d u
  tracked : ∀ key, TrackedAt c d disk u key

theorem Tracks.takeOut (h : Tracks c d disk u) (hright : RightAt c d u key) :
    Tracks c d (disk.erase (entryPath d key (u.entries.lookup key)))
      (u.recordRemove key (((u.entries.lookup key).map (·.sizeBytes)).getD 0)) where
  sound := by
    apply h.sound.recordRemove
    intro hnone
    rw [hnone]
    rfl
  tracked := by
    intro key'
    apply ((h.tracked key').fewer (Edge.fewer_erase _ _)).recordRemove
    cases hlookup : u.entries.lookup key with
    | none =>
      -- a key without an entry has no file
      apply eq_none_iff_forall_ne_some.mpr
      intro o ho
      obtain ⟨e, he, -⟩ := h.tracked key o (Edge.fewer_erase _ _ _ _ ho)
      rw [hlookup] at he
      cases he
    | some e =>
      rw [hright e hlookup]
      exact AList.lookup_erase _ _

end DomainUsage

/-! ## What holds in every run -/

namespace Edge

open DomainUsage

/-- The ledger of a domain, which is empty before there is one. -/
def ledger (usage : Table CacheDomain DomainUsage) (d : CacheDomain) : DomainUsage :=
  (usage.lookup d).getD (.new 0)

theorem ledger_of_some {usage : Table CacheDomain DomainUsage} (hu : usage.lookup d = some u) :
    ledger usage d = u := by
  rw [ledger, hu]
  rfl

/-- The ledger of the domain knows its files, so that a domain without a ledger has none. -/
structure Inv (c : FileCache) (d : CacheDomain) (s : Edge) : Prop where
  laid : s.Laid c
  tracks : Tracks c d s.disk (ledger s.usage d)

theorem Inv.known (h : Inv c d s) (hu : s.usage.lookup d = some u) : Tracks c d s.disk u :=
  ledger_of_some hu ▸ h.tracks

theorem tracks_of_gone (hsound : Sound c d u) (hgone : ∀ key, disk.lookup (c.relPath d key) = none) :
    Tracks c d disk u := by
  refine ⟨hsound, fun key o ho => ?_⟩
  rw [hgone key] at ho
  cases ho

theorem Inv.frame {s' : Edge} (h : Inv c d s) (hlaid : s'.Laid c)
    (hfewer : ∀ key o, s'.disk.lookup (c.relPath d key) = some o →
      s.disk.lookup (c.relPath d key) = some o)
    (husage : s'.usage.lookup d = s.usage.lookup d) : Inv c d s' := by
  refine ⟨hlaid, ?_⟩
  rw [ledger, husage]
  exact ⟨h.tracks.sound, fun key o ho => h.tracks.tracked key o (hfewer key o ho)⟩

theorem Inv.fewer {s' : Edge} (h : Inv c d s) (hfewer : Fewer s.disk s'.disk)
    (husage : s'.usage.lookup d = s.usage.lookup d) : Inv c d s' :=
  h.frame (fun path o ho => h.laid path o (hfewer path o ho)) (fun _ o ho => hfewer _ o ho) husage

theorem Inv.onUsage (h : Inv c d s) {f : DomainUsage → DomainUsage}
    (hf : d' = d → ∀ u, s.usage.lookup d = some u → Tracks c d s.disk u → Tracks c d s.disk (f u)) :
    Inv c d (s.onUsage d' f) := by
  refine ⟨h.laid, ?_⟩
  rw [ledger, lookup_onUsage]
  split
  · next heq =>
    subst heq
    cases hu : s.usage.lookup d with
    | none => simpa [ledger, hu] using h.tracks
    | some u => exact hf rfl u hu (h.known hu)
  · exact h.tracks

theorem Inv.putHot (h : Inv c d s) (key : HashedKey) (o : StoredObject) :
    Inv c d (s.putHot c key o) := by
  apply h.fewer
  · rw [putHot_disk]
    exact .refl _
  · rw [putHot_usage]

theorem Inv.get (h : Inv c d s) (d' : CacheDomain) (key : HashedKey) (overQuota : Bool)
    (now : Nat) : Inv c d (s.get c d' key overQuota now).2 := by
  have haccess {s : Edge} (h : Inv c d s) : Inv c d (s.onUsage d' (·.recordAccess key now)) :=
    h.onUsage fun _ _ _ ht =>
      ⟨ht.sound.recordAccess key now, fun key' => (ht.tracked key').recordAccess key now⟩
  obtain hs | ⟨o, s', -, rfl | rfl, hs⟩ := get_cases c s d' key overQuota now <;> rw [hs]
  · exact h
  · exact haccess h
  · exact haccess (h.putHot key o)

theorem get_usage_ne_none {overQuota : Bool} {now : Nat} (h : s.usage.lookup d ≠ none) :
    (s.get c d' key overQuota now).2.usage.lookup d ≠ none := by
  obtain hs | hs := get_usage c s d' key overQuota now
  · rw [hs]
    exact h
  · rw [hs, lookup_adjust]
    split
    · next heq => exact fun hnone => h (heq ▸ map_eq_none_iff.mp hnone)
    · exact h

theorem Inv.store (h : Inv c d s) (d' : CacheDomain) (key : HashedKey) (o : StoredObject)
    {turnedAway : Bool} (now : Nat)
    (htracked : d' = d → turnedAway = false → s.usage.lookup d ≠ none) :
    Inv c d (s.store c d' key o turnedAway now) := by
  have hlaid : (s.store c d' key o turnedAway now).Laid c := by
    intro path o' ho'
    obtain hold | ⟨rfl, -⟩ := lookup_store_disk ho'
    · exact h.laid path o' hold
    · rfl
  have hhot := h.putHot key o
  cases turnedAway with
  | true => exact hhot
  | false =>
    by_cases hd : d' = d
    · subst hd
      obtain ⟨u, hu⟩ := ne_none_iff_exists'.mp (htracked rfl rfl)
      have ht := h.known hu
      refine ⟨hlaid, ?_⟩
      rw [ledger, store_usage, if_neg (by decide), lookup_adjust, if_pos rfl, hu]
      show Tracks c d' ((s.putHot c key o).disk.insert (c.relPath d' key) o) _
      rw [putHot_disk]
      exact ⟨ht.sound.recordWrite _ _ _, fun key' => (ht.tracked key').recordWrite key o now⟩
    · apply h.frame hlaid
      · intro key' o' ho'
        exact (lookup_store_disk ho').resolve_right fun he => hd (relPath_inj.mp he.1).1.symm
      · rw [store_usage, if_neg (by decide), lookup_adjust, if_neg (Ne.symm hd)]

theorem Inv.remove (h : Inv c d s) (d' : CacheDomain) (key : HashedKey) :
    Inv c d (s.remove c d' key).2 := by
  have hfewer : Inv c d { s with
      hot := if c.hot then s.hot.erase key else s.hot
      disk := s.disk.erase (c.relPath d' key) } := h.fewer (fewer_erase _ _) rfl
  apply hfewer.onUsage
  rintro rfl u - ht
  refine ⟨ht.sound.recordRemove fun _ => rfl, fun key' => (ht.tracked key').recordRemove ?_⟩
  exact AList.lookup_erase _ _

theorem Inv.sweepOne (h : Inv c d s) (path : RelPath) : Inv c d (sweepOne s path) := by
  unfold Edge.sweepOne
  split
  · exact h
  · next o ho =>
    have hfewer : Inv c d { s with disk := s.disk.erase path } := h.fewer (fewer_erase _ _) rfl
    have hpath := h.laid path o ho
    apply hfewer.onUsage
    intro hd u hu ht
    rw [hd] at hpath
    refine ⟨ht.sound.recordRemove ?_, fun key' => (ht.tracked key').recordRemove ?_⟩
    · intro hnone
      obtain ⟨e, he, -⟩ := (h.known hu).tracked path.key o (hpath ▸ ho)
      rw [hnone] at he
      cases he
    · rw [← hpath]
      exact AList.lookup_erase _ _

theorem Inv.foldl {α : Type} {f : Edge → α → Edge} (hf : ∀ s a, Inv c d s → Inv c d (f s a))
    (l : List α) (h : Inv c d s) : Inv c d (l.foldl f s) :=
  foldlRecOn l f h fun s hs a _ => hf s a hs

theorem Inv.reset (h : Inv c d s) (d' : CacheDomain)
    (hgone : d' = d → ∀ key, s.disk.lookup (c.relPath d key) = none) :
    Inv c d (s.onUsage d' .reset) :=
  h.onUsage fun hd _ _ _ => tracks_of_gone sound_reset (hgone hd)

theorem Inv.purgeDomain (h : Inv c d s) (d' : CacheDomain) : Inv c d (s.purgeDomain d') := by
  have hfewer : Inv c d { s with disk := s.disk.retain fun path _ => path.domain ≠ d' } :=
    h.fewer (fewer_retain _ _) rfl
  apply hfewer.reset
  rintro rfl key
  rw [lookup_retain]
  simp [FileCache.relPath]

theorem purgeFile_disk (l : List RelPath) (s : Edge) :
    (l.foldl (purgeFile c) s).disk = l.foldl (fun t k => t.erase k) s.disk := by
  induction l generalizing s with
  | nil => rfl
  | cons path _ ih => exact ih (purgeFile c s path)

theorem Inv.purgeNamespace (h : Inv c d s) (d' : CacheDomain) :
    Inv c d (s.purgeNamespace c d') := by
  have hfile : ∀ s path, Inv c d s → Inv c d (purgeFile c s path) :=
    fun s path hs => hs.fewer (fewer_erase s.disk path) rfl
  have hfiles := Inv.foldl hfile (s.disk.keys.filter fun path => path.domain = d') h
  apply hfiles.reset
  rintro rfl key
  rw [purgeFile_disk, lookup_foldl_erase]
  split
  · rfl
  · next hnot =>
    apply AList.lookup_eq_none.mpr
    intro hmem
    exact hnot (mem_filter.mpr ⟨AList.mem_keys.mpr hmem, by simp [FileCache.relPath]⟩)

/-! ### Ledgers that come and go -/

theorem lookup_ensureDomain (usage : Table CacheDomain DomainUsage) (d d' : CacheDomain) :
    (ensureDomain usage d').lookup d =
      if d = d' then some (ledger usage d) else usage.lookup d := by
  unfold ensureDomain ledger
  split
  · next u hu =>
    split
    · next heq => rw [heq, hu, getD_some]
    · rfl
  · next hnone =>
    rw [lookup_insert_eq]
    split
    · next heq => rw [heq, hnone, getD_none]
    · rfl

/-- What is done to the ledger of a domain, which is there or is made. -/
theorem lookup_ensured (usage : Table CacheDomain DomainUsage) (d d' : CacheDomain)
    (f : DomainUsage → DomainUsage) : ((ensureDomain usage d').adjust d' f).lookup d =
      if d = d' then some (f (ledger usage d)) else usage.lookup d := by
  rw [lookup_adjust, lookup_ensureDomain, lookup_ensureDomain, if_pos rfl]
  split
  · next heq => rw [heq, map_some]
  · rfl

theorem setQuota_usage (s : Edge) (d : CacheDomain) (maxMb : Nat) :
    (s.setQuota d maxMb).usage =
      (ensureDomain s.usage d).adjust d fun u => { u with maxBytes := maxMb * bytesPerMb } := by
  unfold Edge.setQuota
  dsimp only
  split <;> rfl

theorem Inv.setQuota (h : Inv c d s) (d' : CacheDomain) (maxMb : Nat) :
    Inv c d (s.setQuota d' maxMb) := by
  refine ⟨?_, ?_⟩
  · unfold Laid
    rw [setQuota_disk]
    exact h.laid
  · rw [ledger, setQuota_disk, setQuota_usage, lookup_ensured]
    split
    · exact ⟨⟨h.tracks.sound.counted, h.tracks.sound.placed⟩, h.tracks.tracked⟩
    · exact h.tracks

theorem forgetDomain_usage (s : Edge) (d' d : CacheDomain) :
    (s.forgetDomain d').usage.lookup d = if d = d' then none else s.usage.lookup d := by
  unfold Edge.forgetDomain
  split
  · exact lookup_erase_eq s.usage d d'
  · next hnone =>
    split
    · next heq =>
      subst heq
      exact hnone
    · rfl

theorem Inv.forgetDomain (h : Inv c d s) (d' : CacheDomain)
    (hgone : d' = d → ∀ key, s.disk.lookup (c.relPath d key) = none) :
    Inv c d (s.forgetDomain d') := by
  refine ⟨?_, ?_⟩
  · unfold Laid
    rw [forgetDomain_disk]
    exact h.laid
  · rw [ledger, forgetDomain_disk, forgetDomain_usage]
    split
    · next hd => exact tracks_of_gone (sound_new 0) (hgone hd.symm)
    · exact h.tracks

/-! ### Purges by key -/

theorem Inv.purgeUrls_ne (h : Inv c d s) (hd : d ≠ d') (keys : List HashedKey) :
    Inv c d (s.purgeUrls d' keys) := by
  refine h.foldl (fun s key hs => ?_) keys
  cases hu : s.usage.lookup d' with
  | none =>
    rw [purgeUrl_of_none hu]
    exact hs
  | some _ =>
    obtain ⟨husage, -⟩ := purgeUrl_of_some hu key
    apply hs.fewer (fewer_purgeUrl d' s key)
    rw [husage, lookup_insert_eq, if_neg hd]

theorem Inv.purgeUrls (h : Inv c d s) {keys : List HashedKey}
    (hright : ∀ key ∈ keys, RightAt c d (ledger s.usage d) key) : Inv c d (s.purgeUrls d keys) := by
  induction keys generalizing s with
  | nil => exact h
  | cons key keys ih =>
    have hrest : ∀ key' ∈ keys, RightAt c d (ledger s.usage d) key' :=
      fun key' hmem => hright key' (mem_cons_of_mem _ hmem)
    show Inv c d ((purgeUrl d s key).purgeUrls d keys)
    cases hu : s.usage.lookup d with
    | none =>
      rw [purgeUrl_of_none hu]
      exact ih h hrest
    | some u =>
      obtain ⟨husage, hdisk⟩ := purgeUrl_of_some hu key
      have hledger : ledger (purgeUrl d s key).usage d =
          u.recordRemove key (((u.entries.lookup key).map (·.sizeBytes)).getD 0) := by
        apply ledger_of_some
        rw [husage, lookup_insert_eq, if_pos rfl]
      rw [ledger_of_some hu] at hright hrest
      refine ih ⟨fun path o ho => h.laid path o (fewer_purgeUrl d s key path o ho), ?_⟩ ?_
      · rw [hledger, hdisk]
        exact (h.known hu).takeOut (hright key mem_cons_self)
      · rw [hledger]
        exact fun key' hmem => (hrest key' hmem).recordRemove _ _

/-! ### Eviction -/

structure Passing (c : FileCache) (d : CacheDomain)
    (st : Table RelPath StoredObject × DomainUsage) : Prop where
  tracks : Tracks c d st.1 st.2
  right : ∀ key, RightAt c d st.2 key

theorem Passing.evictOne {st : Table RelPath StoredObject × DomainUsage} (h : Passing c d st)
    (key : HashedKey) : Passing c d (evictOne d st key) := by
  unfold Edge.evictOne
  split
  · exact h
  · exact ⟨h.tracks.takeOut (h.right key), fun key' => (h.right key').recordRemove _ _⟩

theorem evictToFit_usage_ne (hd : d ≠ d') (order : List HashedKey) :
    (s.evictToFit d' order).usage.lookup d = s.usage.lookup d := by
  unfold evictToFit
  split
  · rfl
  · split
    · rfl
    · exact AList.lookup_insert_ne hd

theorem evictToFit_of_over {d : CacheDomain} (hu : s.usage.lookup d = some u)
    (hover : u.isOverQuota = true) (order : List HashedKey) :
    s.evictToFit d order =
      { s with
        disk := ((u.getEvictionCandidates order).foldl (evictOne d) (s.disk, u)).1
        usage := s.usage.insert d
          ((u.getEvictionCandidates order).foldl (evictOne d) (s.disk, u)).2 } := by
  unfold evictToFit
  rw [hu]
  dsimp only
  rw [hover]
  rfl

theorem evictToFit_of_fits {d : CacheDomain} (hu : s.usage.lookup d = some u)
    (hover : u.isOverQuota = false) (order : List HashedKey) : s.evictToFit d order = s := by
  unfold evictToFit
  rw [hu]
  dsimp only
  rw [hover]
  rfl

theorem Inv.passing (h : Inv c d s) (hu : s.usage.lookup d = some u)
    (hright : ∀ key, RightAt c d u key) (order : List HashedKey) :
    Passing c d ((u.getEvictionCandidates order).foldl (Edge.evictOne d) (s.disk, u)) :=
  foldlRecOn _ _ ⟨h.known hu, hright⟩ fun _ hst key _ => hst.evictOne key

theorem Inv.evictToFit (h : Inv c d s) (d' : CacheDomain) (order : List HashedKey)
    (hright : d' = d → ∀ u, s.usage.lookup d = some u → ∀ key, RightAt c d u key) :
    Inv c d (s.evictToFit d' order) := by
  by_cases hd : d = d'
  · subst hd
    cases hu : s.usage.lookup d with
    | none =>
      unfold Edge.evictToFit
      rw [hu]
      exact h
    | some u =>
      cases hover : u.isOverQuota with
      | false =>
        rw [evictToFit_of_fits hu hover]
        exact h
      | true =>
        have hpass := h.passing hu (hright rfl u hu) order
        have hfewer := fewer_evictToFit s d order
        rw [evictToFit_of_over hu hover] at hfewer ⊢
        refine ⟨fun path o ho => h.laid path o (hfewer path o ho), ?_⟩
        rw [ledger_of_some (AList.lookup_insert _)]
        exact hpass.tracks
  · exact h.fewer (fewer_evictToFit s d' order) (evictToFit_usage_ne hd order)

/-! ### Scans -/

/-- A scan so far: the ledger of the domain tracks the keys whose files it has met. -/
structure Scanned (c : FileCache) (d : CacheDomain) (disk : Table RelPath StoredObject)
    (met : List HashedKey) (usage : Table CacheDomain DomainUsage) : Prop where
  sound : Sound c d (ledger usage d)
  tracked : ∀ key ∈ met, TrackedAt c d disk (ledger usage d) key

variable {met : List HashedKey} {usage : Table CacheDomain DomainUsage}

theorem Scanned.scanOne (h : Scanned c d disk met usage) {file : RelPath × StoredObject}
    (hfile : disk.lookup file.1 = some file.2)
    (hpath : file.1 = c.relPath file.1.domain file.1.key) (atime : RelPath → Nat) (now : Nat) :
    Scanned c d disk (if d = file.1.domain then file.1.key :: met else met)
      (scanOne atime now usage file) := by
  have hlookup := lookup_ensured usage d file.1.domain
    (·.restore file.1 file.2.object.fileLen (atime file.1) now)
  split
  · next heq =>
    rw [if_pos heq] at hlookup
    rw [← heq] at hpath
    refine ⟨?_, fun key hmem => ?_⟩
    · rw [Edge.scanOne, ledger_of_some hlookup]
      exact h.sound.restore hpath _ _ _
    · rw [Edge.scanOne, ledger_of_some hlookup]
      apply trackedAt_restore hpath hfile
      exact (mem_cons.mp hmem).imp_right (h.tracked key)
  · next hne =>
    rw [if_neg hne] at hlookup
    have hsame : ledger (Edge.scanOne atime now usage file) d = ledger usage d := by
      rw [ledger, Edge.scanOne, hlookup]
      rfl
    exact ⟨hsame ▸ h.sound, hsame ▸ h.tracked⟩

theorem Scanned.foldl {files : List (RelPath × StoredObject)}
    (hfiles : ∀ file ∈ files, disk.lookup file.1 = some file.2 ∧
      file.1 = c.relPath file.1.domain file.1.key) (h : Scanned c d disk met usage)
    (atime : RelPath → Nat) (now : Nat) :
    ∃ met', (∀ key ∈ met, key ∈ met') ∧ (∀ file ∈ files, file.1.domain = d → file.1.key ∈ met') ∧
      Scanned c d disk met' (files.foldl (Edge.scanOne atime now) usage) := by
  induction files generalizing met usage with
  | nil => exact ⟨met, fun _ h => h, fun _ hmem => (not_mem_nil hmem).elim, h⟩
  | cons file _ ih =>
    obtain ⟨hfile, hpath⟩ := hfiles file mem_cons_self
    obtain ⟨met', hmet, hfound, hscanned⟩ :=
      ih (fun f hf => hfiles f (mem_cons_of_mem _ hf)) (h.scanOne hfile hpath atime now)
    refine ⟨met', ?_, ?_, hscanned⟩
    · intro key hmem
      apply hmet
      split
      · exact mem_cons_of_mem _ hmem
      · exact hmem
    · intro f hf hd
      rcases mem_cons.mp hf with rfl | hf
      · apply hmet
        rw [if_pos hd.symm]
        exact mem_cons_self
      · exact hfound f hf hd

theorem inv_load (hlaid : s.Laid c) (hsound : Sound c d (ledger s.usage d)) (atime : RelPath → Nat)
    (now : Nat) : Inv c d (s.load atime now) := by
  have hfiles : ∀ file ∈ s.disk.entries.map fun e => (e.1, e.2),
      s.disk.lookup file.1 = some file.2 ∧ file.1 = c.relPath file.1.domain file.1.key := by
    intro file hmem
    obtain ⟨⟨path, o⟩, he, rfl⟩ := mem_map.mp hmem
    have hlookup : s.disk.lookup path = some o := AList.mem_lookup_iff.mpr he
    exact ⟨hlookup, hlaid path o hlookup⟩
  have hquotas : Sound c d (ledger (s.persisted.entries.foldl (fun usage quota =>
      (ensureDomain usage quota.1).adjust quota.1
        fun u => { u with maxBytes := quota.2 * bytesPerMb }) s.usage) d) := by
    refine foldlRecOn (motive := fun usage => Sound c d (ledger usage d)) _ _ hsound
      fun usage hu quota _ => ?_
    rw [ledger, lookup_ensured]
    split
    · exact ⟨hu.counted, hu.placed⟩
    · exact hu
  obtain ⟨met, -, hmet, hscanned⟩ := Scanned.foldl hfiles
    (⟨hquotas, fun _ hmem => (not_mem_nil hmem).elim⟩ : Scanned c d s.disk [] _) atime now
  refine ⟨hlaid, hscanned.sound, fun key o ho => hscanned.tracked key ?_ o ho⟩
  exact hmet (c.relPath d key, o) (mem_map.mpr ⟨⟨_, o⟩, AList.mem_lookup_iff.mp ho, rfl⟩) rfl

/-! ### Runs -/

/-- A step that leaves the ledger of the domain with the right paths: files are written to a domain
that has a ledger, which is not dropped before them, and where files are deleted by the paths of the
ledger those are the ones of the file backend. -/
def orderly (c : FileCache) (d : CacheDomain) (s : Edge) : Event → Bool
  | .put d' _ _ turnedAway _ => d' ≠ d || turnedAway || (s.usage.lookup d).isSome
  | .updateMeta d' _ _ _ _ turnedAway _ => d' ≠ d || turnedAway || (s.usage.lookup d).isSome
  | .forget d' => d' ≠ d || s.disk.keys.all fun path => path.domain ≠ d
  | .evict d' _ => d' ≠ d || (s.usage.lookup d).all fun u => u.entries.keys.all (goesRight c d u)
  | .purgeUrls d' keys => d' ≠ d || (s.usage.lookup d).all fun u => keys.all (goesRight c d u)
  | _ => true

theorem rightAt_of_evict {order : List HashedKey} (h : orderly c d s (.evict d order) = true)
    (hu : s.usage.lookup d = some u) (key : HashedKey) : RightAt c d u key := by
  have hall : u.entries.keys.all (goesRight c d u) = true := by
    simpa [orderly, hu] using h
  intro e he
  have hmem : key ∈ u.entries.keys := by
    apply AList.mem_keys.mp
    rw [← AList.lookup_isSome, he]
    rfl
  exact goesRight_iff.mp (all_eq_true.mp hall key hmem) e he

theorem inv_effect (event : Event) (hok : orderly c d s event = true) (h : Inv c d s) :
    Inv c d (s.effect c event) := by
  cases event with
  | put _ _ _ _ _ =>
    apply h.store
    rintro rfl rfl
    simpa [orderly, isSome_iff_ne_none] using hok
  | updateMeta d' key _ _ overQuota _ now =>
    rw [effect_updateMeta]
    have hget := h.get d' key overQuota now
    split
    · apply hget.store
      rintro rfl rfl
      have hsome : s.usage.lookup d' ≠ none := by
        simpa [orderly, isSome_iff_ne_none] using hok
      exact get_usage_ne_none hsome
    · exact hget
  | get d' key overQuota now => exact h.get d' key overQuota now
  | remove d' key => exact h.remove d' key
  | discardCorrupt _ => exact h.fewer (fewer_erase _ _) rfl
  | sweep _ => exact h.foldl (fun s path hs => hs.sweepOne path) _
  | dropHot _ => exact h.fewer (.refl _) rfl
  | setQuota d' maxMb => exact h.setQuota d' maxMb
  | forget d' =>
    apply h.forgetDomain
    rintro rfl key
    have hgone : ∀ path ∈ s.disk.keys, path.domain ≠ d' := by
      simpa [orderly] using hok
    apply AList.lookup_eq_none.mpr
    exact fun hmem => hgone _ (AList.mem_keys.mp hmem) rfl
  | evict _ _ =>
    apply h.evictToFit
    rintro rfl u hu
    exact rightAt_of_evict hok hu
  | purgeDomain d' => exact h.purgeDomain d'
  | purgeUrls d' keys =>
    by_cases hd : d = d'
    · subst hd
      apply h.purgeUrls
      intro key hmem
      cases hu : s.usage.lookup d with
      | none =>
        rw [ledger, hu]
        exact fun e he => nomatch he
      | some u =>
        have hall : keys.all (goesRight c d u) = true := by
          simpa [orderly, hu] using hok
        rw [ledger_of_some hu]
        exact goesRight_iff.mp (all_eq_true.mp hall key hmem)
    · exact h.purgeUrls_ne hd keys
  | purgeNamespace d' => exact h.purgeNamespace d'
  | rescan atime now => exact inv_load h.laid h.tracks.sound atime now
  | restart atime now =>
    exact inv_load (s := { s with hot := ∅, usage := ∅ }) h.laid (sound_new 0) atime now

theorem inv_step (event : Event) (hok : orderly c d s event = true) (h : Inv c d s) :
    Inv c d (s.step c event) :=
  (inv_effect event hok h).fewer (.refl _) rfl

/-- A state to begin with: a directory without files, or any that has just been scanned at the start
of the process. -/
def Started (c : FileCache) (s : Edge) : Prop :=
  s = fresh ∨ ∃ events atime now, s = fresh.run c (events ++ [.restart atime now])

theorem inv_started (h : s.Started c) (d : CacheDomain) : Inv c d s := by
  rcases h with rfl | ⟨events, atime, now, rfl⟩
  · exact ⟨laid_fresh, tracks_of_gone (sound_new 0) fun _ => rfl⟩
  · have hlaid := laid_run events (laid_fresh (c := c))
    have hload : Inv c d ((fresh.run c events).effect c (.restart atime now)) :=
      inv_load (s := { fresh.run c events with hot := ∅, usage := ∅ }) hlaid (sound_new 0) atime now
    have hrun : fresh.run c (events ++ [.restart atime now]) =
        (fresh.run c events).step c (.restart atime now) := by
      unfold run
      rw [foldl_append]
      rfl
    rw [hrun]
    exact hload.fewer (.refl _) rfl

theorem inv_run {events : List Event} (hstart : s.Started c)
    (h : Once.Along (step c) (fun s event => orderly c d s event = true) s events) :
    Inv c d (s.run c events) :=
  h.keeps (fun _ event hok hs => inv_step event hok hs) (inv_started hstart d)

end Edge

end PingWaf.Cache
