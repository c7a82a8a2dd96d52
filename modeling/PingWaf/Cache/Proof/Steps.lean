import PingWaf.Cache.Quota

/-!
# What an event can do

The objects that an event puts on disk or into memory (`Event.writes`), and that everything else
there was there before.
-/

namespace PingWaf.Cache

open Text

theorem relPath_inj {c : FileCache} {d d' : CacheDomain} {key key' : HashedKey} :
    c.relPath d key = c.relPath d' key' ↔ d = d' ∧ key = key' := by
  constructor
  · intro h
    exact ⟨congrArg RelPath.domain h, congrArg RelPath.key h⟩
  · rintro ⟨rfl, rfl⟩
    rfl

/-! ## The places that scans have noted -/

namespace DomainUsage

/-- The places that a scan has noted are those of the file backend. -/
def Noted (c : FileCache) (d : CacheDomain) (u : DomainUsage) : Prop :=
  u.entries.Each fun key e => ∀ path, e.relPath = some path → path = c.relPath d key

variable {c : FileCache} {d : CacheDomain} {u : DomainUsage}

theorem noted_new (maxBytes : Nat) : Noted c d (.new maxBytes) := Table.each_empty

theorem noted_reset : Noted c d u.reset := Table.each_empty

theorem Noted.recordWrite (h : Noted c d u) (key : HashedKey) (size now : Nat) :
    Noted c d (u.recordWrite key size now) :=
  Table.Each.insert h nofun

theorem Noted.recordAccess (h : Noted c d u) (key : HashedKey) (now : Nat) :
    Noted c d (u.recordAccess key now) :=
  Table.Each.adjust h fun _ he => he

theorem Noted.recordRemove (h : Noted c d u) (key : HashedKey) (size : Nat) :
    Noted c d (u.recordRemove key size) :=
  Table.Each.erase h key

theorem Noted.restore (h : Noted c d u) {path : RelPath} (hpath : path = c.relPath d path.key)
    (size atime now : Nat) : Noted c d (u.restore path size atime now) :=
  Table.Each.insert h fun _ hp => Option.some.inj hp ▸ hpath

end DomainUsage

namespace Edge

variable {c : FileCache} {s : Edge} {d : CacheDomain} {key : HashedKey} {path : RelPath}
  {o : StoredObject}

/-! ## Reading and writing -/

@[simp] theorem onUsage_disk (f : DomainUsage → DomainUsage) : (s.onUsage d f).disk = s.disk := rfl

@[simp] theorem onUsage_hot (f : DomainUsage → DomainUsage) : (s.onUsage d f).hot = s.hot := rfl

theorem lookup_onUsage (f : DomainUsage → DomainUsage) (d' : CacheDomain) :
    (s.onUsage d f).usage.lookup d' =
      if d' = d then (s.usage.lookup d).map f else s.usage.lookup d' :=
  Table.lookup_adjust s.usage d d' f

@[simp] theorem putHot_disk : (s.putHot c key o).disk = s.disk := by
  unfold putHot
  split_ifs <;> rfl

@[simp] theorem putHot_usage : (s.putHot c key o).usage = s.usage := by
  unfold putHot
  split_ifs <;> rfl

variable {key' : HashedKey} {o' : StoredObject} {now : Nat}

theorem lookup_putHot (h : (s.putHot c key o).hot.lookup key' = some o') :
    s.hot.lookup key' = some o' ∨ key' = key ∧ o' = o := by
  unfold putHot at h
  split_ifs at h
  · exact .inl h
  · exact .inl h
  · rw [Table.lookup_insert_eq] at h
    split at h
    · next heq => exact .inr ⟨heq, (Option.some.inj h).symm⟩
    · exact .inl h

/-- A lookup of the key finds the object, in memory or on disk. -/
def Holds (c : FileCache) (s : Edge) (d : CacheDomain) (key : HashedKey) (o : StoredObject) : Prop :=
  c.hot = true ∧ s.hot.lookup key = some o ∨ s.disk.lookup (c.relPath d key) = some o

theorem get_eq_some {overQuota : Bool} (h : (s.get c d key overQuota now).1 = some o) :
    s.Holds c d key o := by
  unfold get at h
  split at h
  · next hhot =>
    split at hhot
    · next hon => exact .inl ⟨hon, hhot.trans h⟩
    · cases hhot
  · split at h
    · cases h
    · split at h
      · cases h
      · next hdisk => exact .inr (hdisk.trans h)

/-- A lookup changes nothing, or notes the access to a file that it may take into memory. -/
theorem get_cases (c : FileCache) (s : Edge) (d : CacheDomain) (key : HashedKey) (overQuota : Bool)
    (now : Nat) :
    (s.get c d key overQuota now).2 = s ∨ ∃ o s', s.disk.lookup (c.relPath d key) = some o ∧
      (s' = s ∨ s' = s.putHot c key o) ∧
      (s.get c d key overQuota now).2 = s'.onUsage d (·.recordAccess key now) := by
  unfold get
  split
  · exact .inl rfl
  · split
    · exact .inl rfl
    · split
      · exact .inl rfl
      · next o ho =>
        refine .inr ⟨o, _, ho, ?_, rfl⟩
        split
        · exact .inr rfl
        · exact .inl rfl

@[simp] theorem get_disk (overQuota : Bool) (now : Nat) :
    (s.get c d key overQuota now).2.disk = s.disk := by
  obtain h | ⟨o, s', -, rfl | rfl, h⟩ := get_cases c s d key overQuota now <;> simp [h]

theorem get_usage (c : FileCache) (s : Edge) (d : CacheDomain) (key : HashedKey) (overQuota : Bool)
    (now : Nat) :
    (s.get c d key overQuota now).2.usage = s.usage ∨
      (s.get c d key overQuota now).2.usage = s.usage.adjust d (·.recordAccess key now) := by
  obtain h | ⟨o, s', -, rfl | rfl, h⟩ := get_cases c s d key overQuota now <;> simp [h, onUsage]

theorem lookup_get_hot {overQuota : Bool}
    (h : (s.get c d key overQuota now).2.hot.lookup key' = some o) :
    s.hot.lookup key' = some o ∨ key' = key ∧ s.disk.lookup (c.relPath d key) = some o := by
  obtain hs | ⟨o', s', hdisk, rfl | rfl, hs⟩ := get_cases c s d key overQuota now
  · exact .inl (hs ▸ h)
  · rw [hs] at h
    exact .inl h
  · rw [hs] at h
    obtain hold | ⟨rfl, rfl⟩ := lookup_putHot h
    · exact .inl hold
    · exact .inr ⟨rfl, hdisk⟩

theorem store_usage (turnedAway : Bool) (now : Nat) :
    (s.store c d key o turnedAway now).usage = if turnedAway then s.usage
      else s.usage.adjust d (·.recordWrite key o.object.fileLen now) := by
  unfold store
  dsimp only
  split <;> simp [onUsage]

theorem lookup_store_disk {turnedAway : Bool}
    (h : (s.store c d key o turnedAway now).disk.lookup path = some o') :
    s.disk.lookup path = some o' ∨ path = c.relPath d key ∧ o' = o := by
  unfold store at h
  dsimp only at h
  split at h
  · rw [putHot_disk] at h
    exact .inl h
  · rw [onUsage_disk, putHot_disk, Table.lookup_insert_eq] at h
    split at h
    · next heq => exact .inr ⟨heq, (Option.some.inj h).symm⟩
    · exact .inl h

theorem lookup_store_hot {turnedAway : Bool}
    (h : (s.store c d key o turnedAway now).hot.lookup key' = some o') :
    s.hot.lookup key' = some o' ∨ key' = key ∧ o' = o := by
  unfold store at h
  dsimp only at h
  split at h
  · exact lookup_putHot h
  · exact lookup_putHot h

/-! ## Deleting -/

section

variable {κ : Type} [DecidableEq κ]

/-- `t'` has no entry that `t` has not. -/
def Fewer (t t' : Table κ StoredObject) : Prop := ∀ k o, t'.lookup k = some o → t.lookup k = some o

variable {t t' t'' : Table κ StoredObject}

theorem Fewer.refl (t : Table κ StoredObject) : Fewer t t := fun _ _ h => h

theorem Fewer.trans (h : Fewer t t') (h' : Fewer t' t'') : Fewer t t'' :=
  fun k o ho => h k o (h' k o ho)

theorem fewer_erase (t : Table κ StoredObject) (k : κ) : Fewer t (t.erase k) := by
  intro k' o h
  rw [Table.lookup_erase_eq] at h
  split at h
  · cases h
  · exact h

theorem fewer_retain (t : Table κ StoredObject) (p : κ → StoredObject → Bool) :
    Fewer t (t.retain p) := by
  intro k o h
  rw [Table.lookup_retain, Option.filter_eq_some_iff] at h
  exact h.1

theorem fewer_foldl {α β : Type} {g : β → Table κ StoredObject} {f : β → α → β}
    (hf : ∀ b a, Fewer (g b) (g (f b a))) (l : List α) (b : β) : Fewer (g b) (g (l.foldl f b)) := by
  induction l generalizing b with
  | nil => exact .refl _
  | cons a _ ih => exact (hf b a).trans (ih (f b a))

end

theorem fewer_sweepOne (s : Edge) (path : RelPath) : Fewer s.disk (sweepOne s path).disk := by
  unfold sweepOne
  split
  · exact .refl _
  · exact fewer_erase _ _

theorem fewer_evictOne (d : CacheDomain) (st : Table RelPath StoredObject × DomainUsage)
    (key : HashedKey) : Fewer st.1 (evictOne d st key).1 := by
  unfold evictOne
  split
  · exact .refl _
  · exact fewer_erase _ _

theorem fewer_evictToFit (s : Edge) (d : CacheDomain) (order : List HashedKey) :
    Fewer s.disk (s.evictToFit d order).disk := by
  unfold evictToFit
  split
  · exact .refl _
  · split
    · exact .refl _
    · exact fewer_foldl (fewer_evictOne d) _ (s.disk, _)

theorem purgeUrl_of_some {u : DomainUsage} (hu : s.usage.lookup d = some u) (key : HashedKey) :
    (purgeUrl d s key).usage = s.usage.insert d
        (u.recordRemove key (((u.entries.lookup key).map (·.sizeBytes)).getD 0)) ∧
      (purgeUrl d s key).disk = s.disk.erase (entryPath d key (u.entries.lookup key)) := by
  unfold purgeUrl
  rw [hu]
  exact ⟨rfl, rfl⟩

theorem purgeUrl_of_none (hnone : s.usage.lookup d = none) (key : HashedKey) :
    purgeUrl d s key = s := by
  unfold purgeUrl
  rw [hnone]

theorem fewer_purgeUrl (d : CacheDomain) (s : Edge) (key : HashedKey) :
    Fewer s.disk (purgeUrl d s key).disk := by
  unfold purgeUrl
  split
  · exact .refl _
  · exact fewer_erase _ _

theorem forgetDomain_disk (s : Edge) (d : CacheDomain) : (s.forgetDomain d).disk = s.disk := by
  unfold forgetDomain
  split <;> rfl

theorem setQuota_disk (s : Edge) (d : CacheDomain) (maxMb : Nat) :
    (s.setQuota d maxMb).disk = s.disk := by
  unfold setQuota
  dsimp only
  split <;> rfl

/-! ## What an event writes -/

def Event.writes (c : FileCache) (s : Edge) (d : CacheDomain) (key : HashedKey) (o : StoredObject) :
    Event → Prop
  | .put d' key' object _ _ => d' = d ∧ key' = key ∧ o = ⟨object, d, s.clock⟩
  | .updateMeta d' key' meta0 meta1 overQuota _ now =>
    d' = d ∧ key' = key ∧ ∃ o', (s.get c d key overQuota now).1 = some o' ∧
      o = { o' with object := { o'.object with meta0, meta1 } }
  | _ => False

def Event.reads (d : CacheDomain) (key : HashedKey) : Event → Prop
  | .get d' key' _ _ => d' = d ∧ key' = key
  | .updateMeta d' key' _ _ _ _ _ => d' = d ∧ key' = key
  | _ => False

theorem effect_updateMeta (meta0 meta1 : List UInt8) (overQuota turnedAway : Bool) (now : Nat) :
    s.effect c (.updateMeta d key meta0 meta1 overQuota turnedAway now) =
      match (s.get c d key overQuota now).1 with
      | some o =>
        (s.get c d key overQuota now).2.store c d key
          { o with object := { o.object with meta0, meta1 } } turnedAway now
      | none => (s.get c d key overQuota now).2 := by
  unfold effect
  dsimp only
  rcases s.get c d key overQuota now with ⟨_ | _, _⟩ <;> rfl

theorem mem_disk_effect (event : Event) (h : (s.effect c event).disk.lookup path = some o) :
    s.disk.lookup path = some o ∨
      ∃ d key, path = c.relPath d key ∧ event.writes c s d key o := by
  cases event with
  | put d key _ _ _ =>
    rcases lookup_store_disk h with hold | ⟨rfl, rfl⟩
    · exact .inl hold
    · exact .inr ⟨d, key, rfl, rfl, rfl, rfl⟩
  | updateMeta d key _ _ overQuota _ now =>
    rw [effect_updateMeta] at h
    cases hfound : (s.get c d key overQuota now).1 with
    | none =>
      rw [hfound] at h
      dsimp only at h
      rw [get_disk] at h
      exact .inl h
    | some o' =>
      rw [hfound] at h
      rcases lookup_store_disk h with hold | ⟨rfl, rfl⟩
      · rw [get_disk] at hold
        exact .inl hold
      · exact .inr ⟨d, key, rfl, rfl, rfl, o', hfound, rfl⟩
  | get _ _ _ _ =>
    rw [effect, get_disk] at h
    exact .inl h
  | remove _ _ | discardCorrupt _ => exact .inl (fewer_erase _ _ _ _ h)
  | sweep _ => exact .inl (fewer_foldl (g := Edge.disk) fewer_sweepOne _ _ _ _ h)
  | dropHot _ => exact .inl h
  | setQuota _ _ =>
    rw [effect, setQuota_disk] at h
    exact .inl h
  | forget _ =>
    rw [effect, forgetDomain_disk] at h
    exact .inl h
  | evict d order => exact .inl (fewer_evictToFit s d order _ _ h)
  | purgeDomain _ => exact .inl (fewer_retain _ _ _ _ h)
  | purgeUrls d _ => exact .inl (fewer_foldl (g := Edge.disk) (fewer_purgeUrl d) _ _ _ _ h)
  | purgeNamespace _ =>
    refine .inl (fewer_foldl (g := Edge.disk) (f := purgeFile c) ?_ _ _ _ _ h)
    exact fun s path => fewer_erase s.disk path
  | rescan _ _ | restart _ _ => exact .inl h

/-! ## Memory -/

theorem sweepOne_hot (s : Edge) (path : RelPath) : (sweepOne s path).hot = s.hot := by
  unfold sweepOne
  split <;> rfl

theorem purgeUrl_hot (d : CacheDomain) (s : Edge) (key : HashedKey) :
    (purgeUrl d s key).hot = s.hot := by
  unfold purgeUrl
  split <;> rfl

theorem foldl_hot {α : Type} {f : Edge → α → Edge} (hf : ∀ s a, (f s a).hot = s.hot) (l : List α)
    (s : Edge) : (l.foldl f s).hot = s.hot := by
  induction l generalizing s with
  | nil => rfl
  | cons _ _ ih => rw [List.foldl_cons, ih, hf]

theorem evictToFit_hot (s : Edge) (d : CacheDomain) (order : List HashedKey) :
    (s.evictToFit d order).hot = s.hot := by
  unfold evictToFit
  split
  · rfl
  · split <;> rfl

theorem forgetDomain_hot (s : Edge) (d : CacheDomain) : (s.forgetDomain d).hot = s.hot := by
  unfold forgetDomain
  split <;> rfl

theorem setQuota_hot (s : Edge) (d : CacheDomain) (maxMb : Nat) :
    (s.setQuota d maxMb).hot = s.hot := by
  unfold setQuota
  dsimp only
  split <;> rfl

theorem fewer_purgeFile_hot (c : FileCache) (s : Edge) (path : RelPath) :
    Fewer s.hot (purgeFile c s path).hot := by
  unfold purgeFile
  dsimp only
  split
  · exact fewer_erase _ _
  · exact .refl _

theorem mem_hot_effect (event : Event) (h : (s.effect c event).hot.lookup key = some o) :
    s.hot.lookup key = some o ∨ ∃ d, event.writes c s d key o ∨
      event.reads d key ∧ s.disk.lookup (c.relPath d key) = some o := by
  cases event with
  | put d _ _ _ _ =>
    rcases lookup_store_hot h with hold | ⟨rfl, rfl⟩
    · exact .inl hold
    · exact .inr ⟨d, .inl ⟨rfl, rfl, rfl⟩⟩
  | updateMeta d key' _ _ overQuota _ now =>
    rw [effect_updateMeta] at h
    have hread : (s.get c d key' overQuota now).2.hot.lookup key = some o →
        s.hot.lookup key = some o ∨
          ∃ d'', (d = d'' ∧ key' = key) ∧ s.disk.lookup (c.relPath d'' key) = some o := by
      intro hget
      rcases lookup_get_hot hget with hold | ⟨rfl, hdisk⟩
      · exact .inl hold
      · exact .inr ⟨d, ⟨rfl, rfl⟩, hdisk⟩
    cases hfound : (s.get c d key' overQuota now).1 with
    | none =>
      rw [hfound] at h
      exact (hread h).imp_right (Exists.imp fun _ => .inr)
    | some o' =>
      rw [hfound] at h
      rcases lookup_store_hot h with hold | ⟨rfl, rfl⟩
      · exact (hread hold).imp_right (Exists.imp fun _ => .inr)
      · exact .inr ⟨d, .inl ⟨rfl, rfl, o', hfound, rfl⟩⟩
  | get d _ _ _ =>
    rcases lookup_get_hot h with hold | ⟨rfl, hdisk⟩
    · exact .inl hold
    · exact .inr ⟨d, .inr ⟨⟨rfl, rfl⟩, hdisk⟩⟩
  | remove _ _ =>
    refine .inl ?_
    unfold effect remove at h
    dsimp only at h
    rw [onUsage_hot] at h
    dsimp only at h
    split at h
    · exact fewer_erase _ _ _ _ h
    · exact h
  | discardCorrupt _ => exact .inl h
  | sweep _ =>
    rw [effect, foldl_hot sweepOne_hot] at h
    exact .inl h
  | dropHot _ => exact .inl (fewer_retain _ _ _ _ h)
  | setQuota _ _ =>
    rw [effect, setQuota_hot] at h
    exact .inl h
  | forget _ =>
    rw [effect, forgetDomain_hot] at h
    exact .inl h
  | evict _ _ =>
    rw [effect, evictToFit_hot] at h
    exact .inl h
  | purgeDomain _ => exact .inl h
  | purgeUrls d _ =>
    rw [effect, purgeUrls, foldl_hot (purgeUrl_hot d)] at h
    exact .inl h
  | purgeNamespace _ => exact .inl (fewer_foldl (g := Edge.hot) (fewer_purgeFile_hot c) _ _ _ _ h)
  | rescan _ _ => exact .inl h
  | restart _ _ =>
    cases h

/-! ## Where the files are -/

def Laid (c : FileCache) (s : Edge) : Prop :=
  ∀ path o, s.disk.lookup path = some o → path = c.relPath path.domain path.key

theorem laid_step (event : Event) (h : s.Laid c) : (s.step c event).Laid c := by
  intro path o ho
  rcases mem_disk_effect event ho with hold | ⟨d, key, rfl, -⟩
  · exact h path o hold
  · rfl

theorem laid_run (events : List Event) (h : s.Laid c) : (s.run c events).Laid c := by
  induction events generalizing s with
  | nil => exact h
  | cons event _ ih => exact ih (laid_step event h)

theorem laid_fresh : fresh.Laid c := fun _ _ ho => nomatch ho

end Edge

end PingWaf.Cache
