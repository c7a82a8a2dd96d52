import PingWaf.Cache.Proof.Steps

/-!
# Purges

What a lookup returns is as old as something from before, or new (`holds_effect`), so that a purge
that leaves nothing behind is never undone. The purge of a domain leaves the memory layer behind,
and the purge of keys that and every file that the ledger does not know by its path.
-/

namespace PingWaf.Cache

namespace Edge

variable {c : FileCache} {s : Edge} {d : CacheDomain} {key : HashedKey} {o : StoredObject}
  {path : RelPath} {owner : HashedKey → CacheDomain}

/-! ## The age of objects -/

/-- The namespace goes into the hash, so that a key belongs to one domain. -/
def Event.keyed (owner : HashedKey → CacheDomain) : Event → Prop
  | .put d key _ _ _ => owner key = d
  | .updateMeta d key _ _ _ _ _ => owner key = d
  | .get d key _ _ => owner key = d
  | _ => True

variable {event : Event}

theorem Event.writes_age (hkeyed : event.keyed owner) (h : event.writes c s d key o) :
    d = owner key ∧ (o.born = s.clock ∨ ∃ o', s.Holds c d key o' ∧ o'.born = o.born) := by
  cases event with
  | put _ _ _ _ _ =>
    obtain ⟨rfl, rfl, rfl⟩ := h
    exact ⟨hkeyed.symm, .inl rfl⟩
  | updateMeta _ _ _ _ _ _ _ =>
    obtain ⟨rfl, rfl, o', ho', rfl⟩ := h
    exact ⟨hkeyed.symm, .inr ⟨o', get_eq_some ho', rfl⟩⟩
  | _ => exact h.elim

theorem Event.reads_owner (hkeyed : event.keyed owner) (h : event.reads d key) : d = owner key := by
  cases event with
  | get _ _ _ _ | updateMeta _ _ _ _ _ _ _ =>
    obtain ⟨rfl, rfl⟩ := h
    exact hkeyed.symm
  | _ => exact h.elim

theorem holds_effect (hkeyed : event.keyed owner) (h : (s.effect c event).Holds c (owner key) key o) :
    o.born = s.clock ∨ ∃ o', s.Holds c (owner key) key o' ∧ o'.born = o.born := by
  rcases h with ⟨hon, hhot⟩ | hdisk
  · rcases mem_hot_effect event hhot with hold | ⟨d, hwrites | ⟨hreads, hdisk⟩⟩
    · exact .inr ⟨o, .inl ⟨hon, hold⟩, rfl⟩
    · obtain ⟨rfl, hage⟩ := Event.writes_age hkeyed hwrites
      exact hage
    · rw [Event.reads_owner hkeyed hreads] at hdisk
      exact .inr ⟨o, .inr hdisk, rfl⟩
  · rcases mem_disk_effect event hdisk with hold | ⟨d, key', hpath, hwrites⟩
    · exact .inr ⟨o, .inr hold, rfl⟩
    · obtain ⟨rfl, rfl⟩ := relPath_inj.mp hpath
      exact (Event.writes_age hkeyed hwrites).2

def Since (c : FileCache) (owner : HashedKey → CacheDomain) (t : Nat) (K : HashedKey → Prop)
    (s : Edge) : Prop :=
  t ≤ s.clock ∧ ∀ key, K key → ∀ o, s.Holds c (owner key) key o → t ≤ o.born

variable {t : Nat} {K : HashedKey → Prop}

theorem Since.step (h : Since c owner t K s) (hkeyed : event.keyed owner) :
    Since c owner t K (s.step c event) := by
  refine ⟨Nat.le_succ_of_le h.1, fun key hkey o ho => ?_⟩
  rcases holds_effect hkeyed ho with hnew | ⟨o', ho', hborn⟩
  · rw [hnew]
    exact h.1
  · rw [← hborn]
    exact h.2 key hkey o' ho'

theorem Since.run {events : List Event} (h : Since c owner t K s)
    (hkeyed : ∀ event ∈ events, event.keyed owner) : Since c owner t K (s.run c events) := by
  induction events generalizing s with
  | nil => exact h
  | cons event _ ih =>
    exact ih (h.step (hkeyed event List.mem_cons_self))
      fun e he => hkeyed e (List.mem_cons_of_mem _ he)

def Past (c : FileCache) (owner : HashedKey → CacheDomain) (s : Edge) : Prop :=
  ∀ key o, s.Holds c (owner key) key o → o.born < s.clock

theorem Past.step (h : Past c owner s) (hkeyed : event.keyed owner) :
    Past c owner (s.step c event) := by
  intro key o ho
  change o.born < s.clock + 1
  rcases holds_effect hkeyed ho with hnew | ⟨o', ho', hborn⟩
  · omega
  · have := h key o' ho'
    omega

theorem past_run {events : List Event} (hkeyed : ∀ event ∈ events, event.keyed owner)
    (h : Past c owner s) : Past c owner (s.run c events) := by
  induction events generalizing s with
  | nil => exact h
  | cons event _ ih =>
    exact ih (fun e he => hkeyed e (List.mem_cons_of_mem _ he))
      (h.step (hkeyed event List.mem_cons_self))

theorem past_fresh : Past c owner fresh := by
  rintro key o (⟨-, h⟩ | h)
  · cases h
  · cases h

theorem get_of_holds (h : s.Holds c d key o) (now : Nat) :
    ∃ o', (s.get c d key false now).1 = some o' ∧ s.Holds c d key o' := by
  have hsome : (s.get c d key false now).1 ≠ none := by
    unfold get
    split
    · exact Option.some_ne_none _
    · next hcold =>
      rcases h with ⟨hon, hhot⟩ | hdisk
      · rw [if_pos hon, hhot] at hcold
        cases hcold
      · rw [if_neg (by decide), hdisk]
        exact Option.some_ne_none _
  obtain ⟨o', ho'⟩ := Option.ne_none_iff_exists'.mp hsome
  exact ⟨o', ho', get_eq_some ho'⟩

end Edge

/-! ## The places that scans have noted -/

namespace Edge

open DomainUsage List Table.Each Table

variable {c : FileCache} {s : Edge} {d : CacheDomain} {key : HashedKey} {o : StoredObject}
  {path : RelPath} {owner : HashedKey → CacheDomain} {usage : Table CacheDomain DomainUsage}

theorem noted_ensureDomain (h : usage.Each (Noted c)) (d : CacheDomain) :
    (ensureDomain usage d).Each (Noted c) := by
  unfold ensureDomain
  split
  · exact h
  · exact h.insert (noted_new 0)

theorem noted_setMax (h : usage.Each (Noted c)) (d : CacheDomain) (maxMb : Nat) :
    ((ensureDomain usage d).adjust d fun u => { u with maxBytes := maxMb * bytesPerMb }).Each
      (Noted c) :=
  (noted_ensureDomain h d).adjust fun _ hu => hu

theorem noted_get (h : s.usage.Each (Noted c)) (overQuota : Bool) (now : Nat) :
    (s.get c d key overQuota now).2.usage.Each (Noted c) := by
  obtain hs | hs := get_usage c s d key overQuota now
  · rw [hs]
    exact h
  · rw [hs]
    exact h.adjust fun _ hu => hu.recordAccess key now

theorem noted_store (h : s.usage.Each (Noted c)) (turnedAway : Bool) (now : Nat) :
    (s.store c d key o turnedAway now).usage.Each (Noted c) := by
  rw [store_usage]
  split
  · exact h
  · exact h.adjust fun _ hu => hu.recordWrite _ _ _

theorem noted_purgeUrl (h : s.usage.Each (Noted c)) (d : CacheDomain) (key : HashedKey) :
    (purgeUrl d s key).usage.Each (Noted c) := by
  unfold purgeUrl
  split
  · exact h
  · next u hu => exact h.insert ((h d u hu).recordRemove _ _)

theorem noted_sweepOne (h : s.usage.Each (Noted c)) (path : RelPath) :
    (sweepOne s path).usage.Each (Noted c) := by
  unfold sweepOne
  split
  · exact h
  · exact adjust h fun _ hu => hu.recordRemove _ _

theorem noted_evictToFit (h : s.usage.Each (Noted c)) (d : CacheDomain) (order : List HashedKey) :
    (s.evictToFit d order).usage.Each (Noted c) := by
  have hpass : ∀ (keys : List HashedKey) (st : Table RelPath StoredObject × DomainUsage), Noted c d st.2 →
      Noted c d (keys.foldl (evictOne d) st).2 := by
    intro keys st hst
    refine foldlRecOn (motive := fun st => Noted c d st.2) keys (evictOne d) hst
      fun st hst key _ => ?_
    unfold evictOne
    split
    · exact hst
    · exact hst.recordRemove _ _
  unfold evictToFit
  split
  · exact h
  · next u hu =>
    split
    · exact h
    · exact h.insert (hpass _ (s.disk, u) (h d u hu))

theorem noted_load (hlaid : s.Laid c) (h : s.usage.Each (Noted c)) (atime : RelPath → Nat)
    (now : Nat) : (s.load atime now).usage.Each (Noted c) := by
  refine foldlRecOn (motive := fun usage => Table.Each usage (Noted c)) _ _
    (foldlRecOn (motive := fun usage => Table.Each usage (Noted c)) _ _ h
      fun usage hu quota _ => noted_setMax hu quota.1 quota.2) fun usage hu file hmem => ?_
  obtain ⟨e, he, rfl⟩ := mem_map.mp hmem
  have hpath := hlaid e.1 e.2 (AList.mem_lookup_iff.mpr he)
  exact (noted_ensureDomain hu e.1.domain).adjust fun _ hu => hu.restore hpath _ _ _

theorem noted_effect (event : Event) (hlaid : s.Laid c) (h : s.usage.Each (Noted c)) :
    (s.effect c event).usage.Each (Noted c) := by
  have hfold {α : Type} {f : Edge → α → Edge} (hf : ∀ s a, s.usage.Each (Noted c) →
      (f s a).usage.Each (Noted c)) (l : List α) : (l.foldl f s).usage.Each (Noted c) :=
    foldlRecOn (motive := fun s => Table.Each s.usage (Noted c)) l f h fun s hs a _ => hf s a hs
  cases event with
  | put _ _ _ turnedAway now => exact noted_store h turnedAway now
  | updateMeta _ _ _ _ overQuota turnedAway now =>
    rw [effect_updateMeta]
    split
    · exact noted_store (noted_get h overQuota now) turnedAway now
    · exact noted_get h overQuota now
  | get _ _ overQuota now => exact noted_get h overQuota now
  | remove _ _ => exact adjust h fun _ hu => hu.recordRemove _ _
  | sweep _ => exact hfold (fun _ path hs => noted_sweepOne hs path) _
  | setQuota d maxMb =>
    show (s.setQuota d maxMb).usage.Each (Noted c)
    unfold setQuota
    dsimp only
    split <;> exact noted_setMax h d maxMb
  | forget d =>
    show (s.forgetDomain d).usage.Each (Noted c)
    unfold forgetDomain
    split
    · exact erase h d
    · exact h
  | evict d order => exact noted_evictToFit h d order
  | purgeDomain _ => exact adjust h fun _ _ => noted_reset
  | purgeUrls d keys => exact hfold (fun _ key hs => noted_purgeUrl hs d key) keys
  | purgeNamespace d =>
    have hfiles := hfold (f := purgeFile c) (fun _ _ hs => hs)
      (s.disk.keys.filter fun path => path.domain = d)
    exact adjust hfiles fun _ _ => noted_reset
  | rescan atime now => exact noted_load hlaid h atime now
  | restart atime now =>
    exact noted_load (s := { s with hot := ∅, usage := ∅ }) hlaid each_empty atime now
  | _ => exact h

/-- Files lie where the file backend puts them, and the places that are noted are such. -/
structure Placed (c : FileCache) (s : Edge) : Prop where
  laid : s.Laid c
  noted : s.usage.Each (Noted c)

theorem placed_step (event : Event) (h : s.Placed c) : (s.step c event).Placed c :=
  ⟨laid_step event h.laid, noted_effect event h.laid h.noted⟩

theorem placed_run (events : List Event) (h : s.Placed c) : (s.run c events).Placed c :=
  foldlRecOn events _ h fun _ hs event _ => placed_step event hs

theorem placed_fresh : fresh.Placed c := ⟨laid_fresh, each_empty⟩

/-! ## Purges by key -/

/-- The ledger looks for the file of the key where it is. -/
def Reached (c : FileCache) (s : Edge) (d : CacheDomain) (key : HashedKey) : Prop :=
  ∃ u, s.usage.lookup d = some u ∧ entryPath d key (u.entries.lookup key) = c.relPath d key

theorem Placed.entryPath_cases (h : s.Placed c) {u : DomainUsage} (hu : s.usage.lookup d = some u)
    (key : HashedKey) : entryPath d key (u.entries.lookup key) = keyPath d key ∨
      entryPath d key (u.entries.lookup key) = c.relPath d key := by
  unfold entryPath
  cases he : u.entries.lookup key with
  | none => exact .inl rfl
  | some e =>
    rw [Option.bind_some]
    cases hplace : e.relPath with
    | none => exact .inl rfl
    | some path => exact .inr (h.noted d u hu key e he path hplace)

theorem placed_purgeUrl (h : s.Placed c) (d : CacheDomain) (key : HashedKey) :
    (purgeUrl d s key).Placed c :=
  ⟨fun path o ho => h.laid path o (fewer_purgeUrl d s key path o ho), noted_purgeUrl h.noted d key⟩

theorem lookup_purgeUrl (h : s.Placed c) {key' : HashedKey}
    (hmiss : key = key' → ¬ s.Reached c d key) :
    (purgeUrl d s key').disk.lookup (c.relPath d key) = s.disk.lookup (c.relPath d key) := by
  cases hu : s.usage.lookup d with
  | none => rw [purgeUrl_of_none hu]
  | some u =>
    rw [(purgeUrl_of_some hu key').2, lookup_erase_eq, if_neg]
    intro heq
    have hkey : key = key' := by
      rcases h.entryPath_cases hu key' with hpath | hpath
      · exact congrArg RelPath.key (heq.trans hpath)
      · exact congrArg RelPath.key (heq.trans hpath)
    subst hkey
    exact hmiss rfl ⟨u, hu, heq.symm⟩

theorem lookup_purgeUrl_of_reached (h : s.Reached c d key) :
    (purgeUrl d s key).disk.lookup (c.relPath d key) = none := by
  obtain ⟨u, hu, hpath⟩ := h
  rw [(purgeUrl_of_some hu key).2, hpath]
  exact AList.lookup_erase _ _

theorem reached_purgeUrl_ne {key' : HashedKey} (hne : key ≠ key') (h : s.Reached c d key) :
    (purgeUrl d s key').Reached c d key := by
  obtain ⟨u, hu, hpath⟩ := h
  refine ⟨u.recordRemove key' (((u.entries.lookup key').map (·.sizeBytes)).getD 0), ?_, ?_⟩
  · rw [(purgeUrl_of_some hu key').1, lookup_insert_eq, if_pos rfl]
  · rw [recordRemove, lookup_erase_eq, if_neg hne]
    exact hpath

theorem not_reached_purgeUrl (hplaced : s.Placed c) (h : ¬ s.Reached c d key) (key' : HashedKey) :
    ¬ (purgeUrl d s key').Reached c d key := by
  cases hu : s.usage.lookup d with
  | none =>
    rw [purgeUrl_of_none hu]
    exact h
  | some u =>
    rintro ⟨u', hu', hpath⟩
    rw [(purgeUrl_of_some hu key').1, lookup_insert_eq, if_pos rfl] at hu'
    rw [← Option.some.inj hu', recordRemove, lookup_erase_eq] at hpath
    split at hpath
    · apply h
      refine ⟨u, hu, ?_⟩
      rcases hplaced.entryPath_cases hu key with hplain | hright
      · exact hplain.trans hpath
      · exact hright
    · exact h ⟨u, hu, hpath⟩

variable {keys : List HashedKey}

theorem purgeUrls_missed (hplaced : s.Placed c) (h : ¬ s.Reached c d key) :
    (s.purgeUrls d keys).disk.lookup (c.relPath d key) = s.disk.lookup (c.relPath d key) := by
  induction keys generalizing s with
  | nil => rfl
  | cons key' _ ih =>
    have hrest := ih (placed_purgeUrl hplaced d key') (not_reached_purgeUrl hplaced h key')
    exact hrest.trans (lookup_purgeUrl hplaced fun _ => h)

theorem purgeUrls_reached (hmem : key ∈ keys) (h : s.Reached c d key) :
    (s.purgeUrls d keys).disk.lookup (c.relPath d key) = none := by
  induction keys generalizing s with
  | nil => cases hmem
  | cons key' keys ih =>
    by_cases hkey : key = key'
    · subst hkey
      have hnone := lookup_purgeUrl_of_reached h
      apply Option.eq_none_iff_forall_ne_some.mpr
      intro o ho
      have hold := fewer_foldl (g := Edge.disk) (fewer_purgeUrl d) keys _ _ _ ho
      rw [hnone] at hold
      cases hold
    · exact ih ((mem_cons.mp hmem).resolve_left hkey) (reached_purgeUrl_ne hkey h)

/-! ## Purged means gone -/

/-- No later lookup of these keys returns an object from before the time. -/
def GoneFor (c : FileCache) (owner : HashedKey → CacheDomain) (t : Nat) (K : HashedKey → Prop)
    (s : Edge) : Prop :=
  ∀ later : List Event, (∀ event ∈ later, event.keyed owner) → ∀ key, K key →
    ∀ overQuota now o, ((s.run c later).get c (owner key) key overQuota now).1 = some o → t ≤ o.born

theorem goneFor_iff {t : Nat} {K : HashedKey → Prop} (ht : t ≤ s.clock)
    (hold : ∀ key, K key → ∀ o, s.Holds c (owner key) key o → o.born < t) :
    GoneFor c owner t K s ↔ ∀ key, K key → ∀ o, ¬ s.Holds c (owner key) key o := by
  constructor
  · intro h key hkey o ho
    obtain ⟨o', hget, ho'⟩ := get_of_holds ho 0
    have hnew := h [] (fun _ hmem => (not_mem_nil hmem).elim) key hkey false 0 o' hget
    have := hold key hkey o' ho'
    omega
  · intro h later hkeyed key hkey overQuota now o hget
    have hsince : Since c owner t K s := ⟨ht, fun key hkey o ho => absurd ho (h key hkey o)⟩
    exact (hsince.run hkeyed).2 key hkey o (get_eq_some hget)

theorem holds_purgeDomain :
    (s.step c (.purgeDomain d)).Holds c d key o ↔ c.hot = true ∧ s.hot.lookup key = some o := by
  have hdisk : (s.step c (.purgeDomain d)).disk.lookup (c.relPath d key) = none := by
    change (s.disk.retain fun path _ => path.domain ≠ d).lookup (c.relPath d key) = none
    rw [lookup_retain]
    simp [FileCache.relPath]
  constructor
  · rintro (hhot | hfile)
    · exact hhot
    · rw [hdisk] at hfile
      cases hfile
  · exact .inl

theorem holds_purgeUrls (hplaced : s.Placed c) (hmem : key ∈ keys) :
    (s.step c (.purgeUrls d keys)).Holds c d key o ↔
      c.hot = true ∧ s.hot.lookup key = some o ∨
        s.disk.lookup (c.relPath d key) = some o ∧ ¬ s.Reached c d key := by
  have hhot : (s.step c (.purgeUrls d keys)).hot = s.hot := foldl_hot (purgeUrl_hot d) keys s
  unfold Holds
  rw [hhot]
  apply or_congr_right
  change (s.purgeUrls d keys).disk.lookup (c.relPath d key) = some o ↔ _
  by_cases hreached : s.Reached c d key
  · rw [purgeUrls_reached hmem hreached]
    simp [hreached]
  · rw [purgeUrls_missed hplaced hreached]
    simp [hreached]

/-- A purge of a domain keeps its word if the memory layer has no object of the domain, a purge of
keys if it has none of them and the ledger reaches each of their files, and a removal tells of no
object. -/
theorem purged_is_gone_iff (c : FileCache) (owner : HashedKey → CacheDomain)
    (history : List Event) (hkeyed : ∀ event ∈ history, event.keyed owner) :
    (∀ d, GoneFor c owner (fresh.run c history).clock (fun key => owner key = d)
        ((fresh.run c history).step c (.purgeDomain d)) ↔
      (c.hot = true → ∀ key, owner key = d → (fresh.run c history).hot.lookup key = none)) ∧
    (∀ d keys, (∀ key ∈ keys, owner key = d) →
      (GoneFor c owner (fresh.run c history).clock (fun key => key ∈ keys)
          ((fresh.run c history).step c (.purgeUrls d keys)) ↔
        ∀ key ∈ keys, (c.hot = true → (fresh.run c history).hot.lookup key = none) ∧
          ((fresh.run c history).disk.lookup (c.relPath d key) ≠ none →
            (fresh.run c history).Reached c d key))) ∧
    ∀ key, ((∃ o, (fresh.run c history).Holds c (owner key) key o) →
        ((fresh.run c history).remove c (owner key) key).1 = true) ↔
      ∀ o, ¬ (fresh.run c history).Holds c (owner key) key o := by
  have hpast := past_run hkeyed (past_fresh (c := c))
  have hplaced := placed_run history (placed_fresh (c := c))
  generalize fresh.run c history = s at hpast hplaced ⊢
  refine ⟨fun d => ?_, fun d keys howner => ?_, fun key => ?_⟩
  · rw [goneFor_iff (Nat.le_succ s.clock)]
    · constructor
      · intro h hon key hkey
        apply Option.eq_none_iff_forall_ne_some.mpr
        intro o ho
        subst hkey
        exact h key rfl o (holds_purgeDomain.mpr ⟨hon, ho⟩)
      · intro h key hkey o ho
        subst hkey
        obtain ⟨hon, hhot⟩ := holds_purgeDomain.mp ho
        rw [h hon key rfl] at hhot
        cases hhot
    · intro key hkey o ho
      subst hkey
      exact hpast key o (.inl (holds_purgeDomain.mp ho))
  · rw [goneFor_iff (Nat.le_succ s.clock)]
    · constructor
      · intro h key hmem
        have hnone := h key hmem
        rw [howner key hmem] at hnone
        refine ⟨fun hon => ?_, fun hfile => ?_⟩
        · apply Option.eq_none_iff_forall_ne_some.mpr
          intro o ho
          exact hnone o ((holds_purgeUrls hplaced hmem).mpr (.inl ⟨hon, ho⟩))
        · obtain ⟨o, ho⟩ := Option.ne_none_iff_exists'.mp hfile
          by_contra hreached
          exact hnone o ((holds_purgeUrls hplaced hmem).mpr (.inr ⟨ho, hreached⟩))
      · intro h key hmem o ho
        rw [howner key hmem] at ho
        rcases (holds_purgeUrls hplaced hmem).mp ho with ⟨hon, hhot⟩ | ⟨hfile, hmissed⟩
        · rw [(h key hmem).1 hon] at hhot
          cases hhot
        · apply hmissed
          apply (h key hmem).2
          rw [hfile]
          exact Option.some_ne_none o
    · intro key hmem o ho
      have hkey := howner key hmem
      apply hpast key o
      rw [hkey] at ho ⊢
      exact ((holds_purgeUrls hplaced hmem).mp ho).imp_right And.left
  · -- a removal reports nothing, whatever it has removed
    change ((∃ o, s.Holds c (owner key) key o) → false = true) ↔ _
    constructor
    · intro h o ho
      cases h ⟨o, ho⟩
    · rintro h ⟨o, ho⟩
      exact absurd ho (h o)

/-! ### One page -/

def site : CacheDomain := ⟨"shop", by decide⟩

def page : HashedKey := ⟨"a1b2", by decide⟩

def onDisk : FileCache := ⟨"/cache", false, 256, []⟩

def layered : FileCache := { onDisk with hot := true }

def leveled : FileCache := { onDisk with levels := [2] }

def stored : List Event := [.setQuota site 1, .put site page ⟨[], [], [1]⟩ false 0]

/-- Without a memory layer the page is gone for good. -/
theorem page_is_gone :
    GoneFor onDisk (fun _ => site) 2 (fun _ => site = site)
      ((fresh.run onDisk stored).step onDisk (.purgeDomain site)) := by
  have hkeyed : ∀ event ∈ stored, event.keyed fun _ => site := by
    simp [stored, Event.keyed]
  exact ((purged_is_gone_iff onDisk (fun _ => site) stored hkeyed).1 site).mpr
    fun hon => absurd hon (by decide)

/-- The page from before the purge comes out of memory, or out of the directory of its level, and a
removal that deletes it says that there was none. -/
theorem page_is_served_after_purge :
    ((((fresh.run layered stored).step layered (.purgeDomain site)).get layered site page
        false 0).1.map (·.born)) = some 1 ∧
      ((((fresh.run leveled stored).step leveled (.purgeUrls site [page])).get leveled site page
        false 0).1.map (·.born)) = some 1 ∧
      ((fresh.run onDisk stored).get onDisk site page false 0).1.isSome = true ∧
      (((fresh.run onDisk stored).remove onDisk site page).2.get onDisk site page
        false 0).1.isSome = false ∧
      ((fresh.run onDisk stored).remove onDisk site page).1 = false := by
  decide +kernel

end Edge

end PingWaf.Cache
