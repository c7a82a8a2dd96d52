import PingWaf.Agent.Proof.Alone
import PingWaf.Agent.Proof.Lasting

/-!
# Blocks that get lost

A task that has seen an expired entry removes whatever stands under its key by then, from the map and
from the index. `block_not_lost`: in a run whose removals all meet what is expired (`Careful`), a
lookup that starts after a block call has returned finds every address that the block is of, or
that its range covers, until the block ends.
-/

namespace PingWaf.Agent

open Text Net
open Waf (Crates)

/-! ## Turns that keep a block -/

/-- Under the key there is no block in force. -/
def Stale (key : String) (s : Shared) : Prop :=
  ∀ e, s.tables.blockedIps.lookup key = some e → e.isExpired s.now = true

/-- In the site's part of the index the key has no row in force. -/
def RowStale (siteId key : String) (s : Shared) : Prop :=
  ∀ row ∈ s.tables.index siteId, row.key = key → expiredAt s.now row.expiresAt = true

/-- No site of the key has a row in force for it. -/
def RowsStale (key : String) (s : Shared) : Prop :=
  ∀ siteId ∈ keySite key, RowStale siteId key s

/-- The turn takes nothing that is in force: a check that led to a removal, from the map or from the
index, is still right; the row that a lookup has picked has not run out before its block is read; a
block call ends no sooner than the entry and the row that it writes over; and the map has room. -/
def Careful (s : Shared) : Task → Prop
  | .lookup _ _ (.evict _ key) | .cleanup (.evict (key :: _)) => Stale key s
  | .lookup _ _ (.unindex _ key) | .cleanup (.unindex key _) => RowsStale key s
  | .lookup _ _ (.fetch row) => expiredAt s.now row.expiresAt = false
  | .block _ _ .room => s.tables.blockedIps.size < maxBlockedIpEntries
  | .block siteId entry .insert =>
    ∀ e, s.tables.blockedIps.lookup (blockKey siteId entry.ip) = some e →
      e.isExpired s.now = false → Outlasts entry.expiresAt e.expiresAt
  | .block siteId entry .index =>
    ∀ row ∈ s.tables.index siteId, row.key = blockKey siteId entry.ip →
      expiredAt s.now row.expiresAt = false → Outlasts entry.expiresAt row.expiresAt
  | _ => True

instance (key : String) (s : Shared) : Decidable (Stale key s) :=
  inferInstanceAs (Decidable (∀ e ∈ s.tables.blockedIps.lookup key, e.isExpired s.now = true))

instance (siteId key : String) (s : Shared) : Decidable (RowStale siteId key s) :=
  inferInstanceAs (Decidable (∀ row ∈ s.tables.index siteId, _))

instance (key : String) (s : Shared) : Decidable (RowsStale key s) :=
  inferInstanceAs (Decidable (∀ siteId ∈ keySite key, RowStale siteId key s))

instance (s : Shared) : DecidablePred (Careful s)
  | .lookup _ _ (.evict _ key) => inferInstanceAs (Decidable (Stale key s))
  | .cleanup (.evict (key :: _)) => inferInstanceAs (Decidable (Stale key s))
  | .lookup _ _ (.unindex _ key) => inferInstanceAs (Decidable (RowsStale key s))
  | .cleanup (.unindex key _) => inferInstanceAs (Decidable (RowsStale key s))
  | .lookup _ _ (.fetch _) => inferInstanceAs (Decidable (_ = false))
  | .block _ _ .room => inferInstanceAs (Decidable (_ < _))
  | .block siteId entry .insert => inferInstanceAs (Decidable
      (∀ e ∈ s.tables.blockedIps.lookup (blockKey siteId entry.ip), e.isExpired s.now = false →
        Outlasts entry.expiresAt e.expiresAt))
  | .block siteId entry .index => inferInstanceAs (Decidable
      (∀ row ∈ s.tables.index siteId, row.key = blockKey siteId entry.ip →
        expiredAt s.now row.expiresAt = false → Outlasts entry.expiresAt row.expiresAt))
  | .lookup _ _ (.probe _) | .lookup _ _ .index | .lookup _ _ (.scan _ _) | .lookup _ _ (.done _)
  | .cleanup (.collect _) | .cleanup (.evict []) | .cleanup .done
  | .block _ _ .returned => .isTrue trivial

/-- Until the given end the key holds a block that lasts at least as long. -/
def Held (key : String) (exp : Option Nat) (s : Shared) : Prop :=
  expiredAt s.now exp = false →
    ∃ e, s.tables.blockedIps.lookup key = some e ∧ Outlasts e.expiresAt exp

/-- Until the given end the index has a row for the range, where the text is one. -/
def Indexed (c : Crates) (siteId ip : String) (exp : Option Nat) (s : Shared) : Prop :=
  ∀ net, parseEntryNet c ip = some net → expiredAt s.now exp = false →
    ∃ row ∈ s.tables.index siteId, row.key = blockKey siteId ip ∧ row.net = net ∧
      Outlasts row.expiresAt exp

/-- The blocks of all rows are there until the rows end. -/
def RowsHeld (s : Shared) : Prop :=
  ∀ siteId, ∀ row ∈ s.tables.index siteId, Held row.key row.expiresAt s

variable {c : Crates} {key : String} {exp : Option Nat} {s : Shared} {visit : Option String}
  {task : Task}

@[simp] theorem now_step (task : Task) : (task.step c visit s).1.now = s.now := by
  cases task <;> rfl

/-- What a turn of a lookup does to the tables. -/
theorem tables_lookupStep (s : Shared) (siteId ip : String) (pc : LookupPc) :
    (lookupStep s siteId ip pc).1 =
      match pc with
      | .evict _ key => { s.tables with blockedIps := s.tables.blockedIps.erase key }
      | .unindex _ key => s.tables.indexRemoveKey key
      | _ => s.tables := by
  cases pc with
  | probe _ =>
    simp only [lookupStep]
    split
    · rfl
    · split
      · rfl
      · split <;> rfl
  | index =>
    simp only [lookupStep]
    split <;> rfl
  | scan _ entries =>
    cases entries with
    | nil => rfl
    | cons _ _ =>
      simp only [lookupStep]
      split <;> rfl
  | _ => rfl

theorem tables_cleanupStep (s : Shared) (visit : Option String) (pc : CleanupPc) :
    (cleanupStep s visit pc).1 =
      match pc with
      | .evict (key :: _) => { s.tables with blockedIps := s.tables.blockedIps.erase key }
      | .unindex key _ => s.tables.indexRemoveKey key
      | _ => s.tables := by
  cases pc with
  | collect _ =>
    simp only [cleanupStep]
    split
    · rfl
    · split <;> rfl
  | evict keys => cases keys <;> rfl
  | _ => rfl

/-- What a careful turn can do to the tables. -/
inductive Effect (c : Crates) (s : Shared) (task : Task) : BlockTables → Prop
  | same : Effect c s task s.tables
  | evicts (key : String) (h : Stale key s) :
      Effect c s task { s.tables with blockedIps := s.tables.blockedIps.erase key }
  | unindexes (key : String) (h : RowsStale key s) : Effect c s task (s.tables.indexRemoveKey key)
  | inserts (siteId : String) (entry : BlockedIpEntry) (h : task = .block siteId entry .insert) :
      Effect c s task { s.tables with
        blockedIps := s.tables.blockedIps.insert (blockKey siteId entry.ip) entry }
  | indexes (siteId : String) (entry : BlockedIpEntry) (h : task = .block siteId entry .index) :
      Effect c s task (s.tables.indexInsert c siteId (blockKey siteId entry.ip) entry)

theorem Careful.effect (c : Crates) (visit : Option String) (h : Careful s task) :
    Effect c s task (task.step c visit s).1.tables := by
  cases task with
  | lookup _ _ pc =>
    simp only [Task.step, tables_lookupStep]
    cases pc with
    | evict _ key => exact .evicts key h
    | unindex _ key => exact .unindexes key h
    | _ => exact .same
  | cleanup pc =>
    simp only [Task.step, tables_cleanupStep]
    cases pc with
    | evict keys =>
      cases keys with
      | nil => exact .same
      | cons key _ => exact .evicts key h
    | unindex key _ => exact .unindexes key h
    | _ => exact .same
  | block siteId entry pc =>
    cases pc with
    | room =>
      have hroom : ¬ maxBlockedIpEntries ≤ s.tables.blockedIps.size := Nat.not_le.mpr h
      simp only [Task.step, blockStep, if_neg hroom]
      exact .same
    | insert => exact .inserts siteId entry rfl
    | index => exact .indexes siteId entry rfl
    | returned => exact .same

theorem mem_index_unindexed {siteId : String} {row : CidrEntry} (h : RowsStale key s)
    (hrow : row ∈ s.tables.index siteId) (hforce : expiredAt s.now row.expiresAt = false) :
    row ∈ (s.tables.indexRemoveKey key).index siteId := by
  rw [index_indexRemoveKey]
  split
  · next hsite =>
    refine List.mem_filter.mpr ⟨hrow, decide_eq_true fun hkey => ?_⟩
    rw [h siteId hsite row hrow hkey] at hforce
    cases hforce
  · exact hrow

theorem mem_of_mem_unindexed {siteId : String} {row : CidrEntry} {t : BlockTables}
    (h : row ∈ (t.indexRemoveKey key).index siteId) : row ∈ t.index siteId := by
  rw [index_indexRemoveKey] at h
  split at h
  · exact List.mem_of_mem_filter h
  · exact h

/-! ## A block that is held -/

theorem Outlasts.trans {a b d : Option Nat} (h : Outlasts a b) (h' : Outlasts b d) :
    Outlasts a d :=
  outlasts_of_forall fun _ hd => h.expiredAt (h'.expiredAt hd)

theorem Outlasts.refl (a : Option Nat) : Outlasts a a := outlasts_of_forall fun _ h => h

theorem Held.entry (h : Held key exp s) (hexp : expiredAt s.now exp = false) :
    ∃ e, s.tables.blockedIps.lookup key = some e ∧ e.isExpired s.now = false ∧
      Outlasts e.expiresAt exp := by
  obtain ⟨e, hlook, hlasts⟩ := h hexp
  exact ⟨e, hlook, hlasts.expiredAt hexp, hlasts⟩

theorem Held.step (c : Crates) (visit : Option String) (h : Held key exp s)
    (hcareful : Careful s task) :
    Held key exp (task.step c visit s).1 := by
  intro hexp
  rw [now_step] at hexp
  obtain ⟨e, hlook, hforce, hlasts⟩ := h.entry hexp
  have heffect := hcareful.effect c visit
  generalize (task.step c visit s).1.tables = t at heffect ⊢
  cases heffect with
  | same => exact ⟨e, hlook, hlasts⟩
  | evicts k hstale =>
    have hne : key ≠ k := by
      rintro rfl
      rw [hstale e hlook] at hforce
      cases hforce
    exact ⟨e, (AList.lookup_erase_ne hne).trans hlook, hlasts⟩
  | unindexes _ _ => exact ⟨e, by rw [blockedIps_indexRemoveKey, hlook], hlasts⟩
  | inserts siteId entry htask =>
    subst htask
    by_cases hkey : blockKey siteId entry.ip = key
    · subst hkey
      exact ⟨entry, AList.lookup_insert _, (hcareful e hlook hforce).trans hlasts⟩
    · exact ⟨e, (AList.lookup_insert_ne (Ne.symm hkey)).trans hlook, hlasts⟩
  | indexes _ _ _ =>
    refine ⟨e, ?_, hlasts⟩
    unfold BlockTables.indexInsert
    split <;> exact hlook

variable {siteId ip : String}

/-- A row in force stays, or a block call writes one of the same range over it that lasts longer. -/
theorem Indexed.step (visit : Option String) (h : Indexed c siteId ip exp s)
    (hcareful : Careful s task) : Indexed c siteId ip exp (task.step c visit s).1 := by
  intro net hnet hexp
  rw [now_step] at hexp
  obtain ⟨row, hrow, hkey, hrownet, hlasts⟩ := h net hnet hexp
  have hforce := hlasts.expiredAt hexp
  have heffect := hcareful.effect c visit
  generalize (task.step c visit s).1.tables = t at heffect ⊢
  cases heffect with
  | unindexes _ hstale =>
    exact ⟨row, mem_index_unindexed hstale hrow hforce, hkey, hrownet, hlasts⟩
  | indexes site entry htask =>
    subst htask
    rw [index_indexInsert]
    split
    · exact ⟨row, hrow, hkey, hrownet, hlasts⟩
    · next net' hnet' =>
      split
      · next hsite =>
        subst hsite
        by_cases hsame : row.key = blockKey siteId entry.ip
        · have hip : entry.ip = ip := by
            have := hsame.symm.trans hkey
            simpa [blockKey] using this
          subst hip
          obtain rfl : net' = net := Option.some.inj (hnet'.symm.trans hnet)
          exact ⟨_, Table.mem_upsertBy_self _ _ _, rfl, rfl,
            (hcareful row hrow hsame hforce).trans hlasts⟩
        · exact ⟨row, Table.mem_upsertBy_of_ne hrow hsame, hkey, hrownet, hlasts⟩
      · exact ⟨row, hrow, hkey, hrownet, hlasts⟩
  | _ => exact ⟨row, hrow, hkey, hrownet, hlasts⟩

/-! ## What the tasks rely on -/

/-- A block call that has inserted its entry has it held, and one that has returned also indexed; the
rows that a lookup works through have their blocks. -/
def Relied (c : Crates) (s : Shared) : Task → Prop
  | .block siteId entry .index => Held (blockKey siteId entry.ip) entry.expiresAt s
  | .block siteId entry .returned => Held (blockKey siteId entry.ip) entry.expiresAt s ∧
      Indexed c siteId entry.ip entry.expiresAt s
  | .lookup _ _ (.scan _ rows) => ∀ row ∈ rows, Held row.key row.expiresAt s
  | .lookup _ _ (.fetch row) => Held row.key row.expiresAt s
  | _ => True

/-- What is held and indexed stays so. -/
structure Keeps (c : Crates) (s s' : Shared) : Prop where
  held : ∀ key exp, Held key exp s → Held key exp s'
  indexed : ∀ siteId ip exp, Indexed c siteId ip exp s → Indexed c siteId ip exp s'

theorem keeps_tick (c : Crates) (s : Shared) (d : Nat) : Keeps c s { s with now := s.now + d } where
  held _ _ h hexp := h (expiredAt_mono hexp (Nat.le_add_right _ _))
  indexed _ _ _ h net hnet hexp := h net hnet (expiredAt_mono hexp (Nat.le_add_right _ _))

theorem Careful.keeps (visit : Option String) (h : Careful s task) :
    Keeps c s (task.step c visit s).1 where
  held _ _ hheld := hheld.step c visit h
  indexed _ _ _ hindexed := hindexed.step visit h

theorem Relied.of_keeps {s' : Shared} (h : Relied c s task) (hkeeps : Keeps c s s') :
    Relied c s' task := by
  cases task with
  | lookup _ _ pc =>
    cases pc with
    | scan _ _ => exact fun row hrow => hkeeps.held _ _ (h row hrow)
    | fetch _ => exact hkeeps.held _ _ h
    | _ => trivial
  | cleanup _ => trivial
  | block _ _ pc =>
    cases pc with
    | index => exact hkeeps.held _ _ h
    | returned => exact ⟨hkeeps.held _ _ h.1, hkeeps.indexed _ _ _ h.2⟩
    | _ => trivial

theorem RowsHeld.step (visit : Option String) (h : RowsHeld s) (hcareful : Careful s task)
    (hrelied : Relied c s task) : RowsHeld (task.step c visit s).1 := by
  intro site row hrow
  have hstays (hrow : row ∈ s.tables.index site) :=
    (h site row hrow).step c visit hcareful
  have heffect := hcareful.effect c visit
  generalize (task.step c visit s).1.tables = t at heffect hrow
  cases heffect with
  | unindexes _ _ => exact hstays (mem_of_mem_unindexed hrow)
  | indexes _ entry htask =>
    subst htask
    rw [index_indexInsert] at hrow
    split at hrow
    · exact hstays hrow
    · split at hrow
      · next hsite =>
        subst hsite
        obtain rfl | hrow := Table.mem_or_of_mem_upsertBy hrow
        · exact Held.step c visit hrelied hcareful
        · exact hstays hrow
      · exact hstays hrow
  | _ => exact hstays hrow

theorem relied_lookupStep {pc : LookupPc} (hrows : RowsHeld s)
    (h : Relied c s (.lookup siteId ip pc)) :
    Relied c s (.lookup siteId ip (lookupStep s siteId ip pc).2) := by
  cases pc with
  | probe p =>
    simp only [lookupStep]
    split
    · cases p <;> trivial
    · split
      · cases p <;> trivial
      · split <;> trivial
  | evict _ _ => trivial
  | unindex p _ => cases p <;> trivial
  | index =>
    simp only [lookupStep]
    split
    · trivial
    · exact hrows siteId
  | scan _ rows =>
    cases rows with
    | nil => trivial
    | cons row rows =>
      simp only [lookupStep]
      split
      · exact h row List.mem_cons_self
      · exact fun r hr => h r (List.mem_cons_of_mem _ hr)
  | fetch _ | done _ => trivial

theorem Relied.step (visit : Option String) (h : Relied c s task) (hrows : RowsHeld s)
    (hcareful : Careful s task) : Relied c (task.step c visit s).1 (task.step c visit s).2 := by
  have hkeeps : Keeps c s (task.step c visit s).1 := hcareful.keeps visit
  cases task with
  | lookup _ _ pc => exact (relied_lookupStep hrows h).of_keeps hkeeps
  | cleanup _ => trivial
  | block siteId entry pc =>
    cases pc with
    | room =>
      have hpc : (blockStep c s siteId entry .room).2 = .insert := by
        simp only [blockStep]
        split <;> rfl
      simp only [Task.step, hpc]
      trivial
    | insert => exact fun _ => ⟨entry, AList.lookup_insert _, .refl _⟩
    | index =>
      refine ⟨hkeeps.held _ _ h, fun net hnet _ => ⟨⟨blockKey siteId entry.ip, net,
        entry.expiresAt⟩, ?_, rfl, rfl, .refl _⟩⟩
      simp only [Task.step, blockStep, index_indexInsert, hnet, if_true]
      exact Table.mem_upsertBy_self _ _ _
    | returned => exact h.of_keeps hkeeps

/-! ## A lookup that starts later -/

/-- Where a lookup can be while the key of one of its probes is held. -/
def OnTrack (p : Probe) : LookupPc → Prop
  | .probe .exact => True
  | .probe .normalized => p = .normalized
  | .evict .exact _ => p = .normalized
  | .unindex .exact _ => p = .normalized
  | .done found => found.isSome = true
  | _ => False

/-- Where a lookup can be while the index has a row for a range that covers its address. -/
def InRange (addr : IpAddr) (net : IpNet) (exp : Option Nat) : LookupPc → Prop
  | .scan a rows => a = addr ∧ ∃ row ∈ rows, row.net = net ∧ Outlasts row.expiresAt exp
  | .done found => found.isSome = true
  | _ => True

variable {p : Probe} {pc : LookupPc}

theorem Held.found (h : Held key exp s) (hexp : expiredAt s.now exp = false)
    (hkey : p.key siteId ip = some key) :
    ∃ e, lookupStep s siteId ip (.probe p) = (s.tables, .done (some e)) := by
  obtain ⟨e, hlook, hforce, -⟩ := h.entry hexp
  refine ⟨e, ?_⟩
  rw [lookupStep_present hkey hlook, hforce]
  rfl

theorem OnTrack.step (h : OnTrack p pc) (hheld : Held key exp s)
    (hexp : expiredAt s.now exp = false) (hkey : p.key siteId ip = some key) :
    OnTrack p (lookupStep s siteId ip pc).2 := by
  cases pc with
  | probe q =>
    by_cases hq : q = p
    · obtain ⟨e, hstep⟩ := hheld.found hexp (hq ▸ hkey)
      rw [hstep]
      exact rfl
    · -- the other spelling comes first, and whatever it meets the lookup goes on to this one
      obtain ⟨rfl, rfl⟩ : q = .exact ∧ p = .normalized := by
        cases q with
        | exact => cases p <;> simp_all
        | normalized => exact absurd h.symm hq
      simp only [lookupStep, Probe.key]
      split
      · exact rfl
      · split <;> exact rfl
  | evict q _ | unindex q _ =>
    cases q with
    | exact => exact h
    | normalized => exact absurd h id
  | index | scan _ _ | fetch _ => exact absurd h id
  | done _ => exact h

theorem InRange.step {addr : IpAddr} {net : IpNet} (h : InRange (normalizeMapped addr) net exp pc)
    (hcareful : Careful s (.lookup siteId ip pc)) (hrelied : Relied c s (.lookup siteId ip pc))
    (hrow : ∃ row ∈ s.tables.index siteId, row.net = net ∧ Outlasts row.expiresAt exp)
    (hexp : expiredAt s.now exp = false) (hip : IpAddr.fromStr ip = some addr)
    (hcovers : net.contains (normalizeMapped addr) = true) :
    InRange (normalizeMapped addr) net exp (lookupStep s siteId ip pc).2 := by
  cases pc with
  | probe p =>
    simp only [lookupStep]
    split
    · cases p <;> trivial
    · split
      · cases p <;> trivial
      · split
        · trivial
        · exact rfl
  | evict _ _ => trivial
  | unindex p _ => cases p <;> trivial
  | index =>
    simp only [lookupStep, hip]
    exact ⟨rfl, hrow⟩
  | scan a rows =>
    obtain ⟨rfl, row, hmem, hnet, hlasts⟩ := h
    cases rows with
    | nil => cases hmem
    | cons first rows =>
      simp only [lookupStep]
      split
      · trivial
      · next hpassed =>
        refine ⟨rfl, row, (List.mem_cons.mp hmem).resolve_left ?_, hnet, hlasts⟩
        -- the row itself is not passed over
        rintro rfl
        rw [hlasts.expiredAt hexp, hnet, hcovers] at hpassed
        exact hpassed rfl
  | fetch row =>
    obtain ⟨e, hlook, -⟩ := hrelied hcareful
    simp only [lookupStep, hlook]
    exact rfl
  | done _ => exact h

/-- A lookup of the text that has started as one of the tasks from the given number on is where it
can be while the block is in force. -/
def LaterFinds (n : Nat) (siteId asked : String) (exp : Option Nat) (T : LookupPc → Prop) (i : Nat)
    (s : Shared) (task : Task) : Prop :=
  n ≤ i → ∀ pc, task = .lookup siteId asked pc → expiredAt s.now exp = false → T pc

/-- What holds from the return of a block call on. -/
structure Blocking (c : Crates) (siteId ip : String) (exp : Option Nat) (s : Shared) : Prop where
  rows : RowsHeld s
  held : Held (blockKey siteId ip) exp s
  indexed : Indexed c siteId ip exp s

/-- Where the lookups of a text are while the block is in force: a place that they start from, do
not leave, and end at with a block. -/
structure Tracks (c : Crates) (siteId ip asked : String) (exp : Option Nat) (T : LookupPc → Prop) :
    Prop where
  start : T (.probe .exact)
  finds : ∀ found, T (.done found) → found.isSome = true
  step : ∀ s pc, Blocking c siteId ip exp s → Careful s (.lookup siteId asked pc) →
    Relied c s (.lookup siteId asked pc) → expiredAt s.now exp = false → T pc →
    T (lookupStep s siteId asked pc).2

theorem relied_rule (c : Crates) :
    Pool.Rule (blockTasks c) (fun _ => Careful) RowsHeld (fun _ => Relied c) where
  env d s h site row hrow := (keeps_tick c s d).held _ _ (h site row hrow)
  env_task d s i t _ h := h.of_keeps (keeps_tick c s d)
  start call s i _ := by cases call <;> trivial
  step visit s i t hcareful h hrelied := h.step visit hcareful hrelied
  step_task visit s i t hcareful h hrelied := hrelied.step visit h hcareful
  others visit s t j u hcareful _ h := h.of_keeps (hcareful.keeps visit)

theorem later_rule {asked : String} {T : LookupPc → Prop}
    (htracks : Tracks c siteId ip asked exp T) (n : Nat) :
    Pool.Rule (blockTasks c) (fun _ => Careful) (Blocking c siteId ip exp)
      (fun i s t => Relied c s t ∧ LaterFinds n siteId asked exp T i s t) where
  env d s h := ⟨(relied_rule c).env d s h.rows, (keeps_tick c s d).held _ _ h.held,
    (keeps_tick c s d).indexed _ _ _ h.indexed⟩
  env_task d s i t h hJ := ⟨hJ.1.of_keeps (keeps_tick c s d), fun hn pc ht hexp =>
    hJ.2 hn pc ht (expiredAt_mono hexp (Nat.le_add_right _ _))⟩
  start call s i h := by
    refine ⟨(relied_rule c).start call s i h.rows, fun _ pc ht _ => ?_⟩
    cases call with
    | lookup _ _ =>
      cases ht
      exact htracks.start
    | cleanup | block _ _ _ _ => cases ht
  step visit s i t hcareful h hJ :=
    have hkeeps := hcareful.keeps visit
    ⟨h.rows.step visit hcareful hJ.1, hkeeps.held _ _ h.held, hkeeps.indexed _ _ _ h.indexed⟩
  step_task visit s i t hcareful h hJ := by
    refine ⟨hJ.1.step visit h.rows hcareful, fun hn pc ht hexp => ?_⟩
    have hnow : ((blockTasks c).step visit s t).1.now = s.now := now_step t
    rw [hnow] at hexp
    cases t with
    | lookup _ _ pc =>
      cases ht
      exact htracks.step s pc h hcareful hJ.1 hexp (hJ.2 hn pc rfl hexp)
    | cleanup _ | block _ _ _ => cases ht
  others visit s t j u hcareful h hJ := by
    refine ⟨hJ.1.of_keeps (hcareful.keeps visit), fun hn pc hu hexp => ?_⟩
    have hnow : ((blockTasks c).step visit s t).1.now = s.now := now_step t
    rw [hnow] at hexp
    exact hJ.2 hn pc hu hexp

/-! ## Runs -/

/-- The block's text is the asked one or its normal form, or it is a range that covers the asked
address. -/
def Covers (c : Crates) (ip asked : String) : Prop :=
  asked = ip ∨ normalizedIp asked = some ip ∨
    ∃ addr net, IpAddr.fromStr asked = some addr ∧ parseEntryNet c ip = some net ∧
      net.contains (normalizeMapped addr) = true

theorem tracks_probe {asked : String} (hkey : p.key siteId asked = some (blockKey siteId ip)) :
    Tracks c siteId ip asked exp (OnTrack p) where
  start := trivial
  finds _ h := h
  step _ _ hblocking _ _ hexp h := h.step hblocking.held hexp hkey

theorem tracks_range {asked : String} {addr : IpAddr} {net : IpNet}
    (hasked : IpAddr.fromStr asked = some addr) (hnet : parseEntryNet c ip = some net)
    (hcovers : net.contains (normalizeMapped addr) = true) :
    Tracks c siteId ip asked exp (InRange (normalizeMapped addr) net exp) where
  start := trivial
  finds _ h := h
  step _ _ hblocking hcareful hrelied hexp h := by
    obtain ⟨row, hrow, -, hrownet, hlasts⟩ := hblocking.indexed net hnet hexp
    exact h.step hcareful hrelied ⟨row, hrow, hrownet, hlasts⟩ hexp hasked hcovers

theorem Covers.tracks {asked : String} (h : Covers c ip asked) (siteId : String)
    (exp : Option Nat) : ∃ T, Tracks c siteId ip asked exp T := by
  obtain rfl | hnormal | ⟨addr, net, hasked, hnet, hcovers⟩ := h
  · exact ⟨_, tracks_probe (p := .exact) rfl⟩
  · exact ⟨_, tracks_probe (p := .normalized) (by rw [Probe.key, hnormal]; rfl)⟩
  · exact ⟨_, tracks_range hasked hnet hcovers⟩

theorem InStep.rowsHeld {now : Nat} {t : BlockTables} (h : InStep c t) : RowsHeld ⟨now, t⟩ := by
  intro site row hrow _
  obtain ⟨e, hlook, -, -, hexp⟩ := (h.indexed site row).mp hrow
  exact ⟨e, hlook, hexp ▸ .refl _⟩

/-- In a run whose turns are all careful, no lookup that starts after a block call has returned
misses the block while it is in force. -/
theorem block_not_lost (c : Crates) (s₀ : Shared) (hstart : InStep c s₀.tables)
    (before after : List (Pool.Act Nat Call (Option String))) (i j : Nat) (site asked : String)
    (entry : BlockedIpEntry) (found : Option BlockedIpEntry)
    (hcareful : Pool.Turns (blockTasks c) (fun _ => Careful) ⟨s₀, []⟩ (before ++ after))
    (hreturned : (Pool.run (blockTasks c) ⟨s₀, []⟩ before).tasks[i]? =
      some (.block site entry .returned))
    (hlater : (Pool.run (blockTasks c) ⟨s₀, []⟩ before).tasks.length ≤ j)
    (hlookup : (Pool.run (blockTasks c) ⟨s₀, []⟩ (before ++ after)).tasks[j]? =
      some (.lookup site asked (.done found)))
    (hasked : Covers c entry.ip asked)
    (hforce : entry.isExpired (Pool.run (blockTasks c) ⟨s₀, []⟩ (before ++ after)).shared.now =
      false) :
    found.isSome = true := by
  obtain ⟨hbefore, hafter⟩ := hcareful.of_append
  have hrelied := (relied_rule c).run hbefore ⟨hstart.rowsHeld, fun i t ht => by simp at ht⟩
  obtain ⟨hheld, hindexed⟩ := hrelied.task i _ hreturned
  obtain ⟨T, htracks⟩ := hasked.tracks site entry.expiresAt
  -- no task has a number from here on yet
  have hnone : ∀ k t, (Pool.run (blockTasks c) ⟨s₀, []⟩ before).tasks[k]? = some t →
      LaterFinds (Pool.run (blockTasks c) ⟨s₀, []⟩ before).tasks.length site asked
        entry.expiresAt T k (Pool.run (blockTasks c) ⟨s₀, []⟩ before).shared t := by
    intro k t ht hk
    exact absurd (List.getElem?_eq_some_iff.mp ht).1 (Nat.not_lt.mpr hk)
  have hend := (later_rule htracks _).run hafter ⟨⟨hrelied.shared, hheld, hindexed⟩,
    fun k t ht => ⟨hrelied.task k t ht, hnone k t ht⟩⟩
  rw [← Pool.run_append] at hend
  exact htracks.finds found ((hend.task j _ hlookup).2 hlater _ rfl hforce)

/-! ## A range -/

/-- The crate that reads ranges, on the one that is blocked. -/
def oneRange : Crates :=
  { Crates.inert with
    ipNetFromStr := fun text => if text = "10.0.0.0/24" then some (.v4 167772160 24) else none }

/-- A range is blocked for a second; a cleanup then sweeps it, and it is blocked for a minute. -/
def rangeBlocked : List (Pool.Act Nat Call (Option String)) :=
  [.spawn (.block "s" "10.0.0.0/24" (some (10 ^ 9)) "operator"),
    .turn 0 none, .turn 0 none, .turn 0 none, .env (2 * 10 ^ 9),
    .spawn .cleanup, .turn 1 (some "s:10.0.0.0/24"), .turn 1 none, .turn 1 none, .turn 1 none,
    .spawn (.block "s" "10.0.0.0/24" (some (60 * 10 ^ 9)) "operator"),
    .turn 2 none, .turn 2 none, .turn 2 none]

/-- A request from the range, two seconds later. -/
def rangeAsked : List (Pool.Act Nat Call (Option String)) :=
  [.env (2 * 10 ^ 9), .spawn (.lookup "s" "10.0.0.5"), .turn 3 none, .turn 3 none, .turn 3 none,
    .turn 3 none, .turn 3 none]

def rangeEntry : BlockedIpEntry :=
  blockedEntry (2 * 10 ^ 9) "s" "10.0.0.0/24" (some (60 * 10 ^ 9)) "operator"

theorem oneRange_covers : Covers oneRange "10.0.0.0/24" "10.0.0.5" :=
  .inr (.inr ⟨.v4 167772165, .v4 167772160 24, by decide +kernel, rfl, by decide +kernel⟩)

theorem range_stays_blocked :
    (Pool.run (blockTasks oneRange) ⟨⟨0, .empty⟩, []⟩ (rangeBlocked ++ rangeAsked)).tasks[3]? =
        some (.lookup "s" "10.0.0.5" (.done (some rangeEntry))) ∧
      (some rangeEntry).isSome = true := by
  have hfound : (Pool.run (blockTasks oneRange) ⟨⟨0, .empty⟩, []⟩
      (rangeBlocked ++ rangeAsked)).tasks[3]? =
        some (.lookup "s" "10.0.0.5" (.done (some rangeEntry))) := by decide +kernel
  exact ⟨hfound, block_not_lost oneRange ⟨0, .empty⟩ (inStep_empty oneRange) rangeBlocked rangeAsked
    2 3 "s" "10.0.0.5" rangeEntry (some rangeEntry) (by decide +kernel) (by decide +kernel)
    (by decide +kernel) hfound oneRange_covers (by decide +kernel)⟩

/-! ## An address blocked again -/

/-- A client is blocked for ten seconds and comes back after them; while its request looks at the
expired entry, it is blocked again, for ten minutes. -/
def reblocked : List (Pool.Act Nat Call (Option String)) :=
  [.spawn (.block "s" "203.0.113.5" (some (10 * 10 ^ 9)) "rate limit: login"),
    .turn 0 none, .turn 0 none, .turn 0 none, .env (11 * 10 ^ 9),
    .spawn (.lookup "s" "203.0.113.5"), .turn 1 none,
    .spawn (.block "s" "203.0.113.5" (some (600 * 10 ^ 9)) "waf: r"),
    .turn 2 none, .turn 2 none, .turn 2 none]

def secondBlock : BlockedIpEntry :=
  blockedEntry (11 * 10 ^ 9) "s" "203.0.113.5" (some (600 * 10 ^ 9)) "waf: r"

/-- A lookup from its start to its end, where it meets no entry. -/
def lookupTurns (i : Nat) : List (Pool.Act Nat Call (Option String)) :=
  [.spawn (.lookup "s" "203.0.113.5"), .turn i none, .turn i none, .turn i none, .turn i none]

/-- The first request then removes the second block, and the next request is let in. -/
theorem reblocked_address_lost :
    (Pool.run (blockTasks .inert) ⟨⟨0, .empty⟩, []⟩ reblocked).tasks[2]? =
        some (.block "s" secondBlock .returned) ∧
      (Pool.run (blockTasks .inert) ⟨⟨0, .empty⟩, []⟩ reblocked).tasks.length = 3 ∧
      (Pool.run (blockTasks .inert) ⟨⟨0, .empty⟩, []⟩
        (reblocked ++ .turn 1 none :: lookupTurns 3)).tasks[3]? =
          some (.lookup "s" "203.0.113.5" (.done none)) ∧
      secondBlock.isExpired (Pool.run (blockTasks .inert) ⟨⟨0, .empty⟩, []⟩
        (reblocked ++ .turn 1 none :: lookupTurns 3)).shared.now = false := by
  decide +kernel

end PingWaf.Agent
