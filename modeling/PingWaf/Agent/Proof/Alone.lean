import PingWaf.Agent.Interleave
import PingWaf.Agent.Proof.Evict

/-!
# Tasks without company

A task that runs without the others does what its function in `Agent.Blocks` does (`lookup_alone`,
`cleanup_alone`, `block_alone`).
-/

namespace PingWaf.Agent

open Text Net
open Waf (Crates)

variable {c : Crates} {now : Nat} {t : BlockTables} {siteId ip : String}

/-- The turns of a task that nothing comes between. -/
def Alone (c : Crates) : Shared × Task → Shared × Task → Prop :=
  Relation.ReflTransGen fun x y => ∃ visit, y = x.2.step c visit x.1

/-- The same, with what the iterations of the task visit. -/
def turnsAlone (c : Crates) (x : Shared × Task) (visits : List (Option String)) : Shared × Task :=
  visits.foldl (fun x visit => x.2.step c visit x.1) x

/-! ## Lookup -/

theorem Alone.step {x y : Shared × Task} (visit : Option String)
    (h : Alone c (x.2.step c visit x.1) y) : Alone c x y :=
  .head ⟨visit, rfl⟩ h

theorem lookup_evicts (p : Probe) (key : String) {y : Shared × Task}
    (h : Alone c (⟨now, t.removeKey key⟩, .lookup siteId ip p.next) y) :
    Alone c (⟨now, t⟩, .lookup siteId ip (.evict p key)) y :=
  .step none (.step none h)

theorem lookupStep_absent {s : Shared} {p : Probe}
    (h : ∀ key, p.key siteId ip = some key → s.tables.blockedIps.lookup key = none) :
    lookupStep s siteId ip (.probe p) = (s.tables, p.next) := by
  cases hkey : p.key siteId ip with
  | none => simp only [lookupStep, hkey]
  | some key => simp only [lookupStep, hkey, h key hkey]

theorem lookupStep_present {s : Shared} {p : Probe} {key : String} {e : BlockedIpEntry}
    (hkey : p.key siteId ip = some key) (hlook : s.tables.blockedIps.lookup key = some e) :
    lookupStep s siteId ip (.probe p) =
      (s.tables, if e.isExpired s.now then .evict p key else .done (some e)) := by
  unfold lookupStep
  simp only [hkey, hlook]
  split <;> rfl

theorem lookup_probes (p : Probe) {key : String} (hkey : p.key siteId ip = some key) :
    Alone c (⟨now, t⟩, .lookup siteId ip (.probe p))
      (⟨now, (t.probe now key).2⟩, .lookup siteId ip
        (match (t.probe now key).1 with
        | some e => .done (some e)
        | none => p.next)) := by
  apply Alone.step none
  unfold BlockTables.probe
  cases hlook : t.blockedIps.lookup key with
  | none =>
    have hstep : lookupStep ⟨now, t⟩ siteId ip (.probe p) = _ :=
      lookupStep_absent fun k hk => Option.some.inj (hkey.symm.trans hk) ▸ hlook
    simp only [Task.step, hstep]
    exact .refl
  | some e =>
    have hstep : lookupStep ⟨now, t⟩ siteId ip (.probe p) = _ := lookupStep_present hkey hlook
    simp only [Task.step, hstep]
    cases e.isExpired now with
    | true => exact lookup_evicts p key .refl
    | false => exact .refl

theorem lookup_scans (addr : IpAddr) (entries : List CidrEntry) :
    Alone c (⟨now, t⟩, .lookup siteId ip (.scan addr entries))
      (⟨now, t⟩, .lookup siteId ip (.done
        ((entries.find? fun e => !expiredAt now e.expiresAt && e.net.contains addr).bind fun e =>
          t.blockedIps.lookup e.key))) := by
  induction entries with
  | nil => exact .step none .refl
  | cons e _ ih =>
    apply Alone.step none
    simp only [Task.step, lookupStep, List.find?_cons]
    cases !expiredAt now e.expiresAt && e.net.contains addr with
    | true => exact .step none .refl
    | false => exact ih

theorem lookup_ranges :
    Alone c (⟨now, t⟩, .lookup siteId ip .index)
      (⟨now, t⟩, .lookup siteId ip (.done ((IpAddr.fromStr ip).bind fun addr =>
        t.coveringEntry now siteId (normalizeMapped addr)))) := by
  apply Alone.step none
  simp only [Task.step, lookupStep]
  cases IpAddr.fromStr ip with
  | none => exact .refl
  | some _ => exact lookup_scans _ _

theorem lookup_probesNormalized :
    Alone c (⟨now, t⟩, .lookup siteId ip (.probe .normalized))
      (⟨now, (t.probeNormalized now siteId ip).2⟩, .lookup siteId ip
        (match (t.probeNormalized now siteId ip).1 with
        | some e => .done (some e)
        | none => .index)) := by
  unfold BlockTables.probeNormalized
  cases hnormal : normalizedIp ip with
  | none =>
    have hstep : lookupStep ⟨now, t⟩ siteId ip (.probe .normalized) = (t, .index) :=
      lookupStep_absent fun key hkey => by simp [Probe.key, hnormal] at hkey
    apply Alone.step none
    simp only [Task.step, hstep]
    exact .refl
  | some normalized =>
    have hkey : Probe.normalized.key siteId ip = some (blockKey siteId normalized) := by
      simp [Probe.key, hnormal]
    exact lookup_probes .normalized hkey

/-- A lookup that runs on its own answers, and leaves the tables, as `blockedLookup` says. -/
theorem lookup_alone (c : Crates) (now : Nat) (t : BlockTables) (siteId ip : String) :
    Alone c (⟨now, t⟩, (Call.lookup siteId ip).task ⟨now, t⟩)
      (⟨now, (t.blockedLookup now siteId ip).2⟩,
        .lookup siteId ip (.done (t.blockedLookup now siteId ip).1)) := by
  have hexact := @lookup_probes c now t siteId ip .exact _ rfl
  refine hexact.trans ?_
  unfold BlockTables.blockedLookup
  cases t.probe now (blockKey siteId ip) with
  | mk first t1 =>
    cases first with
    | some _ => exact .refl
    | none =>
      have hnormal := @lookup_probesNormalized c now t1 siteId ip
      refine Relation.ReflTransGen.trans hnormal ?_
      dsimp only
      cases t1.probeNormalized now siteId ip with
      | mk second _ =>
        cases second with
        | some _ => exact .refl
        | none => exact lookup_ranges

/-! ## Cleanup -/

theorem index_removeKeys (t : BlockTables) (keys : List String) (site : String) :
    (t.removeKeys keys).index site =
      (t.index site).filter fun e => ¬ (e.key ∈ keys ∧ keySite e.key = some site) := by
  induction keys generalizing t with
  | nil => simp [BlockTables.removeKeys]
  | cons key keys ih =>
    have hrest : (t.removeKeys (key :: keys)).index site =
        ((t.removeKey key).removeKeys keys).index site := rfl
    rw [hrest, ih, BlockTables.removeKey, index_indexRemoveKey]
    split
    · next hsite =>
      rw [List.filter_filter]
      refine List.filter_congr fun e _ => ?_
      by_cases hkey : e.key = key
      · simp [hkey, hsite]
      · simp [hkey]
    · next hsite =>
      refine List.filter_congr fun e _ => ?_
      by_cases hkey : e.key = key
      · simp [hkey, hsite]
      · simp [hkey]

/-- In which order keys are removed makes no difference. -/
theorem removeKeys_same {keys keys' : List String} (h : ∀ key, key ∈ keys ↔ key ∈ keys') :
    (t.removeKeys keys).blockedIps = (t.removeKeys keys').blockedIps ∧
      ∀ site, (t.removeKeys keys).index site = (t.removeKeys keys').index site := by
  constructor
  · apply AList.ext
    rw [entries_removeKeys, entries_removeKeys]
    exact List.filter_congr fun e _ => decide_eq_decide.mpr (not_congr (h e.1))
  · intro site
    rw [index_removeKeys, index_removeKeys]
    exact List.filter_congr fun e _ =>
      decide_eq_decide.mpr (not_congr (and_congr_left fun _ => h e.key))

theorem cleanup_removes (keys : List String) (t : BlockTables) :
    turnsAlone c (⟨now, t⟩, .cleanup (.evict keys)) (List.replicate (2 * keys.length + 1) none) =
      (⟨now, t.removeKeys keys⟩, .cleanup .done) := by
  induction keys generalizing t with
  | nil => rfl
  | cons key _ ih => exact ih (t.removeKey key)

/-- Whether the entry of a key is expired. -/
def BlockTables.expired (t : BlockTables) (now : Nat) (key : String) : Bool :=
  (t.blockedIps.lookup key).any fun e => e.isExpired now

theorem cleanup_visits (visits expired : List String) :
    turnsAlone c (⟨now, t⟩, .cleanup (.collect expired)) (visits.map some) =
      (⟨now, t⟩, .cleanup (.collect (expired ++ visits.filter (t.expired now)))) := by
  induction visits generalizing expired with
  | nil => simp [turnsAlone]
  | cons key _ ih =>
    have hstep : Task.step c (some key) ⟨now, t⟩ (.cleanup (.collect expired)) =
        (⟨now, t⟩, .cleanup (.collect (expired ++ [key].filter (t.expired now)))) := by
      cases hlook : t.blockedIps.lookup key with
      | none => simp [Task.step, cleanupStep, BlockTables.expired, hlook]
      | some e =>
        cases he : e.isExpired now <;>
          simp [Task.step, cleanupStep, BlockTables.expired, hlook, he]
    rw [List.map_cons, turnsAlone, List.foldl_cons]
    dsimp only
    rw [hstep]
    refine (ih _).trans ?_
    rw [List.append_assoc, ← List.filter_append, List.singleton_append]

/-- In whatever order its iteration visits the entries, each of them once, a cleanup that runs by
itself leaves what `cleanup_expired_blocks` leaves. -/
theorem cleanup_alone (c : Crates) (now : Nat) (t : BlockTables) (visits : List String)
    (hvisits : visits.Perm t.blockedIps.keys) :
    ∃ left turns, turnsAlone c (⟨now, t⟩, Call.cleanup.task ⟨now, t⟩)
        (visits.map some ++ List.replicate turns none) = (⟨now, left⟩, .cleanup .done) ∧
      left.blockedIps = (t.cleanupExpiredBlocks now).blockedIps ∧
      ∀ site, left.index site = (t.cleanupExpiredBlocks now).index site := by
  refine ⟨t.removeKeys (visits.filter (t.expired now)),
    2 * (visits.filter (t.expired now)).length + 1 + 1, ?_, removeKeys_same fun key => ?_⟩
  · unfold turnsAlone
    rw [List.foldl_append]
    have hcollect := @cleanup_visits c now t visits []
    unfold turnsAlone at hcollect
    rw [Call.task, hcollect]
    exact cleanup_removes _ t
  · rw [List.mem_filter, hvisits.mem_iff, mem_keysWhere, BlockTables.expired, Option.any_eq_true]
    constructor
    · rintro ⟨-, e, hlook, hexp⟩
      exact ⟨e, hlook, hexp⟩
    · rintro ⟨e, hlook, hexp⟩
      exact ⟨AList.mem_keys.mp (AList.lookup_isSome.mp (hlook ▸ rfl)), e, hlook, hexp⟩

theorem timed_block_swept :
    ∃ left turns, turnsAlone .inert (⟨2 * 10 ^ 9, permanentAndTimed 0 1⟩,
        Call.cleanup.task ⟨2 * 10 ^ 9, permanentAndTimed 0 1⟩)
        (["s:10.0.0.1", "s:10.0.0.2"].map some ++ List.replicate turns none) =
          (⟨2 * 10 ^ 9, left⟩, .cleanup .done) ∧
      left.blockedIps = ((permanentAndTimed 0 1).cleanupExpiredBlocks (2 * 10 ^ 9)).blockedIps ∧
      ∀ site, left.index site =
        ((permanentAndTimed 0 1).cleanupExpiredBlocks (2 * 10 ^ 9)).index site :=
  cleanup_alone .inert (2 * 10 ^ 9) (permanentAndTimed 0 1) ["s:10.0.0.1", "s:10.0.0.2"]
    (by decide +kernel)

/-! ## Block -/

theorem block_alone (c : Crates) (now : Nat) (t : BlockTables) (siteId ip : String)
    (duration : Option Nat) (reason : String) :
    Alone c (⟨now, t⟩, (Call.block siteId ip duration reason).task ⟨now, t⟩)
      (⟨now, t.blockIp c now siteId ip duration reason⟩,
        .block siteId (blockedEntry now siteId ip duration reason) .returned) := by
  apply Alone.step none
  simp only [Call.task, Task.step, blockStep]
  unfold BlockTables.blockIp
  split
  · exact .step none (.step none .refl)
  · exact .step none (.step none .refl)

end PingWaf.Agent
