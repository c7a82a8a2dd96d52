import PingWaf.Agent.Persist

/-!
# Crashes between file operations

A persist call leaves at every point either a primary snapshot that its metadata vouches for, or a
backup of the last one it did vouch for.
-/

namespace PingWaf.Agent

open List AList CacheDisk Function Phase

variable {ρ : Type}

/-! ## Reading a directory -/

section

variable {d : Dir} {f g : CacheFile} {pid seq : Nat} {bytes : List UInt8}

@[simp] theorem read_insert_temp :
    Dir.read (d.insert (.temp g pid seq) bytes) = d.read :=
  funext fun _ => lookup_insert_ne (by simp)

@[simp] theorem read_erase_temp : Dir.read (d.erase (.temp g pid seq)) = d.read :=
  funext fun _ => lookup_erase_ne (by simp)

theorem read_insert_file :
    Dir.read (d.insert (.file g) bytes) = Function.update d.read g (some bytes) := by
  funext f
  rw [update_apply]
  unfold Dir.read
  split
  · next h => rw [h, lookup_insert]
  · next h => rw [lookup_insert_ne (by simpa using h)]

theorem read_erase_file : Dir.read (d.erase (.file g)) = Function.update d.read g none := by
  funext f
  rw [update_apply]
  unfold Dir.read
  split
  · next h => rw [h, lookup_erase]
  · next h => rw [lookup_erase_ne (by simpa using h)]

end

/-! ## Snapshots and stamps -/

/-- What the serialisation has to do for the rules: they are read back as they were, and so is
their stamp. -/
def Format.ReadsBack (fmt : Format ρ) (agentId : String) (rules : ρ) : Prop :=
  ∀ bytes, fmt.rulesJson rules = some bytes → fmt.rulesFromJson bytes = some rules ∧
    ∀ stamp, fmt.metadataJson (stampFor fmt agentId rules bytes) = some stamp →
      fmt.metadataFromJson stamp = some (stampFor fmt agentId rules bytes)

/-- No two of the contents agree in length and checksum. -/
def Format.CollisionFree (fmt : Format ρ) (contents : List (List UInt8)) : Prop :=
  ∀ a ∈ contents, ∀ b ∈ contents, a.length = b.length → fmt.crc32 a = fmt.crc32 b → a = b

/-- The content is the snapshot of a call from the given one on. -/
def Newer (fmt : Format ρ) (begun : List ρ) (j : Nat) (bytes : List UInt8) : Prop :=
  ∃ i rules, j ≤ i ∧ begun[i]? = some rules ∧ fmt.rulesJson rules = some bytes

/-- The metadata vouch for the content. -/
def Stamps (fmt : Format ρ) (metadata : Option (List UInt8)) (bytes : List UInt8) : Prop :=
  ∃ m, metadata.bind fmt.metadataFromJson = some m ∧ m.version = cacheFormatVersion ∧
    m.sitesCrc32 = some (fmt.crc32 bytes) ∧ m.sitesLen = some bytes.length

/-- What a validated read of the primary yields. -/
def Valid (fmt : Format ρ) (read : CacheFile → Option (List UInt8)) (bytes : List UInt8)
    (rules : ρ) : Prop :=
  read .sites = some bytes ∧ checkStamp fmt (read .metadata) bytes = .ok () ∧
    fmt.rulesFromJson bytes = some rules

section

variable {fmt : Format ρ} {d : Dir} {bytes : List UInt8}

theorem Stamps.checkStamp_iff {metadata : Option (List UInt8)} {p : List UInt8}
    (h : Stamps fmt metadata p) : checkStamp fmt metadata bytes = .ok () ↔
      bytes.length = p.length ∧ fmt.crc32 bytes = fmt.crc32 p := by
  obtain ⟨m, hm, hversion, hcrc, hlen⟩ := h
  simp [checkStamp, hm, hversion, hcrc, hlen, contentMatches]

theorem readSnapshot_ok_iff {rules : ρ} :
    readSnapshot fmt d = .ok rules ↔ ∃ bytes, Valid fmt d.read bytes rules := by
  unfold readSnapshot Valid
  cases hsites : d.read .sites with
  | none => simp
  | some bytes =>
    cases hstamp : checkStamp fmt (d.read .metadata) bytes with
    | error _ => simp [hstamp]
    | ok _ => cases hparse : fmt.rulesFromJson bytes <;> simp [hstamp, parseRules, hparse]

theorem Newer.mono {begun begun' : List ρ} {j : Nat} (h : Newer fmt begun j bytes)
    (hbegun : begun <+: begun') : Newer fmt begun' j bytes := by
  obtain ⟨i, rules, hle, hi, hjson⟩ := h
  obtain ⟨rest, rfl⟩ := hbegun
  have hlt : i < begun.length := (List.getElem?_eq_some_iff.mp hi).1
  exact ⟨i, rules, hle, by rw [List.getElem?_append_left hlt, hi], hjson⟩

end

/-! ## One file operation -/

/-- The files apart from the temporary ones, and the call in progress. -/
structure View (ρ : Type) where
  read : CacheFile → Option (List UInt8)
  call : Option (PersistCall ρ)
  begun : List ρ
  completed : Option Nat

def CacheDisk.view (w : CacheDisk ρ) : View ρ := ⟨w.dir.read, w.call, w.begun, w.completed⟩

def PersistCall.rolled (call : PersistCall ρ) : Prop :=
  ∀ bytes, call.phase = .rollSites bytes → call.stage = .syncDir

def PersistCall.wroteSites (call : PersistCall ρ) : Prop :=
  call.phase = .sites ∧ call.stage = .syncDir ∨ call.phase = .metadata ∨ call.phase = .blocked

def PersistCall.wroteMetadata (call : PersistCall ρ) : Prop :=
  call.phase = .metadata ∧ call.stage = .syncDir ∨ call.phase = .blocked

/-- The call goes on, and has written no more files than before. -/
structure PersistCall.Follows (call call' : PersistCall ρ) : Prop where
  rules : call'.rules = call.rules
  json : call'.sitesJson = call.sitesJson
  rolls : ∀ bytes, call'.phase = .rollSites bytes → call.phase = .rollSites bytes
  rolled : call'.rolled → call.rolled
  wroteSites : call'.wroteSites → call.wroteSites
  wroteMetadata : call'.wroteMetadata → call.wroteMetadata

inductive View.Moves (fmt : Format ρ) (agentId : String) (v : View ρ) : DiskStep ρ → View ρ → Prop
  | same {step : DiskStep ρ} : v.Moves fmt agentId step v
  | dropped {step : DiskStep ρ} : v.Moves fmt agentId step { v with call := none }
  | moved {step : DiskStep ρ} {call call' : PersistCall ρ} (hcall : v.call = some call)
      (hfollows : call.Follows call') : v.Moves fmt agentId step { v with call := some call' }
  | wrote {step : DiskStep ρ} {call : PersistCall ρ} {bytes : List UInt8}
      (hcall : v.call = some call) (hcontent : call.content fmt agentId = some bytes) :
      v.Moves fmt agentId step
        { v with
          read := Function.update v.read call.phase.file (some bytes)
          call := some { call with stage := .syncDir } }
  | finished {step : DiskStep ρ} {call : PersistCall ρ} (hcall : v.call = some call)
      (hphase : call.phase = .blocked) :
      v.Moves fmt agentId step { v with call := none, completed := some (v.begun.length - 1) }
  | began {rules : ρ} {blocked : List BlockedIpEntry} {sitesJson : List UInt8} {phase : Phase}
      (hjson : fmt.rulesJson rules = some sitesJson)
      (hphase : (∃ bytes old, phase = .rollSites bytes ∧ Valid fmt v.read bytes old) ∨
        phase = .sites ∧ ∀ bytes old, ¬ Valid fmt v.read bytes old) :
      v.Moves fmt agentId (.persist rules blocked)
        { v with
          call := some ⟨rules, sitesJson, blocked, phase, .create⟩
          begun := v.begun ++ [rules] }
  | damaged (content : Option (List UInt8)) :
      v.Moves fmt agentId (.damage content)
        { v with read := Function.update v.read .sites content }

/-- A temporary file that is about to be renamed has what the call is to write. -/
def CacheDisk.Ready (fmt : Format ρ) (agentId : String) (w : CacheDisk ρ) : Prop :=
  ∀ call, w.call = some call → call.stage = .sync ∨ call.stage = .rename →
    w.dir.lookup (w.temp call) = call.content fmt agentId

section

variable {fmt : Format ρ} {agentId : String} {w : CacheDisk ρ} {call : PersistCall ρ}

theorem follows_stage (call : PersistCall ρ) (stage : WriteStage) (hstage : stage ≠ .syncDir) :
    call.Follows { call with stage := stage } where
  rules := rfl
  json := rfl
  rolls _ hphase := hphase
  rolled hrolled bytes hphase := absurd (hrolled bytes hphase) hstage
  wroteSites := Or.imp_left fun h => absurd h.2 hstage
  wroteMetadata := Or.imp_left fun h => absurd h.2 hstage

theorem follows_next {d : Dir} {phase : Phase} (hstage : call.stage = .syncDir)
    (hnext : call.phase.next d = some phase) :
    call.Follows { call with phase := phase, stage := .create } := by
  have hcases : call.phase = .sites ∧ phase = .metadata ∨
      call.phase = .metadata ∧ phase = .blocked ∨
      phase = .sites ∨ ∃ bytes, phase = .rollMetadata bytes := by
    cases hphase : call.phase with
    | rollSites _ =>
      rw [hphase] at hnext
      cases hm : d.read .metadata with
      | none => exact .inr (.inr (.inl (by simpa [Phase.next, hm] using hnext.symm)))
      | some stamp => exact .inr (.inr (.inr ⟨stamp, by simpa [Phase.next, hm] using hnext.symm⟩))
    | _ => simp_all [Phase.next]
  obtain ⟨hold, rfl⟩ | ⟨hold, rfl⟩ | rfl | ⟨bytes, rfl⟩ := hcases
  all_goals
    refine ⟨rfl, rfl, (fun _ h => nomatch h), fun _ _ _ => hstage, ?_, ?_⟩ <;>
      simp [PersistCall.wroteSites, PersistCall.wroteMetadata, *]

theorem next_eq_none {d : Dir} {phase : Phase} (h : phase.next d = none) : phase = .blocked := by
  cases phase with
  | blocked => rfl
  | _ => simp [Phase.next] at h

theorem firstPhase_cases (fmt : Format ρ) (d : Dir) :
    (∃ bytes old, firstPhase fmt d = .rollSites bytes ∧ Valid fmt d.read bytes old) ∨
      firstPhase fmt d = .sites ∧ ∀ bytes old, ¬ Valid fmt d.read bytes old := by
  unfold firstPhase
  split
  · next content rules hsites hread =>
    obtain ⟨bytes, hvalid⟩ := readSnapshot_ok_iff.mp hread
    cases hsites.symm.trans hvalid.1
    exact .inl ⟨content, rules, rfl, hvalid⟩
  · next hnone =>
    exact .inr ⟨rfl, fun bytes old hvalid =>
      hnone bytes old hvalid.1 (readSnapshot_ok_iff.mpr ⟨bytes, hvalid⟩)⟩

theorem ready_of_none (hcall : w.call = none) : w.Ready fmt agentId :=
  fun _ h => nomatch hcall.symm.trans h

theorem ready_of_stage (hcall : w.call = some call) (hsync : call.stage ≠ .sync)
    (hrename : call.stage ≠ .rename) : w.Ready fmt agentId := by
  intro _ h hstage
  cases hcall.symm.trans h
  exact (hstage.elim hsync hrename).elim

theorem View.Moves.of_eq {v v' v'' : View ρ} {step : DiskStep ρ} (h : v.Moves fmt agentId step v')
    (hv : v'' = v') : v.Moves fmt agentId step v'' :=
  hv ▸ h

theorem advance_moves (hready : w.Ready fmt agentId) :
    w.view.Moves fmt agentId .advance (w.advance fmt agentId).view ∧
      (w.advance fmt agentId).Ready fmt agentId := by
  unfold advance
  split
  · exact ⟨.same, hready⟩
  · next call hcall =>
    have hview : w.view.call = some call := hcall
    split
    · exact ⟨.dropped, ready_of_none rfl⟩
    · next bytes hcontent =>
      unfold writeAtomic
      cases hstage : call.stage with
      | create =>
        refine ⟨(View.Moves.moved hview (follows_stage call .write (by simp))).of_eq ?_,
          ready_of_stage rfl (by simp) (by simp)⟩
        simp [view, temp]
      | write =>
        refine ⟨(View.Moves.moved hview (follows_stage call .sync (by simp))).of_eq ?_, ?_⟩
        · simp [view, temp]
        · rintro _ ⟨⟩ -
          exact (lookup_insert _).trans hcontent.symm
      | sync =>
        refine ⟨(View.Moves.moved hview (follows_stage call .rename (by simp))).of_eq rfl, ?_⟩
        rintro _ ⟨⟩ -
        exact hready call hcall (.inl hstage)
      | rename =>
        have hlook := (hready call hcall (.inr hstage)).trans hcontent
        simp only [hlook]
        refine ⟨(View.Moves.wrote hview hcontent).of_eq ?_, ready_of_stage rfl (by simp) (by simp)⟩
        simp [view, temp, read_insert_file]
      | syncDir =>
        cases hnext : call.phase.next w.dir with
        | some _ =>
          exact ⟨.moved hview (follows_next hstage hnext), ready_of_stage rfl (by simp) (by simp)⟩
        | none => exact ⟨.finished hview (next_eq_none hnext), ready_of_none rfl⟩

theorem step_moves (hready : w.Ready fmt agentId) (step : DiskStep ρ) :
    w.view.Moves fmt agentId step (w.step fmt agentId step).view ∧
      (w.step fmt agentId step).Ready fmt agentId := by
  cases step with
  | persist rules blocked =>
    show w.view.Moves fmt agentId _ (w.persistToDisk fmt rules blocked).view ∧
      (w.persistToDisk fmt rules blocked).Ready fmt agentId
    unfold persistToDisk
    split
    · next sitesJson _ _ hjson =>
      exact ⟨.began hjson (firstPhase_cases fmt w.dir), ready_of_stage rfl (by simp) (by simp)⟩
    · exact ⟨.same, hready⟩
  | advance => exact advance_moves hready
  | fail =>
    show w.view.Moves fmt agentId _ w.fail.view ∧ w.fail.Ready fmt agentId
    unfold fail
    split
    · exact ⟨.same, hready⟩
    · refine ⟨View.Moves.dropped.of_eq ?_, ready_of_none rfl⟩
      simp [view, temp]
  | crash _ => exact ⟨.dropped, ready_of_none rfl⟩
  | damage content =>
    refine ⟨(View.Moves.damaged content).of_eq ?_, ?_⟩
    · cases content <;> simp [step, damage, view, read_insert_file,
        read_erase_file]
    · intro call hcall hstage
      cases content with
      | none =>
        exact (lookup_erase_ne (by simp [temp])).trans (hready call hcall hstage)
      | some _ =>
        exact (lookup_insert_ne (by simp [temp])).trans (hready call hcall hstage)

end

/-! ## What holds even if the primary is damaged -/

/-- What has to be known of a step: its snapshot is read back, and what it may put into
`sites.json` is among the contents. -/
def DiskStep.Known (fmt : Format ρ) (agentId : String) (contents : List (List UInt8)) :
    DiskStep ρ → Prop
  | .persist rules _ =>
    fmt.ReadsBack agentId rules ∧ ∀ bytes, fmt.rulesJson rules = some bytes → bytes ∈ contents
  | .damage content => ∀ bytes, content = some bytes → bytes ∈ contents
  | _ => True

section

variable (fmt : Format ρ) (agentId : String) (contents : List (List UInt8))

/-- A content that may go to the backup: a snapshot that the metadata do not speak against, and
from the last completed call on. -/
structure View.MayRoll (v : View ρ) (bytes : List UInt8) : Prop where
  stamp : checkStamp fmt (v.read .metadata) bytes = .ok ()
  parses : ∃ rules, fmt.rulesFromJson bytes = some rules
  newer : ∀ j, v.completed = some j → Newer fmt v.begun j bytes

/-- The call under way writes the latest rules, and rolls over and stamps what it may. -/
structure CallSound (v : View ρ) (call : PersistCall ρ) : Prop where
  latest : v.begun.getLast? = some call.rules
  json : fmt.rulesJson call.rules = some call.sitesJson
  rolls : ∀ bytes, call.phase = .rollSites bytes → v.MayRoll fmt bytes
  stamped : call.wroteMetadata → Stamps fmt (v.read .metadata) call.sitesJson

/-- The rules are read back, and their snapshot is among the contents. -/
structure Recorded (rules : ρ) : Prop where
  readsBack : fmt.ReadsBack agentId rules
  known : ∀ bytes, fmt.rulesJson rules = some bytes → bytes ∈ contents

/-- What holds in every state, whatever damages the primary. -/
structure Sound (v : View ρ) : Prop where
  recorded : ∀ rules ∈ v.begun, Recorded fmt agentId contents rules
  primary : ∀ bytes, v.read .sites = some bytes → bytes ∈ contents
  bound : ∀ j, v.completed = some j → j < v.begun.length
  stamped : ∀ j, v.completed = some j →
    ∃ bytes, Newer fmt v.begun j bytes ∧ Stamps fmt (v.read .metadata) bytes
  call : ∀ call, v.call = some call → CallSound fmt v call

end

section

variable {fmt : Format ρ} {agentId : String} {contents : List (List UInt8)} {v v' : View ρ}
  {call : PersistCall ρ} {bytes : List UInt8}

variable {j : Nat} {phase : Phase} {step : DiskStep ρ}

theorem Newer.known (h : Sound fmt agentId contents v) (hnewer : Newer fmt v.begun j bytes) :
    bytes ∈ contents := by
  obtain ⟨i, rules, -, hi, hjson⟩ := hnewer
  exact (h.recorded rules (mem_of_getElem? hi)).known bytes hjson

theorem Newer.parses (h : Sound fmt agentId contents v) (hnewer : Newer fmt v.begun j bytes) :
    ∃ i rules, j ≤ i ∧ v.begun[i]? = some rules ∧ fmt.rulesFromJson bytes = some rules := by
  obtain ⟨i, rules, hle, hi, hjson⟩ := hnewer
  exact ⟨i, rules, hle, hi, ((h.recorded rules (mem_of_getElem? hi)).readsBack bytes hjson).1⟩

theorem CallSound.newer (h : CallSound fmt v call) (hj : j < v.begun.length) :
    Newer fmt v.begun j call.sitesJson := by
  refine ⟨v.begun.length - 1, call.rules, by omega, ?_, h.json⟩
  rw [← getLast?_eq_getElem?]
  exact h.latest

theorem CallSound.mem_begun (h : CallSound fmt v call) : call.rules ∈ v.begun :=
  mem_of_getLast? h.latest

theorem CallSound.last_lt (h : CallSound fmt v call) : v.begun.length - 1 < v.begun.length :=
  Nat.sub_lt (length_pos_of_mem h.mem_begun) Nat.one_pos

theorem CallSound.follows {call' : PersistCall ρ} (h : CallSound fmt v call)
    (hf : call.Follows call') : CallSound fmt { v with call := some call' } call' where
  latest := hf.rules ▸ h.latest
  json := by rw [hf.rules, hf.json, h.json]
  rolls bytes hphase :=
    have hroll := h.rolls bytes (hf.rolls bytes hphase)
    ⟨hroll.stamp, hroll.parses, hroll.newer⟩
  stamped hwrote := hf.json ▸ h.stamped (hf.wroteMetadata hwrote)

theorem CallSound.stamps_of_metadata (h : CallSound fmt v call)
    (hreads : fmt.ReadsBack agentId call.rules) (hphase : call.phase = .metadata)
    (hcontent : call.content fmt agentId = some bytes) :
    Stamps fmt (some bytes) call.sitesJson := by
  simp only [PersistCall.content, hphase] at hcontent
  have hstamp := (hreads _ h.json).2 bytes hcontent
  exact ⟨stampFor fmt agentId call.rules call.sitesJson, hstamp, rfl, rfl, rfl⟩

theorem Phase.file_eq_sites : CacheFile.sites = phase.file ↔ phase = .sites := by
  cases phase <;> simp [file]

theorem Phase.file_eq_metadata : CacheFile.metadata = phase.file ↔ phase = .metadata := by
  cases phase <;> simp [file]

theorem Phase.file_eq_sitesBak :
    CacheFile.sitesBak = phase.file ↔ ∃ bytes, phase = .rollSites bytes := by
  cases phase <;> simp [file]

theorem Sound.wrote (h : Sound fmt agentId contents v) (hcall : v.call = some call)
    (hcontent : call.content fmt agentId = some bytes) :
    Sound fmt agentId contents
      { v with
        read := Function.update v.read call.phase.file (some bytes)
        call := some { call with stage := .syncDir } } := by
  have hc := h.call call hcall
  by_cases hphase : call.phase = .metadata
  · have hstamps := hc.stamps_of_metadata (h.recorded _ hc.mem_begun).readsBack hphase hcontent
    rw [hphase]
    refine ⟨h.recorded, h.primary, h.bound, fun j hj => ?_, ?_⟩
    · exact ⟨call.sitesJson, hc.newer (h.bound j hj), hstamps⟩
    · rintro _ ⟨⟩
      exact ⟨hc.latest, hc.json, (fun _ hroll => nomatch hroll), fun _ => hstamps⟩
  · have hmeta : update v.read call.phase.file (some bytes) .metadata = v.read .metadata :=
      update_of_ne (mt file_eq_metadata.mp hphase) _ _
    refine ⟨h.recorded, fun content hsites => ?_, h.bound, fun j hj => ?_, ?_⟩
    · dsimp only at hsites
      rw [update_apply] at hsites
      split at hsites
      · next hfile =>
        rw [file_eq_sites] at hfile
        simp only [PersistCall.content, hfile] at hcontent
        cases hcontent
        cases hsites
        exact (h.recorded _ hc.mem_begun).known _ hc.json
      · exact h.primary content hsites
    · dsimp only
      rw [hmeta]
      exact h.stamped j hj
    · rintro _ ⟨⟩
      refine ⟨hc.latest, hc.json, fun content hroll => ?_, fun hwrote => ?_⟩
      · have hmay := hc.rolls content hroll
        refine ⟨?_, hmay.parses, hmay.newer⟩
        dsimp only
        rw [hmeta]
        exact hmay.stamp
      · dsimp only
        rw [hmeta]
        exact hc.stamped (.inr (hwrote.resolve_left fun hp => hphase hp.1))

theorem Sound.mayRoll (h : Sound fmt agentId contents v) (hfree : fmt.CollisionFree contents)
    {rules : ρ} (hvalid : Valid fmt v.read bytes rules) : v.MayRoll fmt bytes := by
  obtain ⟨hsites, hstamp, hparse⟩ := hvalid
  refine ⟨hstamp, ⟨rules, hparse⟩, fun j hj => ?_⟩
  obtain ⟨stamped, hnewer, hstamps⟩ := h.stamped j hj
  obtain ⟨hlen, hcrc⟩ := hstamps.checkStamp_iff.mp hstamp
  have heq : bytes = stamped :=
    hfree bytes (h.primary bytes hsites) stamped (hnewer.known h) hlen hcrc
  exact heq ▸ hnewer

theorem Sound.began (h : Sound fmt agentId contents v) (hfree : fmt.CollisionFree contents)
    {rules : ρ} {blocked : List BlockedIpEntry} {sitesJson : List UInt8}
    (hknown : Recorded fmt agentId contents rules) (hjson : fmt.rulesJson rules = some sitesJson)
    (hphase : (∃ bytes old, phase = .rollSites bytes ∧ Valid fmt v.read bytes old) ∨
      phase = .sites ∧ ∀ bytes old, ¬ Valid fmt v.read bytes old) :
    Sound fmt agentId contents
      { v with
        call := some ⟨rules, sitesJson, blocked, phase, .create⟩
        begun := v.begun ++ [rules] } := by
  have hgrows : v.begun <+: v.begun ++ [rules] := prefix_append _ _
  refine ⟨fun r hr => ?_, h.primary, fun j hj => ?_, fun j hj => ?_, ?_⟩
  · rcases mem_append.mp hr with hold | hnew
    · exact h.recorded r hold
    · exact mem_singleton.mp hnew ▸ hknown
  · exact Nat.lt_of_lt_of_le (h.bound j hj) hgrows.length_le
  · obtain ⟨bytes, hnewer, hstamps⟩ := h.stamped j hj
    exact ⟨bytes, hnewer.mono hgrows, hstamps⟩
  · rintro _ ⟨⟩
    refine ⟨getLast?_concat, hjson, ?_, ?_⟩
    · rintro bytes rfl
      obtain ⟨_, old, ⟨⟩, hvalid⟩ | ⟨hsites, -⟩ := hphase
      · have hroll := h.mayRoll hfree hvalid
        exact ⟨hroll.stamp, hroll.parses, fun j hj => (hroll.newer j hj).mono hgrows⟩
      · cases hsites
    · rintro (⟨-, hsync⟩ | rfl)
      · cases hsync
      · obtain ⟨_, _, hroll, -⟩ | ⟨hsites, -⟩ := hphase
        · cases hroll
        · cases hsites

theorem Sound.moves (h : Sound fmt agentId contents v) (hfree : fmt.CollisionFree contents)
    (hknown : step.Known fmt agentId contents) (hmoves : v.Moves fmt agentId step v') :
    Sound fmt agentId contents v' := by
  cases hmoves with
  | same => exact h
  | dropped => exact ⟨h.recorded, h.primary, h.bound, h.stamped, fun _ hc => nomatch hc⟩
  | moved hcall hfollows =>
    refine ⟨h.recorded, h.primary, h.bound, h.stamped, ?_⟩
    rintro _ ⟨⟩
    exact (h.call _ hcall).follows hfollows
  | wrote hcall hcontent => exact h.wrote hcall hcontent
  | finished hcall hphase =>
    have hc := h.call _ hcall
    refine ⟨h.recorded, h.primary, ?_, ?_, fun _ hc => nomatch hc⟩
    · rintro _ ⟨⟩
      exact hc.last_lt
    · rintro _ ⟨⟩
      exact ⟨_, hc.newer hc.last_lt, hc.stamped (.inr hphase)⟩
  | began hjson hphase => exact h.began hfree ⟨hknown.1, hknown.2⟩ hjson hphase
  | damaged _ =>
    refine ⟨h.recorded, hknown, h.bound, h.stamped, fun call hcall => ?_⟩
    have hc := h.call call hcall
    refine ⟨hc.latest, hc.json, fun bytes hphase => ?_, hc.stamped⟩
    obtain ⟨hstamp, hparses, hnewer⟩ := hc.rolls bytes hphase
    exact ⟨hstamp, hparses, hnewer⟩

theorem sound_start (fmt : Format ρ) (agentId : String) (present : Bool) {dir : Dir} (pid : Nat)
    (hprimary : ∀ bytes, dir.read .sites = some bytes → bytes ∈ contents) :
    Sound fmt agentId contents (CacheDisk.start present dir pid).view where
  recorded _ hr := absurd hr not_mem_nil
  primary := hprimary
  bound _ hj := nomatch hj
  stamped _ hj := nomatch hj
  call _ hc := nomatch hc

theorem Sound.backup (h : Sound fmt agentId contents v) (hmoves : v.Moves fmt agentId step v') :
    v'.read .sitesBak = v.read .sitesBak ∨
      ∃ bytes, v'.read .sitesBak = some bytes ∧ v.MayRoll fmt bytes := by
  cases hmoves with
  | @wrote _ call bytes hcall hcontent =>
    by_cases hfile : CacheFile.sitesBak = call.phase.file
    · obtain ⟨content, hphase⟩ := file_eq_sitesBak.mp hfile
      simp only [PersistCall.content, hphase] at hcontent
      cases hcontent
      refine .inr ⟨bytes, ?_, (h.call call hcall).rolls bytes hphase⟩
      dsimp only
      rw [hfile, update_self]
    · exact .inl (update_of_ne hfile _ _)
  | _ => exact .inl rfl

/-! ## What holds if nothing else touches the primary -/

/-- The backup is no older than the given call. -/
def View.Backed (fmt : Format ρ) (v : View ρ) (j : Nat) : Prop :=
  ∃ bytes, v.read .sitesBak = some bytes ∧ Newer fmt v.begun j bytes

/-- The primary is stamped, or the backup stands in for it. -/
structure Kept (fmt : Format ρ) (v : View ρ) : Prop where
  primary : ∀ j, v.completed = some j → ∃ bytes, v.read .sites = some bytes ∧
    Newer fmt v.begun j bytes ∧ (Stamps fmt (v.read .metadata) bytes ∨ v.Backed fmt j)
  rolled : ∀ call, v.call = some call → call.rolled → ∀ j, v.completed = some j → v.Backed fmt j
  wrote : ∀ call, v.call = some call → call.wroteSites → v.read .sites = some call.sitesJson

theorem Kept.writing (h : Kept fmt v) (hs : Sound fmt agentId contents v)
    (hcall : v.call = some call) (hcontent : call.content fmt agentId = some bytes) :
    Kept fmt
      { v with
        read := Function.update v.read call.phase.file (some bytes)
        call := some { call with stage := .syncDir } } := by
  have hc := hs.call call hcall
  -- the backup stands, or is the content that the call rolls over
  have hrolled : ∀ j, v.completed = some j → ∃ content,
      update v.read call.phase.file (some bytes) .sitesBak = some content ∧
        Newer fmt v.begun j content := by
    intro j hj
    by_cases hroll : ∃ b, call.phase = .rollSites b
    · obtain ⟨b, hphase⟩ := hroll
      simp only [PersistCall.content, hphase] at hcontent
      cases hcontent
      rw [hphase]
      exact ⟨bytes, rfl, (hc.rolls bytes hphase).newer j hj⟩
    · rw [update_of_ne (mt file_eq_sitesBak.mp hroll)]
      exact h.rolled call hcall (fun b hphase => absurd ⟨b, hphase⟩ hroll) j hj
  by_cases hphase : call.phase = .sites
  · have hsites : update v.read call.phase.file (some bytes) .sites =
        some call.sitesJson := by
      simp only [PersistCall.content, hphase] at hcontent
      rw [hphase, hcontent]
      rfl
    refine ⟨fun j hj => ?_, fun _ _ _ => hrolled, ?_⟩
    · exact ⟨call.sitesJson, hsites, hc.newer (hs.bound j hj), .inr (hrolled j hj)⟩
    · rintro _ ⟨⟩ -
      exact hsites
  · have hsites : update v.read call.phase.file (some bytes) .sites = v.read .sites :=
      update_of_ne (mt file_eq_sites.mp hphase) _ _
    refine ⟨fun j hj => ?_, fun _ _ _ => hrolled, ?_⟩
    · obtain ⟨content, hread, hnewer, -⟩ := h.primary j hj
      exact ⟨content, hsites.trans hread, hnewer, .inr (hrolled j hj)⟩
    · rintro _ ⟨⟩ hwrote
      exact hsites.trans (h.wrote call hcall (.inr (hwrote.resolve_left fun hp => hphase hp.1)))

theorem Kept.began (h : Kept fmt v) (hs : Sound fmt agentId contents v) {rules : ρ}
    {blocked : List BlockedIpEntry} {sitesJson : List UInt8}
    (hphase : (∃ bytes old, phase = .rollSites bytes ∧ Valid fmt v.read bytes old) ∨
      phase = .sites ∧ ∀ bytes old, ¬ Valid fmt v.read bytes old) :
    Kept fmt
      { v with
        call := some ⟨rules, sitesJson, blocked, phase, .create⟩
        begun := v.begun ++ [rules] } := by
  have hgrows : v.begun <+: v.begun ++ [rules] := prefix_append _ _
  refine ⟨fun j hj => ?_, ?_, ?_⟩
  · obtain ⟨bytes, hread, hnewer, hor⟩ := h.primary j hj
    exact ⟨bytes, hread, hnewer.mono hgrows,
      hor.imp_right fun ⟨content, hbak, hn⟩ => ⟨content, hbak, hn.mono hgrows⟩⟩
  · rintro _ ⟨⟩ hr j hj
    obtain ⟨_, _, rfl, -⟩ | ⟨-, hnone⟩ := hphase
    · cases hr _ rfl
    · -- the primary does not pass validation, so it is not the one that the metadata stamps
      obtain ⟨bytes, hread, hnewer, hstamps | ⟨content, hbak, hn⟩⟩ := h.primary j hj
      · obtain ⟨i, old, -, -, hparse⟩ := hnewer.parses hs
        exact absurd ⟨hread, hstamps.checkStamp_iff.mpr ⟨rfl, rfl⟩, hparse⟩ (hnone bytes old)
      · exact ⟨content, hbak, hn.mono hgrows⟩
  · rintro _ ⟨⟩ (⟨-, hsync⟩ | rfl | rfl)
    · cases hsync
    all_goals
      obtain ⟨_, _, hroll, -⟩ | ⟨hsites, -⟩ := hphase
      · cases hroll
      · cases hsites

/-- Nothing but the agent writes to `sites.json`. -/
def DiskStep.Own : DiskStep ρ → Prop
  | .damage _ => False
  | _ => True

theorem Kept.moves (h : Kept fmt v) (hs : Sound fmt agentId contents v) (hown : step.Own)
    (hmoves : v.Moves fmt agentId step v') : Kept fmt v' := by
  cases hmoves with
  | same => exact h
  | dropped => exact ⟨h.primary, (fun _ hc => nomatch hc), (fun _ hc => nomatch hc)⟩
  | moved hcall hf =>
    refine ⟨h.primary, ?_, ?_⟩
    · rintro _ ⟨⟩ hr
      exact h.rolled _ hcall (hf.rolled hr)
    · rintro _ ⟨⟩ hw
      exact hf.json ▸ h.wrote _ hcall (hf.wroteSites hw)
  | wrote hcall hcontent => exact h.writing hs hcall hcontent
  | finished hcall hphase =>
    have hc := hs.call _ hcall
    refine ⟨?_, (fun _ hc => nomatch hc), (fun _ hc => nomatch hc)⟩
    rintro _ ⟨⟩
    exact ⟨_, h.wrote _ hcall (.inr (.inr hphase)), hc.newer hc.last_lt,
      .inl (hc.stamped (.inr hphase))⟩
  | began _ hphase => exact h.began hs hphase
  | damaged _ => exact absurd hown id

theorem kept_start (fmt : Format ρ) (present : Bool) (dir : Dir) (pid : Nat) :
    Kept fmt (CacheDisk.start present dir pid).view where
  primary _ hj := nomatch hj
  rolled _ hc := nomatch hc
  wrote _ hc := nomatch hc

theorem run_keeps {w : CacheDisk ρ} (hready : w.Ready fmt agentId)
    (hs : Sound fmt agentId contents w.view) (hfree : fmt.CollisionFree contents)
    {steps : List (DiskStep ρ)} (hknown : ∀ step ∈ steps, step.Known fmt agentId contents) :
    (w.run fmt agentId steps).Ready fmt agentId ∧
      Sound fmt agentId contents (w.run fmt agentId steps).view ∧
      ((∀ step ∈ steps, step.Own) → Kept fmt w.view → Kept fmt (w.run fmt agentId steps).view) := by
  unfold run
  induction steps generalizing w with
  | nil => exact ⟨hready, hs, fun _ h => h⟩
  | cons step _ ih =>
    obtain ⟨hmoves, hready'⟩ := step_moves hready step
    have hs' := hs.moves hfree (hknown step mem_cons_self) hmoves
    obtain ⟨hready'', hs'', hkept⟩ :=
      ih hready' hs' fun s hmem => hknown s (mem_cons_of_mem _ hmem)
    refine ⟨hready'', hs'', fun hown h => ?_⟩
    apply hkept fun s hmem => hown s (mem_cons_of_mem _ hmem)
    exact h.moves hs (hown step mem_cons_self) hmoves

theorem Kept.load {w : CacheDisk ρ} (h : Kept fmt w.view) (hs : Sound fmt agentId contents w.view)
    (hj : w.completed = some j) :
    ∃ i rules, j ≤ i ∧ w.begun[i]? = some rules ∧ (loadFromDisk fmt w.dir).rules = some rules := by
  obtain ⟨bytes, hread, hnewer, hor⟩ := h.primary j hj
  obtain ⟨i, rules, hle, hi, hparse⟩ := hnewer.parses hs
  have hsites : w.dir.read .sites = some bytes := hread
  unfold loadFromDisk
  simp only [hsites]
  cases hsnap : readSnapshot fmt w.dir with
  | ok _ =>
    obtain ⟨content, hcontent, -, hfound⟩ := readSnapshot_ok_iff.mp hsnap
    cases hsites.symm.trans hcontent
    exact ⟨i, rules, hle, hi, hfound.symm.trans hparse⟩
  | error _ =>
    obtain hstamps | ⟨content, hbak, hn⟩ := hor
    · have hstamp := hstamps.checkStamp_iff.mpr ⟨rfl, rfl⟩
      cases hsnap.symm.trans (readSnapshot_ok_iff.mpr ⟨bytes, hread, hstamp, hparse⟩)
    · obtain ⟨i', rules', hle', hi', hparse'⟩ := hn.parses hs
      have hbackup : w.dir.read .sitesBak = some content := hbak
      refine ⟨i', rules', hle', hi', ?_⟩
      simp [hbackup, readSnapshotUnstamped, parseRules, hparse']

end

/-- Wherever the process ends, the next load yields a snapshot at least as new as the last one that
was persisted to the end, and nothing but such a snapshot ever takes the place of the backup, even
if `sites.json` is damaged. -/
theorem rule_cache_crash_consistent (fmt : Format ρ) (agentId : String) (present : Bool) (dir : Dir)
    (pid : Nat) (steps : List (DiskStep ρ)) (contents : List (List UInt8)) (w : CacheDisk ρ)
    (hprimary : ∀ bytes, dir.read .sites = some bytes → bytes ∈ contents)
    (hknown : ∀ step ∈ steps, step.Known fmt agentId contents)
    (hfree : fmt.CollisionFree contents)
    (hw : w = (CacheDisk.start present dir pid).run fmt agentId steps) :
    ((∀ step ∈ steps, step.Own) → ∀ j, w.completed = some j →
      ∃ i rules, j ≤ i ∧ w.begun[i]? = some rules ∧
        (loadFromDisk fmt w.dir).rules = some rules) ∧
    ∀ step, (w.step fmt agentId step).dir.read .sitesBak = w.dir.read .sitesBak ∨
      ∃ bytes rules, (w.step fmt agentId step).dir.read .sitesBak = some bytes ∧
        checkStamp fmt (w.dir.read .metadata) bytes = .ok () ∧
        fmt.rulesFromJson bytes = some rules ∧
        ∀ j, w.completed = some j → ∃ i, j ≤ i ∧ w.begun[i]? = some rules := by
  subst hw
  have hstart := sound_start fmt agentId present pid hprimary
  obtain ⟨hready, hsound, hkept⟩ := run_keeps (ready_of_none rfl) hstart hfree hknown
  refine ⟨fun hown j hj => ?_, fun step => ?_⟩
  · exact (hkept hown (kept_start fmt present dir pid)).load hsound hj
  · obtain hsame | ⟨bytes, hbak, hroll⟩ := hsound.backup (step_moves hready step).1
    · exact .inl hsame
    · obtain ⟨rules, hparse⟩ := hroll.parses
      refine .inr ⟨bytes, rules, hbak, hroll.stamp, hparse, fun j hj => ?_⟩
      obtain ⟨i, found, hle, hi, hfound⟩ := (hroll.newer j hj).parses hsound
      cases hparse.symm.trans hfound
      exact ⟨i, hle, hi⟩

/-! ## A crash between the snapshot and its stamp -/

def twoSnapshots : Format Bool where
  rulesJson rules := some [if rules then 1 else 0]
  rulesFromJson
    | [b] => some (b == 1)
    | _ => none
  metadataJson m := some [if m.configHash = "new" then 1 else 0]
  metadataFromJson
    | [b] => some ⟨if b = 1 then "new" else "old", 0, "agent", 1, some b.toUInt32, some 1⟩
    | _ => none
  blockedJson _ := some []
  blockedFromJson _ := some []
  crc32 bytes := (bytes.headD 0).toUInt32
  configHash rules := if rules then "new" else "old"
  updatedAt _ := 0

/-- One call to its end, and a second one up to the new snapshot. -/
def crashedPersist : List (DiskStep Bool) :=
  .persist false [] :: List.replicate 15 .advance ++
    .persist true [] :: List.replicate 14 .advance ++ [.crash 2]

theorem mem_crashedPersist {step : DiskStep Bool} (h : step ∈ crashedPersist) :
    (∃ rules, step = .persist rules []) ∨ step = .advance ∨ step = .crash 2 := by
  have hcases : step = .persist false [] ∨ step = .advance ∨ step = .persist true [] ∨
      step = .crash 2 := by simpa [crashedPersist, or_left_comm] using h
  obtain rfl | rfl | rfl | rfl := hcases
  · exact .inl ⟨false, rfl⟩
  · exact .inr (.inl rfl)
  · exact .inl ⟨true, rfl⟩
  · exact .inr (.inr rfl)

theorem twoSnapshots_readsBack (rules : Bool) : twoSnapshots.ReadsBack "agent" rules := by
  rintro bytes ⟨⟩
  cases rules with
  | false => exact ⟨rfl, fun stamp hstamp => by cases hstamp; decide +kernel⟩
  | true => exact ⟨rfl, fun stamp hstamp => by cases hstamp; decide +kernel⟩

theorem crashed_persist_restored :
    ((CacheDisk.start true ∅ 1).run twoSnapshots "agent" crashedPersist).completed = some 0 ∧
      ∃ i rules, 0 ≤ i ∧
        ((CacheDisk.start true ∅ 1).run twoSnapshots "agent" crashedPersist).begun[i]? =
          some rules ∧
        (loadFromDisk twoSnapshots
          ((CacheDisk.start true ∅ 1).run twoSnapshots "agent" crashedPersist).dir).rules =
            some rules := by
  have hcompleted : ((CacheDisk.start true ∅ 1).run twoSnapshots "agent"
      crashedPersist).completed = some 0 := by decide +kernel
  have hfree : ∀ a ∈ [[0], [(1 : UInt8)]], ∀ b ∈ [[0], [(1 : UInt8)]], a.length = b.length →
      twoSnapshots.crc32 a = twoSnapshots.crc32 b → a = b := by decide +kernel
  refine ⟨hcompleted, (rule_cache_crash_consistent twoSnapshots "agent" true ∅ 1 crashedPersist
    [[0], [1]] _ (fun _ h => nomatch h) (fun step hstep => ?_) hfree rfl).1 (fun step hstep => ?_) 0
    hcompleted⟩
  · obtain ⟨rules, rfl⟩ | rfl | rfl := mem_crashedPersist hstep
    · refine ⟨twoSnapshots_readsBack rules, ?_⟩
      rintro bytes ⟨⟩
      cases rules <;> decide
    · trivial
    · trivial
  · obtain ⟨rules, rfl⟩ | rfl | rfl := mem_crashedPersist hstep <;> trivial

end PingWaf.Agent
