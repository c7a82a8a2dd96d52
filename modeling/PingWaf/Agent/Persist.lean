import PingWaf.Agent.Blocks

/-!
# The rule cache on disk

The agent writes its rules to `sites.json`, stamps them in `metadata.json` and keeps the snapshot
before in `sites.json.bak`. A persist call is a sequence of file operations, each write by way of a
temporary file that is then renamed; there is one call at a time. The rules are written and read as
a whole, so their type is left open. Reasons are told apart but not spelled.
-/

namespace PingWaf.Agent

/-! ## Files -/

inductive CacheFile where
  | sites
  | metadata
  | sitesBak
  | metadataBak
  | blockedIps
  deriving DecidableEq

inductive FileName where
  | file (f : CacheFile)
  | temp (f : CacheFile) (pid seq : Nat)
  deriving DecidableEq

abbrev Dir := Table FileName (List UInt8)

def Dir.read (d : Dir) (f : CacheFile) : Option (List UInt8) := d.lookup (.file f)

structure CacheMetadata where
  configHash : String
  updatedAt : Nat
  agentId : String
  version : Nat
  sitesCrc32 : Option UInt32
  sitesLen : Option Nat
  deriving DecidableEq

def cacheFormatVersion : Nat := 1

/-- The serialisation of the three files and the checksum, and what the metadata takes from the
rules. -/
structure Format (ρ : Type) where
  rulesJson : ρ → Option (List UInt8)
  rulesFromJson : List UInt8 → Option ρ
  metadataJson : CacheMetadata → Option (List UInt8)
  metadataFromJson : List UInt8 → Option CacheMetadata
  blockedJson : List BlockedIpEntry → Option (List UInt8)
  blockedFromJson : List UInt8 → Option (List BlockedIpEntry)
  crc32 : List UInt8 → UInt32
  configHash : ρ → String
  updatedAt : ρ → Nat

variable {ρ : Type} (fmt : Format ρ)

/-! ## Reading -/

inductive SnapshotError where
  | unreadable
  | version (stamped : Nat)
  | integrity
  | parse

def contentMatches (bytes : List UInt8) (crc : UInt32) (len : Nat) : Bool :=
  bytes.length = len && fmt.crc32 bytes = crc

/-- Metadata without stamps, and a file that is missing or unreadable, are let pass. -/
def checkStamp (metadata : Option (List UInt8)) (bytes : List UInt8) : Except SnapshotError Unit :=
  match metadata.bind fmt.metadataFromJson with
  | none => .ok ()
  | some m =>
    if m.version ≠ cacheFormatVersion then .error (.version m.version)
    else
      match m.sitesCrc32, m.sitesLen with
      | some crc, some len => if contentMatches fmt bytes crc len then .ok () else .error .integrity
      | _, _ => .ok ()

def parseRules (bytes : List UInt8) : Except SnapshotError ρ :=
  match fmt.rulesFromJson bytes with
  | some rules => .ok rules
  | none => .error .parse

def readSnapshot (d : Dir) : Except SnapshotError ρ :=
  match d.read .sites with
  | none => .error .unreadable
  | some bytes =>
    match checkStamp fmt (d.read .metadata) bytes with
    | .error err => .error err
    | .ok () => parseRules fmt bytes

def readSnapshotUnstamped (d : Dir) : Except SnapshotError ρ :=
  match d.read .sitesBak with
  | none => .error .unreadable
  | some bytes => parseRules fmt bytes

inductive LoadSource where
  | fresh
  | disk
  | backup

inductive LoadReason where
  | restored (primary : SnapshotError)
  | bothFailed (primary backup : SnapshotError)
  | primaryFailed (primary : SnapshotError)

/-- What a load leaves in memory and in the health record. Without rules the agent starts empty. -/
structure LoadOutcome (ρ : Type) where
  rules : Option ρ
  blocked : List BlockedIpEntry
  healthy : Bool
  source : LoadSource
  reason : Option LoadReason

def readBlockedIps (d : Dir) : List BlockedIpEntry :=
  ((d.read .blockedIps).bind fmt.blockedFromJson).getD []

def loadFromDisk (d : Dir) : LoadOutcome ρ :=
  match d.read .sites with
  | none => ⟨none, [], true, .fresh, none⟩
  | some _ =>
    match readSnapshot fmt d with
    | .ok rules => ⟨some rules, readBlockedIps fmt d, true, .disk, none⟩
    | .error primary =>
      match d.read .sitesBak with
      | none => ⟨none, [], false, .fresh, some (.primaryFailed primary)⟩
      | some _ =>
        match readSnapshotUnstamped fmt d with
        | .ok rules => ⟨some rules, readBlockedIps fmt d, true, .backup, some (.restored primary)⟩
        | .error backup => ⟨none, [], false, .fresh, some (.bothFailed primary backup)⟩

/-! ## Writing -/

inductive Phase where
  | rollSites (bytes : List UInt8)
  | rollMetadata (bytes : List UInt8)
  | sites
  | metadata
  | blocked
  deriving DecidableEq

def Phase.file : Phase → CacheFile
  | .rollSites _ => .sitesBak
  | .rollMetadata _ => .metadataBak
  | .sites => .sites
  | .metadata => .metadata
  | .blocked => .blockedIps

def firstPhase (d : Dir) : Phase :=
  match d.read .sites, readSnapshot fmt d with
  | some bytes, .ok _ => .rollSites bytes
  | _, _ => .sites

def Phase.next (d : Dir) : Phase → Option Phase
  | .rollSites _ => some ((d.read .metadata).elim .sites .rollMetadata)
  | .rollMetadata _ => some .sites
  | .sites => some .metadata
  | .metadata => some .blocked
  | .blocked => none

inductive WriteStage where
  | create
  | write
  | sync
  | rename
  | syncDir

structure PersistCall (ρ : Type) where
  rules : ρ
  sitesJson : List UInt8
  blocked : List BlockedIpEntry
  phase : Phase
  stage : WriteStage

def stampFor (agentId : String) (rules : ρ) (sitesJson : List UInt8) : CacheMetadata where
  configHash := fmt.configHash rules
  updatedAt := fmt.updatedAt rules
  agentId := agentId
  version := cacheFormatVersion
  sitesCrc32 := some (fmt.crc32 sitesJson)
  sitesLen := some sitesJson.length

def PersistCall.content (agentId : String) (call : PersistCall ρ) : Option (List UInt8) :=
  match call.phase with
  | .rollSites bytes => some bytes
  | .rollMetadata bytes => some bytes
  | .sites => some call.sitesJson
  | .metadata => fmt.metadataJson (stampFor fmt agentId call.rules call.sitesJson)
  | .blocked => fmt.blockedJson call.blocked

/-- The cache directory and the process that writes to it, and what has happened so far: the
snapshots of the calls that have begun, and the number of the last one that has run to its end. -/
structure CacheDisk (ρ : Type) where
  present : Bool
  dir : Dir
  pid : Nat
  seq : Nat
  call : Option (PersistCall ρ)
  begun : List ρ
  completed : Option Nat

def CacheDisk.start (present : Bool) (dir : Dir) (pid : Nat) : CacheDisk ρ :=
  ⟨present, dir, pid, 0, none, [], none⟩

section

variable (agentId : String) (w : CacheDisk ρ)

def CacheDisk.persistToDisk (rules : ρ) (blocked : List BlockedIpEntry) : CacheDisk ρ :=
  match w.present, w.call, fmt.rulesJson rules with
  | true, none, some sitesJson =>
    { w with
      call := some ⟨rules, sitesJson, blocked, firstPhase fmt w.dir, .create⟩
      begun := w.begun ++ [rules] }
  | _, _, _ => w

def CacheDisk.temp (call : PersistCall ρ) : FileName := .temp call.phase.file w.pid w.seq

def CacheDisk.writeAtomic (call : PersistCall ρ) (bytes : List UInt8) : CacheDisk ρ :=
  match call.stage with
  | .create =>
    { w with dir := w.dir.insert (w.temp call) [], call := some { call with stage := .write } }
  | .write =>
    { w with dir := w.dir.insert (w.temp call) bytes, call := some { call with stage := .sync } }
  | .sync => { w with call := some { call with stage := .rename } }
  | .rename =>
    match w.dir.lookup (w.temp call) with
    | none => { w with call := none }
    | some bytes =>
      { w with
        dir := (w.dir.erase (w.temp call)).insert (.file call.phase.file) bytes
        call := some { call with stage := .syncDir } }
  | .syncDir =>
    match call.phase.next w.dir with
    | some phase =>
      { w with seq := w.seq + 1, call := some { call with phase := phase, stage := .create } }
    | none =>
      { w with seq := w.seq + 1, call := none, completed := some (w.begun.length - 1) }

def CacheDisk.advance : CacheDisk ρ :=
  match w.call with
  | none => w
  | some call =>
    match call.content fmt agentId with
    | none => { w with call := none }
    | some bytes => w.writeAtomic call bytes

def CacheDisk.fail : CacheDisk ρ :=
  match w.call with
  | none => w
  | some call => { w with dir := w.dir.erase (w.temp call), call := none }

end

inductive DiskStep (ρ : Type) where
  | persist (rules : ρ) (blocked : List BlockedIpEntry)
  | advance
  | fail
  /-- The process ends wherever it is, and another one takes its place. -/
  | crash (pid : Nat)
  /-- Something else overwrites or removes `sites.json`. -/
  | damage (content : Option (List UInt8))

def CacheDisk.damage (w : CacheDisk ρ) (content : Option (List UInt8)) : CacheDisk ρ :=
  match content with
  | none => { w with dir := w.dir.erase (.file .sites) }
  | some bytes => { w with dir := w.dir.insert (.file .sites) bytes }

def CacheDisk.step (agentId : String) (w : CacheDisk ρ) : DiskStep ρ → CacheDisk ρ
  | .persist rules blocked => w.persistToDisk fmt rules blocked
  | .advance => w.advance fmt agentId
  | .fail => w.fail
  | .crash pid => { w with pid := pid, seq := 0, call := none }
  | .damage content => w.damage content

def CacheDisk.run (agentId : String) (w : CacheDisk ρ) (steps : List (DiskStep ρ)) : CacheDisk ρ :=
  steps.foldl (CacheDisk.step fmt agentId) w

end PingWaf.Agent
