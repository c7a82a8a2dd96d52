import PingWaf.Cache.Storage

/-!
# Disk quotas of the file cache

The file cache of an edge together with the ledger of the disk space that each domain uses
(`DiskQuotaManager`). The ledger is told of writes, reads and removals; it evicts, purges and scans
the directory. Objects carry the time at which they were stored and the domain they were stored for,
which no operation looks at.
-/

namespace PingWaf.Cache

open Text

/-! ## Names and paths -/

def isSafeComponent (name : String) : Bool :=
  name ≠ "" && !name.toList.contains '/' && !name.toList.contains '\\' && !hasSub name ".."

structure CacheDomain where
  name : String
  safe : isSafeComponent name = true
  deriving DecidableEq

/-- `CacheKey::combined`: a hash in hexadecimal. -/
structure HashedKey where
  text : String
  hex : (text ≠ "" && text.toList.all fun ch => (hexVal ch).isSome) = true
  deriving DecidableEq

/-- A cache file under the root: the directory of its domain, then those of the levels. -/
structure RelPath where
  domain : CacheDomain
  levels : List String
  key : HashedKey
  deriving DecidableEq

def pushLevelDir (key : List Char) (acc : List String × Nat) (level : Nat) : List String × Nat :=
  if acc.2 > level then
    (acc.1 ++ [String.ofList ((key.drop (acc.2 - level)).take level)], acc.2 - level)
  else acc

def levelDirs (levels : List Nat) (key : List Char) : List String :=
  (levels.foldl (pushLevelDir key) ([], key.length - 1)).1

def FileCache.relPath (c : FileCache) (d : CacheDomain) (key : HashedKey) : RelPath :=
  ⟨d, levelDirs c.levels key.text.toList, key⟩

/-- `<domain>/<key>`, the layout without levels. -/
def keyPath (d : CacheDomain) (key : HashedKey) : RelPath := ⟨d, [], key⟩

/-! ## The ledger of a domain -/

def bytesPerMb : Nat := 1024 * 1024

def evictionScanLimit : Nat := 10000

structure LedgerEntry where
  sizeBytes : Nat
  lastAccessed : Nat
  /-- Where a scan has found the file. -/
  relPath : Option RelPath

def entryPath (d : CacheDomain) (key : HashedKey) (entry : Option LedgerEntry) : RelPath :=
  (entry.bind LedgerEntry.relPath).getD (keyPath d key)

structure DomainUsage where
  currentBytes : Nat
  /-- Zero stands for no ceiling. -/
  maxBytes : Nat
  entries : Table HashedKey LedgerEntry

namespace DomainUsage

def new (maxBytes : Nat) : DomainUsage := ⟨0, maxBytes, ∅⟩

variable (u : DomainUsage)

def isOverQuota : Bool := 0 < u.maxBytes && u.maxBytes < u.currentBytes

def recordWrite (key : HashedKey) (sizeBytes now : Nat) : DomainUsage :=
  { u with
    currentBytes := u.currentBytes - ((u.entries.lookup key).map (·.sizeBytes)).getD 0 + sizeBytes
    entries := u.entries.insert key ⟨sizeBytes, now, none⟩ }

def recordAccess (key : HashedKey) (now : Nat) : DomainUsage :=
  { u with entries := u.entries.adjust key fun e => { e with lastAccessed := now } }

def recordRemove (key : HashedKey) (sizeBytes : Nat) : DomainUsage :=
  { u with
    currentBytes :=
      u.currentBytes - ((u.entries.lookup key).map (·.sizeBytes)).getD sizeBytes
    entries := u.entries.erase key }

def reset : DomainUsage := { u with currentBytes := 0, entries := ∅ }

def restore (path : RelPath) (sizeBytes atime now : Nat) : DomainUsage :=
  { u with
    currentBytes := u.currentBytes + sizeBytes
    entries := u.entries.insert path.key
      ⟨sizeBytes, if 0 < atime then atime else now, some path⟩ }

/-! ### Eviction -/

/-- Keys with the time of their last use and their size, oldest first, until enough is freed. -/
def pickOldest : Nat → List (HashedKey × LedgerEntry) → List HashedKey
  | _, [] => []
  | mustFree, (key, e) :: rest =>
    if mustFree = 0 then [] else key :: pickOldest (mustFree - e.sizeBytes) rest

def iteration (order : List HashedKey) : List HashedKey :=
  if order.Perm u.entries.keys then order else u.entries.keys

def scanned (order : List HashedKey) : List (HashedKey × LedgerEntry) :=
  ((u.iteration order).take evictionScanLimit).filterMap fun key =>
    (u.entries.lookup key).map fun e => (key, e)

def getEvictionCandidates (order : List HashedKey) : List HashedKey :=
  if u.maxBytes = 0 ∨ u.currentBytes ≤ u.maxBytes then []
  else pickOldest (u.currentBytes - u.maxBytes)
    ((u.scanned order).mergeSort fun a b => a.2.lastAccessed ≤ b.2.lastAccessed)

end DomainUsage

/-! ## The edge -/

structure StoredObject where
  object : CacheObject
  domain : CacheDomain
  born : Nat

/-- The memory layer and the directory of a file backend, the ledger beside it, the ceilings in
`.quota.json`, and the number of steps so far. -/
structure Edge where
  clock : Nat
  hot : Table HashedKey StoredObject
  disk : Table RelPath StoredObject
  usage : Table CacheDomain DomainUsage
  persisted : Table CacheDomain Nat

namespace Edge

def fresh : Edge := ⟨0, ∅, ∅, ∅, ∅⟩

variable (c : FileCache) (s : Edge)

def onUsage (d : CacheDomain) (f : DomainUsage → DomainUsage) : Edge :=
  { s with usage := s.usage.adjust d f }

def ensureDomain (usage : Table CacheDomain DomainUsage) (d : CacheDomain) :
    Table CacheDomain DomainUsage :=
  match usage.lookup d with
  | some _ => usage
  | none => usage.insert d (.new 0)

/-! ### The file backend -/

def putHot (key : HashedKey) (o : StoredObject) : Edge :=
  if !c.hot then s
  else if o.object.getWeight ≥ c.cacheFileMaxWeight then s
  else { s with hot := s.hot.insert key o }

/-- `FileCache::put`, unless a limit turns the write to disk away. -/
def store (d : CacheDomain) (key : HashedKey) (o : StoredObject) (turnedAway : Bool) (now : Nat) :
    Edge :=
  let s := s.putHot c key o
  if turnedAway then s
  else
    { s with disk := s.disk.insert (c.relPath d key) o }.onUsage d
      (·.recordWrite key o.object.fileLen now)

/-- `FileCache::read_entry`. -/
def get (d : CacheDomain) (key : HashedKey) (overQuota : Bool) (now : Nat) :
    Option StoredObject × Edge :=
  match if c.hot then s.hot.lookup key else none with
  | some o => (some o, s)
  | none =>
    if overQuota then (none, s)
    else
      match s.disk.lookup (c.relPath d key) with
      | none => (none, s)
      | some o =>
        (some o, (if o.object.fileLen ≤ inlineMaxBytes then s.putHot c key o else s).onUsage d
          (·.recordAccess key now))

/-- `FileCache::remove`: whether it reports an object, which it never does. -/
def remove (d : CacheDomain) (key : HashedKey) : Bool × Edge :=
  let hot := if c.hot then s.hot.erase key else s.hot
  (false, { s with hot := hot, disk := s.disk.erase (c.relPath d key) }.onUsage d
    (·.recordRemove key 0))

def sweepOne (s : Edge) (path : RelPath) : Edge :=
  match s.disk.lookup path with
  | none => s
  | some o =>
    { s with disk := s.disk.erase path }.onUsage path.domain
      (·.recordRemove path.key o.object.fileLen)

/-- A file of `FileCache::purge_namespace`. -/
def purgeFile (s : Edge) (path : RelPath) : Edge :=
  { s with disk := s.disk.erase path, hot := if c.hot then s.hot.erase path.key else s.hot }

def purgeNamespace (d : CacheDomain) : Edge :=
  ((s.disk.keys.filter fun path => path.domain = d).foldl (purgeFile c) s).onUsage d .reset

/-! ### The ledger -/

def persistQuotas : Edge :=
  { s with persisted := s.usage.mapVal fun u => u.maxBytes / bytesPerMb }

def setQuota (d : CacheDomain) (maxMb : Nat) : Edge :=
  let usage := ensureDomain s.usage d
  let previous := (usage.lookup d).map (·.maxBytes)
  let s := { s with usage := usage.adjust d fun u => { u with maxBytes := maxMb * bytesPerMb } }
  if previous = some (maxMb * bytesPerMb) then s else s.persistQuotas

def forgetDomain (d : CacheDomain) : Edge :=
  match s.usage.lookup d with
  | some _ => { s with usage := s.usage.erase d }.persistQuotas
  | none => s

def evictOne (d : CacheDomain) (st : Table RelPath StoredObject × DomainUsage) (key : HashedKey) :
    Table RelPath StoredObject × DomainUsage :=
  if !st.2.isOverQuota then st
  else
    let entry := st.2.entries.lookup key
    (st.1.erase (entryPath d key entry),
      st.2.recordRemove key ((entry.map (·.sizeBytes)).getD 0))

def evictToFit (d : CacheDomain) (order : List HashedKey) : Edge :=
  match s.usage.lookup d with
  | none => s
  | some u =>
    if !u.isOverQuota then s
    else
      let st := (u.getEvictionCandidates order).foldl (evictOne d) (s.disk, u)
      { s with disk := st.1, usage := s.usage.insert d st.2 }

def purgeDomain (d : CacheDomain) : Edge :=
  { s with disk := s.disk.retain fun path _ => path.domain ≠ d }.onUsage d .reset

def purgeUrl (d : CacheDomain) (s : Edge) (key : HashedKey) : Edge :=
  match s.usage.lookup d with
  | none => s
  | some u =>
    let entry := u.entries.lookup key
    { s with
      disk := s.disk.erase (entryPath d key entry)
      usage := s.usage.insert d (u.recordRemove key ((entry.map (·.sizeBytes)).getD 0)) }

def purgeUrls (d : CacheDomain) (keys : List HashedKey) : Edge := keys.foldl (purgeUrl d) s

def scanOne (atime : RelPath → Nat) (now : Nat) (usage : Table CacheDomain DomainUsage)
    (file : RelPath × StoredObject) : Table CacheDomain DomainUsage :=
  (ensureDomain usage file.1.domain).adjust file.1.domain
    (·.restore file.1 file.2.object.fileLen (atime file.1) now)

/-- `load`: the ceilings that were kept, then a scan of the directory. -/
def load (atime : RelPath → Nat) (now : Nat) : Edge :=
  let usage := s.persisted.entries.foldl (fun usage quota =>
    (ensureDomain usage quota.1).adjust quota.1
      fun u => { u with maxBytes := quota.2 * bytesPerMb }) s.usage
  { s with usage := (s.disk.entries.map fun e => (e.1, e.2)).foldl (scanOne atime now) usage }

/-! ### Runs -/

inductive Event where
  | put (d : CacheDomain) (key : HashedKey) (object : CacheObject) (turnedAway : Bool) (now : Nat)
  | updateMeta (d : CacheDomain) (key : HashedKey) (meta0 meta1 : List UInt8)
      (overQuota turnedAway : Bool) (now : Nat)
  | get (d : CacheDomain) (key : HashedKey) (overQuota : Bool) (now : Nat)
  | remove (d : CacheDomain) (key : HashedKey)
  /-- A file that cannot be read is deleted. -/
  | discardCorrupt (path : RelPath)
  /-- Files that are inactive, or over the budget of the directory. -/
  | sweep (gone : RelPath → Bool)
  /-- Objects that the memory layer lets go. -/
  | dropHot (keep : HashedKey → Bool)
  | setQuota (d : CacheDomain) (maxMb : Nat)
  | forget (d : CacheDomain)
  | evict (d : CacheDomain) (order : List HashedKey)
  | purgeDomain (d : CacheDomain)
  | purgeUrls (d : CacheDomain) (keys : List HashedKey)
  | purgeNamespace (d : CacheDomain)
  /-- A backend for the directory is made anew beside the ledger. -/
  | rescan (atime : RelPath → Nat) (now : Nat)
  | restart (atime : RelPath → Nat) (now : Nat)

def effect : Event → Edge
  | .put d key object turnedAway now => s.store c d key ⟨object, d, s.clock⟩ turnedAway now
  | .updateMeta d key meta0 meta1 overQuota turnedAway now =>
    match s.get c d key overQuota now with
    | (some o, s) =>
      s.store c d key { o with object := { o.object with meta0, meta1 } } turnedAway now
    | (none, s) => s
  | .get d key overQuota now => (s.get c d key overQuota now).2
  | .remove d key => (s.remove c d key).2
  | .discardCorrupt path => { s with disk := s.disk.erase path }
  | .sweep gone => (s.disk.keys.filter gone).foldl sweepOne s
  | .dropHot keep => { s with hot := s.hot.retain fun key _ => keep key }
  | .setQuota d maxMb => s.setQuota d maxMb
  | .forget d => s.forgetDomain d
  | .evict d order => s.evictToFit d order
  | .purgeDomain d => s.purgeDomain d
  | .purgeUrls d keys => s.purgeUrls d keys
  | .purgeNamespace d => s.purgeNamespace c d
  | .rescan atime now => s.load atime now
  | .restart atime now => { s with hot := ∅, usage := ∅ }.load atime now

def step (event : Event) : Edge := { s.effect c event with clock := s.clock + 1 }

def run (events : List Event) : Edge := events.foldl (step c) s

def diskBytes (d : CacheDomain) : Nat :=
  s.disk.total fun path o => if path.domain = d then o.object.fileLen else 0

end Edge

end PingWaf.Cache
