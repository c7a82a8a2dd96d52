import PingWaf.Cache.Plugin

/-!
# The storage behind the cache

The two backends, one in memory and one on disk with an optional memory layer in front, and the
operations that a request performs on them. Whether a concurrency limit, a disk budget or an I/O
error turns an operation away is an argument of the operation; entries that the backends drop on
their own are dropped by a step of its own.
-/

namespace PingWaf.Cache

open Text

/-! ## Objects -/

structure CacheObject where
  meta0 : List UInt8
  meta1 : List UInt8
  body : List UInt8

def pageSize : Nat := 4096

def maxObjectCacheSize : Nat := 10 * 1024 * pageSize

def inlineMaxBytes : Nat := 256 * 1024

def metaSizeLength : Nat := 8

namespace CacheObject

variable (o : CacheObject)

def size : Nat := o.body.length + o.meta0.length + o.meta1.length

def getWeight : Nat :=
  if o.size ≤ pageSize then 1
  else if o.size ≥ maxObjectCacheSize then 65535
  else o.size / pageSize

def fileLen : Nat := metaSizeLength + o.size

end CacheObject

/-- An object together with the request whose response it is. No operation looks at the latter. -/
structure Filed (k : Primitives) where
  object : CacheObject
  storedBy : CacheUse k

/-! ## Backends -/

structure FileCache where
  directory : String
  /-- Whether there is a memory layer (`cache_max`). -/
  hot : Bool
  cacheFileMaxWeight : Nat
  levels : List Nat

inductive Backend where
  | tinyUfo
  | file (cache : FileCache)

structure FilePath where
  dir : String
  name : String
  deriving DecidableEq

structure Storage (k : Primitives) where
  memory : Table Nat (Filed k)
  disk : Table FilePath (Filed k)

/-- `PathBuf::push`. -/
def pushPath (path part : String) : String :=
  if hasPrefix part "/" then part
  else if path = "" ∨ hasSuffix path "/" then path ++ part
  else path ++ "/" ++ part

def pushLevel (key : List Char) (acc : String × Nat) (level : Nat) : String × Nat :=
  if acc.2 > level then
    (pushPath acc.1 (String.ofList ((key.drop (acc.2 - level)).take level)), acc.2 - level)
  else acc

namespace FileCache

variable (k : Primitives) (c : FileCache)

def fileDir (key nameSpace : String) : String :=
  let base := if nameSpace = "" then c.directory else pushPath c.directory nameSpace
  (c.levels.foldl (pushLevel key.toList) (base, key.toList.length - 1)).1

/-- `get_file_path`: the key is the file's name. -/
def getFilePath (key nameSpace : String) : FilePath :=
  ⟨k.resolveDir (c.fileDir key nameSpace), key⟩

end FileCache

namespace Storage

variable {k : Primitives}

def empty : Storage k := ⟨∅, ∅⟩

/-! ## Memory -/

def memoryGet (st : Storage k) (key : String) : Option (Filed k) := st.memory.lookup (k.hashOne key)

def memoryPut (st : Storage k) (key : String) (o : Filed k) : Storage k :=
  { st with memory := st.memory.insert (k.hashOne key) o }

def memoryRemove (st : Storage k) (key : String) : Storage k :=
  { st with memory := st.memory.erase (k.hashOne key) }

/-! ## The file backend -/

def putHot (c : FileCache) (st : Storage k) (key : String) (o : Filed k) : Storage k :=
  if !c.hot then st
  else if o.object.getWeight ≥ c.cacheFileMaxWeight then st
  else st.memoryPut key o

/-- `read_entry`: memory first; a small object read from disk is put there. -/
def readEntry (c : FileCache) (overQuota : Bool) (st : Storage k) (key nameSpace : String) :
    Option (Filed k) × Storage k :=
  match if c.hot then st.memoryGet key else none with
  | some o => (some o, st)
  | none =>
    if overQuota then (none, st)
    else match st.disk.lookup (c.getFilePath k key nameSpace) with
      | none => (none, st)
      | some o =>
        (some o, if o.object.fileLen ≤ inlineMaxBytes then putHot c st key o else st)

/-- `put`: memory, then the disk unless the write is turned away. -/
def putFile (c : FileCache) (turnedAway : Bool) (st : Storage k) (key nameSpace : String)
    (o : Filed k) : Storage k :=
  let st := putHot c st key o
  if turnedAway then st
  else { st with disk := st.disk.insert (c.getFilePath k key nameSpace) o }

def removeFile (c : FileCache) (st : Storage k) (key nameSpace : String) : Storage k :=
  let st := if c.hot then st.memoryRemove key else st
  { st with disk := st.disk.erase (c.getFilePath k key nameSpace) }

/-! ## The storage interface -/

structure Pressure where
  read : Bool
  write : Bool

def get (b : Backend) (limits : Pressure) (st : Storage k) (key nameSpace : String) :
    Option (Filed k) × Storage k :=
  match b with
  | .tinyUfo => (st.memoryGet key, st)
  | .file c => readEntry c limits.read st key nameSpace

def put (b : Backend) (limits : Pressure) (st : Storage k) (key nameSpace : String)
    (o : Filed k) : Storage k :=
  match b with
  | .tinyUfo => st.memoryPut key o
  | .file c => putFile c limits.write st key nameSpace o

/-- `remove`, with the object that it reports; the file backend reports none. -/
def remove (b : Backend) (st : Storage k) (key nameSpace : String) :
    Option (Filed k) × Storage k :=
  match b with
  | .tinyUfo => (st.memoryGet key, st.memoryRemove key)
  | .file c => (none, removeFile c st key nameSpace)

/-! ## `pingora`'s interface -/

def lookup (b : Backend) (limits : Pressure) (st : Storage k) (key : CacheKey) :
    Option (Filed k) × Storage k :=
  st.get b limits (key.combined k) key.userTag

def finish (b : Backend) (limits : Pressure) (st : Storage k) (key : CacheKey) (o : Filed k) :
    Storage k :=
  st.put b limits (key.combined k) key.userTag o

def purge (b : Backend) (st : Storage k) (key : CacheKey) : Bool × Storage k :=
  let (removed, st) := st.remove b (key.combined k) key.userTag
  (removed.isSome, st)

def updateMeta (b : Backend) (limits : Pressure) (st : Storage k) (key : CacheKey)
    (meta0 meta1 : List UInt8) : Except String Bool × Storage k :=
  match st.get b limits (key.combined k) key.userTag with
  | (some o, st) =>
    (.ok true, st.put b limits (key.combined k) key.userTag
      { o with object := { o.object with meta0, meta1 } })
  | (none, st) => (.error "no meta found", st)

/-! ## Runs -/

/-- What can happen to a storage. Evictions, sweeps of inactive files, namespace purges, quotas
and restarts only take entries away. -/
inductive Op (k : Primitives) where
  | lookup (u : CacheUse k) (variance : Option (List UInt8)) (limits : Pressure)
  | finish (u : CacheUse k) (variance : Option (List UInt8)) (limits : Pressure)
      (object : CacheObject)
  | updateMeta (u : CacheUse k) (variance : Option (List UInt8)) (limits : Pressure)
      (meta0 meta1 : List UInt8)
  | purge (key : CacheKey)
  | drop (keepMemory : Nat → Filed k → Bool) (keepFile : FilePath → Filed k → Bool)

def step (b : Backend) (st : Storage k) : Op k → Storage k
  | .lookup u variance limits => (st.lookup b limits (u.key variance)).2
  | .finish u variance limits object => st.finish b limits (u.key variance) ⟨object, u⟩
  | .updateMeta u variance limits meta0 meta1 =>
    (st.updateMeta b limits (u.key variance) meta0 meta1).2
  | .purge key => (st.purge b key).2
  | .drop keepMemory keepFile => ⟨st.memory.retain keepMemory, st.disk.retain keepFile⟩

def run (b : Backend) (st : Storage k) (ops : List (Op k)) : Storage k := ops.foldl (step b) st

end Storage

end PingWaf.Cache
