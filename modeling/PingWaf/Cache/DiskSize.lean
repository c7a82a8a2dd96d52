import PingWaf.Cache.FileFormat
import PingWaf.Lib.Once

/-!
# The size of the file cache

`FileCache.current_size` beside the files of the cache: writes that make room first, removals and
the two sweeps, one call after another and without I/O errors. What a walk of a directory lists, and
in which order, is input; a file is listed once. Sizes add up to less than the counter holds.
-/

namespace PingWaf.Cache

structure SizedDisk where
  currentSize : Nat
  files : Table FilePath Nat

namespace SizedDisk

def empty : SizedDisk := ⟨0, ∅⟩

variable (disk : SizedDisk)

def trackRemoved (len : Nat) : SizedDisk := { disk with currentSize := disk.currentSize - len }

/-- An object of `newLen` bytes replaces one of `oldLen`. -/
def trackWritten (oldLen newLen : Nat) : SizedDisk :=
  { disk with currentSize := disk.currentSize - oldLen + newLen }

def trackedLen (path : FilePath) : Nat := (disk.files.lookup path).getD 0

def removeTracked (path : FilePath) : SizedDisk :=
  match disk.files.lookup path with
  | none => disk
  | some len => { disk with files := disk.files.erase path }.trackRemoved len

def listCacheFiles (walk : List FilePath) : List (FilePath × Nat) :=
  walk.dedup.filterMap fun path => (disk.files.lookup path).map fun len => (path, len)

def dropFile (disk : SizedDisk) (file : FilePath × Nat) : SizedDisk :=
  { disk with files := disk.files.erase file.1 }.trackRemoved file.2

def evictFiles (maxSize need : Nat) : List (FilePath × Nat) → SizedDisk → SizedDisk
  | [], disk => disk
  | file :: rest, disk =>
    if disk.currentSize + need ≤ maxSize then disk
    else evictFiles maxSize need rest (disk.dropFile file)

/-- Whether a write of `need` more bytes may go ahead; a budget of zero is none. -/
def ensureDiskSpace (maxSize need : Nat) (walk : List FilePath) : Bool × SizedDisk :=
  if maxSize = 0 then (true, disk)
  else if need > maxSize then (false, disk)
  else if disk.currentSize + need ≤ maxSize then (true, disk)
  else (true, evictFiles maxSize need (disk.listCacheFiles walk) disk)

def put (maxSize : Nat) (path : FilePath) (newLen : Nat) (walk : List FilePath) : SizedDisk :=
  let oldLen := disk.trackedLen path
  let room := disk.ensureDiskSpace maxSize (newLen - oldLen) walk
  if room.1 then
    { room.2 with files := room.2.files.insert path newLen }.trackWritten oldLen newLen
  else room.2

def clear (stale : FilePath → Bool) (walk : List FilePath) : SizedDisk :=
  ((disk.listCacheFiles walk).filter fun file => stale file.1).foldl dropFile disk

def purgeNamespace (nameSpace : String) (walk : List FilePath) : SizedDisk :=
  if nameSpace = "" || nameSpace.toList.contains '/' || nameSpace.toList.contains '\\' ||
      Text.hasSub nameSpace ".." then disk
  else (disk.listCacheFiles walk).foldl dropFile disk

inductive Call where
  | put (key nameSpace : String) (object : CacheObject) (walk : List FilePath)
  | remove (key nameSpace : String)
  | clear (stale : FilePath → Bool) (walk : List FilePath)
  | purgeNamespace (nameSpace : String) (walk : List FilePath)

variable (k : Primitives) (c : FileCache) (maxSize : Nat)

def step : Call → SizedDisk
  | .put key nameSpace object walk =>
    disk.put maxSize (c.getFilePath k key nameSpace) object.toBytes.length walk
  | .remove key nameSpace => disk.removeTracked (c.getFilePath k key nameSpace)
  | .clear stale walk => disk.clear stale walk
  | .purgeNamespace nameSpace walk => disk.purgeNamespace nameSpace walk

def run (calls : List Call) : SizedDisk := calls.foldl (fun disk => step disk k c maxSize) empty

end SizedDisk

end PingWaf.Cache
