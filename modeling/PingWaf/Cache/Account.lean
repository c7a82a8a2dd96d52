import PingWaf.Cache.Quota
import PingWaf.Lib.Once

/-!
# The counters of the quota ledger

`DiskQuotaManager` once more, for its arithmetic: byte counts stop at the ends of a 64-bit integer,
items are counted beside the entries, and domains and keys are any strings. What happens to files is
input: the order of a walk, the files that cannot be deleted, what a scan finds.
-/

namespace PingWaf.Cache.Account

structure Entry where
  sizeBytes : Nat
  lastAccessed : Nat

/-- A file of a scan; `accessed` is zero if the time is not known. -/
structure ScannedFile where
  key : String
  sizeBytes : Nat
  accessed : Nat

structure Usage where
  currentBytes : Nat
  maxBytes : Nat
  itemCount : Nat
  entries : Table String Entry
  fits : currentBytes ≤ maxU64

namespace Usage

def new (maxBytes : Nat) : Usage := ⟨0, maxBytes, 0, ∅, Nat.zero_le _⟩

variable (u : Usage)

def isOverQuota : Bool := 0 < u.maxBytes && u.maxBytes < u.currentBytes

def addBytes (delta : Nat) : Usage :=
  { u with
    currentBytes := satAdd maxU64 u.currentBytes delta
    fits := satAdd.le_top _ _ _ }

def subBytes (delta : Nat) : Usage :=
  { u with
    currentBytes := u.currentBytes - delta
    fits := (Nat.sub_le _ _).trans u.fits }

-- `fetch_add` wraps at a number of entries that no memory holds; `fetch_sub` wraps at zero.
def addItem : Usage := { u with itemCount := u.itemCount + 1 }

def subItem : Usage :=
  { u with itemCount := if u.itemCount = 0 then maxU64 else u.itemCount - 1 }

def recordWrite (key : String) (sizeBytes now : Nat) : Usage :=
  let written := { u with entries := u.entries.insert key ⟨sizeBytes, now⟩ }
  match u.entries.lookup key with
  | some old => (written.subBytes old.sizeBytes).addBytes sizeBytes
  | none => (written.addBytes sizeBytes).addItem

def recordAccess (key : String) (now : Nat) : Usage :=
  { u with entries := u.entries.adjust key fun e => { e with lastAccessed := now } }

def recordRemove (key : String) (sizeBytes : Nat) : Usage :=
  let removed := { u with entries := u.entries.erase key }
  match u.entries.lookup key with
  | some e => (removed.subBytes e.sizeBytes).subItem
  | none => removed.subBytes sizeBytes

def clear : Usage :=
  { u with currentBytes := 0, itemCount := 0, entries := ∅, fits := Nat.zero_le _ }

def restore (now : Nat) (u : Usage) (file : ScannedFile) : Usage :=
  let entry := ⟨file.sizeBytes, if 0 < file.accessed then file.accessed else now⟩
  ({ u with entries := u.entries.insert file.key entry }.addBytes file.sizeBytes).addItem

/-- The file of a key is deleted, and the key with it unless that fails. A file that is not there
counts as deleted. -/
def removeFile (stays : String → Bool) (u : Usage) (key : String) : Usage :=
  let size := ((u.entries.lookup key).map (·.sizeBytes)).getD 0
  if stays key then u else u.recordRemove key size

def pickOldest : Nat → List (String × Entry) → List String
  | _, [] => []
  | mustFree, (key, e) :: rest =>
    if mustFree = 0 then [] else key :: pickOldest (mustFree - e.sizeBytes) rest

def scanned (order : List String) : List (String × Entry) :=
  ((if order.Perm u.entries.keys then order else u.entries.keys).take evictionScanLimit).filterMap
    fun key => (u.entries.lookup key).map fun e => (key, e)

def getEvictionCandidates (order : List String) : List String :=
  if u.maxBytes = 0 ∨ u.currentBytes ≤ u.maxBytes then []
  else pickOldest (u.currentBytes - u.maxBytes)
    ((u.scanned order).mergeSort fun a b => a.2.lastAccessed ≤ b.2.lastAccessed)

def evictOne (stays : String → Bool) (u : Usage) (key : String) : Usage :=
  if !u.isOverQuota then u else u.removeFile stays key

def evictPass (order : List String) (stays : String → Bool) : Usage :=
  (u.getEvictionCandidates order).foldl (evictOne stays) u

def evictToFit (order : List String) (stays : String → Bool) : Usage :=
  if !u.isOverQuota then u else u.evictPass order stays

end Usage

/-! ## The manager -/

abbrev Book := Table String Usage

namespace Book

variable (book : Book)

def ensureDomain (domain : String) : Book :=
  match book.lookup domain with
  | some _ => book
  | none => book.insert domain (.new 0)

def setMaxBytes (domain : String) (maxMb : Nat) : Book :=
  (book.ensureDomain domain).adjust domain
    fun u => { u with maxBytes := min (maxMb * bytesPerMb) maxU64 }

def setQuota (quota : String × Nat) : Book := book.setMaxBytes quota.1 quota.2

def purgeDomain (domain : String) : Book :=
  if !isSafeComponent domain then book else book.adjust domain .clear

def purgeUrls (domain : String) (urls : List String) (stays : String → Bool) : Book :=
  if !isSafeComponent domain then book
  else urls.foldl (fun book key => book.adjust domain (·.removeFile stays key)) book

def scanDomain (now : Nat) (book : Book) (found : String × List ScannedFile) : Book :=
  (book.ensureDomain found.1).adjust found.1 fun u => found.2.foldl (Usage.restore now) u

def applyScan (now : Nat) (scanned : List (String × List ScannedFile)) : Book :=
  scanned.foldl (scanDomain now) book

/-- The ceilings of `.quota.json`, the scan, then the ceilings that were parked. -/
def load (quotas : List (String × Nat)) (scanned : List (String × List ScannedFile))
    (parked : List (String × Nat)) (now : Nat) : Book :=
  parked.foldl setQuota (applyScan (quotas.foldl setQuota book) now scanned)

inductive Call where
  | setQuota (domain : String) (maxMb : Nat)
  | recordWrite (domain key : String) (sizeBytes now : Nat)
  | recordAccess (domain key : String) (now : Nat)
  | recordRemove (domain key : String) (sizeBytes : Nat)
  | evictToFit (domain : String) (order : List String) (stays : String → Bool)
  | purgeDomain (domain : String)
  | purgeUrls (domain : String) (urls : List String) (stays : String → Bool)
  | load (quotas : List (String × Nat)) (scanned : List (String × List ScannedFile))
      (parked : List (String × Nat)) (now : Nat)

def step : Call → Book
  | .setQuota domain maxMb => book.setQuota (domain, maxMb)
  | .recordWrite domain key sizeBytes now => book.adjust domain (·.recordWrite key sizeBytes now)
  | .recordAccess domain key now => book.adjust domain (·.recordAccess key now)
  | .recordRemove domain key sizeBytes => book.adjust domain (·.recordRemove key sizeBytes)
  | .evictToFit domain order stays => book.adjust domain (·.evictToFit order stays)
  | .purgeDomain domain => book.purgeDomain domain
  | .purgeUrls domain urls stays => book.purgeUrls domain urls stays
  | .load quotas scanned parked now => book.load quotas scanned parked now

def run (calls : List Call) : Book := calls.foldl step ∅

end Book

end PingWaf.Cache.Account
