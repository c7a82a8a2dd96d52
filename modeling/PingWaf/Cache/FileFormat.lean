import PingWaf.Cache.Storage

/-!
# Cache files

The layout of a cache file (two lengths, two metadata halves, the body), its encoder and its two
readers: the parser of a whole file and the reader that opens a large file, parses its head and
leaves the body to be read in pieces. A slice past the end is an error of its own, for the process
aborts there.
-/

namespace PingWaf.Cache

inductive ReadError where
  | invalid (message : String)
  | outOfRange

def splitTo (n : Nat) (data : List UInt8) : Except ReadError (List UInt8 × List UInt8) :=
  if n ≤ data.length then .ok (data.take n, data.drop n) else .error .outOfRange

/-- `u32::from_be_bytes` of the four bytes from `i` on. -/
def fromBeBytes (header : List UInt8) (i : Nat) : Nat :=
  (((header.getD i 0).toNat * 256 + (header.getD (i + 1) 0).toNat) * 256 +
    (header.getD (i + 2) 0).toNat) * 256 + (header.getD (i + 3) 0).toNat

/-- `put_u32` of a length, of which the low 32 bits count. -/
def putU32 (n : Nat) : List UInt8 :=
  [UInt8.ofNat (n / 2 ^ 24), UInt8.ofNat (n / 2 ^ 16), UInt8.ofNat (n / 2 ^ 8), UInt8.ofNat n]

def parseMetaSizes (header : List UInt8) : Except ReadError (Nat × Nat) :=
  if header.length < metaSizeLength then
    .error (.invalid
      s!"cache object is truncated, {header.length} bytes is shorter than the header")
  else .ok (fromBeBytes header 0, fromBeBytes header 4)

def truncated (metaSize present : Nat) : ReadError :=
  .invalid
    s!"cache object is truncated, meta claims {metaSize} bytes but only {present} are present"

namespace CacheObject

def tryFrom (value : List UInt8) : Except ReadError CacheObject := do
  let sizes ← parseMetaSizes value
  let data ← splitTo metaSizeLength value
  let metaSize := satAdd maxU64 sizes.1 sizes.2
  if metaSize > data.2.length then .error (truncated metaSize data.2.length)
  else
    let meta0 ← splitTo sizes.1 data.2
    let meta1 ← splitTo sizes.2 meta0.2
    return ⟨meta0.1, meta1.1, meta1.2⟩

def toBytes (o : CacheObject) : List UInt8 :=
  putU32 o.meta0.length ++ putU32 o.meta1.length ++ o.meta0 ++ o.meta1 ++ o.body

end CacheObject

/-! ## Open files -/

structure Handle where
  content : List UInt8
  pos : Nat

namespace Handle

variable (h : Handle)

def readExact (n : Nat) : Option (List UInt8 × Handle) :=
  if h.pos + n ≤ h.content.length then
    some ((h.content.drop h.pos).take n, { h with pos := h.pos + n })
  else none

def seek (pos : Nat) : Handle := { h with pos }

end Handle

inductive CachedPayload where
  | inline (body : List UInt8)
  | stream (file : Handle) (offset len : Nat)

structure CachedEntry where
  meta0 : List UInt8
  meta1 : List UInt8
  payload : CachedPayload

def discardCorrupt : ReadError → Except ReadError (Option CachedEntry)
  | .invalid _ => .ok none
  | .outOfRange => .error .outOfRange

def readInlineEntry (content : List UInt8) : Except ReadError (Option CachedEntry) :=
  match CacheObject.tryFrom content with
  | .ok o => .ok (some ⟨o.meta0, o.meta1, .inline o.body⟩)
  | .error e => discardCorrupt e

def openBody (file : Handle) (sizes : Nat × Nat) (fileLen : Nat) :
    Except ReadError (Option CachedEntry) :=
  let metaSize := satAdd maxU64 sizes.1 sizes.2
  let bodyOffset := satAdd maxU64 metaSizeLength metaSize
  if bodyOffset > fileLen then discardCorrupt (truncated metaSize (fileLen - metaSizeLength))
  else
    match if metaSize > 0 then file.readExact metaSize else some ([], file) with
    | none => discardCorrupt (.invalid "cache object is truncated, metadata read failed")
    | some read => do
      let halves ← splitTo sizes.1 read.1
      return some ⟨halves.1, halves.2,
        .stream (read.2.seek bodyOffset) bodyOffset (fileLen - bodyOffset)⟩

def openStreamEntry (content : List UInt8) : Except ReadError (Option CachedEntry) :=
  match (Handle.mk content 0).readExact metaSizeLength with
  | none => discardCorrupt (.invalid "cache object is truncated, header read failed")
  | some read =>
    match parseMetaSizes read.1 with
    | .error e => discardCorrupt e
    | .ok sizes => openBody read.2 sizes content.length

def readFileEntry (content : List UInt8) : Except ReadError (Option CachedEntry) :=
  if content.length ≤ inlineMaxBytes then readInlineEntry content else openStreamEntry content

/-! ## The body of a hit -/

def streamChunkBytes : Nat := 64 * 1024

structure CompleteHit where
  payload : CachedPayload
  done : Bool
  rangeEnd : Nat
  position : Nat

namespace CompleteHit

def new (payload : CachedPayload) : CompleteHit :=
  match payload with
  | .inline body => ⟨payload, false, body.length, 0⟩
  | .stream _ _ len => ⟨payload, false, len, 0⟩

def readBody (hit : CompleteHit) : Option (List UInt8) × CompleteHit :=
  if hit.done then (none, hit)
  else
    match hit.payload with
    | .inline body => (some (body.take hit.rangeEnd), { hit with done := true })
    | .stream file offset len =>
      if hit.position ≥ hit.rangeEnd then (none, { hit with done := true })
      else
        let want := min (hit.rangeEnd - hit.position) streamChunkBytes
        match file.readExact want with
        | none => (none, { hit with done := true })
        | some read => (some read.1,
          { hit with payload := .stream read.2 offset len, position := hit.position + want })

/-- What is sent: the pieces until there is none, or until `fuel` pieces were read. -/
def drain : Nat → CompleteHit → List UInt8
  | 0, _ => []
  | fuel + 1, hit =>
    match hit.readBody with
    | (none, _) => []
    | (some piece, hit) => piece ++ drain fuel hit

end CompleteHit

def CachedEntry.object (fuel : Nat) (e : CachedEntry) : CacheObject :=
  ⟨e.meta0, e.meta1, (CompleteHit.new e.payload).drain fuel⟩

end PingWaf.Cache
