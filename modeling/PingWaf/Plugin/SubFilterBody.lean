import PingWaf.Lib.Chunks
import PingWaf.Lib.Coding
import PingWaf.Plugin.SubFilter
import PingWaf.Plugin.Rewrite

/-!
# Body replacement of the `sub_filter` plugin

The replacer buffers a response body, decodes it, applies the rules and encodes it again. A body
that outgrows the buffer is passed on as it came.
-/

namespace PingWaf.Plugin

open Text

inductive ContentEncoding where
  | plain
  | gzip
  | deflate
  | brotli
  | zstd
  deriving DecidableEq

def removeLines (name : String) (headers : List HeaderLine) : List HeaderLine :=
  headers.filter fun l => l.name ≠ name

/-- The coders of `flate2`, `brotli` and `zstd`. The encoders' streams are read back as they were
written; what the Brotli decompressor makes of octets behind a stream is left open. -/
structure Codecs where
  gzip : Coding.Decoder UInt8
  zlib : Coding.Decoder UInt8
  rawDeflate : Coding.Decoder UInt8
  brotli : Coding.Decoder UInt8
  zstd : Coding.Decoder UInt8
  brotliReads : List UInt8 → Option (List UInt8)
  gzipEncode : List UInt8 → Option (List UInt8)
  zlibEncode : List UInt8 → Option (List UInt8)
  brotliEncode : List UInt8 → Option (List UInt8)
  zstdEncode : List UInt8 → Option (List UInt8)
  gzip_encode : ∀ p raw, gzipEncode p = some raw → gzip.read raw = some (p, [])
  zlib_encode : ∀ p raw, zlibEncode p = some raw → zlib.read raw = some (p, [])
  brotli_encode : ∀ p raw, brotliEncode p = some raw → brotli.read raw = some (p, [])
  zstd_encode : ∀ p raw, zstdEncode p = some raw → zstd.read raw = some (p, [])

def maxSubFilterBytes : Nat := 8 * 1024 * 1024

/-- What is read of a decoder, up to the cap and one octet more: a longer text is given up. -/
def capped (plaintext : Option (List UInt8)) : Option (List UInt8) :=
  plaintext.filter fun p => p.length ≤ maxSubFilterBytes

section

variable (k : Codecs)

/-- What the plugin decodes. `GzDecoder` reads the first member of a gzip file, and the decoders of
zlib and raw deflate end with their stream too; the one of `zstd` goes on with the next frame. -/
def decompress (encoding : ContentEncoding) (raw : List UInt8) : Option (List UInt8) :=
  match encoding with
  | .plain => some raw
  | .gzip => capped (k.gzip.first raw)
  | .deflate => (capped (k.zlib.first raw)).or (capped (k.rawDeflate.first raw))
  | .brotli => capped (k.brotliReads raw)
  | .zstd => capped (k.zstd.all raw)

def recompress (encoding : ContentEncoding) (plaintext : List UInt8) : Option (List UInt8) :=
  match encoding with
  | .plain => some plaintext
  | .gzip => k.gzipEncode plaintext
  | .deflate => k.zlibEncode plaintext
  | .brotli => k.brotliEncode plaintext
  | .zstd => k.zstdEncode plaintext

/-- What a body stands for under a coding: a gzip file is its members one after another, a Zstandard
file its frames, and a stream of the others is the whole body. -/
def decoded (encoding : ContentEncoding) (raw : List UInt8) : Option (List UInt8) :=
  match encoding with
  | .plain => some raw
  | .gzip => k.gzip.all raw
  | .deflate => (k.zlib.whole raw).or (k.rawDeflate.whole raw)
  | .brotli => k.brotli.whole raw
  | .zstd => k.zstd.all raw

/-! ## The replacer -/

structure SubFilterReplacer where
  filters : List SubFilterParams
  buffer : List UInt8
  passthrough : Bool
  encoding : ContentEncoding

def SubFilter.replacer (p : SubFilter) (encoding : ContentEncoding) : SubFilterReplacer :=
  ⟨p.filters, [], false, encoding⟩

variable (c : Replacing)

def SubFilterReplacer.applyFilters (r : SubFilterReplacer) (data : List UInt8) : List UInt8 :=
  r.filters.foldl (fun data item => item.apply c data) data

/-- What becomes of a body that is complete. Every failure falls back to the bytes that came. -/
def SubFilterReplacer.finish (r : SubFilterReplacer) (raw : List UInt8) : List UInt8 :=
  match r.encoding with
  | .plain => r.applyFilters c raw
  | encoding =>
    match decompress k encoding raw with
    | none => raw
    | some plaintext =>
      let data := r.applyFilters c plaintext
      if data = plaintext then raw else (recompress k encoding data).getD raw

def SubFilterReplacer.handle (r : SubFilterReplacer) (body : Option (List UInt8))
    (endOfStream : Bool) : Option (List UInt8) × SubFilterReplacer :=
  if r.passthrough then (body, r)
  else
    let buffer := r.buffer ++ body.getD []
    if maxSubFilterBytes < buffer.length then
      (some buffer, { r with buffer := [], passthrough := true })
    else if !endOfStream then (body.map fun _ => [], { r with buffer })
    else (some (r.finish k c buffer), { r with buffer := [] })

def SubFilterReplacer.emit (r : SubFilterReplacer) (chunks : List (Option (List UInt8))) :
    List (List UInt8) :=
  Chunks.emit (SubFilterReplacer.handle k c) r chunks

end

end PingWaf.Plugin
