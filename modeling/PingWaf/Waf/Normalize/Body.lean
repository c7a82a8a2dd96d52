import PingWaf.Waf.External
import PingWaf.Waf.Normalize.Decode

/-!
# Request-body decoding

`decodeBody` undoes `Content-Encoding`, applies the declared charset and reads the octets as text,
and says in a `BodyInspection` how much of the body that text covers. Decompression is bounded:
each layer is read up to `maxDecompressedBody` octets.
-/

namespace PingWaf.Waf

open Text

def maxDecompressedBody : Nat := 1024 * 1024

inductive PrefixReason where
  | decompressedCap
  deriving DecidableEq

inductive BodyInspection where
  | inspected
  | pre (checked : Nat) (reason : PrefixReason)
  | uninspected (reason : String)
  deriving DecidableEq

def BodyInspection.detail : BodyInspection → Option String
  | .inspected => none
  | .pre checked .decompressedCap =>
    some ("body=prefix(checked=" ++ toString checked ++ ", reason=DecompressedCap)")
  | .uninspected reason => some ("body=uninspected(" ++ reason ++ ")")

structure DecodedBody where
  text : String
  inspection : BodyInspection
  deriving DecidableEq

abbrev Headers := List (String × String)

def headerValue (headers : Headers) (name : String) : Option String :=
  (headers.find? fun h => eqIgnoreAsciiCase h.1 name).map (·.2)

/-! ## Charset -/

def trimMatches (c : Char) (s : String) : String :=
  String.ofList (trimEndList (· == c) (trimStartList (· == c) s.toList))

def mediaParam (name : String) (contentType : String) : Option String :=
  ((splitChar ';' contentType).drop 1).findSome? fun param =>
    (splitOnce '=' param).bind fun kv =>
      if eqIgnoreAsciiCase (trim kv.1) name then some (trimMatches '"' (trim kv.2)) else none

/-- The `charset` parameter of a content type, lower-cased. -/
def charsetOf (contentType : String) : Option String :=
  (mediaParam "charset" contentType).map toAsciiLowercase

def units16 (bigEndian : Bool) : List UInt8 → List Nat
  | a :: b :: rest =>
    (if bigEndian then a.toNat * 256 + b.toNat else b.toNat * 256 + a.toNat) ::
      units16 bigEndian rest
  | _ => []

def isLowSurrogate (u : Nat) : Bool := 0xDC00 ≤ u && u ≤ 0xDFFF

def surrogatePair : List Nat → Option Char
  | u :: v :: _ =>
    if 0xD800 ≤ u && u ≤ 0xDBFF && isLowSurrogate v then
      some (Char.ofNat (0x10000 + (u - 0xD800) * 1024 + (v - 0xDC00)))
    else none
  | _ => none

def utf16Go : Nat → List Nat → List Char
  | _, [] => []
  | n + 1, _ :: us => utf16Go n us
  | 0, u :: us =>
    match surrogatePair (u :: us) with
    | some c => c :: utf16Go 1 us
    | none => (if 0xD800 ≤ u && u ≤ 0xDFFF then '�' else Char.ofNat u) :: utf16Go 0 us

def fromUtf16Lossy (units : List Nat) : String := String.ofList (utf16Go 0 units)

/-- The byte order and the length of the mark of a UTF-16 body; the mark wins over the header. -/
def utf16Form (contentType : Option String) (body : List UInt8) : Option (Bool × Nat) :=
  match body with
  | 0xFE :: 0xFF :: _ => some (true, 2)
  | 0xFF :: 0xFE :: _ => some (false, 2)
  | _ =>
    match contentType.bind charsetOf with
    | some "utf-16le" => some (false, 0)
    | some "utf-16be" => some (true, 0)
    | some "utf-16" => some (false, 0)
    | _ => none

def transcodeToUtf8 (contentType : Option String) (body : List UInt8) : Option (List UInt8) :=
  (utf16Form contentType body).map fun f =>
    utf8Encode (fromUtf16Lossy (units16 f.1 (body.drop f.2)))

/-! ## Content-Encoding -/

def encodingTokens (raw : String) : List String :=
  ((splitChar ',' raw).map trim).filter (· ≠ "")

def isSupportedEncoding (token : String) : Bool :=
  ["identity", "gzip", "x-gzip", "deflate"].contains (toAsciiLowercase token)

/-- The first layer of the `Content-Encoding` header that cannot be undone. -/
def unsupportedEncoding (headers : Headers) : Option String :=
  (headerValue headers "content-encoding").bind fun raw =>
    (encodingTokens raw).find? fun token => !isSupportedEncoding token

/-- Read a stream up to the ceiling. The ceiling hides what comes after it, an error included;
an error before any output is a failure, after some output an end. -/
def readBounded (s : Stream) : Option (List UInt8) :=
  if maxDecompressedBody ≤ s.bytes.length then some (s.bytes.take maxDecompressedBody)
  else if s.ok then some s.bytes
  else if s.bytes ≠ [] then some s.bytes
  else none

/-- Undo one layer: `deflate` is tried in its zlib form first, then raw. -/
def decodeOne (c : Crates) (encoding : String) (bytes : List UInt8) : Option (List UInt8) :=
  if encoding = "gzip" ∨ encoding = "x-gzip" then readBounded (c.gzDecoder bytes)
  else if encoding = "deflate" then
    (readBounded (c.zlibDecoder bytes)).or (readBounded (c.deflateDecoder bytes))
  else none

/-- The layers in the order they are undone; `current` is none until one was. -/
def decompressLoop (c : Crates) (body : List UInt8) :
    List String → Option (List UInt8) → Option (List UInt8)
  | [], current => current
  | layer :: layers, current =>
    if eqIgnoreAsciiCase layer "identity" then decompressLoop c body layers current
    else
      match decodeOne c (toAsciiLowercase layer) (current.getD body) with
      | none => none
      | some out => decompressLoop c body layers (some out)

def decompress (c : Crates) (headers : Headers) (body : List UInt8) : Option (List UInt8) :=
  (headerValue headers "content-encoding").bind fun raw =>
    let layers := encodingTokens raw
    if layers.length > 4 then none else decompressLoop c body layers.reverse none

/-- Undo the encoding, apply the charset, read the octets as text. `bytesToScannable` starts with
the UTF-8 reading, so it also stands for the places that try `from_utf8` first. -/
def decodeBody (c : Crates) (headers : Headers) (body : List UInt8) : DecodedBody :=
  let contentType := headerValue headers "content-type"
  match unsupportedEncoding headers with
  | some unsupported =>
    ⟨bytesToScannable body, .uninspected ("unsupported-content-encoding:" ++ unsupported)⟩
  | none =>
    match decompress c headers body with
    | some decoded =>
      let truncated := maxDecompressedBody ≤ decoded.length
      let decoded := (transcodeToUtf8 contentType decoded).getD decoded
      ⟨bytesToScannable decoded,
        if truncated then .pre maxDecompressedBody .decompressedCap else .inspected⟩
    | none =>
      match transcodeToUtf8 contentType body with
      | some transcoded => ⟨bytesToScannable transcoded, .inspected⟩
      | none => ⟨bytesToScannable body, .inspected⟩

end PingWaf.Waf
