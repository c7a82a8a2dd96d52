import PingWaf.Lib.Text

/-!
# Decoding passes

The passes that turn a wire value into the text the detectors read: repeated percent decoding
(`multiDecode`), HTML entities (`decodeEntities`), `\xHH` / `\uHHHH` escapes (`decodeEscapes`),
their composition (`decodeValue`, `decodeValueForm`), and path collapsing (`normalizePath`).

The source walks byte indices. Here each pass walks the list of characters or bytes with a count
of elements that the last decoded sequence has already consumed.
-/

namespace PingWaf.Waf

open Text

/-! ## Percent decoding -/

def isHexByte (b : UInt8) : Bool :=
  (48 ≤ b && b ≤ 57) || (97 ≤ b && b ≤ 102) || (65 ≤ b && b ≤ 70)

def hexByteVal (b : UInt8) : UInt8 :=
  if b ≤ 57 then b - 48 else if b ≤ 70 then b - 55 else b - 87

/-- The byte a `%HH` triple at the head of the list spells. -/
def percentTriple : List UInt8 → Option UInt8
  | 37 :: hi :: lo :: _ =>
    if isHexByte hi && isHexByte lo then some (hexByteVal hi * 16 + hexByteVal lo) else none
  | _ => none

def percentGo : Nat → List UInt8 → List UInt8
  | _, [] => []
  | n + 1, _ :: bs => percentGo n bs
  | 0, b :: bs =>
    match percentTriple (b :: bs) with
    | some d => d :: percentGo 2 bs
    | none => b :: percentGo 0 bs

def hasTriple : List UInt8 → Bool
  | [] => false
  | b :: bs => (percentTriple (b :: bs)).isSome || hasTriple bs

/-- Percent-decode into raw bytes; `none` when there is nothing to decode. -/
def percentToBytes (s : String) : Option (List UInt8) :=
  let b := utf8Encode s
  if hasTriple b then some (percentGo 0 b) else none

/-- An overlong two-byte form `C0/C1 xx` at the head of the list. -/
def overlong : List UInt8 → Option Char
  | b :: c :: _ =>
    if 0xC0 ≤ b && b ≤ 0xC1 && c &&& 0xC0 == 0x80 then
      some (Char.ofNat (((b &&& 0x1F) <<< 6) ||| (c &&& 0x3F)).toNat)
    else none
  | _ => none

def scannableGo : Nat → List UInt8 → List Char
  | _, [] => []
  | n + 1, _ :: bs => scannableGo n bs
  | 0, b :: bs =>
    match overlong (b :: bs) with
    | some c => c :: scannableGo 1 bs
    | none => Char.ofNat b.toNat :: scannableGo 0 bs

/-- Bytes to text: UTF-8 as it is, anything else through Latin-1 with overlong forms restored. -/
def bytesToScannable (bytes : List UInt8) : String :=
  match utf8Decode bytes with
  | some s => s
  | none => String.ofList (scannableGo 0 bytes)

def hasPercent (s : String) : Bool := s.toList.contains '%'

def multiDecodeLoop : Nat → String → String
  | 0, current => current
  | n + 1, current =>
    match percentToBytes current with
    | none => current
    | some bytes =>
      let decoded := bytesToScannable bytes
      if decoded = current then current
      else if hasPercent decoded then multiDecodeLoop n decoded
      else decoded

/-- Percent decoding repeated until the text is stable or the layer budget is used up. -/
def multiDecode (input : String) (maxLayers : Nat) : String :=
  if maxLayers = 0 || !hasPercent input then input else multiDecodeLoop maxLayers input

/-! ## HTML entities -/

def namedEntities : List (String × Char) :=
  [("lt", '<'), ("gt", '>'), ("amp", '&'), ("quot", '"'), ("apos", '\''),
   ("nbsp", ' '), ("copy", '©'), ("reg", '®'), ("trade", '™'),
   ("hellip", '…'), ("mdash", '—'), ("ndash", '–'), ("laquo", '«'),
   ("raquo", '»'), ("lsquo", '‘'), ("rsquo", '’'), ("ldquo", '“'),
   ("rdquo", '”'), ("cent", '¢'), ("pound", '£'), ("yen", '¥'),
   ("euro", '€'), ("sect", '§'), ("para", '¶'), ("deg", '°'),
   ("plusmn", '±'), ("times", '×'), ("divide", '÷'), ("frac12", '½'),
   ("frac14", '¼'), ("frac34", '¾'), ("sup2", '²'), ("sup3", '³'),
   ("micro", 'µ'), ("middot", '·'), ("bull", '•'), ("dagger", '†'),
   ("permil", '‰'), ("prime", '′'), ("Prime", '″'), ("lsaquo", '‹'),
   ("rsaquo", '›'), ("frasl", '⁄'), ("colon", ':'), ("semi", ';'), ("comma", ','),
   ("period", '.'), ("sol", '/'), ("bsol", '\\'), ("lpar", '('), ("rpar", ')'),
   ("lbrack", '['), ("rbrack", ']'), ("lbrace", '\x7b'), ("rbrace", '\x7d'), ("num", '#'),
   ("percnt", '%'), ("plus", '+'), ("minus", '-'), ("ast", '*'), ("equals", '='),
   ("quest", '?'), ("excl", '!'), ("grave", '\x60'), ("dollar", '$'), ("Tab", '\t'),
   ("NewLine", '\n')]

/-- A digit string of the radix as a `u32`; empty, ill-formed and overflowing ones fail. -/
def fromStrRadix (radix : Nat) (digits : List Char) : Option Nat :=
  if digits.isEmpty then none
  else
    let n := digits.foldl (fun acc c => acc.bind fun n => (hexVal c).bind fun d =>
      if d < radix then some (n * radix + d) else none) (some 0)
    n.bind fun n => if n < 2 ^ 32 then some n else none

def charFromU32 (n : Nat) : Option Char :=
  if n < 0xD800 ∨ (0xDFFF < n ∧ n < 0x110000) then some (Char.ofNat n) else none

def decodeEntityBody (body : List Char) : Option Char :=
  match body with
  | [] => none
  | '#' :: rest =>
    let (radix, digits) := match rest with
      | 'x' :: hex => (16, hex)
      | 'X' :: hex => (16, hex)
      | ds => (10, ds)
    (fromStrRadix radix digits).bind charFromU32
  | body => namedEntities.lookup (String.ofList body)

def isEntityChar (c : Char) : Bool := isAsciiAlphanumeric c || c == '#'

theorem isEntityChar_lt {c : Char} : isEntityChar c = true → c.toNat < 128 :=
  ascii_or isAsciiAlphanumeric_lt (by decide)

/-- An entity body behind an ampersand, with the number of characters it takes: closed by a
semicolon among the first ten characters, or else the longest decodable run of at most eight. -/
def tryDecodeEntity (after : List Char) : Option (Char × Nat) :=
  let run := after.takeWhile isEntityChar
  if run.length < 10 ∧ after[run.length]? = some ';' then
    (decodeEntityBody run).map fun c => (c, run.length + 1)
  else
    (List.range (min run.length 8)).reverse.findSome? fun j =>
      (decodeEntityBody (run.take (j + 1))).map fun c => (c, j + 1)

def entitiesGo : Nat → List Char → List Char
  | _, [] => []
  | n + 1, _ :: cs => entitiesGo n cs
  | 0, c :: cs =>
    if c = '&' then
      match tryDecodeEntity cs with
      | some (d, consumed) => d :: entitiesGo consumed cs
      | none => '&' :: entitiesGo 0 cs
    else c :: entitiesGo 0 cs

def decodeEntities (input : String) : String := String.ofList (entitiesGo 0 input.toList)

/-! ## Escapes -/

/-- The character an escape at the head of the list spells, with the escape's length. -/
def escapeAt : List Char → Option (Char × Nat)
  | '\\' :: k :: rest =>
    let width := if k = 'x' ∨ k = 'X' then 2 else if k = 'u' ∨ k = 'U' then 4 else 0
    if width ≠ 0 ∧ width ≤ rest.length ∧ (rest.take width).all (fun c => (hexVal c).isSome) then
      ((fromStrRadix 16 (rest.take width)).bind charFromU32).map fun c => (c, 2 + width)
    else none
  | _ => none

def escapesGo : Nat → List Char → List Char
  | _, [] => []
  | n + 1, _ :: cs => escapesGo n cs
  | 0, c :: cs =>
    match escapeAt (c :: cs) with
    | some (d, consumed) => d :: escapesGo (consumed - 1) cs
    | none => c :: escapesGo 0 cs

def decodeEscapes (input : String) : String := String.ofList (escapesGo 0 input.toList)

/-! ## The value chain -/

/-- Percent layers, entities, escapes when asked for, and the percent layers those exposed. -/
def decodeValue (input : String) (maxDecodeLayers : Nat) (escapes : Bool) : String :=
  let urlDecoded := multiDecode input maxDecodeLayers
  let out := if urlDecoded.toList.contains '&' then decodeEntities urlDecoded else urlDecoded
  let out := if escapes then decodeEscapes out else out
  if hasPercent out then multiDecode out maxDecodeLayers else out

/-- `decodeValue` with a bare plus sign read as a space. -/
def decodeValueForm (input : String) (maxDecodeLayers : Nat) (escapes : Bool) : String :=
  decodeValue (String.ofList (input.toList.map fun c => if c = '+' then ' ' else c))
    maxDecodeLayers escapes

/-! ## Paths -/

/-- One segment of the path, on the stack of the segments kept so far (last one first). -/
def pathSegment (segments : List (List Char)) (seg : List Char) : List (List Char) :=
  if seg = [] ∨ seg = ['.'] then segments
  else if seg = ['.', '.'] then segments.tail
  else seg :: segments

/-- Collapse empty and dot segments; the fragment is dropped, a trailing slash is kept. -/
def normalizePath (path : String) : String :=
  if path.toList.isEmpty then "/"
  else
    let p := match splitOnceList '#' path.toList with
      | some (p, _) => p
      | none => path.toList
    let segments := ((p.splitOn '/').foldl pathSegment []).reverse
    let out := (if p.head? = some '/' then ['/'] else []) ++ ['/'].intercalate segments
    if out.isEmpty then "/"
    else if p.getLast? = some '/' ∧ out.getLast? ≠ some '/' then String.ofList (out ++ ['/'])
    else String.ofList out

end PingWaf.Waf
