import PingWaf.Lib.Text

/-!
# Internet addresses

IPv4 and IPv6 addresses with the textual forms a standard library accepts, and networks given by
an address and a mask length.
-/

namespace Net

open Text

inductive IpAddr where
  | v4 (bits : BitVec 32)
  | v6 (bits : BitVec 128)
  deriving DecidableEq

inductive IpNet where
  | v4 (addr : BitVec 32) (len : Nat)
  | v6 (addr : BitVec 128) (len : Nat)
  deriving DecidableEq

def IpNet.contains : IpNet → IpAddr → Bool
  | .v4 net len, .v4 ip => net >>> (32 - len) == ip >>> (32 - len)
  | .v6 net len, .v6 ip => net >>> (128 - len) == ip >>> (128 - len)
  | _, _ => false

def IpNet.ofAddr : IpAddr → IpNet
  | .v4 ip => .v4 ip 32
  | .v6 ip => .v6 ip 128

def IpNet.trunc : IpNet → IpNet
  | .v4 net len => .v4 ((net >>> (32 - len)) <<< (32 - len)) len
  | .v6 net len => .v6 ((net >>> (128 - len)) <<< (128 - len)) len

/-! ## Address classes -/

/-- `127.0.0.0/8`. -/
def isLoopbackV4 (ip : BitVec 32) : Bool := ip >>> 24 == 127

/-- `10.0.0.0/8`, `172.16.0.0/12` and `192.168.0.0/16`. -/
def isPrivateV4 (ip : BitVec 32) : Bool :=
  ip >>> 24 == 10 || ip >>> 20 == 0xAC1 || ip >>> 16 == 0xC0A8

/-- `::1`. -/
def isLoopbackV6 (ip : BitVec 128) : Bool := ip == 1

/-- `fc00::/7`. -/
def isUniqueLocalV6 (ip : BitVec 128) : Bool := ip >>> 121 == 0x7E

/-- The address embedded in `::ffff:0:0/96`. -/
def toV4Mapped (ip : BitVec 128) : Option (BitVec 32) :=
  if ip >>> 32 == 0xFFFF then some (ip.setWidth 32) else none

/-! ## Parsing -/

def parseOctet (l : List Char) : Option Nat :=
  if 3 < l.length ∨ (1 < l.length ∧ l.head? = some '0') then none
  else (digitsVal l).bind fun n => if n ≤ 255 then some n else none

def parseV4 (l : List Char) : Option (BitVec 32) :=
  match (l.splitOn '.').mapM parseOctet with
  | some [a, b, c, d] => some (BitVec.ofNat 32 (((a * 256 + b) * 256 + c) * 256 + d))
  | _ => none

def parseHexGroup (l : List Char) : Option Nat :=
  if l.isEmpty ∨ 4 < l.length then none
  else l.foldl (fun acc c => acc.bind fun n => (hexVal c).map fun d => n * 16 + d) (some 0)

/-- Colon-separated groups; the last one may be a dotted IPv4 address, worth two groups. -/
def parseGroups : List (List Char) → Option (List Nat)
  | [] => some []
  | [g] =>
    match parseV4 g with
    | some ip => some [ip.toNat / 65536, ip.toNat % 65536]
    | none => (parseHexGroup g).map ([·])
  | g :: gs => (parseHexGroup g).bind fun n => (parseGroups gs).map (n :: ·)

def sideGroups (l : List Char) : Option (List Nat) :=
  if l.isEmpty then some [] else parseGroups (l.splitOn ':')

def splitDoubleColon : List Char → Option (List Char × List Char)
  | ':' :: ':' :: rest => some ([], rest)
  | c :: rest => (splitDoubleColon rest).map fun p => (c :: p.1, p.2)
  | [] => none

def v6OfGroups (gs : List Nat) : BitVec 128 :=
  BitVec.ofNat 128 (gs.foldl (fun acc g => acc * 65536 + g) 0)

def parseV6 (l : List Char) : Option (BitVec 128) :=
  match splitDoubleColon l with
  | none =>
    (sideGroups l).bind fun gs => if gs.length = 8 then some (v6OfGroups gs) else none
  | some (left, right) =>
    -- a dotted address may only close the whole text, so not before the double colon
    if left.contains '.' then none
    else
      (sideGroups left).bind fun hd => (sideGroups right).bind fun tl =>
        if hd.length + tl.length ≤ 7 then
          some (v6OfGroups (hd ++ List.replicate (8 - hd.length - tl.length) 0 ++ tl))
        else none

def IpAddr.fromStr (s : String) : Option IpAddr :=
  match parseV4 s.toList with
  | some ip => some (.v4 ip)
  | none => (parseV6 s.toList).map .v6

/-! ## Printing -/

def displayV4 (ip : BitVec 32) : String :=
  ".".intercalate ([16777216, 65536, 256, 1].map fun d => toString (ip.toNat / d % 256))

def v6Groups (ip : BitVec 128) : List Nat :=
  [7, 6, 5, 4, 3, 2, 1, 0].map fun i => ip.toNat / 65536 ^ i % 65536

structure Span where
  start : Nat
  len : Nat

/-- The first longest run of zero groups, from the run seen so far and the one being read. -/
def longestZeros : Nat → Span → Span → List Nat → Span
  | _, best, _, [] => best
  | i, best, cur, g :: gs =>
    if g = 0 then
      let cur := ⟨if cur.len = 0 then i else cur.start, cur.len + 1⟩
      longestZeros (i + 1) (if best.len < cur.len then cur else best) cur gs
    else longestZeros (i + 1) best ⟨0, 0⟩ gs

def displayGroups (gs : List Nat) : String :=
  ":".intercalate (gs.map fun g => String.ofList (Nat.toDigits 16 g))

def displayV6 (ip : BitVec 128) : String :=
  let gs := v6Groups ip
  -- an embedded IPv4 address keeps its dotted form
  if gs.take 6 = [0, 0, 0, 0, 0, 0xFFFF] then "::ffff:" ++ displayV4 (ip.setWidth 32)
  else
    let z := longestZeros 0 ⟨0, 0⟩ ⟨0, 0⟩ gs
    if 1 < z.len then
      displayGroups (gs.take z.start) ++ "::" ++ displayGroups (gs.drop (z.start + z.len))
    else displayGroups gs

def IpAddr.display : IpAddr → String
  | .v4 ip => displayV4 ip
  | .v6 ip => displayV6 ip

/-- The embedded form and the compressed form are read back. -/
example : ["10.0.0.1", "::ffff:10.0.0.1", "2001:db8::1", "::", "1:0:0:2::3"].map
    (fun s => (IpAddr.fromStr s).map IpAddr.display) =
    [some "10.0.0.1", some "::ffff:10.0.0.1", some "2001:db8::1", some "::",
      some "1:0:0:2::3"] := by decide +kernel

end Net
