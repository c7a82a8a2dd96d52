import PingWaf.Challenge.Engine

/-!
# Plain primitives

An instance of the foreign functions that can be computed with: hexadecimal in place of base64, a
numbering of the payloads in place of JSON, a sum in place of the digest, and behind the key in place
of the HMAC.
-/

namespace PingWaf.Challenge

open Text

/-! ## Hexadecimal -/

def hexDecodeList : List Char → Option (List UInt8)
  | [] => some []
  | [_] => none
  | h :: l :: rest =>
    (hexVal h).bind fun hi => (hexVal l).bind fun lo =>
      (hexDecodeList rest).map (UInt8.ofNat (hi * 16 + lo) :: ·)

def hexDecode (s : String) : Option (List UInt8) :=
  if s.toList.all isBase64UrlChar then hexDecodeList s.toList else none

theorem hexVal_hexDigit {n : Nat} (h : n < 16) : hexVal (hexDigit n) = some n := by
  interval_cases n <;> decide

theorem hexDigit_alphabet {n : Nat} (h : n < 16) : isBase64UrlChar (hexDigit n) = true := by
  interval_cases n <;> decide

theorem hexEncode_alphabet (bs : List UInt8) :
    ∀ ch ∈ (hexEncode bs).toList, isBase64UrlChar ch = true := by
  intro ch hch
  rw [hexEncode, String.toList_ofList, List.mem_flatMap] at hch
  obtain ⟨b, -, hb⟩ := hch
  have hlt : b.toNat < 256 := b.toNat_lt
  rcases List.mem_cons.mp hb with rfl | hb
  · exact hexDigit_alphabet (by omega)
  · rw [List.mem_singleton.mp hb]
    exact hexDigit_alphabet (by omega)

theorem hexDecode_hexEncode (bs : List UInt8) : hexDecode (hexEncode bs) = some bs := by
  rw [hexDecode, if_pos (List.all_eq_true.mpr (hexEncode_alphabet bs)), hexEncode,
    String.toList_ofList]
  induction bs with
  | nil => rfl
  | cons b _ ih =>
    have hb : b.toNat < 256 := b.toNat_lt
    have hsum : b.toNat / 16 * 16 + b.toNat % 16 = b.toNat := by omega
    rw [List.flatMap_cons, List.cons_append, List.cons_append, List.nil_append, hexDecodeList, ih,
      hexVal_hexDigit (by omega), hexVal_hexDigit (by omega)]
    simp only [Option.bind_some, Option.map_some, hsum, UInt8.ofNat_toNat]

/-! ## Numbered payloads -/

instance encodableChar : Encodable Char :=
  Encodable.ofLeftInverse Char.toNat Char.ofNat fun ch => by simp

instance encodableString : Encodable String :=
  Encodable.ofLeftInverse String.toList String.ofList fun s => by simp

deriving instance Encodable for ClearanceLevel

deriving instance Encodable for ClearancePayload

deriving instance DecidableEq for ClearanceLevel

deriving instance DecidableEq for ClearancePayload

def octetsOf (n : Nat) : List UInt8 := (Nat.digits 256 n).map UInt8.ofNat

def ofOctets (bs : List UInt8) : Nat := Nat.ofDigits 256 (bs.map UInt8.toNat)

theorem ofOctets_octetsOf (n : Nat) : ofOctets (octetsOf n) = n := by
  unfold ofOctets octetsOf
  rw [List.map_map]
  have hid : (Nat.digits 256 n).map (UInt8.toNat ∘ UInt8.ofNat) = Nat.digits 256 n := by
    conv_rhs => rw [← List.map_id (Nat.digits 256 n)]
    apply List.map_congr_left
    intro d hd
    have hlt : d < 256 := Nat.digits_lt_base (by decide) hd
    exact UInt8.toNat_ofNat_of_lt hlt
  rw [hid, Nat.ofDigits_digits]

/-- What a visitor of the shop earns. -/
def shopPayload : ClearancePayload :=
  ⟨"s", .nonInteractive, 1000, 2800, "71", "shop.example.com", "n"⟩

/-- The numbers are far too long to be computed with; the shop's payload has a short one of its
own. -/
def numberPayload (p : ClearancePayload) : List UInt8 :=
  if p = shopPayload then [1] else 0 :: octetsOf (Encodable.encode p)

def payloadNumbered : List UInt8 → Option ClearancePayload
  | [] => none
  | mark :: bs => if mark = 1 then some shopPayload else Encodable.decode (ofOctets bs)

theorem payloadNumbered_numberPayload (p : ClearancePayload) :
    payloadNumbered (numberPayload p) = some p := by
  unfold numberPayload
  split
  · next h => rw [h]; rfl
  · rw [payloadNumbered, if_neg (by decide), ofOctets_octetsOf, Encodable.encodek]

/-! ## The instance -/

def plainBrowser : BrowserFingerprint :=
  ⟨"Mozilla/5.0", 1920, 1080, 0, "en", "Linux", "c0ffee", 8⟩

def plainFormText : String := "\x7b\"request_id\":\"r1\",\"solution\":\"0\"\x7d"

def plainForm : Waf.Json := .object [("request_id", .string "r1"), ("solution", .string "0")]

def Primitives.plain : Primitives where
  hmacSha256 key msg := key ++ [msg.sum]
  sha256 msg := [msg.sum]
  b64Encode := hexEncode
  b64Decode := hexDecode
  payloadToJson := numberPayload
  payloadFromJson := payloadNumbered
  fingerprintFromJson _ := .ok plainBrowser
  jsonFromSlice bs := if bs = utf8Encode plainFormText then some plainForm else none
  toLowercase := toAsciiLowercase

theorem Primitives.plain_lawful : Primitives.plain.Lawful where
  b64_decode_encode := hexDecode_hexEncode
  b64_alphabet := hexEncode_alphabet
  b64_decode_alphabet text _ h := by
    by_contra hall
    have hnone : hexDecode text = none := if_neg (mt List.all_eq_true.mp hall)
    cases hnone.symm.trans h
  json_round_trip := payloadNumbered_numberPayload

end PingWaf.Challenge
