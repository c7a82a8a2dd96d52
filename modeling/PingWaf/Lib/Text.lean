import Mathlib

/-!
# Text and bytes

The string operations of a host language's standard library, on Lean's `String` at the interface
and on `List Char` / `List UInt8` inside, so that every one of them reduces in the kernel.
-/

namespace Text

open List

/-! ## Characters -/

def asciiLowerChar (c : Char) : Char :=
  if 'A' ≤ c ∧ c ≤ 'Z' then Char.ofNat (c.toNat + 32) else c

/-- The characters with the Unicode property `White_Space`. -/
def isWhitespace (c : Char) : Bool :=
  let n := c.toNat
  (9 ≤ n && n ≤ 13) || n == 0x20 || n == 0x85 || n == 0xA0 || n == 0x1680 ||
  (0x2000 ≤ n && n ≤ 0x200A) || n == 0x2028 || n == 0x2029 || n == 0x202F || n == 0x205F ||
  n == 0x3000

/-- The characters of the general category `Cc`. -/
def isControl (c : Char) : Bool := c.toNat < 0x20 || (0x7F ≤ c.toNat && c.toNat ≤ 0x9F)

def isAsciiDigit (c : Char) : Bool := '0' ≤ c && c ≤ '9'

def isAsciiAlpha (c : Char) : Bool := ('a' ≤ c && c ≤ 'z') || ('A' ≤ c && c ≤ 'Z')

def isAsciiAlphanumeric (c : Char) : Bool := isAsciiAlpha c || isAsciiDigit c

def hexVal (c : Char) : Option Nat :=
  if '0' ≤ c ∧ c ≤ '9' then some (c.toNat - 48)
  else if 'a' ≤ c ∧ c ≤ 'f' then some (c.toNat - 87)
  else if 'A' ≤ c ∧ c ≤ 'F' then some (c.toNat - 55)
  else none

/-! ## Case folding and trimming -/

def toAsciiLowercase (s : String) : String := String.ofList (s.toList.map asciiLowerChar)

def eqIgnoreAsciiCase (s t : String) : Bool :=
  s.toList.map asciiLowerChar == t.toList.map asciiLowerChar

def trimStartList (p : Char → Bool) (l : List Char) : List Char := l.dropWhile p

def trimEndList (p : Char → Bool) (l : List Char) : List Char := (l.reverse.dropWhile p).reverse

def trim (s : String) : String :=
  String.ofList (trimEndList isWhitespace (trimStartList isWhitespace s.toList))

/-! ## Searching and splitting -/

def hasPrefix (s pre : String) : Bool := pre.toList.isPrefixOf s.toList

def hasSuffix (s suf : String) : Bool := suf.toList.isSuffixOf s.toList

/-- `needle` occurs in the list as a contiguous block. -/
def hasSubList (needle : List Char) : List Char → Bool
  | [] => needle.isEmpty
  | c :: cs => needle.isPrefixOf (c :: cs) || hasSubList needle cs

def hasSub (s needle : String) : Bool := hasSubList needle.toList s.toList

/-- The pieces between the occurrences of `c`, the empty ones included. -/
def splitChar (c : Char) (s : String) : List String := (s.toList.splitOn c).map String.ofList

/-- What stands before and after the first `c`, if there is one. -/
def splitOnceList (c : Char) : List Char → Option (List Char × List Char)
  | [] => none
  | d :: ds => if d = c then some ([], ds) else (splitOnceList c ds).map fun p => (d :: p.1, p.2)

def splitOnce (c : Char) (s : String) : Option (String × String) :=
  (splitOnceList c s.toList).map fun p => (String.ofList p.1, String.ofList p.2)

def splitOnceSub (sep : List Char) : List Char → Option (List Char × List Char)
  | [] => none
  | c :: cs =>
    if sep.isPrefixOf (c :: cs) then some ([], (c :: cs).drop sep.length)
    else (splitOnceSub sep cs).map fun p => (c :: p.1, p.2)

/-! ## Decimal integers -/

def digitsVal : List Char → Option Nat
  | [] => none
  | cs => cs.foldl (fun acc c => acc.bind fun n =>
      if isAsciiDigit c then some (n * 10 + (c.toNat - 48)) else none) (some 0)

def parseI64 (s : String) : Option Int :=
  let (neg, ds) := match s.toList with
    | '-' :: ds => (true, ds)
    | '+' :: ds => (false, ds)
    | ds => (false, ds)
  match digitsVal ds with
  | none => none
  | some n =>
    if neg then (if n ≤ 2 ^ 63 then some (-(n : Int)) else none)
    else (if n < 2 ^ 63 then some (n : Int) else none)

/-! ## UTF-8 -/

def utf8Encode (s : String) : List UInt8 := s.toList.flatMap String.utf8EncodeChar

def byteLen (s : String) : Nat := s.utf8ByteSize

def isCont (b : UInt8) : Bool := 0x80 ≤ b && b ≤ 0xBF

def scalar2 (a b : UInt8) : Nat := (a.toNat - 0xC0) * 64 + (b.toNat - 0x80)

def scalar3 (a b c : UInt8) : Nat :=
  (a.toNat - 0xE0) * 4096 + (b.toNat - 0x80) * 64 + (c.toNat - 0x80)

def scalar4 (a b c d : UInt8) : Nat :=
  (a.toNat - 0xF0) * 262144 + (b.toNat - 0x80) * 4096 + (c.toNat - 0x80) * 64 + (d.toNat - 0x80)

def utf8DecodeList : List UInt8 → Option (List Char)
  | [] => some []
  | a :: rest =>
    if a < 0x80 then (utf8DecodeList rest).map (Char.ofNat a.toNat :: ·)
    else match rest with
      | [] => none
      | b :: rest =>
        if 0xC2 ≤ a && a ≤ 0xDF && isCont b then
          (utf8DecodeList rest).map (Char.ofNat (scalar2 a b) :: ·)
        else match rest with
          | [] => none
          | c :: rest =>
            let n3 := scalar3 a b c
            if 0xE0 ≤ a && a ≤ 0xEF && isCont b && isCont c && 0x800 ≤ n3
                && !(0xD800 ≤ n3 && n3 ≤ 0xDFFF) then
              (utf8DecodeList rest).map (Char.ofNat n3 :: ·)
            else match rest with
              | [] => none
              | d :: rest =>
                let n4 := scalar4 a b c d
                if 0xF0 ≤ a && a ≤ 0xF4 && isCont b && isCont c && isCont d && 0x10000 ≤ n4
                    && n4 ≤ 0x10FFFF then
                  (utf8DecodeList rest).map (Char.ofNat n4 :: ·)
                else none

def utf8Decode (bs : List UInt8) : Option String := (utf8DecodeList bs).map String.ofList

theorem hasPrefix_append {s pre : String} (h : hasPrefix s pre = true) (t : String) :
    hasPrefix (s ++ t) pre = true := by
  unfold hasPrefix at h ⊢
  rw [ isPrefixOf_iff_prefix] at h ⊢
  rw [String.toList_append]
  exact h.trans (prefix_append _ _)

theorem hasSubList_iff {needle l : List Char} : hasSubList needle l = true ↔ needle <:+: l := by
  induction l with
  | nil => simp [hasSubList]
  | cons _ _ ih =>
    rw [hasSubList, Bool.or_eq_true, ih, isPrefixOf_iff_prefix, infix_cons_iff]

theorem hasSub_iff {s needle : String} : hasSub s needle = true ↔ needle.toList <:+: s.toList :=
  hasSubList_iff

theorem hasSub_append_left {s needle : String} (h : hasSub s needle = true) (t : String) :
    hasSub (s ++ t) needle = true := by
  rw [hasSub_iff, String.toList_append]
  exact (hasSub_iff.mp h).trans (prefix_append _ _).isInfix

theorem hasSub_append_right {s needle : String} (h : hasSub s needle = true) (t : String) :
    hasSub (t ++ s) needle = true := by
  rw [hasSub_iff, String.toList_append]
  exact (hasSub_iff.mp h).trans (suffix_append _ _).isInfix

theorem hasSub_self (s : String) : hasSub s s = true := hasSub_iff.mpr (infix_refl _)

theorem hasSub_intercalate {parts : List String} {part : String} (h : part ∈ parts) (sep : String) :
    hasSub (sep.intercalate parts) part = true := by
  induction parts with
  | nil => cases h
  | cons _ parts ih =>
    cases parts with
    | nil =>
      cases mem_singleton.mp h
      rw [String.intercalate_singleton]
      exact hasSub_self part
    | cons _ _ =>
      rw [String.intercalate_cons_cons]
      rcases mem_cons.mp h with rfl | h
      · exact hasSub_append_left (hasSub_append_left (hasSub_self _) sep) _
      · exact hasSub_append_right (ih h) _

theorem toNat_ofNat_of_valid {n : Nat} (h : n.isValidChar) : (Char.ofNat n).toNat = n := by
  simp [Char.ofNat, h, Char.toNat, Char.ofNatAux]

theorem toNat_octet (b : UInt8) : (Char.ofNat b.toNat).toNat = b.toNat :=
  toNat_ofNat_of_valid (Or.inl (by have := b.toNat_lt; omega))

theorem utf8EncodeChar_ascii {ch : Char} (h : ch.toNat < 128) :
    String.utf8EncodeChar ch = [UInt8.ofNat ch.toNat] := by
  have hval : ch.val.toNat = ch.toNat := rfl
  unfold String.utf8EncodeChar
  dsimp only
  rw [if_pos (by omega)]
  rfl

theorem toNat_ofNat_ascii {ch : Char} (h : ch.toNat < 128) :
    (UInt8.ofNat ch.toNat).toNat = ch.toNat :=
  UInt8.toNat_ofNat_of_lt (show ch.toNat < 256 by omega)

theorem byteLen_eq_length (s : String) : byteLen s = (utf8Encode s).length := by
  have hlist : ∀ l : List Char,
      String.utf8Len l = (l.flatMap String.utf8EncodeChar).length := by
    intro l
    induction l with
    | nil => rfl
    | cons _ _ ih =>
      rw [String.utf8Len_cons, ih, flatMap_cons, length_append,
        String.length_utf8EncodeChar, Nat.add_comm]
  have hs := String.utf8ByteSize_ofList s.toList
  rw [String.ofList_toList, hlist] at hs
  exact hs

theorem utf8Encode_injective : Function.Injective utf8Encode := by
  intro s t h
  have hbytes : s.toByteArray = t.toByteArray := by
    rw [← String.utf8Encode_toList, ← String.utf8Encode_toList, List.utf8Encode, List.utf8Encode]
    exact congrArg _ h
  exact String.toByteArray_inj.mp hbytes

theorem length_le_byteLen (s : String) : s.toList.length ≤ byteLen s := by
  rw [byteLen_eq_length, utf8Encode]
  generalize s.toList = l
  induction l with
  | nil => exact Nat.le_refl 0
  | cons c _ _ =>
    have hone : 1 ≤ (String.utf8EncodeChar c).length := by
      rw [String.length_utf8EncodeChar]
      exact Char.utf8Size_pos c
    rw [flatMap_cons, length_append, length_cons]
    omega

theorem map_utf8Encode_ascii {s : String} (h : ∀ ch ∈ s.toList, ch.toNat < 128) :
    (utf8Encode s).map (fun b => Char.ofNat b.toNat) = s.toList := by
  unfold utf8Encode
  generalize s.toList = l at h
  induction l with
  | nil => rfl
  | cons ch _ ih =>
    have hch : ch.toNat < 128 := h ch mem_cons_self
    rw [flatMap_cons, utf8EncodeChar_ascii hch, map_append,
      ih fun x hx => h x (mem_cons_of_mem _ hx), map_singleton, toNat_ofNat_ascii hch,
      Char.ofNat_toNat]
    rfl

theorem isAsciiAlphanumeric_lt {c : Char} (h : isAsciiAlphanumeric c = true) : c.toNat < 128 := by
  have hle : ∀ {a b : Char}, a ≤ b → a.toNat ≤ b.toNat := fun h => h
  simp only [isAsciiAlphanumeric, isAsciiAlpha, isAsciiDigit, Bool.or_eq_true, Bool.and_eq_true,
    decide_eq_true_eq] at h
  rcases h with (h | h) | h
  · exact Nat.lt_of_le_of_lt (hle h.2) (by decide)
  · exact Nat.lt_of_le_of_lt (hle h.2) (by decide)
  · exact Nat.lt_of_le_of_lt (hle h.2) (by decide)

theorem ascii_or {c d : Char} {p : Bool} (hp : p = true → c.toNat < 128) (hd : d.toNat < 128)
    (h : (p || c == d) = true) : c.toNat < 128 := by
  rw [Bool.or_eq_true, beq_iff_eq] at h
  rcases h with h | rfl
  · exact hp h
  · exact hd

theorem asciiLowerChar_lt {c : Char} (h : c.toNat < 128) : (asciiLowerChar c).toNat < 128 := by
  unfold asciiLowerChar
  split
  · next hupper =>
    have hn : c.toNat ≤ 90 := hupper.2
    rw [toNat_ofNat_of_valid (by unfold Nat.isValidChar; omega)]
    omega
  · exact h

theorem asciiLowerChar_idem (c : Char) :
    asciiLowerChar (asciiLowerChar c) = asciiLowerChar c := by
  unfold asciiLowerChar
  split
  · next h =>
    have hn : 65 ≤ c.toNat ∧ c.toNat ≤ 90 := ⟨h.1, h.2⟩
    have ht : (Char.ofNat (c.toNat + 32)).toNat = c.toNat + 32 :=
      toNat_ofNat_of_valid (by unfold Nat.isValidChar; omega)
    rw [if_neg]
    intro hu
    have hz : (Char.ofNat (c.toNat + 32)).toNat ≤ 90 := hu.2
    omega
  · rfl

theorem toAsciiLowercase_idem (s : String) :
    toAsciiLowercase (toAsciiLowercase s) = toAsciiLowercase s := by
  simp [toAsciiLowercase, Function.comp_def, asciiLowerChar_idem]

/-- A decoded text is spelled by the octets it was read from. -/
theorem flatMap_utf8DecodeList {bs : List UInt8} {l : List Char} (h : utf8DecodeList bs = some l) :
    l.flatMap String.utf8EncodeChar = bs := by
  have hval (n : Nat) (hn : n.isValidChar) : (Char.ofNat n).val.toNat = n := toNat_ofNat_of_valid hn
  fun_induction utf8DecodeList bs generalizing l with
  | case1 =>
    cases h
    rfl
  | case2 a _ hlt ih =>
    obtain ⟨t, ht, rfl⟩ := Option.map_eq_some_iff.mp h
    have ha : (Char.ofNat a.toNat).toNat < 128 := by rwa [toNat_octet]
    rw [flatMap_cons, ih ht, utf8EncodeChar_ascii ha, toNat_octet, UInt8.ofNat_toNat]
    rfl
  | case4 a _ b _ hc ih =>
    obtain ⟨t, ht, rfl⟩ := Option.map_eq_some_iff.mp h
    simp only [isCont, Bool.and_eq_true, decide_eq_true_eq, UInt8.le_iff_toNat_le] at hc
    have hs : scalar2 a b = (a.toNat - 0xC0) * 64 + (b.toNat - 0x80) := rfl
    simp at hc
    have hv := hval (scalar2 a b) (by unfold Nat.isValidChar; omega)
    rw [flatMap_cons, ih ht]
    simp only [String.utf8EncodeChar, hv]
    rw [if_neg (by omega), if_pos (by omega)]
    simp [← UInt8.toNat_inj]
    omega
  | case6 a _ b _ c _ n3 hc =>
    rename_i ih
    obtain ⟨t, ht, rfl⟩ := Option.map_eq_some_iff.mp h
    simp only [isCont, Bool.and_eq_true, decide_eq_true_eq, UInt8.le_iff_toNat_le] at hc
    have hs : n3 = (a.toNat - 0xE0) * 4096 + (b.toNat - 0x80) * 64 + (c.toNat - 0x80) := rfl
    simp at hc
    have hv := hval n3 (by unfold Nat.isValidChar; omega)
    rw [flatMap_cons, ih ht]
    simp only [String.utf8EncodeChar, hv]
    rw [if_neg (by omega), if_neg (by omega), if_pos (by omega)]
    simp [← UInt8.toNat_inj]
    omega
  | case8 a _ b _ c _ _ d _ n4 hc =>
    rename_i ih
    obtain ⟨t, ht, rfl⟩ := Option.map_eq_some_iff.mp h
    simp only [isCont, Bool.and_eq_true, decide_eq_true_eq, UInt8.le_iff_toNat_le] at hc
    have hs : n4 = (a.toNat - 0xF0) * 262144 + (b.toNat - 0x80) * 4096 + (c.toNat - 0x80) * 64 +
      (d.toNat - 0x80) := rfl
    simp at hc
    have hv := hval n4 (by unfold Nat.isValidChar; omega)
    rw [flatMap_cons, ih ht]
    simp only [String.utf8EncodeChar, hv]
    rw [if_neg (by omega), if_neg (by omega), if_neg (by omega)]
    simp [← UInt8.toNat_inj]
    omega
  | _ => cases h

theorem utf8DecodeList_ascii {bs : List UInt8} {l : List Char} (h : utf8DecodeList bs = some l)
    (ha : ∀ c ∈ l, c.toNat < 0x80) : l = bs.map fun b => Char.ofNat b.toNat := by
  have hmap := map_utf8Encode_ascii (s := String.ofList l) (by rwa [String.toList_ofList])
  rw [utf8Encode, String.toList_ofList, flatMap_utf8DecodeList h] at hmap
  exact hmap.symm

end Text
