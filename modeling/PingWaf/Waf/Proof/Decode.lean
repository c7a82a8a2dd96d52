import PingWaf.Lib.Boundary
import PingWaf.Lib.Resolve
import PingWaf.Waf.Normalize.Decode

/-!
# Decoding to a fixed point

A pass of the percent decoder resolves spellings of several ASCII characters into one character, so
that it leaves fewer ASCII characters than it was given, unless it leaves everything as it was
(`asciiCount_percentPass_lt`). The length is no such measure: octets that are not UTF-8 come out as
Latin-1, which is longer. Percent decoding therefore ends in a text without triples:
`multiDecode_fixed_point`.
-/

namespace PingWaf.Waf

open Text Resolve

/-! ## The passes -/

def percentSpells (l : List UInt8) : Option (UInt8 × Nat) := (percentTriple l).map fun d => (d, 3)

def overlongSpells (l : List UInt8) : Option (Char × Nat) := (overlong l).map fun c => (c, 2)

variable {c : Char} {b : UInt8} {n : Nat} {s : String}

theorem percentGo_eq_go (n : Nat) (l : List UInt8) : percentGo n l = go percentSpells id n l := by
  refine eq_go (fun n => by cases n <;> rfl) (fun _ _ _ => rfl) (fun b l => ?_) n l
  rw [percentGo, percentSpells]
  cases percentTriple (b :: l) <;> rfl

theorem scannableGo_eq_go (n : Nat) (l : List UInt8) :
    scannableGo n l = go overlongSpells (fun b => Char.ofNat b.toNat) n l := by
  refine eq_go (fun n => by cases n <;> rfl) (fun _ _ _ => rfl) (fun b l => ?_) n l
  rw [scannableGo, overlongSpells]
  cases overlong (b :: l) <;> rfl

theorem hasTriple_eq_hits (l : List UInt8) : hasTriple l = hits percentSpells l := by
  induction l with
  | nil => rfl
  | cons _ _ ih =>
    rw [hasTriple, hits, ih, percentSpells, Option.isSome_map]

/-! ## ASCII characters -/

def asciiWeight (c : Char) : Nat := if c.toNat < 128 then 1 else 0

/-- An octet that can come out as an ASCII character: an ASCII one, or the first of an overlong
form. -/
def byteWeight (b : UInt8) : Nat := if b.toNat < 128 ∨ b.toNat = 192 ∨ b.toNat = 193 then 1 else 0

def asciiCount (s : String) : Nat := weight asciiWeight s.toList

theorem asciiWeight_le_one (c : Char) : asciiWeight c ≤ 1 := by
  unfold asciiWeight
  split <;> omega

theorem byteWeight_le_one (b : UInt8) : byteWeight b ≤ 1 := by
  unfold byteWeight
  split <;> omega

theorem byteWeight_of_lt (h : b.toNat < 128) : byteWeight b = 1 := if_pos (.inl h)

theorem asciiWeight_ofNat_byte (b : UInt8) : asciiWeight (Char.ofNat b.toNat) ≤ byteWeight b := by
  unfold asciiWeight byteWeight
  rw [toNat_octet]
  split
  · next h => rw [if_pos (.inl h)]
  · exact Nat.zero_le _

/-- A character has an ASCII octet if it is one, and no character begins with `C0` or `C1`. -/
theorem weight_utf8EncodeChar (c : Char) :
    weight byteWeight (String.utf8EncodeChar c) = asciiWeight c := by
  obtain ⟨b, tail, henc, -, hlead, htail⟩ := utf8EncodeChar_shape c
  have hzero : weight byteWeight tail = 0 := by
    refine List.sum_eq_zero fun n hn => ?_
    obtain ⟨x, hx, rfl⟩ := List.mem_map.mp hn
    have := htail x hx
    exact if_neg (by omega)
  rw [henc, weight_cons, hzero, Nat.add_zero]
  unfold byteWeight asciiWeight
  rcases hlead with ⟨hc, hb⟩ | ⟨hc, hb⟩
  · rw [if_pos (by omega), if_pos hc]
  · rw [if_neg (by omega), if_neg (by omega)]

theorem weight_utf8Encode (s : String) : weight byteWeight (utf8Encode s) = asciiCount s := by
  unfold utf8Encode asciiCount
  induction s.toList with
  | nil => rfl
  | cons _ _ ih => rw [List.flatMap_cons, weight_append, weight_utf8EncodeChar, ih, weight_cons]

theorem asciiCount_le_byteLen (s : String) : asciiCount s ≤ byteLen s := by
  rw [← weight_utf8Encode, byteLen_eq_length]
  exact weight_le_length byteWeight_le_one _

theorem weight_utf8DecodeList {bs : List UInt8} {l : List Char} (h : utf8DecodeList bs = some l) :
    weight asciiWeight l = weight byteWeight bs := by
  have hs := weight_utf8Encode (String.ofList l)
  rw [utf8Encode, asciiCount, String.toList_ofList, flatMap_utf8DecodeList h] at hs
  exact hs.symm

/-! ## The percent pass -/

theorem isHexByte_lt (h : isHexByte b = true) : b.toNat < 128 := by
  simp only [isHexByte, Bool.or_eq_true, Bool.and_eq_true, decide_eq_true_eq,
    UInt8.le_iff_toNat_le] at h
  simp at h
  omega

theorem percentSpells_light (l : List UInt8) (d : UInt8) (consumed : Nat)
    (h : percentSpells l = some (d, consumed)) :
    1 ≤ consumed ∧ byteWeight d < weight byteWeight (l.take consumed) := by
  obtain ⟨d', hd, heq⟩ := Option.map_eq_some_iff.mp h
  cases heq
  unfold percentTriple at hd
  split at hd
  · next hi lo rest =>
    split at hd
    · next hhex =>
      rw [Bool.and_eq_true] at hhex
      have hpercent : byteWeight 37 = 1 := by decide
      have hle := byteWeight_le_one d
      simp only [List.take_succ_cons, List.take_zero, weight_cons, weight_nil, hpercent,
        byteWeight_of_lt (isHexByte_lt hhex.1), byteWeight_of_lt (isHexByte_lt hhex.2)]
      omega
    · cases hd
  · cases hd

theorem overlongSpells_light (l : List UInt8) (ch : Char) (consumed : Nat)
    (h : overlongSpells l = some (ch, consumed)) :
    1 ≤ consumed ∧ asciiWeight ch ≤ weight byteWeight (l.take consumed) := by
  obtain ⟨ch', hch, heq⟩ := Option.map_eq_some_iff.mp h
  cases heq
  unfold overlong at hch
  split at hch
  · next b b' rest =>
    split at hch
    · next hlead =>
      have hb : byteWeight b = 1 := by
        simp only [Bool.and_eq_true, decide_eq_true_eq, UInt8.le_iff_toNat_le] at hlead
        simp at hlead
        exact if_pos (.inr (by omega))
      have hle := asciiWeight_le_one ch
      simp only [List.take_succ_cons, List.take_zero, weight_cons, weight_nil, hb]
      omega
    · cases hch
  · cases hch

theorem asciiCount_bytesToScannable (bs : List UInt8) :
    asciiCount (bytesToScannable bs) ≤ weight byteWeight bs := by
  unfold bytesToScannable utf8Decode asciiCount
  cases hs : utf8DecodeList bs with
  | some _ =>
    simp only [Option.map_some, String.toList_ofList]
    exact (weight_utf8DecodeList hs).le
  | none =>
    simp only [Option.map_none, String.toList_ofList, scannableGo_eq_go]
    exact weight_go_le asciiWeight_ofNat_byte overlongSpells_light bs

def percentPass (s : String) : String :=
  if hasTriple (utf8Encode s) then bytesToScannable (percentGo 0 (utf8Encode s)) else s

theorem asciiCount_percentPass_lt (h : hasTriple (utf8Encode s) = true) :
    asciiCount (percentPass s) < asciiCount s := by
  unfold percentPass
  rw [if_pos h, ← weight_utf8Encode s]
  refine Nat.lt_of_le_of_lt (asciiCount_bytesToScannable _) ?_
  rw [hasTriple_eq_hits] at h
  rw [percentGo_eq_go]
  exact weight_go_lt (fun b => Nat.le_refl (byteWeight b)) percentSpells_light h

/-! ## Percent decoding over and over -/

theorem toNat_of_mem_utf8EncodeChar (h : b ∈ String.utf8EncodeChar c) (hb : b.toNat < 128) :
    c.toNat = b.toNat := by
  obtain ⟨first, tail, henc, -, hlead, htail⟩ := utf8EncodeChar_shape c
  rw [henc] at h
  rcases List.mem_cons.mp h with rfl | hmem
  · omega
  · have := htail b hmem
    omega

theorem mem_of_hasTriple {l : List UInt8} (h : hasTriple l = true) : (37 : UInt8) ∈ l := by
  induction l with
  | nil => cases h
  | cons _ _ ih =>
    rw [hasTriple, Bool.or_eq_true] at h
    rcases h with h | h
    · unfold percentTriple at h
      split at h
      · next heq =>
        rw [(List.cons.inj heq).1]
        exact List.mem_cons_self
      · cases h
    · exact List.mem_cons_of_mem _ (ih h)

theorem hasTriple_of_not_hasPercent (h : hasPercent s = false) :
    hasTriple (utf8Encode s) = false := by
  by_contra htriple
  rw [Bool.not_eq_false] at htriple
  obtain ⟨c, hc, hb⟩ := List.mem_flatMap.mp (mem_of_hasTriple htriple)
  have hcode : c.toNat = 37 := toNat_of_mem_utf8EncodeChar hb (by decide)
  have hpercent : c = '%' := by
    rw [← Char.ofNat_toNat c, hcode]
  rw [hpercent] at hc
  have : hasPercent s = true := List.contains_iff_mem.mpr hc
  rw [h] at this
  cases this

theorem iterate_percentPass_of_stable (h : hasTriple (utf8Encode s) = false) (n : Nat) :
    percentPass^[n] s = s := by
  have hidle : percentPass s = s := if_neg (Bool.eq_false_iff.mp h)
  exact Function.iterate_fixed hidle n

theorem multiDecodeLoop_eq_iterate (n : Nat) (s : String) :
    multiDecodeLoop n s = percentPass^[n] s := by
  induction n generalizing s with
  | zero => rfl
  | succ n ih =>
    unfold multiDecodeLoop percentToBytes
    dsimp only
    cases htriple : hasTriple (utf8Encode s) with
    | false =>
      rw [iterate_percentPass_of_stable htriple]
      rfl
    | true =>
      have hpass : bytesToScannable (percentGo 0 (utf8Encode s)) = percentPass s := by
        unfold percentPass
        rw [htriple]
        rfl
      have hne : percentPass s ≠ s := by
        intro heq
        have := asciiCount_percentPass_lt htriple
        rw [heq] at this
        exact Nat.lt_irrefl _ this
      rw [Function.iterate_succ_apply, if_pos rfl]
      dsimp only
      rw [hpass, if_neg hne]
      cases hpercent : hasPercent (percentPass s) with
      | true => exact ih _
      | false =>
        have hstable := hasTriple_of_not_hasPercent hpercent
        exact (iterate_percentPass_of_stable hstable n).symm

theorem multiDecode_eq_iterate (s : String) (n : Nat) : multiDecode s n = percentPass^[n] s := by
  unfold multiDecode
  split
  · next h =>
    rw [Bool.or_eq_true, decide_eq_true_eq, Bool.not_eq_true'] at h
    rcases h with rfl | h
    · rfl
    · exact (iterate_percentPass_of_stable (hasTriple_of_not_hasPercent h) n).symm
  · exact multiDecodeLoop_eq_iterate n s

/-- Each pass that finds a triple uses up ASCII characters, so that there are no more passes of them
than there were such characters. -/
theorem hasTriple_iterate (h : asciiCount s ≤ n) :
    hasTriple (utf8Encode (percentPass^[n] s)) = false := by
  induction n generalizing s with
  | zero =>
    by_contra htriple
    rw [Bool.not_eq_false] at htriple
    have := asciiCount_percentPass_lt htriple
    have hzero : asciiCount (percentPass^[0] s) ≤ 0 := h
    omega
  | succ _ ih =>
    cases htriple : hasTriple (utf8Encode s) with
    | false =>
      rw [iterate_percentPass_of_stable htriple]
      exact htriple
    | true =>
      rw [Function.iterate_succ_apply]
      apply ih
      have := asciiCount_percentPass_lt htriple
      omega

theorem hasTriple_multiDecode (h : asciiCount s ≤ n) :
    hasTriple (utf8Encode (multiDecode s n)) = false := by
  rw [multiDecode_eq_iterate]
  exact hasTriple_iterate h

theorem multiDecode_of_stable (h : hasTriple (utf8Encode s) = false) (n : Nat) :
    multiDecode s n = s := by
  rw [multiDecode_eq_iterate, iterate_percentPass_of_stable h]

/-- As many layers as the text is long leave no triple and nothing for further layers, and layers add
up. -/
theorem multiDecode_fixed_point (s : String) :
    (∀ n, byteLen s ≤ n → hasTriple (utf8Encode (multiDecode s n)) = false ∧
      ∀ m, multiDecode (multiDecode s n) m = multiDecode s n) ∧
    ∀ a b, multiDecode s (a + b) = multiDecode (multiDecode s a) b := by
  refine ⟨fun n hn => ?_, fun a b => ?_⟩
  · have hstable := hasTriple_multiDecode (Nat.le_trans (asciiCount_le_byteLen s) hn)
    exact ⟨hstable, fun m => multiDecode_of_stable hstable m⟩
  · simp only [multiDecode_eq_iterate]
    rw [Nat.add_comm, Function.iterate_add_apply]

/-- An overlong percent sign, then the layer behind it. -/
theorem overlong_percent_is_decoded :
    multiDecode "%C0%A541" 8 = "A" ∧
      ∀ m, multiDecode (multiDecode "%C0%A541" 8) m = multiDecode "%C0%A541" 8 :=
  ⟨by decide +kernel, ((multiDecode_fixed_point "%C0%A541").1 8 (by decide)).2⟩

end PingWaf.Waf
