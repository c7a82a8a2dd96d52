import PingWaf.Lib.Text

/-!
# Decimal spellings

A number reads back from its own decimal text. The converse fails: `parseI64` accepts a plus sign
and leading zeros, which `toString` never writes.
-/

namespace Text

variable {n : Nat} {t : Int}

theorem isAsciiDigit_digitChar (h : n < 10) : isAsciiDigit n.digitChar = true := by
  interval_cases n <;> decide

theorem toNat_digitChar (h : n < 10) : n.digitChar.toNat = 48 + n := by
  interval_cases n <;> decide

theorem digitsVal_concat {ds : List Char} {n d : Nat} (h : digitsVal ds = some n) (hd : d < 10) :
    digitsVal (ds ++ [d.digitChar]) = some (n * 10 + d) := by
  cases ds with
  | nil => cases h
  | cons c cs =>
    have hfold : digitsVal (c :: cs) = (c :: cs).foldl (fun acc c => acc.bind fun n =>
      if isAsciiDigit c then some (n * 10 + (c.toNat - 48)) else none) (some 0) := rfl
    rw [List.cons_append, digitsVal, ← List.cons_append, List.foldl_append, ← hfold, h]
    · simp [isAsciiDigit_digitChar hd, toNat_digitChar hd]
    · exact nofun

theorem digitsVal_toDigits (n : Nat) : digitsVal (Nat.toDigits 10 n) = some n := by
  induction n using Nat.strong_induction_on with
  | _ n ih =>
    by_cases hn : n < 10
    · rw [Nat.toDigits_of_lt_base hn]
      simp [digitsVal, isAsciiDigit_digitChar hn, toNat_digitChar hn]
    · rw [Nat.toDigits_of_base_le (by decide) (by omega),
        digitsVal_concat (ih (n / 10) (by omega)) (Nat.mod_lt _ (by decide))]
      congr 1
      omega

theorem toNat_lt_of_mem_toDigits {ch : Char} (h : ch ∈ Nat.toDigits 10 n) : ch.toNat < 128 := by
  have hd : ch.isDigit = true := Nat.isDigit_of_mem_toDigits (by decide) (le_refl 10) h
  have hle : ch.val ≤ 57 := by
    simp only [Char.isDigit, Bool.and_eq_true, decide_eq_true_eq] at hd
    exact hd.2
  have hnat : ch.toNat ≤ 57 := UInt32.le_iff_toNat_le.mp hle
  omega

theorem digitsVal_utf8Encode (n : Nat) :
    digitsVal ((utf8Encode (toString n)).map fun b => Char.ofNat b.toNat) = some n := by
  have hlist : (toString n).toList = Nat.toDigits 10 n := Nat.toList_repr
  rw [map_utf8Encode_ascii, hlist, digitsVal_toDigits]
  intro ch hch
  exact toNat_lt_of_mem_toDigits (hlist ▸ hch)

theorem toDigits_eq_digit_cons (n : Nat) :
    ∃ d ds, Nat.toDigits 10 n = d :: ds ∧ d ≠ '-' ∧ d ≠ '+' := by
  cases h : Nat.toDigits 10 n with
  | nil =>
    have := digitsVal_toDigits n
    rw [h] at this
    cases this
  | cons d ds =>
    have hd : d.isDigit = true :=
      Nat.isDigit_of_mem_toDigits (by decide) (le_refl 10) (h ▸ List.mem_cons_self)
    refine ⟨d, ds, rfl, ?_, ?_⟩ <;> rintro rfl <;> revert hd <;> decide

theorem toList_toString_nonneg (h : 0 ≤ t) : (toString t).toList = Nat.toDigits 10 t.toNat := by
  rw [Int.toString_eq_repr, Int.repr_eq_if, if_pos h, Nat.toList_repr]

theorem toList_toString_neg (h : ¬ 0 ≤ t) :
    (toString t).toList = '-' :: Nat.toDigits 10 (-t).toNat := by
  rw [Int.toString_eq_repr, Int.repr_eq_if, if_neg h, String.toList_append, Nat.toList_repr]
  rfl

theorem parseI64_toString (hlo : -2 ^ 63 ≤ t) (hhi : t < 2 ^ 63) :
    parseI64 (toString t) = some t := by
  unfold parseI64
  by_cases ht : 0 ≤ t
  · obtain ⟨d, ds, hd, hminus, hplus⟩ := toDigits_eq_digit_cons t.toNat
    have hval : digitsVal (d :: ds) = some t.toNat := hd ▸ digitsVal_toDigits t.toNat
    rw [toList_toString_nonneg ht, hd]
    split
    next neg l hsign =>
    -- the first digit is no sign, so the text is read as it stands
    split at hsign
    · next h => exact absurd (List.cons.inj h).1 hminus
    · next h => exact absurd (List.cons.inj h).1 hplus
    · obtain ⟨rfl, rfl⟩ := Prod.mk.inj hsign
      rw [hval]
      simp only [Bool.false_eq_true, if_false]
      rw [if_pos (by omega), Int.toNat_of_nonneg ht]
  · rw [toList_toString_neg ht]
    simp only [digitsVal_toDigits, if_true]
    rw [if_pos (by omega)]
    congr 1
    omega

theorem not_mem_toString {c : Char} (hdigit : c.isDigit = false) (hminus : c ≠ '-') (t : Int) :
    c ∉ (toString t).toList := by
  have hdigits : ∀ n : Nat, c ∉ Nat.toDigits 10 n := fun n h => by
    have := Nat.isDigit_of_mem_toDigits (by decide) (le_refl 10) h
    simp [hdigit] at this
  by_cases ht : 0 ≤ t
  · rw [toList_toString_nonneg ht]
    exact hdigits _
  · rw [toList_toString_neg ht, List.mem_cons, not_or]
    exact ⟨hminus, hdigits _⟩

/-! ## Decimal fractions -/

def exponentValue : List Char → Option Int
  | [] => some 0
  | c :: l => if c = 'e' || c = 'E' then parseI64 (String.ofList l) else none

def decimalValue (text : String) : Option ℚ :=
  let negative := text.toList.head? = some '-'
  let l := if negative then text.toList.drop 1 else text.toList
  let whole := l.takeWhile isAsciiDigit
  let l := l.dropWhile isAsciiDigit
  let pointed := l.head? = some '.'
  let fraction := if pointed then (l.drop 1).takeWhile isAsciiDigit else []
  let l := if pointed then (l.drop 1).dropWhile isAsciiDigit else l
  (digitsVal (whole ++ fraction)).bind fun mantissa =>
    (exponentValue l).map fun exponent : Int =>
      (if negative then -1 else 1) * (mantissa : ℚ) * 10 ^ (exponent - fraction.length)

end Text
