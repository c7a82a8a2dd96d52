import PingWaf.Lib.Text

/-!
# Positions in UTF-8 text

The octets of a text and the positions between its characters.
-/

namespace Text

open List

/-- The octets of a text, each as a character. -/
def octets (s : String) : List Char := (utf8Encode s).map fun b => Char.ofNat b.toNat

/-- Whole characters stand before the position. -/
def Boundary (s : String) (i : Nat) : Prop :=
  ∃ done rest : List Char,
    s.toList = done ++ rest ∧ i = (done.flatMap String.utf8EncodeChar).length

/-- How many octets a character has whose first octet this is. -/
def utf8Width (b : Char) : Nat :=
  if b.toNat ≤ 0x7F then 1
  else if 0xC0 ≤ b.toNat ∧ b.toNat ≤ 0xDF then 2
  else if 0xE0 ≤ b.toNat ∧ b.toNat ≤ 0xEF then 3
  else 4

/-- The first octet of a character gives its width, and is the character if it is ASCII. The others
are not ASCII. -/
theorem utf8EncodeChar_shape (c : Char) :
    ∃ b tail, String.utf8EncodeChar c = b :: tail ∧
      utf8Width (Char.ofNat b.toNat) = tail.length + 1 ∧
      (c.toNat < 128 ∧ b.toNat = c.toNat ∨ 128 ≤ c.toNat ∧ 0xC2 ≤ b.toNat) ∧
      ∀ x ∈ tail, 128 ≤ x.toNat ∧ x.toNat < 0xC0 := by
  have hval : c.val.toNat = c.toNat := rfl
  have hmax : c.toNat < 1114112 := by
    have hvalid := c.valid
    unfold UInt32.isValidChar Nat.isValidChar at hvalid
    omega
  unfold String.utf8EncodeChar
  dsimp only
  rw [hval]
  split_ifs
  all_goals
    refine ⟨_, _, rfl, ?_, ?_, ?_⟩
    · simp only [utf8Width, toNat_octet, length_cons, length_nil]
      simp only [UInt8.toNat_ofNat']
      split_ifs <;> omega
    · simp
      omega
    · simp
      try omega

variable {s : String} {i : Nat} {a : Char} {l : List Char}

theorem length_octets (s : String) : (octets s).length = byteLen s := by
  rw [octets, length_map, byteLen_eq_length]

theorem Boundary.le (h : Boundary s i) : i ≤ byteLen s := by
  obtain ⟨done, rest, hs, rfl⟩ := h
  rw [byteLen_eq_length, utf8Encode, hs, flatMap_append, length_append]
  omega

theorem boundary_zero (s : String) : Boundary s 0 := ⟨[], s.toList, rfl, rfl⟩

theorem boundary_byteLen (s : String) : Boundary s (byteLen s) :=
  ⟨s.toList, [], by simp, byteLen_eq_length s⟩

theorem Boundary.next (h : Boundary s i) (hd : (octets s).drop i = a :: l) :
    Boundary s (i + utf8Width a) := by
  obtain ⟨done, rest, hs, rfl⟩ := h
  rw [octets, utf8Encode, hs, flatMap_append, ← map_drop, drop_left] at hd
  cases rest with
  | nil => simp at hd
  | cons c rest =>
    obtain ⟨b, tail, henc, hwidth, -, -⟩ := utf8EncodeChar_shape c
    rw [flatMap_cons, henc, cons_append, map_cons, cons.injEq] at hd
    rw [← hd.1, hwidth]
    exact ⟨done ++ [c], rest, by simp [hs], by simp [henc]⟩

/-- An ASCII octet is a character. -/
theorem exists_split_ascii {l : List Char} {b : UInt8}
    (h : (l.flatMap String.utf8EncodeChar)[i]? = some b) (hb : b.toNat < 128) :
    ∃ done rest, l = done ++ rest ∧ i = (done.flatMap String.utf8EncodeChar).length := by
  induction l generalizing i with
  | nil => simp at h
  | cons c l ih =>
    obtain ⟨first, tail, henc, -, -, htail⟩ := utf8EncodeChar_shape c
    rw [flatMap_cons, getElem?_append] at h
    split at h
    · cases i with
      | zero => exact ⟨[], c :: l, rfl, rfl⟩
      | succ i =>
        rw [henc, getElem?_cons_succ] at h
        have hge := (htail b (mem_of_getElem? h)).1
        omega
    · obtain ⟨done, rest, rfl, hi⟩ := ih h
      exact ⟨c :: done, rest, rfl, by rw [flatMap_cons, length_append]; omega⟩

theorem boundary_ascii (hd : (octets s).drop i = a :: l) (ha : a.toNat < 128) :
    Boundary s i ∧ Boundary s (i + 1) := by
  have hhead : (octets s)[i]? = some a := by rw [← head?_drop, hd, head?_cons]
  rw [octets, getElem?_map, Option.map_eq_some_iff] at hhead
  obtain ⟨b, hb, rfl⟩ := hhead
  rw [toNat_octet] at ha
  have hi : Boundary s i := exists_split_ascii hb ha
  have hwidth : utf8Width (Char.ofNat b.toNat) = 1 := if_pos (by rw [toNat_octet]; omega)
  exact ⟨hi, hwidth ▸ hi.next hd⟩

theorem drop_succ_octets (hd : (octets s).drop i = a :: l) : (octets s).drop (i + 1) = l := by
  rw [← drop_drop, hd, drop_one, tail_cons]

/-- The end of a run of ASCII octets. -/
theorem boundary_run {p : Char → Bool} (hp : ∀ c, p c = true → c.toNat < 128)
    (hd : (octets s).drop i = a :: l) (ha : a.toNat < 128) {n : Nat}
    (hn : n ≤ (l.takeWhile p).length) : Boundary s (i + 1 + n) := by
  cases n with
  | zero => exact (boundary_ascii hd ha).2
  | succ n =>
    have hlt : n < l.length := Nat.lt_of_lt_of_le hn ( takeWhile_prefix p).length_le
    have hdrop : (octets s).drop (i + 1 + n) = l[n] :: l.drop (n + 1) := by
      rw [← drop_drop, drop_succ_octets hd, drop_eq_getElem_cons hlt]
    refine (boundary_ascii hdrop (hp _ ?_)).2
    rw [← ( takeWhile_prefix p).getElem hn]
    exact mem_takeWhile_imp (getElem_mem hn)

end Text
