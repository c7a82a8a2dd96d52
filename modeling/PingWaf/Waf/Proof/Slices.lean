import PingWaf.Waf.Slices

/-!
# Slices keep to character boundaries

A slice off a character boundary would abort the process. Each turn of a loop slices at boundaries
(`Turn.Keeps`) and goes on at one, but for the fingerprint, which asks for nothing between words.
-/

namespace PingWaf.Waf

open Text List

/-- The bounds are in order and within the text, and on boundaries if the text is sliced. -/
def Slice.Within (s : String) (c : Slice) : Prop :=
  c.start ≤ c.stop ∧ c.stop ≤ byteLen s ∧
    (c.ofText = true → Boundary s c.start ∧ Boundary s c.stop)

theorem isSqlWordChar_lt (c : Char) : isSqlWordChar c = true → c.toNat < 128 :=
  ascii_or isAsciiAlphanumeric_lt (by decide)

theorem isWordChar_lt (c : Char) : isWordChar c = true → c.toNat < 128 :=
  ascii_or (ascii_or (ascii_or (isSqlWordChar_lt c) (by decide)) (by decide)) (by decide)

theorem isAsciiDigit_lt (c : Char) (h : isAsciiDigit c = true) : c.toNat < 128 :=
  isAsciiAlphanumeric_lt (by simp [isAsciiAlphanumeric, h])

variable {s : String} {i : Nat} {a : Char} {l : List Char}

theorem within_of (hstart : Boundary s i) {j : Nat} (hstop : Boundary s j) (hle : i ≤ j) :
    Slice.Within s ⟨i, j, true⟩ :=
  ⟨hle, hstop.le, fun _ => ⟨hstart, hstop⟩⟩

/-- The slices of the turn are well placed, and the loop goes on in a state with the property. -/
def Turn.Keeps {σ : Type} (s : String) (I : σ → Prop) (t : Turn σ) : Prop :=
  (∀ c ∈ t.1, c.Within s) ∧ ∀ a ∈ t.2, I a

theorem within_of_taken {σ : Type} {turn : σ → Turn σ} {I : σ → Prop} {start : σ} {c : Slice}
    (h : ∀ a, I a → (turn a).Keeps s I) (hstart : I start) (hc : c ∈ taken turn start) :
    c.Within s := by
  obtain ⟨a, hreach, hmem⟩ := hc
  have ha : I a := by
    clear hmem
    induction hreach with
    | refl => exact hstart
    | tail _ hstep ih => exact (h _ ih).2 _ hstep
  exact (h a ha).1 c hmem

/-- Where the tokenizer stands: at a boundary, inside an ASCII quote if any. -/
def AtToken (s : String) (st : Option Char × Nat) : Prop :=
  Boundary s st.2 ∧ ∀ quote ∈ st.1, quote.toNat < 128

theorem quotedTurn_keeps {quote : Char} (hq : quote.toNat < 128) {j : Nat} (hj : Boundary s j) :
    (quotedTurn (octets s) quote j).Keeps s (AtToken s) := by
  unfold quotedTurn
  split
  · simp [Turn.Keeps]
  · next esc rest hd =>
    have hnext := (boundary_ascii hd (by decide)).2
    have hesc := drop_succ_octets hd
    split
    · next hmem =>
      have hascii : ∀ c ∈ ['n', 't', 'r', '\\', '"', '\''], c.toNat < 128 := by simp
      simpa [Turn.Keeps, AtToken, hq] using (boundary_ascii hesc (hascii esc hmem)).2
    · simpa [Turn.Keeps, AtToken, hq] using
        ⟨within_of hnext (hnext.next hesc) (Nat.le_add_right _ _), hnext.next hesc⟩
  · next b rest _ hd =>
    split
    · next hb => simpa [Turn.Keeps, AtToken, hq] using (boundary_ascii hd (hb ▸ hq)).2
    · simpa [Turn.Keeps, AtToken, hq] using
        ⟨within_of hj (hj.next hd) (Nat.le_add_right _ _), hj.next hd⟩

theorem boundary_wordRun (hd : (octets s).drop i = a :: l) {n : Nat} (hn : wordRun a l = some n) :
    Boundary s i ∧ Boundary s (i + 1 + n) := by
  unfold wordRun at hn
  split_ifs at hn with hminus hword
  · have hascii : a.toNat < 128 := by
      rw [Bool.and_eq_true, beq_iff_eq] at hminus
      exact hminus.1 ▸ by decide
    cases hn
    exact ⟨(boundary_ascii hd hascii).1, boundary_run isAsciiDigit_lt hd hascii le_rfl⟩
  · have hascii : a.toNat < 128 := isSqlWordChar_lt a hword
    cases hn
    exact ⟨(boundary_ascii hd hascii).1, boundary_run isWordChar_lt hd hascii le_rfl⟩

theorem plainTurn_keeps (i : Nat) : (plainTurn (octets s) i).Keeps s (AtToken s) := by
  unfold plainTurn
  split
  · simp [Turn.Keeps]
  next c rest hd =>
  split
  · next hmem =>
    have hascii : ∀ c ∈ [' ', '\t', '\n', '\r', '(', ')', '[', ']', '\x7b', '\x7d'],
        c.toNat < 128 := by simp
    simpa [Turn.Keeps, AtToken] using (boundary_ascii hd (hascii c hmem)).2
  · split
    · next hmem =>
      have hquotes : ∀ c ∈ ['"', '\''], c.toNat < 128 := by simp
      have hascii := hquotes c hmem
      simpa [Turn.Keeps, AtToken] using ⟨(boundary_ascii hd hascii).2, hascii⟩
    · split
      · next n hn =>
        obtain ⟨hstart, hstop⟩ := boundary_wordRun hd hn
        refine ⟨by simpa using within_of hstart hstop (by omega), fun st hst => ?_⟩
        obtain ⟨-, rfl⟩ : _ ∧ (none, i + 1 + n) = st := by simpa using hst
        exact ⟨hstop, by simp⟩
      · simp [Turn.Keeps]

theorem tokenizeTurn_keeps (st : Option Char × Nat) (h : AtToken s st) :
    (tokenizeTurn (octets s) st).Keeps s (AtToken s) := by
  obtain ⟨quote, i⟩ := st
  cases quote with
  | some quote => exact quotedTurn_keeps (h.2 quote rfl) h.1
  | none => exact plainTurn_keeps i

theorem copyTurn_keeps (hi : Boundary s i) (hd : (octets s).drop i = a :: l) {digits : List Slice}
    (h : ∀ c ∈ digits, c.Within s) :
    (copyTurn (octets s) i a digits).Keeps s (Boundary s) := by
  refine ⟨fun c hc => ?_, by simpa [copyTurn] using hi.next hd⟩
  simp only [copyTurn, length_octets, mem_append, mem_cons, not_mem_nil, or_false] at hc
  rcases hc with hc | rfl | rfl
  · exact h c hc
  · exact within_of hi (boundary_byteLen s) hi.le
  · exact within_of hi (hi.next hd) (Nat.le_add_right _ _)

theorem hexVal_lt (c : Char) (h : (hexVal c).isSome = true) : c.toNat < 128 := by
  have hle : ∀ {a b : Char}, a ≤ b → a.toNat ≤ b.toNat := fun h => h
  unfold hexVal at h
  split_ifs at h with h1 h2 h3
  · exact (hle h1.2).trans_lt (by decide)
  · exact (hle h2.2).trans_lt (by decide)
  · exact (hle h3.2).trans_lt (by decide)
  · cases h

theorem hexWidth_ascii {k : Char} (h : hexWidth k ≠ 0) : k.toNat < 128 := by
  unfold hexWidth at h
  split_ifs at h with hx hu
  · rcases hx with rfl | rfl <;> decide
  · rcases hu with rfl | rfl <;> decide
  · exact absurd rfl h

theorem decodeEscapesTurn_keeps (i : Nat) (hi : Boundary s i) :
    (decodeEscapesTurn (octets s) i).Keeps s (Boundary s) := by
  simp only [decodeEscapesTurn]
  split
  · simp [Turn.Keeps]
  · next k rest hd =>
    have hk := drop_succ_octets hd
    split
    · exact copyTurn_keeps hi hd (by simp)
    next hwidth =>
    rw [not_or, not_lt] at hwidth
    have hascii := hexWidth_ascii hwidth.1
    have hlen : i + 2 + hexWidth k ≤ byteLen s := by
      have hrest := congrArg length hk
      rw [length_drop, length_octets, length_cons] at hrest
      omega
    have hbytes : Slice.Within s ⟨i + 2, i + 2 + hexWidth k, false⟩ :=
      ⟨Nat.le_add_right _ _, hlen, by simp⟩
    split
    · exact copyTurn_keeps hi hd (by simpa using hbytes)
    next hall =>
    have hstop : Boundary s (i + 2 + hexWidth k) := by
      refine boundary_run hexVal_lt hk hascii ?_
      rw [← take_append_drop (hexWidth k) rest,
        takeWhile_append_of_pos (by simpa [Option.isSome_iff_ne_none] using hall), length_append,
        length_take]
      omega
    have hdigits := within_of (boundary_ascii hk hascii).2 hstop (Nat.le_add_right _ _)
    split
    · exact copyTurn_keeps hi hd (by simpa using ⟨hbytes, hdigits⟩)
    · simpa [Turn.Keeps] using ⟨⟨hbytes, hdigits⟩, hstop⟩
  · next b rest _ hd => exact copyTurn_keeps hi hd (by simp)

theorem entityEnds_le {n : Nat} (h : n ∈ entityEnds l) : n ≤ (l.takeWhile isEntityChar).length := by
  simp only [entityEnds] at h
  split at h
  · simp_all
  · simp at h
    omega

theorem boundary_entity {p : Char × Nat} (hd : (octets s).drop i = '&' :: l)
    (h : tryDecodeEntity l = some p) : Boundary s (i + 1 + p.2) := by
  simp only [tryDecodeEntity] at h
  split at h
  · next hsemi =>
    obtain ⟨c, -, rfl⟩ := Option.map_eq_some_iff.mp h
    obtain ⟨hlt, hget⟩ := List.getElem?_eq_some_iff.mp hsemi.2
    have hdrop := drop_eq_getElem_cons hlt
    rw [hget] at hdrop
    nth_rewrite 2 [← drop_succ_octets hd] at hdrop
    rw [drop_drop] at hdrop
    exact (boundary_ascii hdrop (by decide)).2
  · obtain ⟨j, hj, hbody⟩ := exists_of_findSome?_eq_some h
    obtain ⟨c, -, rfl⟩ := Option.map_eq_some_iff.mp hbody
    rw [mem_reverse, mem_range] at hj
    exact boundary_run (fun _ => isEntityChar_lt) hd (by decide) (Nat.lt_of_lt_of_le hj (min_le_left _ _))

theorem decodeEntitiesTurn_keeps (i : Nat) (hi : Boundary s i) :
    (decodeEntitiesTurn (octets s) i).Keeps s (Boundary s) := by
  simp only [decodeEntitiesTurn]
  split
  · simp [Turn.Keeps]
  next x after hd =>
  obtain rfl : x = '&' := by
    have hget : ((octets s).drop i)[((octets s).drop i).idxOf '&']? = some x := by
      rw [getElem?_drop, ← head?_drop, hd, head?_cons]
    obtain ⟨hlt, hx⟩ := List.getElem?_eq_some_iff.mp hget
    rw [← hx, getElem_idxOf]
  obtain ⟨hamp, hafter⟩ := boundary_ascii hd (by decide)
  have hend := boundary_byteLen s
  have hrest : Boundary s (i + ((octets s).drop i).idxOf '&' + 1 +
      (tryDecodeEntity after).elim 0 (·.2)) := by
    cases htry : tryDecodeEntity after with
    | none => exact hafter
    | some p => exact boundary_entity hd htry
  rw [length_octets]
  refine ⟨fun c hc => ?_, fun j hj => Option.some.inj hj ▸ hrest⟩
  simp only [cons_append, nil_append, mem_cons, mem_map] at hc
  rcases hc with rfl | rfl | rfl | ⟨n, hn, rfl⟩
  · exact within_of hi hamp (by omega)
  · exact within_of hafter hend hafter.le
  · exact within_of hrest hend hrest.le
  · have hstop := boundary_run (fun _ => isEntityChar_lt) hd (by decide) (entityEnds_le hn)
    exact within_of hafter hstop (by omega)

theorem fingerprintTurn_keeps (i : Nat) :
    (fingerprintTurn (octets s) i).Keeps s fun _ => True := by
  unfold fingerprintTurn
  split
  · simp [Turn.Keeps]
  next a l hd =>
  refine ⟨fun c hc => ?_, fun _ _ => trivial⟩
  split at hc
  · next hword =>
    have halpha : isAsciiAlpha a = true → a.toNat < 128 := fun h =>
      isAsciiAlphanumeric_lt (by simp [isAsciiAlphanumeric, h])
    have hascii : a.toNat < 128 := ascii_or halpha (by decide) hword
    rw [mem_singleton.mp hc]
    exact within_of (boundary_ascii hd hascii).1 (boundary_run isSqlWordChar_lt hd hascii le_rfl)
      (by omega)
  · simp at hc

/-- For every text: every slice that one of the loops comes to has its bounds in order, within the
text and on character boundaries. -/
theorem slices_on_boundaries (s : String) : slices s ⊆ {c | c.Within s} := by
  rintro c (((hc | hc) | hc) | hc)
  · exact within_of_taken tokenizeTurn_keeps ⟨boundary_zero s, by simp⟩ hc
  · exact within_of_taken decodeEscapesTurn_keeps (boundary_zero s) hc
  · exact within_of_taken decodeEntitiesTurn_keeps (boundary_zero s) hc
  · exact within_of_taken (fun i _ => fingerprintTurn_keeps i) trivial hc

end PingWaf.Waf
