import PingWaf.Waf.Detect.Signatures

/-!
# What the signature scan reports

The automaton reports the longest needle at each place it comes to, and the scan one hit for each
pattern among the matches that count. Evidence is lost where a stronger needle begins inside a
match, or at the place of a longer needle, or stands in the table behind the same needle.
-/

namespace PingWaf.Waf

open Text Scan List

/-! ## The longest needle -/

theorem idxOf_le_idxOf_iff {α : Type} [DecidableEq α] (f : α → Nat) {l : List α}
    (hl : l.Pairwise fun a b => f a < f b) {a b : α} (ha : a ∈ l) (hb : b ∈ l) :
    l.idxOf a ≤ l.idxOf b ↔ f a ≤ f b := by
  induction l with
  | nil => cases ha
  | cons c l ih =>
    obtain ⟨hhead, htail⟩ := pairwise_cons.mp hl
    have hne : ∀ d ∈ l, c ≠ d := by
      rintro d hd rfl
      exact Nat.lt_irrefl _ (hhead c hd)
    rcases mem_cons.mp ha with rfl | ha' <;> rcases mem_cons.mp hb with rfl | hb'
    · simp
    · simpa using (hhead b hb').le
    · rw [idxOf_cons_self, idxOf_cons_ne _ (hne a ha')]
      exact iff_of_false (by omega) (Nat.not_le.mpr (hhead a ha'))
    · rw [idxOf_cons_ne _ (hne a ha'), idxOf_cons_ne _ (hne b hb'), Nat.succ_le_succ_iff]
      exact ih htail ha' hb'

variable {patterns : List SignaturePattern} {l : List UInt8}

theorem mem_standing_iff {p : SignaturePattern × Nat} :
    (p ∈ patterns.zipIdx.filter fun p => needleAt p.1.needle l) ↔
      patterns[p.2]? = some p.1 ∧ needleAt p.1.needle l = true := by
  rw [mem_filter, mem_zipIdx_iff_getElem?]

theorem standing_pairwise :
    (patterns.zipIdx.filter fun p => needleAt p.1.needle l).Pairwise fun p q => p.2 < q.2 := by
  refine List.Pairwise.filter _ ?_
  have h : (range' 0 patterns.length).Pairwise (· < ·) := pairwise_lt_range'
  rw [← zipIdx_map_snd, pairwise_map] at h
  exact h

/-- No needle at the head of the text is longer than the `n` octets of pattern `k`, and none as long
stands before it in the table. -/
def Foremost (patterns : List SignaturePattern) (l : List UInt8) (k n : Nat) : Prop :=
  ∀ j q, patterns[j]? = some q → needleAt q.needle l = true →
    byteLen q.needle ≤ n ∧ (byteLen q.needle = n → k ≤ j)

theorem longestAt_eq_some_iff {p : SignaturePattern} {k n : Nat} :
    longestAt patterns l = some ((p, k), n) ↔
      patterns[k]? = some p ∧ needleAt p.needle l = true ∧ n = byteLen p.needle ∧
        Foremost patterns l k n := by
  unfold longestAt
  rw [Option.map_eq_some_iff]
  constructor
  · rintro ⟨q, hq, heq⟩
    obtain ⟨rfl, rfl⟩ := Prod.mk.inj heq
    obtain ⟨hmem, hmax, hfirst⟩ := mem_argmax_iff.mp hq
    obtain ⟨hget, hat⟩ := mem_standing_iff.mp hmem
    refine ⟨hget, hat, rfl, fun j r hj hr => ?_⟩
    have hmem' : (r, j) ∈ patterns.zipIdx.filter fun p => needleAt p.1.needle l :=
      mem_standing_iff.mpr ⟨hj, hr⟩
    exact ⟨hmax _ hmem', fun hlen =>
      (idxOf_le_idxOf_iff Prod.snd standing_pairwise hmem hmem').mp (hfirst _ hmem' hlen.ge)⟩
  · rintro ⟨hget, hat, rfl, hfore⟩
    have hmem : (p, k) ∈ patterns.zipIdx.filter fun p => needleAt p.1.needle l :=
      mem_standing_iff.mpr ⟨hget, hat⟩
    refine ⟨(p, k), mem_argmax_iff.mpr ⟨hmem, fun q hq => ?_, fun q hq hle => ?_⟩, rfl⟩
    · obtain ⟨hget', hat'⟩ := mem_standing_iff.mp hq
      exact (hfore q.2 q.1 hget' hat').1
    · obtain ⟨hget', hat'⟩ := mem_standing_iff.mp hq
      obtain ⟨hle', hfirst⟩ := hfore q.2 q.1 hget' hat'
      exact (idxOf_le_idxOf_iff Prod.snd standing_pairwise hmem hq).mpr (hfirst (le_antisymm hle' hle))

theorem eq_empty_of_needleAt_nil {needle : String} (h : needleAt needle [] = true) : needle = "" := by
  unfold needleAt at h
  rw [ isPrefixOf_iff_prefix, map_nil, prefix_nil, map_eq_nil_iff] at h
  rw [← String.utf8ByteSize_eq_zero_iff]
  exact (byteLen_eq_length needle).trans (by rw [h]; rfl)

theorem longestAt_nil (h : ∀ p ∈ patterns, p.needle ≠ "") : longestAt patterns [] = none := by
  rw [Option.eq_none_iff_forall_not_mem]
  rintro ⟨⟨p, k⟩, n⟩ hmem
  obtain ⟨hget, hat, -, -⟩ := longestAt_eq_some_iff.mp hmem
  exact h p (mem_of_getElem? hget) (eq_empty_of_needleAt_nil hat)

/-! ## The matches -/

theorem mem_findIter_iff (h : ∀ p ∈ patterns, p.needle ≠ "") (haystack : String) (m : AhoMatch) :
    m ∈ findIter patterns haystack ↔
      Taken (longestAt patterns) (utf8Encode haystack) m.start ∧
        ∃ p, patterns[m.pattern]? = some p ∧
          needleAt p.needle ((utf8Encode haystack).drop m.start) = true ∧
          m.stop = m.start + byteLen p.needle ∧
          Foremost patterns ((utf8Encode haystack).drop m.start) m.pattern (byteLen p.needle) := by
  obtain ⟨k, i, stop⟩ := m
  unfold findIter
  dsimp only
  rw [mem_map]
  constructor
  · rintro ⟨⟨j, p, k'⟩, hmem, heq⟩
    obtain ⟨htaken, n, hlong⟩ := (mem_pieces_iff (longestAt_nil h) _ _ _).mp hmem
    obtain ⟨hget, hat, rfl, hfore⟩ := longestAt_eq_some_iff.mp hlong
    cases heq
    exact ⟨htaken, p, hget, hat, rfl, hfore⟩
  · rintro ⟨htaken, p, hget, hat, rfl, hfore⟩
    refine ⟨(i, p, k), (mem_pieces_iff (longestAt_nil h) _ _ _).mpr
      ⟨htaken, byteLen p.needle, ?_⟩, rfl⟩
    exact longestAt_eq_some_iff.mpr ⟨hget, hat, rfl, hfore⟩

/-! ## The hits -/

namespace Detectors

variable (d : Detectors)

theorem pattern_eq_of_getElem? {d : Detectors} {k : Nat} {p : SignaturePattern}
    (h : d.patterns[k]? = some p) : d.pattern k = p := by
  rw [pattern, getD_eq_getElem?_getD, h]
  rfl

/-- The loop over the matches: a match of a pattern that has a hit already adds nothing, but that hit
has the severity of the pattern. -/
theorem exists_hit_foldl_iff (P : Nat → Prop) (ms : List AhoMatch) (hits : List SignatureHit)
    (hhits : ∀ hit ∈ hits, hit.severity = (d.pattern hit.pattern).severity) :
    (∃ hit ∈ ms.foldl (fun hits m =>
        if hits.any (·.pattern == m.pattern) then hits
        else
          let p := d.pattern m.pattern
          hits ++ [⟨m.pattern, p.category, p.severity, m.start, m.stop - m.start⟩]) hits,
      P hit.severity) ↔
      (∃ hit ∈ hits, P hit.severity) ∨ ∃ m ∈ ms, P (d.pattern m.pattern).severity := by
  induction ms generalizing hits with
  | nil => simp
  | cons _ _ ih =>
    rw [foldl_cons]
    split
    · next hseen =>
      rw [ih hits hhits, exists_mem_cons_iff, ← or_assoc]
      refine or_congr_left (or_iff_left_of_imp fun hP => ?_).symm
      obtain ⟨hit, hmem, hpat⟩ := any_eq_true.mp hseen
      refine ⟨hit, hmem, ?_⟩
      rw [hhits hit hmem, beq_iff_eq.mp hpat]
      exact hP
    · rw [ih _ ?_]
      · simp only [mem_append, mem_singleton, or_and_right, exists_or, exists_eq_left,
          exists_mem_cons_iff, or_assoc]
      · intro hit hmem
        rcases mem_append.mp hmem with hold | hnew
        · exact hhits hit hold
        · rw [mem_singleton.mp hnew]

theorem exists_hit_iff (P : Nat → Prop) {haystack : String} (hne : haystack ≠ "") :
    (∃ hit ∈ d.scanInto haystack, P hit.severity) ↔
      ∃ m ∈ d.findIter haystack, d.matchCounts haystack m = true ∧
        P (d.pattern m.pattern).severity := by
  unfold scanInto
  rw [if_neg hne, d.exists_hit_foldl_iff P _ [] (fun _ h => absurd h not_mem_nil)]
  simp only [not_mem_nil, false_and, exists_false, false_or, mem_filter, and_assoc]

/-- The pattern of the match is active, its needle stands at the place, and the match counts. -/
def Occurs (haystack : String) (m : AhoMatch) : Prop :=
  ∃ p, d.patterns[m.pattern]? = some p ∧
    needleAt p.needle ((utf8Encode haystack).drop m.start) = true ∧
    m.stop = m.start + byteLen p.needle ∧ d.matchCounts haystack m = true

/-- The match is the longest one at its place, the first in the table among equals, and no match that
is taken before it covers its place. -/
def Preferred (haystack : String) (m : AhoMatch) : Prop :=
  Foremost d.patterns ((utf8Encode haystack).drop m.start) m.pattern (m.stop - m.start) ∧
    Taken (longestAt d.patterns) (utf8Encode haystack) m.start

end Detectors

/-! ## The strongest evidence -/

theorem needle_ne_empty (level : WafLevel) (active : StackSet) :
    ∀ p ∈ forProfile level active, p.needle ≠ "" := by
  have hall : ∀ p ∈ builtinPatterns, p.pattern.needle ≠ "" := by decide +kernel
  intro p hp
  obtain ⟨q, hq, rfl⟩ := mem_map.mp hp
  exact hall q (mem_of_mem_filter hq)

section

variable (d : Detectors) (level : WafLevel) (active : StackSet) (haystack : String)

theorem counted_match_iff (m : AhoMatch) :
    (m ∈ (d.withSignatures level active).findIter haystack ∧
      (d.withSignatures level active).matchCounts haystack m = true) ↔
      (d.withSignatures level active).Occurs haystack m ∧
        (d.withSignatures level active).Preferred haystack m := by
  have hmem : m ∈ (d.withSignatures level active).findIter haystack ↔ _ :=
    mem_findIter_iff (needle_ne_empty level active) haystack m
  rw [hmem]
  constructor
  · rintro ⟨⟨htaken, p, hget, hat, hstop, hfore⟩, hcounts⟩
    refine ⟨⟨p, hget, hat, hstop, hcounts⟩, ?_, htaken⟩
    rw [hstop, Nat.add_sub_cancel_left]
    exact hfore
  · rintro ⟨⟨p, hget, hat, hstop, hcounts⟩, hfore, htaken⟩
    rw [hstop, Nat.add_sub_cancel_left] at hfore
    exact ⟨⟨htaken, p, hget, hat, hstop, hfore⟩, hcounts⟩

theorem not_occurs_empty (m : AhoMatch) : ¬ (d.withSignatures level active).Occurs "" m := by
  rintro ⟨p, hget, hat, -, -⟩
  have hnil : (utf8Encode "").drop m.start = [] := drop_nil
  rw [hnil] at hat
  exact needle_ne_empty level active p (mem_of_getElem? hget) (eq_empty_of_needleAt_nil hat)

/-- The scan reports evidence as strong as any occurrence exactly if, for each occurrence, one at least
as strong is preferred by the automaton. -/
theorem scan_keeps_strongest_iff :
    (∀ m, (d.withSignatures level active).Occurs haystack m →
      ∃ hit ∈ (d.withSignatures level active).scanInto haystack,
        ((d.withSignatures level active).pattern m.pattern).severity ≤ hit.severity) ↔
      ∀ m, (d.withSignatures level active).Occurs haystack m →
        ∃ n, (d.withSignatures level active).Occurs haystack n ∧
          (d.withSignatures level active).Preferred haystack n ∧
          ((d.withSignatures level active).pattern m.pattern).severity ≤
            ((d.withSignatures level active).pattern n.pattern).severity := by
  refine forall_congr' fun m => forall_congr' fun hm => ?_
  have hne : haystack ≠ "" := by
    rintro rfl
    exact not_occurs_empty d level active m hm
  rw [Detectors.exists_hit_iff _ (fun s => _ ≤ s) hne]
  simp only [← and_assoc, counted_match_iff]

/-- Two rows of the table have the same needle, and the weaker one stands first. -/
theorem stronger_twin_is_not_reported :
    (Detectors.silent.withSignatures .normal .all).Occurs "extractvalue(" ⟨195, 0, 13⟩ ∧
      ((Detectors.silent.withSignatures .normal .all).pattern 195).severity = 5 ∧
      ∀ hit ∈ (Detectors.silent.withSignatures .normal .all).scanInto "extractvalue(",
        hit.severity < 5 := by
  have hget : (Detectors.silent.withSignatures .normal .all).patterns[195]? =
      some ⟨"SQL-023", .sqlInjection, 5, .generic, "extractvalue("⟩ := by decide +kernel
  have hpattern := Detectors.pattern_eq_of_getElem? hget
  refine ⟨⟨_, hget, by decide +kernel, by decide +kernel, ?_⟩, by rw [hpattern], by decide +kernel⟩
  unfold Detectors.matchCounts
  rw [hpattern]
  rfl

end

end PingWaf.Waf
