import PingWaf.Lib.Delimited
import PingWaf.Lib.Scan
import PingWaf.Waf.Detect.Container

/-!
# Which containers the expression detector sees

The scan for a kind of container is a scan from left to right whose pieces are the containers, each
up to its closer (`containerGo_eq_any_pieces`). A container that is turned down is passed over as a
whole, with the openers in it.
-/

namespace PingWaf.Waf

open Text Scan

/-- The content of the container that begins at the head of the text, up to the next closer, and how
far it reaches. -/
def contentAt (k : Container) (l : List Char) : Option (List Char × Nat) :=
  if k.opener.toList.isPrefixOf l then
    (splitOnceSub k.closer.toList (l.drop k.opener.toList.length)).map fun p =>
      (p.1, k.opener.toList.length + p.1.length)
  else none

/-- A container with a payload begins here. -/
def PayloadAt (k : Container) (s : List Char) (i : Nat) : Prop :=
  ∃ inner len, contentAt k (s.drop i) = some (inner, len) ∧ isExprPayload inner = true

theorem contentAt_nil (k : Container) : contentAt k [] = none := by
  have hnot : ¬ k.opener.toList.isPrefixOf [] = true := by
    rw [List.isPrefixOf_iff_prefix, List.prefix_nil]
    exact k.opens
  unfold contentAt
  rw [if_neg hnot]

theorem contentAt_drop_of_open {k : Container} {l : List Char}
    (h : splitOnceSub k.closer.toList (l.drop k.opener.toList.length) = none) (m : Nat) :
    contentAt k (l.drop m) = none := by
  unfold contentAt
  split
  · rw [List.drop_drop, Nat.add_comm, ← List.drop_drop, splitOnceSub_drop h m]
    rfl
  · rfl

theorem containerGo_eq_any_pieces (k : Container) (i n : Nat) (l : List Char) :
    containerGo k n l = (pieces (contentAt k) i n l).any fun p => isExprPayload p.2 := by
  induction l generalizing i n with
  | nil => cases n <;> rfl
  | cons a l ih =>
    cases n with
    | succ _ => rw [containerGo, pieces, ih (i + 1)]
    | zero =>
      rw [containerGo, pieces]
      split
      · next hopen =>
        cases hclose : splitOnceSub k.closer.toList ((a :: l).drop k.opener.toList.length) with
        | none =>
          have hnone : contentAt k (a :: l) = none := contentAt_drop_of_open hclose 0
          rw [hnone]
          dsimp only
          rw [pieces_of_none fun m => contentAt_drop_of_open hclose (m + 1)]
          rfl
        | some p =>
          have hsome : contentAt k (a :: l) = some (p.1, k.opener.toList.length + p.1.length) := by
            unfold contentAt
            rw [if_pos hopen, hclose]
            rfl
          rw [hsome]
          dsimp only
          rw [List.any_cons, ih (i + 1)]
      · next hopen =>
        have hnone : contentAt k (a :: l) = none := by
          unfold contentAt
          rw [if_neg hopen]
        rw [hnone]
        exact ih (i + 1) 0

theorem containerGo_iff (k : Container) (s : List Char) :
    containerGo k 0 s = true ↔ ∃ i, PayloadAt k s i ∧ Taken (contentAt k) s i := by
  rw [containerGo_eq_any_pieces k 0, List.any_eq_true]
  constructor
  · rintro ⟨⟨i, inner⟩, hmem, hpayload⟩
    obtain ⟨htaken, len, hlen⟩ := (mem_pieces_iff (contentAt_nil k) s i inner).mp hmem
    exact ⟨i, ⟨inner, len, hlen, hpayload⟩, htaken⟩
  · rintro ⟨i, ⟨inner, len, hlen, hpayload⟩, htaken⟩
    exact ⟨(i, inner), (mem_pieces_iff (contentAt_nil k) s i inner).mpr ⟨htaken, len, hlen⟩, hpayload⟩

theorem hasSub_opener_of_payloadAt {k : Container} {s : String} {i : Nat}
    (h : PayloadAt k s.toList i) : hasSub s k.opener = true := by
  obtain ⟨inner, len, hcontent, -⟩ := h
  unfold contentAt at hcontent
  split at hcontent
  · next hopen =>
    rw [hasSub_iff]
    exact (List.isPrefixOf_iff_prefix.mp hopen).isInfix.trans (List.drop_suffix i _).isInfix
  · cases hcontent

theorem detectExprInjection_isSome_iff (input : String) :
    (detectExprInjection input).isSome = true ↔
      ∃ k ∈ containers, ∃ i, PayloadAt k input.toList i ∧ Taken (contentAt k) input.toList i := by
  have hfind : (containers.find? fun k => containerGo k 0 input.toList).isSome = true ↔
      ∃ k ∈ containers, ∃ i, PayloadAt k input.toList i ∧ Taken (contentAt k) input.toList i := by
    rw [List.find?_isSome]
    simp only [containerGo_iff]
  unfold detectExprInjection
  split
  · next hfilter =>
    refine iff_of_false Bool.false_ne_true ?_
    rintro ⟨k, hk, i, hpayload, -⟩
    have hsub := hasSub_opener_of_payloadAt hpayload
    simp only [containers, List.mem_cons, List.not_mem_nil, or_false] at hk
    rcases hk with rfl | rfl | rfl | rfl <;> simp [hsub] at hfilter
  · rw [Option.isSome_map, hfind]

/-- The detector misses no container that counts exactly if there is none, or one of them begins
outside every earlier container of its kind that the scan takes. -/
theorem exprInjection_complete_iff (input : String) :
    ((∃ k ∈ containers, ∃ i, PayloadAt k input.toList i) →
        (detectExprInjection input).isSome = true) ↔
      (∀ k ∈ containers, ∀ i, ¬ PayloadAt k input.toList i) ∨
        ∃ k ∈ containers, ∃ i, PayloadAt k input.toList i ∧
          Taken (contentAt k) input.toList i := by
  rw [detectExprInjection_isSome_iff, imp_iff_not_or]
  push Not
  rfl

/-- The third brace makes the first container one whose content does not count, and the second
container begins inside it. -/
theorem overlapping_opener_is_missed :
    (∃ k ∈ containers, ∃ i, PayloadAt k "\x7b\x7b\x7bnew Foo\x7d\x7d".toList i) ∧
      detectExprInjection "\x7b\x7b\x7bnew Foo\x7d\x7d" = none := by
  refine ⟨⟨⟨"\x7b\x7b", "\x7d\x7d", "template", by decide⟩, by decide, 1, "new Foo".toList, 9, ?_, ?_⟩, ?_⟩
  · decide +kernel
  · decide +kernel
  · decide +kernel

end PingWaf.Waf
