import PingWaf.Lib.Net
import PingWaf.Lib.Decimal
import PingWaf.Lib.Segments

/-!
# Addresses read back

`IpAddr.fromStr` reads the text that `IpAddr.display` writes (`fromStr_display`): the octets and
groups one by one, and around the double colon the groups it leaves out, which are the zeros of
`longestZeros`.
-/

namespace Net

open Text List

/-! ## IPv4 -/

variable {n : Nat} {gs : List Nat} {ip : BitVec 128} {len : Nat}

theorem parseOctet_toDigits (h : n < 256) : parseOctet (Nat.toDigits 10 n) = some n := by
  have hall : ∀ m < 256, parseOctet (Nat.toDigits 10 m) = some m := by decide +kernel
  exact hall n h

theorem dot_not_mem_toDigits (n : Nat) : '.' ∉ Nat.toDigits 10 n := by
  intro h
  have := Nat.isDigit_of_mem_toDigits (by decide) (le_refl 10) h
  revert this
  decide

theorem toList_displayV4 (ip : BitVec 32) :
    (displayV4 ip).toList = ['.'].intercalate
      ([16777216, 65536, 256, 1].map fun d => Nat.toDigits 10 (ip.toNat / d % 256)) := by
  have hdot : ".".toList = ['.'] := rfl
  rw [displayV4, String.toList_intercalate, hdot, map_map]
  congr 1
  exact map_congr_left fun d _ => Nat.toList_repr

theorem splitOn_displayV4 (ip : BitVec 32) :
    (displayV4 ip).toList.splitOn '.' =
      [16777216, 65536, 256, 1].map fun d => Nat.toDigits 10 (ip.toNat / d % 256) := by
  rw [toList_displayV4]
  refine splitOn_intercalate '.' (fun l hl => ?_) (by simp)
  obtain ⟨d, -, rfl⟩ := mem_map.mp hl
  exact dot_not_mem_toDigits _

theorem parseV4_display (ip : BitVec 32) : parseV4 (displayV4 ip).toList = some ip := by
  have hlt := ip.isLt
  unfold parseV4
  rw [splitOn_displayV4]
  simp only [map_cons, map_nil, mapM_cons, mapM_nil,
    parseOctet_toDigits (Nat.mod_lt _ (by decide : 0 < 256)), Option.pure_def, Option.bind_eq_bind,
    Option.bind_some]
  congr 1
  apply BitVec.eq_of_toNat_eq
  rw [BitVec.toNat_ofNat]
  omega

/-! ## Groups -/

def hexFold (l : List Char) : Option Nat :=
  l.foldl (fun acc c => acc.bind fun n => (hexVal c).map fun d => n * 16 + d) (some 0)

theorem hexVal_digitChar (h : n < 16) : hexVal n.digitChar = some n := by
  interval_cases n <;> decide

theorem hexFold_toDigits (n : Nat) : hexFold (Nat.toDigits 16 n) = some n := by
  induction n using Nat.strong_induction_on with
  | _ n ih =>
    rw [Nat.toDigits_eq_if (by decide)]
    split
    · next hn => simp [hexFold, hexVal_digitChar hn]
    · next hn =>
      have hhead := ih (n / 16) (by omega)
      have hlast := hexVal_digitChar (Nat.mod_lt n (by decide : 0 < 16))
      unfold hexFold at hhead ⊢
      rw [foldl_append, hhead, foldl_cons, foldl_nil, hlast]
      simp only [Option.bind_some, Option.map_some, Option.some.injEq]
      omega

theorem parseHexGroup_toDigits {g : Nat} (h : g < 65536) :
    parseHexGroup (Nat.toDigits 16 g) = some g := by
  have hlen : (Nat.toDigits 16 g).length ≤ 4 :=
    (Nat.length_toDigits_le_iff (by decide) (by decide)).mpr (by omega)
  unfold parseHexGroup
  rw [if_neg]
  · exact hexFold_toDigits g
  · rintro (hnil | hlong)
    · exact Nat.toDigits_ne_nil (isEmpty_iff.mp hnil)
    · omega

theorem isHex_of_mem_toDigits {ch : Char} (h : ch ∈ Nat.toDigits 16 n) :
    ∃ d < 16, ch = d.digitChar := by
  induction n using Nat.strong_induction_on with
  | _ n ih =>
    rw [Nat.toDigits_eq_if (by decide)] at h
    split at h
    · next hn => exact ⟨n, hn, mem_singleton.mp h⟩
    · next hn =>
      obtain h | h := mem_append.mp h
      · exact ih (n / 16) (by omega) h
      · exact ⟨n % 16, Nat.mod_lt _ (by decide), mem_singleton.mp h⟩

theorem not_mem_toDigits {ch : Char} (h : ch = ':' ∨ ch = '.') : ch ∉ Nat.toDigits 16 n := by
  intro hmem
  obtain ⟨d, hd, rfl⟩ := isHex_of_mem_toDigits hmem
  interval_cases d <;> revert h <;> decide

theorem parseV4_of_no_dot {l : List Char} (h : '.' ∉ l) : parseV4 l = none := by
  unfold parseV4
  rw [splitOn_eq_singleton h]
  cases ho : parseOctet l with
  | none => simp [ho]
  | some _ => simp [ho]

theorem parseGroups_toDigits (h : ∀ g ∈ gs, g < 65536) :
    parseGroups (gs.map (Nat.toDigits 16)) = some gs := by
  induction gs with
  | nil => rfl
  | cons g gs ih =>
    have hg := parseHexGroup_toDigits (h g mem_cons_self)
    cases gs with
    | nil =>
      rw [map_singleton, parseGroups, parseV4_of_no_dot (not_mem_toDigits (.inr rfl))]
      dsimp only
      rw [hg]
      rfl
    | cons _ _ =>
      have hrest := ih fun x hx => h x (mem_cons_of_mem _ hx)
      rw [map_cons] at hrest
      rw [map_cons, map_cons, parseGroups]
      · rw [hg, Option.bind_some, hrest]
        rfl
      · exact nofun

theorem toList_displayGroups (gs : List Nat) :
    (displayGroups gs).toList = [':'].intercalate (gs.map (Nat.toDigits 16)) := by
  have hcolon : ":".toList = [':'] := rfl
  rw [displayGroups, String.toList_intercalate, hcolon, map_map]
  congr 1
  exact map_congr_left fun g _ => String.toList_ofList

theorem sideGroups_displayGroups (h : ∀ g ∈ gs, g < 65536) :
    sideGroups (displayGroups gs).toList = some gs := by
  rw [toList_displayGroups]
  cases gs with
  | nil => rfl
  | cons g gs =>
    have hsplit : ([':'].intercalate ((g :: gs).map (Nat.toDigits 16))).splitOn ':' =
        (g :: gs).map (Nat.toDigits 16) := by
      refine splitOn_intercalate ':' (fun l hl => ?_) (by simp)
      obtain ⟨x, -, rfl⟩ := mem_map.mp hl
      exact not_mem_toDigits (.inl rfl)
    have hne : [':'].intercalate ((g :: gs).map (Nat.toDigits 16)) ≠ [] := by
      intro hnil
      rw [hnil] at hsplit
      have hg : ([] : List Char) = Nat.toDigits 16 g := (cons.inj hsplit).1
      exact Nat.toDigits_ne_nil hg.symm
    unfold sideGroups
    rw [if_neg (by simpa using hne), hsplit]
    exact parseGroups_toDigits h

/-! ## The double colon -/

theorem splitDoubleColon_cons {c : Char} (h : c ≠ ':') (l : List Char) :
    splitDoubleColon (c :: l) = (splitDoubleColon l).map fun p => (c :: p.1, p.2) := by
  rw [splitDoubleColon]
  intro rest hc
  exact absurd hc h

theorem splitDoubleColon_colon {c : Char} (h : c ≠ ':') (l : List Char) :
    splitDoubleColon (':' :: c :: l) =
      (splitDoubleColon (c :: l)).map fun p => (':' :: p.1, p.2) := by
  rw [splitDoubleColon]
  intro rest _ hl
  exact absurd (cons.inj hl).1 h

theorem splitDoubleColon_append {l : List Char} (h : ':' ∉ l) (tail : List Char) :
    splitDoubleColon (l ++ tail) = (splitDoubleColon tail).map fun p => (l ++ p.1, p.2) := by
  induction l with
  | nil => simp
  | cons _ _ ih =>
    rw [mem_cons, not_or] at h
    rw [cons_append, splitDoubleColon_cons (Ne.symm h.1), ih h.2, Option.map_map]
    rfl

theorem splitDoubleColon_intercalate {gs : List (List Char)}
    (h : ∀ g ∈ gs, ':' ∉ g ∧ g ≠ []) (tail : List Char) :
    splitDoubleColon ([':'].intercalate gs ++ tail) =
      (splitDoubleColon tail).map fun p => ([':'].intercalate gs ++ p.1, p.2) := by
  induction gs with
  | nil => simp [intercalate]
  | cons g gs ih =>
    have hg := h g mem_cons_self
    have hrest := ih fun x hx => h x (mem_cons_of_mem _ hx)
    cases gs with
    | nil =>
      have hone : [':'].intercalate [g] = g := by simp [intercalate]
      rw [hone]
      exact splitDoubleColon_append hg.1 tail
    | cons g' gs =>
      obtain ⟨hcolon', hne'⟩ := h g' (mem_cons_of_mem _ mem_cons_self)
      -- the next group opens with a character that is no colon
      obtain ⟨c, l, hl⟩ : ∃ c l, [':'].intercalate (g' :: gs) = c :: l ∧ c ≠ ':' := by
        cases g' with
        | nil => exact absurd rfl hne'
        | cons c g' =>
          rw [mem_cons, not_or] at hcolon'
          cases gs with
          | nil => exact ⟨c, g', by simp [intercalate], Ne.symm hcolon'.1⟩
          | cons _ _ =>
            rw [intercalate_cons_cons]
            exact ⟨c, _, rfl, Ne.symm hcolon'.1⟩
      rw [intercalate_cons_cons, append_assoc, append_assoc,
        splitDoubleColon_append hg.1, singleton_append, hl.1, cons_append,
        splitDoubleColon_colon hl.2, ← cons_append, ← hl.1, hrest, Option.map_map,
        Option.map_map]
      congr 1
      funext p
      simp

theorem groups_plain (gs : List Nat) :
    ∀ g ∈ gs.map (Nat.toDigits 16), ':' ∉ g ∧ g ≠ [] := by
  intro g hg
  obtain ⟨n, -, rfl⟩ := mem_map.mp hg
  exact ⟨not_mem_toDigits (.inl rfl), Nat.toDigits_ne_nil⟩

theorem dot_not_mem_displayGroups (gs : List Nat) : '.' ∉ (displayGroups gs).toList := by
  rw [toList_displayGroups]
  induction gs with
  | nil => exact not_mem_nil
  | cons _ gs ih =>
    cases gs with
    | nil => simpa [intercalate] using not_mem_toDigits (.inr rfl)
    | cons _ _ =>
      rw [map_cons] at ih
      rw [map_cons, map_cons, intercalate_cons_cons, mem_append,
        mem_append, not_or, not_or]
      exact ⟨⟨not_mem_toDigits (.inr rfl), by decide⟩, ih⟩

/-! ## The longest run of zeros -/

structure IsZeros (gs : List Nat) (z : Span) : Prop where
  le : z.start + z.len ≤ gs.length
  zero : ∀ j, z.start ≤ j → j < z.start + z.len → gs[j]? = some 0

theorem isZeros_longestZeros {all pre gs : List Nat} {best cur : Span} (hall : all = pre ++ gs)
    (hbest : IsZeros all best) (hcur : IsZeros all cur)
    (hend : cur.len = 0 ∨ cur.start + cur.len = pre.length) :
    IsZeros all (longestZeros pre.length best cur gs) := by
  induction gs generalizing pre best cur with
  | nil => exact hbest
  | cons g gs ih =>
    have hall' : all = (pre ++ [g]) ++ gs := by rw [hall, append_assoc, singleton_append]
    have hlen : (pre ++ [g]).length = pre.length + 1 := by simp
    have hat : all[pre.length]? = some g := by simp [hall]
    have hle : pre.length + 1 ≤ all.length := by simp [hall]
    rw [longestZeros, ← hlen]
    split
    · next hg =>
      -- the run being read grows by this group
      have hstart : (if cur.len = 0 then pre.length else cur.start) + (cur.len + 1) =
          pre.length + 1 := by
        split <;> omega
      have hgrown : IsZeros all ⟨if cur.len = 0 then pre.length else cur.start, cur.len + 1⟩ := by
        refine ⟨by dsimp only; omega, fun j hlo hhi => ?_⟩
        dsimp only at hlo hhi
        by_cases hj : j = pre.length
        · rw [hj, hat, hg]
        · refine hcur.zero j ?_ ?_
          · split at hlo <;> omega
          · split at hlo <;> omega
      refine ih hall' ?_ hgrown (.inr (by dsimp only; omega))
      rcases Nat.lt_or_ge best.len (cur.len + 1) with hlt | hge
      · rw [if_pos hlt]
        exact hgrown
      · rw [if_neg (Nat.not_lt.mpr hge)]
        exact hbest
    · exact ih hall' hbest ⟨Nat.zero_le _, fun j _ h => absurd h (Nat.not_lt_zero j)⟩ (.inl rfl)

theorem zeros_cut {z : Span} (h : IsZeros gs z) :
    gs.take z.start ++ List.replicate z.len 0 ++ gs.drop (z.start + z.len) = gs := by
  have hmid : (gs.drop z.start).take z.len = replicate z.len 0 := by
    refine ext_getElem? fun j => ?_
    have hle := h.le
    by_cases hj : j < z.len
    · rw [getElem?_take_of_lt hj, getElem?_drop, h.zero _ (by omega) (by omega),
        getElem?_replicate, if_pos hj]
    · rw [getElem?_eq_none (by simp; omega), getElem?_eq_none (by simp; omega)]
  rw [← hmid, ← drop_drop, append_assoc, take_append_drop, take_append_drop]

/-! ## IPv6 -/

theorem lt_of_mem_v6Groups {g : Nat} (h : g ∈ v6Groups ip) : g < 65536 := by
  obtain ⟨i, -, rfl⟩ := mem_map.mp h
  exact Nat.mod_lt _ (by decide)

theorem shift_add_group (n i : Nat) :
    n / 65536 ^ (i + 1) * 65536 + n / 65536 ^ i % 65536 = n / 65536 ^ i := by
  rw [Nat.pow_succ, ← Nat.div_div_eq_div_mul]
  exact Nat.div_add_mod' _ _

theorem v6OfGroups_v6Groups (ip : BitVec 128) : v6OfGroups (v6Groups ip) = ip := by
  have htop : 0 * 65536 + ip.toNat / 65536 ^ 7 % 65536 = ip.toNat / 65536 ^ 7 := by
    have hzero : ip.toNat / 65536 ^ (7 + 1) = 0 := Nat.div_eq_of_lt ip.isLt
    have hshift := shift_add_group ip.toNat 7
    rwa [hzero] at hshift
  apply BitVec.eq_of_toNat_eq
  unfold v6OfGroups v6Groups
  rw [BitVec.toNat_ofNat]
  simp only [map_cons, map_nil, foldl_cons, foldl_nil]
  rw [htop, shift_add_group _ 6, shift_add_group _ 5, shift_add_group _ 4, shift_add_group _ 3,
    shift_add_group _ 2, shift_add_group _ 1, shift_add_group _ 0, Nat.pow_zero, Nat.div_one]
  exact Nat.mod_eq_of_lt ip.isLt

theorem length_v6Groups (ip : BitVec 128) : (v6Groups ip).length = 8 := rfl

theorem parseV6_displayGroups (ip : BitVec 128) :
    parseV6 (displayGroups (v6Groups ip)).toList = some ip := by
  have hnone : splitDoubleColon (displayGroups (v6Groups ip)).toList = none := by
    rw [toList_displayGroups]
    have h := splitDoubleColon_intercalate (groups_plain (v6Groups ip)) []
    rwa [append_nil] at h
  unfold parseV6
  rw [hnone]
  dsimp only
  rw [sideGroups_displayGroups (fun g => lt_of_mem_v6Groups), Option.bind_some,
    if_pos (length_v6Groups ip), v6OfGroups_v6Groups]

def displayAround (gs : List Nat) (z : Span) : String :=
  displayGroups (gs.take z.start) ++ "::" ++ displayGroups (gs.drop (z.start + z.len))

theorem toList_displayAround (gs : List Nat) (z : Span) :
    (displayAround gs z).toList = (displayGroups (gs.take z.start)).toList ++
      ':' :: ':' :: (displayGroups (gs.drop (z.start + z.len))).toList := by
  unfold displayAround
  rw [String.toList_append, String.toList_append, append_assoc]
  rfl

theorem parseV6_displayAround {z : Span} (hz : IsZeros (v6Groups ip) z) (hlen : 1 < z.len) :
    parseV6 (displayAround (v6Groups ip) z).toList = some ip := by
  have hle := hz.le
  rw [length_v6Groups] at hle
  have hcut : splitDoubleColon (displayAround (v6Groups ip) z).toList =
      some ((displayGroups ((v6Groups ip).take z.start)).toList,
        (displayGroups ((v6Groups ip).drop (z.start + z.len))).toList) := by
    rw [toList_displayAround, toList_displayGroups,
      splitDoubleColon_intercalate (groups_plain _), splitDoubleColon, Option.map_some,
      append_nil]
  have hleft : sideGroups (displayGroups ((v6Groups ip).take z.start)).toList =
      some ((v6Groups ip).take z.start) :=
    sideGroups_displayGroups fun g hg => lt_of_mem_v6Groups (mem_of_mem_take hg)
  have hright : sideGroups (displayGroups ((v6Groups ip).drop (z.start + z.len))).toList =
      some ((v6Groups ip).drop (z.start + z.len)) :=
    sideGroups_displayGroups fun g hg => lt_of_mem_v6Groups (mem_of_mem_drop hg)
  have hlens : ((v6Groups ip).take z.start).length = z.start ∧
      ((v6Groups ip).drop (z.start + z.len)).length = 8 - (z.start + z.len) := by
    rw [length_take, length_drop, length_v6Groups]
    omega
  unfold parseV6
  rw [hcut]
  dsimp only
  rw [if_neg (by simpa using dot_not_mem_displayGroups _), hleft, hright, Option.bind_some,
    Option.bind_some, hlens.1, hlens.2, if_pos (by omega)]
  have hmiss : 8 - z.start - (8 - (z.start + z.len)) = z.len := by omega
  rw [hmiss, zeros_cut hz, v6OfGroups_v6Groups]

theorem colon_not_mem_displayV4 (ip : BitVec 32) : ':' ∉ (displayV4 ip).toList := by
  have hdigits : ∀ n : Nat, ':' ∉ Nat.toDigits 10 n := by
    intro n h
    have := Nat.isDigit_of_mem_toDigits (by decide) (le_refl 10) h
    revert this
    decide
  rw [toList_displayV4]
  simp [intercalate, hdigits]

theorem toList_mapped (s : String) :
    ("::ffff:" ++ s).toList = ':' :: ':' :: ("ffff".toList ++ ':' :: s.toList) := by
  rw [String.toList_append]
  rfl

theorem parseV6_displayMapped (h : (v6Groups ip).take 6 = [0, 0, 0, 0, 0, 0xFFFF]) :
    parseV6 ("::ffff:" ++ displayV4 (ip.setWidth 32)).toList = some ip := by
  have hright : sideGroups ("ffff".toList ++ ':' :: (displayV4 (ip.setWidth 32)).toList) =
      some [0xFFFF, (ip.setWidth 32).toNat / 65536, (ip.setWidth 32).toNat % 65536] := by
    have hne : ("ffff".toList ++ ':' :: (displayV4 (ip.setWidth 32)).toList).isEmpty = false := rfl
    have hffff : parseHexGroup "ffff".toList = some 0xFFFF := by decide
    unfold sideGroups
    rw [hne, if_neg Bool.false_ne_true,
      splitOn_append_cons_self_of_not_mem (by decide),
      splitOn_eq_singleton (colon_not_mem_displayV4 _), parseGroups, hffff, Option.bind_some,
      parseGroups, parseV4_display]
    · rfl
    · exact nofun
  have hbits : v6OfGroups [0, 0, 0, 0, 0, 0xFFFF, (ip.setWidth 32).toNat / 65536,
      (ip.setWidth 32).toNat % 65536] = ip := by
    have hlt := ip.isLt
    simp only [v6Groups, map_cons, map_nil, take_succ_cons, take_zero,
      cons.injEq, and_true] at h
    apply BitVec.eq_of_toNat_eq
    unfold v6OfGroups
    rw [BitVec.toNat_ofNat, BitVec.toNat_setWidth]
    simp only [foldl_cons, foldl_nil]
    omega
  have hcut : splitDoubleColon (':' :: ':' :: ("ffff".toList ++
      ':' :: (displayV4 (ip.setWidth 32)).toList)) =
      some ([], "ffff".toList ++ ':' :: (displayV4 (ip.setWidth 32)).toList) := rfl
  unfold parseV6
  rw [toList_mapped, hcut]
  dsimp only
  rw [if_neg (by simp), hright]
  exact congrArg some hbits

theorem parseV4_of_colon (l : List Char) : parseV4 (':' :: l) = none := by
  have hnone : ∀ cs : List Char, cs.foldl (fun acc c => acc.bind fun n =>
      if isAsciiDigit c then some (n * 10 + (c.toNat - 48)) else none) none = none := by
    intro cs
    induction cs with
    | nil => rfl
    | cons _ _ ih => exact ih
  have hoctet : ∀ cs : List Char, parseOctet (':' :: cs) = none := by
    intro cs
    unfold parseOctet
    split
    · rfl
    · exact congrArg (Option.bind · _) (hnone cs)
  unfold parseV4
  rw [Segments.splitOn_cons_other (by decide)]
  cases hs : l.splitOn '.' with
  | nil => exact absurd hs (splitOn_ne_nil _ _)
  | cons _ _ =>
    rw [modifyHead_cons, mapM_cons, hoctet]
    rfl

theorem parse_displayV6 (ip : BitVec 128) :
    parseV4 (displayV6 ip).toList = none ∧ parseV6 (displayV6 ip).toList = some ip := by
  have hempty : IsZeros (v6Groups ip) ⟨0, 0⟩ :=
    ⟨Nat.zero_le _, fun j _ h => absurd h (Nat.not_lt_zero j)⟩
  have hzeros : IsZeros (v6Groups ip) (longestZeros 0 ⟨0, 0⟩ ⟨0, 0⟩ (v6Groups ip)) :=
    isZeros_longestZeros (nil_append _).symm hempty hempty (.inl rfl)
  unfold displayV6
  dsimp only
  split
  · next hmapped =>
    refine ⟨?_, parseV6_displayMapped hmapped⟩
    rw [toList_mapped]
    exact parseV4_of_colon _
  · split
    · next hz =>
      refine ⟨parseV4_of_no_dot ?_, parseV6_displayAround hzeros hz⟩
      rw [← displayAround, toList_displayAround]
      simp [dot_not_mem_displayGroups]
    · exact ⟨parseV4_of_no_dot (dot_not_mem_displayGroups _), parseV6_displayGroups ip⟩

theorem fromStr_display (a : IpAddr) : IpAddr.fromStr a.display = some a := by
  unfold IpAddr.fromStr IpAddr.display
  cases a with
  | v4 _ => rw [parseV4_display]
  | v6 ip =>
    obtain ⟨hv4, hv6⟩ := parse_displayV6 ip
    dsimp only
    rw [hv4, hv6]
    rfl

/-! ## Embedded IPv4 addresses -/

theorem toV4Mapped_eq_some_iff {v4 : BitVec 32} :
    toV4Mapped ip = some v4 ↔ ip.toNat = 0xFFFF * 2 ^ 32 + v4.toNat := by
  have htop : (ip >>> 32 == 0xFFFF) = true ↔ ip.toNat / 2 ^ 32 = 0xFFFF := by
    rw [beq_iff_eq, ← BitVec.toNat_inj, BitVec.toNat_ushiftRight, Nat.shiftRight_eq_div_pow]
    rfl
  have hlow : ip.setWidth 32 = v4 ↔ ip.toNat % 2 ^ 32 = v4.toNat := by
    rw [← BitVec.toNat_inj, BitVec.toNat_setWidth]
  have hv4 := v4.isLt
  unfold toV4Mapped
  split
  · next h =>
    rw [Option.some.injEq, hlow]
    have := htop.mp h
    omega
  · next h =>
    refine iff_of_false (fun h' => Option.some_ne_none _ h'.symm) fun h' => h (htop.mpr ?_)
    omega

def embed (v4 : BitVec 32) : BitVec 128 := BitVec.ofNat 128 (0xFFFF * 2 ^ 32 + v4.toNat)

theorem toV4Mapped_embed (v4 : BitVec 32) : toV4Mapped (embed v4) = some v4 := by
  have hv4 := v4.isLt
  rw [toV4Mapped_eq_some_iff, embed, BitVec.toNat_ofNat]
  omega

theorem shiftRight_beq_iff {w n : Nat} {a b : BitVec w} :
    (a >>> n == b >>> n) = true ↔ a.toNat / 2 ^ n = b.toNat / 2 ^ n := by
  rw [beq_iff_eq, ← BitVec.toNat_inj, BitVec.toNat_ushiftRight, BitVec.toNat_ushiftRight,
    Nat.shiftRight_eq_div_pow, Nat.shiftRight_eq_div_pow]

theorem contains_v6_iff {net ip : BitVec 128} :
    (IpNet.v6 net len).contains (.v6 ip) = true ↔
      net.toNat / 2 ^ (128 - len) = ip.toNat / 2 ^ (128 - len) :=
  shiftRight_beq_iff

theorem contains_v4_iff {net ip : BitVec 32} :
    (IpNet.v4 net len).contains (.v4 ip) = true ↔
      net.toNat / 2 ^ (32 - len) = ip.toNat / 2 ^ (32 - len) :=
  shiftRight_beq_iff

theorem contains_embedded {base ip : BitVec 128} {net v4 : BitVec 32}
    (hbase : toV4Mapped base = some net) (hip : toV4Mapped ip = some v4) (hlo : 96 ≤ len)
    (hhi : len ≤ 128) :
    (IpNet.v6 base len).contains (.v6 ip) = true ↔
      (IpNet.v4 net (len - 96)).contains (.v4 v4) = true := by
  have hlen : 32 - (len - 96) = 128 - len := by omega
  have hcut : ∀ n : Nat, (0xFFFF * 2 ^ 32 + n) / 2 ^ (128 - len) =
      0xFFFF * 2 ^ (32 - (128 - len)) + n / 2 ^ (128 - len) := by
    intro n
    have hpow : 0xFFFF * 2 ^ 32 = 2 ^ (128 - len) * (0xFFFF * 2 ^ (32 - (128 - len))) := by
      rw [Nat.mul_left_comm, ← Nat.pow_add]
      congr 2
      omega
    rw [hpow, Nat.mul_add_div (Nat.two_pow_pos _)]
  rw [contains_v6_iff, contains_v4_iff, hlen, toV4Mapped_eq_some_iff.mp hbase,
    toV4Mapped_eq_some_iff.mp hip, hcut, hcut]
  exact Nat.add_left_cancel_iff

end Net
