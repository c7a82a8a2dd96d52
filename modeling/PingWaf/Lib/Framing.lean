import PingWaf.Lib.Text
import PingWaf.Lib.Segments

/-!
# Texts framed by a separator

Cutting a text behind a given start, at the last occurrence of a character, and at all of its
occurrences; lists of entries between commas.
-/

namespace Text

open List

def afterPrefix (start s : String) : Option String :=
  if hasPrefix s start then some (String.ofList (s.toList.drop start.toList.length)) else none

variable {c : Char} {s : String} {p : Char → Bool} {d : Char} {ch : Char} {parts : List String}

theorem splitChar_of_not_mem (h : c ∉ s.toList) : splitChar c s = [s] := by
  rw [splitChar, splitOn_eq_singleton h, map_singleton, String.ofList_toList]

/-! ## Trimming -/

theorem toList_trim (s : String) :
    (trim s).toList = trimEndList isWhitespace (trimStartList isWhitespace s.toList) := by
  rw [trim, String.toList_ofList]

theorem trimStartList_append_cons (hd : p d = false) (l r : List Char) :
    trimStartList p (l ++ d :: r) = trimStartList p l ++ d :: r := by
  unfold trimStartList
  induction l with
  | nil => simp [hd]
  | cons _ _ ih =>
    rw [cons_append, dropWhile_cons, dropWhile_cons]
    split
    · exact ih
    · rfl

theorem trimEndList_append_cons (hd : p d = false) (l r : List Char) :
    trimEndList p (l ++ d :: r) = l ++ d :: trimEndList p r := by
  have hrev : (l ++ d :: r).reverse = r.reverse ++ d :: l.reverse := by simp
  have hstart := trimStartList_append_cons hd r.reverse l.reverse
  unfold trimStartList at hstart
  unfold trimEndList
  rw [hrev, hstart]
  simp

theorem trimEndList_eq_self {l : List Char} (h : ∀ ch ∈ l, p ch = false) : trimEndList p l = l := by
  unfold trimEndList
  rw [dropWhile_eq_self_iff.mpr, reverse_reverse]
  intro hl
  have hmem := getElem_mem hl
  rw [h _ (mem_reverse.mp hmem)]
  exact Bool.false_ne_true

theorem trimStartList_eq_self {l : List Char} (h : ∀ ch ∈ l, p ch = false) :
    trimStartList p l = l := by
  unfold trimStartList
  rw [dropWhile_eq_self_iff.mpr]
  intro hl
  rw [h _ (getElem_mem hl)]
  exact Bool.false_ne_true

theorem trim_eq_self (h : ∀ ch ∈ s.toList, isWhitespace ch = false) : trim s = s := by
  unfold trim
  rw [trimStartList_eq_self h, trimEndList_eq_self h, String.ofList_toList]

theorem toList_trim_pair (hd : isWhitespace d = false) (l : List Char) {r : List Char}
    (h : ∀ ch ∈ r, isWhitespace ch = false) :
    (trim (String.ofList (l ++ d :: r))).toList = trimStartList isWhitespace l ++ d :: r := by
  rw [toList_trim, String.toList_ofList, trimStartList_append_cons hd, trimEndList_append_cons hd,
    trimEndList_eq_self h]

theorem trim_trimStart (l : List Char) :
    trim (String.ofList (trimStartList isWhitespace l)) = trim (String.ofList l) := by
  unfold trim
  rw [String.toList_ofList, String.toList_ofList]
  unfold trimStartList
  rw [dropWhile_idempotent]

theorem trimEndList_begins (p : Char → Bool) (l : List Char) : trimEndList p l <+: l :=
  rdropWhile_prefix p l

theorem trimStartList_trimEndList (p : Char → Bool) (l : List Char) :
    trimStartList p (trimEndList p (trimStartList p l)) = trimEndList p (trimStartList p l) := by
  refine dropWhile_eq_self_iff.mpr fun hl => ?_
  obtain ⟨r, hr⟩ := trimEndList_begins p (trimStartList p l)
  have hlt : 0 < (trimStartList p l).length := by
    have := congrArg length hr
    rw [length_append] at this
    omega
  have hhead : (trimStartList p l)[0] = (trimEndList p (trimStartList p l))[0] := by
    rw [getElem_of_eq hr.symm, getElem_append_left hl]
  rw [← hhead]
  exact dropWhile_get_zero_not p l hlt

@[simp] theorem trim_trim (s : String) : trim (trim s) = trim s := by
  unfold trim
  rw [String.toList_ofList, trimStartList_trimEndList]
  congr 1
  exact rdropWhile_idempotent isWhitespace _

theorem trim_blank_append (s : String) : trim (" " ++ s) = trim s := by
  have hlist : (" " ++ s).toList = ' ' :: s.toList := by simp
  unfold trim
  rw [hlist]
  rfl

theorem mem_of_mem_trim (h : ch ∈ (trim s).toList) : ch ∈ s.toList := by
  rw [toList_trim] at h
  exact (dropWhile_sublist _).subset ((trimEndList_begins _ _).subset h)

theorem mem_trim (hws : isWhitespace ch = false) (h : ch ∈ s.toList) : ch ∈ (trim s).toList := by
  obtain ⟨l, r, hs⟩ := append_of_mem h
  rw [toList_trim, hs, trimStartList_append_cons hws, trimEndList_append_cons hws]
  simp

/-! ## The last occurrence -/

/-- What stands before and after the last `c`, if there is one. -/
def rsplitOnceList (c : Char) (l : List Char) : Option (List Char × List Char) :=
  (splitOnceList c l.reverse).map fun p => (p.2.reverse, p.1.reverse)

def rsplitOnce (c : Char) (s : String) : Option (String × String) :=
  (rsplitOnceList c s.toList).map fun p => (String.ofList p.1, String.ofList p.2)

theorem splitOnceList_eq_some {l a b : List Char} (h : splitOnceList c l = some (a, b)) :
    l = a ++ c :: b ∧ c ∉ a := by
  induction l generalizing a with
  | nil => cases h
  | cons _ l ih =>
    unfold splitOnceList at h
    split at h
    · next hd =>
      obtain ⟨rfl, rfl⟩ : [] = a ∧ l = b := by simpa using h
      exact ⟨by rw [hd]; rfl, not_mem_nil⟩
    · next hd =>
      obtain ⟨p, hp, he⟩ := Option.map_eq_some_iff.mp h
      obtain ⟨rfl, rfl⟩ := Prod.mk.inj he
      obtain ⟨hl, hc⟩ := ih hp
      refine ⟨by rw [hl]; rfl, ?_⟩
      rw [mem_cons, not_or]
      exact ⟨fun h => hd h.symm, hc⟩

theorem splitOnceList_append {a : List Char} (h : c ∉ a) (b : List Char) :
    splitOnceList c (a ++ c :: b) = some (a, b) := by
  induction a with
  | nil => simp [splitOnceList]
  | cons _ _ ih =>
    rw [mem_cons, not_or] at h
    rw [cons_append, splitOnceList, if_neg (fun hd => h.1 hd.symm), ih h.2]
    rfl

theorem splitOnce_append {a b : String} (h : c ∉ a.toList) :
    splitOnce c (a ++ String.singleton c ++ b) = some (a, b) := by
  have hlist : (a ++ String.singleton c ++ b).toList = a.toList ++ c :: b.toList := by simp
  rw [splitOnce, hlist, splitOnceList_append h]
  simp

theorem splitOnce_eq_none (h : c ∉ s.toList) : splitOnce c s = none := by
  unfold splitOnce
  cases hcut : splitOnceList c s.toList with
  | none => rfl
  | some _ =>
    rw [(splitOnceList_eq_some hcut).1] at h
    simp at h

theorem rsplitOnce_eq_some {s a b : String} (h : rsplitOnce c s = some (a, b)) :
    s.toList = a.toList ++ c :: b.toList := by
  obtain ⟨p, hp, he⟩ := Option.map_eq_some_iff.mp h
  obtain ⟨r, hr, rfl⟩ := Option.map_eq_some_iff.mp hp
  obtain ⟨rfl, rfl⟩ := Prod.mk.inj he
  have := congrArg reverse (splitOnceList_eq_some hr).1
  simpa using this

/-! ## All occurrences -/

theorem splitChar_append (c : Char) (a b : String) :
    splitChar c (a ++ String.singleton c ++ b) = splitChar c a ++ splitChar c b := by
  have hlist : (a ++ String.singleton c ++ b).toList = a.toList ++ c :: b.toList := by simp
  rw [splitChar, hlist, splitOn_append_cons_self, map_append]
  rfl

theorem mem_splitChar {s piece : String} (h : piece ∈ splitChar c s) :
    c ∉ piece.toList ∧ ∀ ch ∈ piece.toList, ch ∈ s.toList := by
  obtain ⟨l, hl, rfl⟩ := mem_map.mp h
  rw [String.toList_ofList]
  exact Segments.mem_splitOn hl

theorem splitChar_intercalate (hne : parts ≠ []) (h : ∀ part ∈ parts, c ∉ part.toList) :
    splitChar c ((String.singleton c).intercalate parts) = parts := by
  unfold splitChar
  rw [String.toList_intercalate, String.toList_singleton,
    splitOn_intercalate c (by simpa using h) (by simpa using hne)]
  simp [Function.comp_def]

theorem splitChar_injective (c : Char) : Function.Injective (splitChar c) := by
  intro s t h
  have hlist : s.toList.splitOn c = t.toList.splitOn c :=
    map_injective_iff.mpr (fun _ _ => String.ofList_injective) h
  exact String.toList_injective (Segments.splitOn_inj.mp hlist)

def framed (c : Char) (parts : List String) (last : String) : String :=
  parts.foldr (fun part rest => part ++ String.singleton c ++ rest) last

theorem framed_cons (c : Char) (part : String) (parts : List String) (last : String) :
    framed c (part :: parts) last = part ++ String.singleton c ++ framed c parts last :=
  rfl

theorem splitChar_framed (c : Char) (parts : List String) (last : String) :
    splitChar c (framed c parts last) = parts.flatMap (splitChar c) ++ splitChar c last := by
  induction parts with
  | nil => rfl
  | cons _ _ ih =>
    rw [framed_cons, splitChar_append, ih, flatMap_cons, append_assoc]

theorem foldl_push_eq_framed (c : Char) (parts : List String) (start last : String) :
    parts.foldl (fun buf part => buf ++ part ++ String.singleton c) start ++ last =
      start ++ framed c parts last := by
  induction parts generalizing start with
  | nil => rfl
  | cons _ _ ih =>
    rw [foldl_cons, ih, framed_cons, String.append_assoc, String.append_assoc,
      String.append_assoc]

/-! ## Comma-separated lists -/

def listedEntries (s : String) : List String :=
  ((splitChar ',' s).map trim).filter (· ≠ "")

structure IsEntry (entry : String) : Prop where
  no_comma : ',' ∉ entry.toList
  trimmed : trim entry = entry
  ne_empty : entry ≠ ""

theorem mem_listedEntries {s entry : String} (h : entry ∈ listedEntries s) :
    IsEntry entry ∧ ∀ ch ∈ entry.toList, ch ∈ s.toList := by
  obtain ⟨hmem, hne⟩ := mem_filter.mp h
  obtain ⟨piece, hpiece, rfl⟩ := mem_map.mp hmem
  obtain ⟨hcomma, hsub⟩ := mem_splitChar hpiece
  exact ⟨⟨fun hc => hcomma (mem_of_mem_trim hc), trim_trim piece, of_decide_eq_true hne⟩,
    fun ch hch => hsub ch (mem_of_mem_trim hch)⟩

theorem listedEntries_append (a b : String) :
    listedEntries (a ++ String.singleton ',' ++ b) = listedEntries a ++ listedEntries b := by
  unfold listedEntries
  rw [splitChar_append, map_append, filter_append]

theorem listedEntries_of_trim {s entry : String} (hcomma : ',' ∉ s.toList) (htrim : trim s = entry)
    (hne : entry ≠ "") : listedEntries s = [entry] := by
  unfold listedEntries
  rw [splitChar_of_not_mem hcomma, map_singleton, htrim,
    filter_cons_of_pos (by simpa using hne), filter_nil]

theorem IsEntry.listed {entry : String} (h : IsEntry entry) : listedEntries entry = [entry] :=
  listedEntries_of_trim h.no_comma h.trimmed h.ne_empty

theorem IsEntry.listed_blank {entry : String} (h : IsEntry entry) :
    listedEntries (" " ++ entry) = [entry] := by
  apply listedEntries_of_trim _ ((trim_blank_append entry).trans h.trimmed) h.ne_empty
  have hcomma := h.no_comma
  simp [hcomma]

theorem listedEntries_blank_intercalate (h : ∀ part ∈ parts, IsEntry part) :
    listedEntries (", ".intercalate parts) = parts ∧
      listedEntries (" " ++ ", ".intercalate parts) = parts := by
  induction parts with
  | nil => decide +kernel
  | cons first rest ih =>
    have hfirst : IsEntry first := h first mem_cons_self
    have hrest := (ih fun part hpart => h part (mem_cons_of_mem _ hpart)).2
    cases rest with
    | nil =>
      rw [String.intercalate_singleton]
      exact ⟨hfirst.listed, hfirst.listed_blank⟩
    | cons second rest =>
      -- the blank behind a comma belongs to what follows
      have hcut (lead : String) : lead ++ ", ".intercalate (first :: second :: rest) =
          (lead ++ first) ++ String.singleton ',' ++ (" " ++ ", ".intercalate (second :: rest)) := by
        rw [String.intercalate_cons_cons]
        apply String.toList_injective
        simp
      have hplain := hcut ""
      rw [String.empty_append, String.empty_append] at hplain
      constructor
      · rw [hplain, listedEntries_append, hfirst.listed, hrest]
        rfl
      · rw [hcut " ", listedEntries_append, hfirst.listed_blank, hrest]
        rfl

theorem listedEntries_intercalate (h : ∀ part ∈ parts, IsEntry part) :
    listedEntries (", ".intercalate parts) = parts :=
  (listedEntries_blank_intercalate h).1

theorem mem_intercalate {sep : String} (h : ch ∈ (sep.intercalate parts).toList) :
    ch ∈ sep.toList ∨ ∃ part ∈ parts, ch ∈ part.toList := by
  induction parts with
  | nil => simp [String.intercalate] at h
  | cons first rest ih =>
    cases rest with
    | nil =>
      rw [String.intercalate_singleton] at h
      exact .inr ⟨first, mem_cons_self, h⟩
    | cons _ _ =>
      rw [String.intercalate_cons_cons, String.toList_append, String.toList_append, mem_append,
        mem_append] at h
      rcases h with (h | h) | h
      · exact .inr ⟨first, mem_cons_self, h⟩
      · exact .inl h
      · rcases ih h with h | ⟨part, hpart, h⟩
        · exact .inl h
        · exact .inr ⟨part, mem_cons_of_mem _ hpart, h⟩

end Text
