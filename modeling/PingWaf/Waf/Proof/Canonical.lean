import PingWaf.Waf.Proof.Fields

/-!
# The normal form of a path

`normalizePath` yields names between slashes, and nothing is left to resolve in them. Where a path
goes down into a name and up again, or stays where it is, it can be cut short.
-/

namespace PingWaf.Waf

open Text Segments Plugin List

/-- A segment that names something: neither empty nor a dot segment. -/
def Plain (seg : List Char) : Prop :=
  '/' ∉ seg ∧ seg ≠ [] ∧ seg ≠ ['.'] ∧ seg ≠ ['.', '.']

/-- The path is `/`, or plain segments with at most a slash in front and one behind. -/
def Canonical (path : String) : Prop :=
  ∃ (opens closes : Bool) (names : List (List Char)), (∀ seg ∈ names, Plain seg) ∧
    path.toList.splitOn '/' = framedNames opens closes names

variable {names : List (List Char)} {seg : List Char} {opens closes : Bool}

theorem dotMove_eq_down_iff :
    dotMove seg = .down ↔ seg ≠ [] ∧ seg ≠ ['.'] ∧ seg ≠ ['.', '.'] := by
  unfold dotMove
  split
  · next h => simpa using fun hne hdot => (h.elim hne hdot).elim
  · next h =>
    rw [not_or] at h
    split
    · next hup => simp [hup]
    · next hup => exact iff_of_true rfl ⟨h.1, h.2, hup⟩

theorem plain_of_kept {l : List Char} (h : seg ∈ kept dotMove (l.splitOn '/')) : Plain seg :=
  ⟨(names_of_kept h).1, dotMove_eq_down_iff.mp (mem_of_mem_kept dotMove h).2⟩

theorem Plain.name (h : Plain seg) : '/' ∉ seg ∧ seg ≠ [] := ⟨h.1, h.2.1⟩

/-! ## What is resolved stays as it is -/

theorem kept_framedNames (hs : ∀ seg ∈ names, Plain seg) :
    kept dotMove (framedNames opens closes names) = names := by
  have hmove : ∀ seg ∈ framedNames opens closes names,
      dotMove seg = if seg = [] then .stay else .down := by
    intro seg hmem
    have hcases : seg = [] ∨ seg ∈ names := by
      unfold framedNames at hmem
      grind
    obtain rfl | hmem := hcases
    · rfl
    · rw [if_neg (hs seg hmem).2.1]
      exact dotMove_eq_down_iff.mpr (hs seg hmem).2
  have hup : ∀ seg ∈ framedNames opens closes names, dotMove seg ≠ .up := by
    intro seg hmem
    rw [hmove seg hmem]
    split <;> simp
  rw [(kept_of_no_up dotMove hup).2]
  trans (framedNames opens closes names).filter (· ≠ [])
  · refine filter_congr fun seg hmem => ?_
    rw [hmove seg hmem]
    by_cases hnil : seg = [] <;> simp [hnil]
  · exact filter_framedNames _ _ fun seg hmem => (hs seg hmem).name

theorem head?_framedNames (hs : ∀ seg ∈ names, Plain seg) (hne : names ≠ []) :
    (framedNames opens closes names).head? = some [] ↔ opens = true := by
  unfold framedNames
  rw [if_neg hne]
  cases opens with
  | true => simp
  | false =>
    obtain ⟨name, later, rfl⟩ := exists_cons_of_ne_nil hne
    simpa using (hs name mem_cons_self).2.1

theorem resolveDots_of_canonical {path : String} (h : Canonical path) : resolveDots path = path := by
  obtain ⟨opens, closes, names, hs, hsplit⟩ := h
  have hkept : namesOfAll path = names := by
    unfold namesOfAll
    rw [hsplit, kept_framedNames hs]
  rw [← String.toList_inj, toList_resolveDots, hkept]
  refine Eq.trans ?_ (intercalate_splitOn '/')
  rw [hsplit]
  congr 1
  by_cases hne : names = []
  · rw [framedNames, framedNames, if_pos hne, if_pos hne]
  · have hpath : path.toList ≠ [] := by
      intro hnil
      have hfilter := filter_framedNames opens closes fun seg hmem => (hs seg hmem).name
      rw [← hsplit, hnil, splitOn_nil] at hfilter
      exact hne hfilter.symm
    have hopens := (head?_splitOn hpath).symm.trans (hsplit ▸ head?_framedNames hs hne)
    have hcloses := (getLast?_splitOn hpath).symm.trans
      (hsplit ▸ getLast?_framedNames opens closes (fun seg hmem => (hs seg hmem).name) hne)
    unfold framedNames
    simp only [hopens, hcloses]

theorem canonical_resolveDots (path : String) : Canonical (resolveDots path) := by
  have hs : ∀ seg ∈ namesOfAll path, Plain seg := fun _ h => plain_of_kept h
  refine ⟨path.toList.head? = some '/', path.toList.getLast? = some '/', namesOfAll path, hs, ?_⟩
  rw [toList_resolveDots, splitOn_framedNames _ _ fun seg hmem => (hs seg hmem).name]
  unfold framedNames
  simp only [decide_eq_true_eq]

/-! ## Ways that lead nowhere -/

theorem ne_hash {l : List Char} (h : '#' ∉ l) : ∀ ch ∈ l, decide (ch ≠ '#') = true :=
  fun _ hmem => decide_eq_true fun he => h (he ▸ hmem)

theorem beforeFragment_eq_takeWhile (path : String) :
    beforeFragment path = path.toList.takeWhile (· ≠ '#') := by
  by_cases h : '#' ∈ path.toList
  · obtain ⟨front, rest, hpath, hfront⟩ := eq_append_cons_of_mem h
    unfold beforeFragment
    rw [hpath, splitOnceList_append hfront, takeWhile_append_of_pos (ne_hash hfront)]
    simp
  · rw [beforeFragment_of_not_mem h, takeWhile_eq_self_iff.mpr (ne_hash h)]

theorem normalizePath_eq_resolveDots (path : String) :
    normalizePath path = resolveDots (String.ofList (beforeFragment path)) := by
  rw [← String.toList_inj, toList_normalizePath, toList_resolveDots, namesOfAll,
    String.toList_ofList]
  rfl

theorem resolveDots_detour {mid : List Char}
    (hidle : ∀ stack, (mid.splitOn '/').foldl pathSegment stack = stack) (p q : List Char) :
    resolveDots (String.ofList (p ++ '/' :: (mid ++ '/' :: q))) =
      resolveDots (String.ofList (p ++ '/' :: q)) := by
  have hwalk : ((p ++ '/' :: (mid ++ '/' :: q)).splitOn '/').foldl pathSegment [] =
      ((p ++ '/' :: q).splitOn '/').foldl pathSegment [] := by
    rw [splitOn_append_cons_self, splitOn_append_cons_self,
      splitOn_append_cons_self, foldl_append, foldl_append, foldl_append, hidle]
  have hhead : (p ++ '/' :: (mid ++ '/' :: q)).head? = (p ++ '/' :: q).head? := by
    cases p <;> rfl
  have hlast : (p ++ '/' :: (mid ++ '/' :: q)).getLast? = (p ++ '/' :: q).getLast? := by
    rw [getLast?_append_cons, getLast?_append_cons, ← cons_append,
      getLast?_append_cons]
  unfold resolveDots
  simp only [String.toList_ofList, hwalk, hhead, hlast]

theorem normalizePath_detour (mid : String) (hplain : '#' ∉ mid.toList)
    (hidle : ∀ stack, (mid.toList.splitOn '/').foldl pathSegment stack = stack) (p q : String) :
    normalizePath (p ++ "/" ++ mid ++ "/" ++ q) = normalizePath (p ++ "/" ++ q) := by
  rw [normalizePath_eq_resolveDots, normalizePath_eq_resolveDots, beforeFragment_eq_takeWhile,
    beforeFragment_eq_takeWhile]
  have hlong : (p ++ "/" ++ mid ++ "/" ++ q).toList =
      p.toList ++ '/' :: (mid.toList ++ '/' :: q.toList) := by simp
  have hshort : (p ++ "/" ++ q).toList = p.toList ++ '/' :: q.toList := by simp
  rw [hlong, hshort]
  by_cases hp : '#' ∈ p.toList
  · -- The fragment starts within what both paths begin with.
    obtain ⟨front, rest, hfront, -⟩ := eq_append_cons_of_mem hp
    have hcut (tail : List Char) : (p.toList ++ tail).takeWhile (· ≠ '#') =
        p.toList.takeWhile (· ≠ '#') := by
      simp [hfront, takeWhile_append]
    rw [hcut, hcut]
  · have hcut {l : List Char} (hl : '#' ∉ l) (tail : List Char) :
        (l ++ '/' :: tail).takeWhile (· ≠ '#') = l ++ '/' :: tail.takeWhile (· ≠ '#') := by
      rw [takeWhile_append_of_pos (ne_hash hl), takeWhile_cons_of_pos (by decide)]
    rw [hcut hp, hcut hplain, hcut hp]
    exact resolveDots_detour hidle _ _

theorem not_mem_resolveDots {path : String} (h : '#' ∉ path.toList) :
    '#' ∉ (resolveDots path).toList := by
  rw [toList_resolveDots, mem_intercalate_iff (by decide)]
  rintro ⟨seg, hseg, hmem⟩
  have hname : seg ∈ namesOfAll path := by
    unfold framedNames at hseg
    grind
  exact h ((mem_splitOn (mem_of_mem_kept dotMove hname).1).2 _ hmem)

theorem head?_resolveDots {path : String} (h : path.toList.head? = some '/') :
    (resolveDots path).toList.head? = some '/' := by
  rw [toList_resolveDots]
  by_cases hne : namesOfAll path = []
  · rw [hne]
    rfl
  · rw [framedNames, if_neg hne, if_pos h, singleton_append, cons_append,
      intercalate_cons_of_ne_nil (by simp [hne])]
    rfl

theorem hasPrefix_slash (s : String) : hasPrefix s "/" = true ↔ s.toList.head? = some '/' := by
  unfold hasPrefix
  cases s.toList with
  | nil => simp
  | cons ch _ =>
    show (decide ('/' = ch) && true) = true ↔ _
    rw [Bool.and_true, decide_eq_true_eq, head?_cons, Option.some_inj, eq_comm]

/-- For every path: the normal form is a single slash or plain segments with at most one slash in
front and one behind, has itself as its normal form, and starts with a slash if the path does. For
all paths around it, a segment that is left again by a `..` changes nothing, nor does a `.`. -/
theorem normalizePath_canonical :
    (∀ path : String, '#' ∉ path.toList →
      Canonical (normalizePath path) ∧ normalizePath (normalizePath path) = normalizePath path ∧
        (hasPrefix path "/" = true → hasPrefix (normalizePath path) "/" = true)) ∧
    ∀ p q : String,
      (∀ x : String, Plain x.toList → '#' ∉ x.toList →
        normalizePath (p ++ "/" ++ x ++ "/../" ++ q) = normalizePath (p ++ "/" ++ q)) ∧
      normalizePath (p ++ "/./" ++ q) = normalizePath (p ++ "/" ++ q) := by
  refine ⟨fun path hpath => ?_, fun p q => ⟨fun x hx hfrag => ?_, ?_⟩⟩
  · have hcanon := canonical_resolveDots path
    have hagain := leadsBack_of_not_mem (not_mem_resolveDots hpath)
    rw [(normalizePath_eq_resolveDots_iff path).mpr (leadsBack_of_not_mem hpath)]
    refine ⟨hcanon, ?_, fun hslash => ?_⟩
    · rw [(normalizePath_eq_resolveDots_iff _).mpr hagain, resolveDots_of_canonical hcanon]
    · exact (hasPrefix_slash _).mpr (head?_resolveDots ((hasPrefix_slash _).mp hslash))
  · have hdown := dotMove_eq_down_iff.mpr hx.2
    have hsplit : (x ++ "/..").toList.splitOn '/' = [x.toList, ['.', '.']] := by
      rw [String.toList_append]
      show (x.toList ++ '/' :: ['.', '.']).splitOn '/' = _
      rw [splitOn_append_cons_self, splitOn_eq_singleton hx.1]
      rfl
    have hdetour := normalizePath_detour (x ++ "/..") (by simpa using hfrag)
      (fun stack => by rw [hsplit, pathSegment_eq_visit]; simp [visit, hdown]; rfl) p q
    rw [← hdetour]
    congr 1
    simp only [String.append_assoc]
    rfl
  · have hdetour := normalizePath_detour "." (by decide) (fun stack => rfl) p q
    rw [← hdetour]
    congr 1
    simp only [String.append_assoc]
    rfl

end PingWaf.Waf
