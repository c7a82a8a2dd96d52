import PingWaf.Plugin.Proof.Subtree

/-!
# The path and the query a rule sees

A rule reads the path and the query off the normalized request, after decoding. The path is cut at
the first `#` of the decoded text, which may have been spelled `%23`, and the query is whatever
follows the first `?` of the decoded URI, which may belong to the path.
-/

namespace PingWaf.Waf

open Text Segments Plugin List

/-! ## The path -/

/-- A whole path, its empty and dot segments resolved, with the slash it ends in. -/
def resolveDots (path : String) : String :=
  let names := ((path.toList.splitOn '/').foldl pathSegment []).reverse
  let out := (if path.toList.head? = some '/' then ['/'] else []) ++ ['/'].intercalate names
  if out.isEmpty then "/"
  else if path.toList.getLast? = some '/' ∧ out.getLast? ≠ some '/' then String.ofList (out ++ ['/'])
  else String.ofList out

/-- The names of a whole path that no later segment climbs over. -/
def namesOfAll (path : String) : List (List Char) := kept dotMove (path.toList.splitOn '/')

/-- What stands from the first `#` of a path on leads back to where the path in front of it leads,
and, unless that is the root, ends in a slash if that does. -/
def LeadsBack (path : String) : Prop :=
  namesOfAll path = namesLeft path ∧
    (namesLeft path = [] ∨
      (path.toList.getLast? = some '/' ↔ (beforeFragment path).getLast? = some '/'))

instance (path : String) : Decidable (LeadsBack path) :=
  inferInstanceAs (Decidable (_ ∧ _))

/-- The segments of a resolved path: the names between the slashes around them. -/
def framedNames (opens closes : Prop) [Decidable opens] [Decidable closes]
    (names : List (List Char)) : List (List Char) :=
  if names = [] then [[], []]
  else (if opens then [[]] else []) ++ names ++ (if closes then [[]] else [])

theorem toList_resolveDots (path : String) :
    (resolveDots path).toList = ['/'].intercalate (framedNames (path.toList.head? = some '/')
      (path.toList.getLast? = some '/') (namesOfAll path)) := by
  have hnames : ((path.toList.splitOn '/').foldl pathSegment []).reverse = namesOfAll path := by
    rw [pathSegment_eq_visit, foldl_visit, drop_nil, append_nil, reverse_reverse]
    rfl
  unfold resolveDots
  rw [hnames]
  exact toList_written _ _ fun _ h => names_of_kept h

variable {names : List (List Char)}

theorem splitOn_framedNames (opens closes : Prop) [Decidable opens] [Decidable closes]
    (hs : ∀ seg ∈ names, '/' ∉ seg ∧ seg ≠ []) :
    (['/'].intercalate (framedNames opens closes names)).splitOn '/' =
      framedNames opens closes names := by
  refine splitOn_intercalate '/' (fun seg h => ?_) ?_
  · unfold framedNames at h
    grind
  · unfold framedNames
    split
    · simp
    · next h => simp [h]

theorem filter_framedNames (opens closes : Prop) [Decidable opens] [Decidable closes]
    (hs : ∀ seg ∈ names, '/' ∉ seg ∧ seg ≠ []) :
    (framedNames opens closes names).filter (· ≠ []) = names := by
  have hall : names.filter (· ≠ []) = names :=
    filter_eq_self.mpr fun seg h => decide_eq_true (hs seg h).2
  unfold framedNames
  split
  · next h => simp [h]
  · rw [filter_append, filter_append, hall]
    split <;> split <;> simp

theorem getLast?_framedNames (opens closes : Prop) [Decidable opens] [Decidable closes]
    (hs : ∀ seg ∈ names, '/' ∉ seg ∧ seg ≠ []) (hne : names ≠ []) :
    (framedNames opens closes names).getLast? = some [] ↔ closes := by
  unfold framedNames
  rw [if_neg hne]
  by_cases h : closes
  · simp [h]
  · rw [if_neg h, append_nil, getLast?_append_of_ne_nil _ hne]
    refine iff_of_false (fun hlast => ?_) h
    exact (hs [] (mem_of_getLast? hlast)).2 rfl

theorem framedNames_inj (opens closes closes' : Prop) [Decidable opens] [Decidable closes]
    [Decidable closes'] {names names' : List (List Char)}
    (hs : ∀ seg ∈ names, '/' ∉ seg ∧ seg ≠ []) (hs' : ∀ seg ∈ names', '/' ∉ seg ∧ seg ≠ []) :
    framedNames opens closes names = framedNames opens closes' names' ↔
      names = names' ∧ (names' = [] ∨ (closes ↔ closes')) := by
  constructor
  · intro h
    have hnames : names = names' := by
      rw [← filter_framedNames opens closes hs, h, filter_framedNames opens closes' hs']
    subst hnames
    refine ⟨rfl, ?_⟩
    by_cases hne : names = []
    · exact .inl hne
    · rw [← getLast?_framedNames opens closes hs hne, h, getLast?_framedNames opens closes' hs hne]
      exact .inr Iff.rfl
  · rintro ⟨rfl, hnone | hcloses⟩
    · rw [hnone]
      rfl
    · unfold framedNames
      simp only [hcloses]

theorem head?_beforeFragment (path : String) :
    (beforeFragment path).head? = some '/' ↔ path.toList.head? = some '/' := by
  unfold beforeFragment
  split
  · next p rest hcut =>
    rw [(splitOnceList_eq_some hcut).1]
    cases p with
    | nil => simp
    | cons _ _ => rfl
  · rfl

theorem beforeFragment_of_not_mem {path : String} (h : '#' ∉ path.toList) :
    beforeFragment path = path.toList := by
  unfold beforeFragment
  split
  · next p rest hcut =>
    rw [(splitOnceList_eq_some hcut).1] at h
    simp at h
  · rfl

theorem leadsBack_of_not_mem {path : String} (h : '#' ∉ path.toList) : LeadsBack path := by
  have hall := beforeFragment_of_not_mem h
  unfold LeadsBack namesOfAll namesLeft
  rw [hall]
  exact ⟨rfl, .inr Iff.rfl⟩

theorem normalizePath_eq_resolveDots_iff (path : String) :
    normalizePath path = resolveDots path ↔ LeadsBack path := by
  have hcut : ∀ seg ∈ namesLeft path, '/' ∉ seg ∧ seg ≠ [] := fun _ h => names_of_kept h
  have hall : ∀ seg ∈ namesOfAll path, '/' ∉ seg ∧ seg ≠ [] := fun _ h => names_of_kept h
  have hlanding : landing path = framedNames (path.toList.head? = some '/')
      ((beforeFragment path).getLast? = some '/') (namesLeft path) := by
    unfold landing framedNames
    simp only [head?_beforeFragment]
  rw [← String.toList_inj, toList_normalizePath, toList_resolveDots, hlanding]
  unfold LeadsBack
  rw [eq_comm (a := namesOfAll path), iff_comm (a := path.toList.getLast? = some '/')]
  constructor
  · intro h
    have hsplit := congrArg (splitOn '/') h
    rw [splitOn_framedNames _ _ hcut, splitOn_framedNames _ _ hall, framedNames_inj _ _ _ hcut hall]
      at hsplit
    obtain ⟨hnames, hclose⟩ := hsplit
    rw [← hnames] at hclose
    exact ⟨hnames, hclose⟩
  · rintro ⟨hnames, hclose⟩
    rw [hnames] at hclose
    rw [(framedNames_inj _ _ _ hcut hall).mpr ⟨hnames, hclose⟩]

theorem mem_normalizePath {ch : Char} (hch : ch ≠ '/') (path : String) :
    ch ∈ (normalizePath path).toList ↔ ∃ name ∈ namesLeft path, ch ∈ name := by
  rw [toList_normalizePath, mem_intercalate_iff hch]
  unfold landing
  split
  · next h => simp [h]
  · constructor
    · rintro ⟨seg, hseg, hmem⟩
      rw [mem_append, mem_append] at hseg
      obtain (hseg | hseg) | hseg := hseg
      · split at hseg
        · rw [mem_singleton.mp hseg] at hmem
          cases hmem
        · cases hseg
      · exact ⟨seg, hseg, hmem⟩
      · split at hseg
        · rw [mem_singleton.mp hseg] at hmem
          cases hmem
        · cases hseg
    · rintro ⟨seg, hseg, hmem⟩
      exact ⟨seg, mem_append_left _ (mem_append_right _ hseg), hmem⟩

section

variable (c : Crates) (o : DecodeOpts) (q : RequestData) (b : ScoreBreakdown)

/-- What the rules see of the request. -/
def ruleContext : EvalContext :=
  WafEngine.fullContext q (normalizeRequest c o q.method q.path q.query q.headers q.body) b

/-- The path a rule sees is the whole decoded path exactly if the decoded path has no `#`, or what
follows it leads back. -/
theorem requestPath_whole_iff (index : Option String) :
    resolveField ⟨.requestPath, index⟩ (ruleContext c o q b) =
        .str (resolveDots (multiDecode q.path o.maxDecodeLayers)) ↔
      '#' ∉ (multiDecode q.path o.maxDecodeLayers).toList ∨
        LeadsBack (multiDecode q.path o.maxDecodeLayers) := by
  have hpath : resolveField ⟨.requestPath, index⟩ (ruleContext c o q b) =
      .str (normalizePath (multiDecode q.path o.maxDecodeLayers)) := rfl
  rw [hpath, FieldValue.str.injEq, normalizePath_eq_resolveDots_iff]
  exact ⟨.inr, fun h => h.elim leadsBack_of_not_mem id⟩

end

def plainGet (path query : String) : RequestData := ⟨"GET", path, query, [], none, "", none, "https"⟩

/-- An encoded `#` hides the way to another directory. -/
theorem encoded_hash_cuts_path :
    '#' ∉ "/a%23/../admin".toList ∧
      resolveField ⟨.requestPath, none⟩
        (ruleContext .inert ⟨3, false⟩ (plainGet "/a%23/../admin" "") .clean) = .str "/a" ∧
      resolveDots (multiDecode "/a%23/../admin" 3) = "/admin" := by
  decide +kernel

/-! ## The query -/

section

variable (c : Crates) (o : DecodeOpts) (q : RequestData) (b : ScoreBreakdown)

/-- The parameters of the query in one text. -/
def joinedParams (query : String) : FieldValue :=
  if queryParams o query = [] then .missing
  else .str ("&".intercalate ((queryParams o query).map fun kv => kv.1 ++ "=" ++ kv.2))

theorem splitOnce_of_mem {ch : Char} {path : String} (h : ch ∈ path.toList) :
    ∃ front behind, ∀ rest, splitOnce ch (path ++ rest) = some (front, behind ++ rest) := by
  obtain ⟨front, behind, hpath, hfront⟩ := eq_append_cons_of_mem h
  refine ⟨String.ofList front, String.ofList behind, fun rest => ?_⟩
  have hlist : (path ++ rest).toList = front ++ ch :: (behind ++ rest.toList) := by
    rw [String.toList_append, hpath]
    simp
  rw [splitOnce, hlist, splitOnceList_append hfront]
  simp

theorem missing_query_iff (path : String) :
    FieldValue.ofOption ((splitOnce '?' path).map (·.2)) = .missing ↔ '?' ∉ path.toList := by
  constructor
  · intro h hmem
    obtain ⟨front, behind, hcut⟩ := splitOnce_of_mem hmem
    rw [← String.append_empty (s := path), hcut] at h
    cases h
  · intro h
    rw [splitOnce_eq_none h]
    rfl

theorem joined_query_iff (path joined : String) :
    FieldValue.ofOption ((splitOnce '?' (path ++ "?" ++ joined)).map (·.2)) = .str joined ↔
      '?' ∉ path.toList := by
  constructor
  · intro h hmem
    obtain ⟨front, behind, hcut⟩ := splitOnce_of_mem hmem
    rw [String.append_assoc, hcut] at h
    -- the rest of the path and the separator stand before the pairs
    have hlen := congrArg String.length (FieldValue.str.inj h)
    simp only [String.length_append] at hlen
    have hmark : "?".length = 1 := rfl
    omega
  · intro h
    have hcut : splitOnce '?' (path ++ "?" ++ joined) = some (path, joined) := splitOnce_append h
    rw [hcut]
    rfl

/-- The query a rule sees is that of the request exactly if no name that is left of the decoded path
holds a question mark. -/
theorem requestQuery_exact_iff (index : Option String) :
    resolveField ⟨.requestQuery, index⟩ (ruleContext c o q b) = joinedParams o q.query ↔
      ∀ name ∈ namesLeft (multiDecode q.path o.maxDecodeLayers), '?' ∉ name := by
  have hfield : resolveField ⟨.requestQuery, index⟩ (ruleContext c o q b) =
      .ofOption ((splitOnce '?' (normalizeRequest c o q.method q.path q.query q.headers
        q.body).fullUri).map (·.2)) := rfl
  have hnames : (∀ name ∈ namesLeft (multiDecode q.path o.maxDecodeLayers), '?' ∉ name) ↔
      '?' ∉ (normalizePath (multiDecode q.path o.maxDecodeLayers)).toList := by
    rw [mem_normalizePath (by decide)]
    push Not
    rfl
  have huri : (normalizeRequest c o q.method q.path q.query q.headers q.body).fullUri =
      if queryParams o q.query = [] then normalizePath (multiDecode q.path o.maxDecodeLayers)
      else normalizePath (multiDecode q.path o.maxDecodeLayers) ++ "?" ++
        "&".intercalate ((queryParams o q.query).map fun kv => kv.1 ++ "=" ++ kv.2) := rfl
  rw [hfield, hnames, huri]
  unfold joinedParams
  split
  · exact missing_query_iff _
  · exact joined_query_iff _ _

end

/-- An encoded question mark gives a request without a query one. -/
theorem encoded_mark_makes_query :
    resolveField ⟨.requestQuery, none⟩
        (ruleContext .inert ⟨3, false⟩ (plainGet "/a%3Fx=1" "") .clean) = .str "x=1" ∧
      joinedParams ⟨3, false⟩ "" = .missing := by
  decide +kernel

end PingWaf.Waf
