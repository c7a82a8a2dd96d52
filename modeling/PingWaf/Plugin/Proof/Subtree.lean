import PingWaf.Lib.Segments
import PingWaf.Challenge.Engine
import PingWaf.Plugin.Proof.Gate

/-!
# Exemptions and dot segments

The exemptions of the data plane look at the path as the client spelled it: a site's path
exceptions, the ACME path the challenge plugin steps aside for, and the exempt paths of the
challenge engine.
-/

namespace PingWaf.Plugin

open Text Waf Segments List PathExceptions

/-! ## Where a path leads -/

def dotMove (seg : List Char) : Move :=
  if seg = [] ∨ seg = ['.'] then .stay else if seg = ['.', '.'] then .up else .down

theorem pathSegment_eq_visit : pathSegment = visit dotMove := by
  funext segments seg
  unfold pathSegment visit dotMove
  split
  · rfl
  · split
    · rfl
    · rfl

def beforeFragment (path : String) : List Char :=
  match splitOnceList '#' path.toList with
  | some (p, _) => p
  | none => path.toList

/-- The segments that are left once the dot segments are resolved. -/
def namesLeft (path : String) : List (List Char) :=
  kept dotMove ((beforeFragment path).splitOn '/')

/-- Those names between the slashes the path opens and closes with; without any name, the root. -/
def landing (path : String) : List (List Char) :=
  if namesLeft path = [] then [[], []]
  else (if (beforeFragment path).head? = some '/' then [[]] else []) ++ namesLeft path ++
    (if (beforeFragment path).getLast? = some '/' then [[]] else [])

theorem names_of_kept {l seg : List Char} (h : seg ∈ kept dotMove (l.splitOn '/')) :
    '/' ∉ seg ∧ seg ≠ [] := by
  obtain ⟨hmem, hdown⟩ := mem_of_mem_kept dotMove h
  refine ⟨not_mem_of_mem_splitOn hmem, ?_⟩
  rintro rfl
  unfold dotMove at hdown
  rw [if_pos (.inl rfl)] at hdown
  cases hdown

theorem slash_not_mem_landing {path : String} {seg : List Char} (h : seg ∈ landing path) :
    '/' ∉ seg := by
  have hblank : '/' ∉ ([] : List Char) := not_mem_nil
  unfold landing at h
  split at h
  · simp only [mem_cons, not_mem_nil, or_false, or_self] at h
    rw [h]
    exact hblank
  · rw [mem_append, mem_append] at h
    obtain (h | h) | h := h
    · split at h
      · rw [mem_singleton.mp h]
        exact hblank
      · cases h
    · exact (names_of_kept h).1
    · split at h
      · rw [mem_singleton.mp h]
        exact hblank
      · cases h

theorem landing_ne_nil (path : String) : landing path ≠ [] := by
  unfold landing
  split
  · simp
  · next h => simp [h]

variable {names : List (List Char)}

theorem getLast?_intercalate_ne (hne : names ≠ []) (hs : ∀ seg ∈ names, '/' ∉ seg ∧ seg ≠ []) :
    (['/'].intercalate names).getLast? ≠ some '/' := by
  obtain ⟨front, last, rfl⟩ := eq_nil_or_concat names |>.resolve_left hne
  obtain ⟨hslash, hlast⟩ := hs last (by simp)
  obtain ⟨init, c, rfl⟩ := eq_nil_or_concat last |>.resolve_left hlast
  have hend : ∃ pre, ['/'].intercalate (front ++ [init ++ [c]]) = pre ++ [c] := by
    cases front with
    | nil => exact ⟨init, by simp [intercalate]⟩
    | cons q front =>
      rw [intercalate_append (by simp) (by simp)]
      exact ⟨['/'].intercalate (q :: front) ++ '/' :: init, by simp [intercalate]⟩
  obtain ⟨pre, hpre⟩ := hend
  rw [concat_eq_append, concat_eq_append, hpre, getLast?_concat]
  intro hc
  cases hc
  exact hslash (by simp)

theorem intercalate_ne_nil (hne : names ≠ []) (hs : ∀ seg ∈ names, '/' ∉ seg ∧ seg ≠ []) :
    ['/'].intercalate names ≠ [] := by
  cases names with
  | nil => exact absurd rfl hne
  | cons q names =>
    have hq := (hs q mem_cons_self).2
    cases names with
    | nil => simpa [intercalate] using hq
    | cons _ _ =>
      rw [intercalate_cons_cons]
      simp [hq]

theorem toList_written (opens closes : Prop) [Decidable opens] [Decidable closes]
    (hs : ∀ seg ∈ names, '/' ∉ seg ∧ seg ≠ []) :
    (let out := (if opens then ['/'] else []) ++ ['/'].intercalate names
      if out.isEmpty then "/"
      else if closes ∧ out.getLast? ≠ some '/' then String.ofList (out ++ ['/'])
      else String.ofList out).toList =
    ['/'].intercalate (if names = [] then [[], []]
      else (if opens then [[]] else []) ++ names ++ (if closes then [[]] else [])) := by
  by_cases hnone : names = []
  · subst hnone
    by_cases hopens : opens
    · simp [hopens, intercalate]
    · simp [hopens, intercalate]
  · have hne := intercalate_ne_nil hnone hs
    have hlead : (if opens then ['/'] else []) ++ ['/'].intercalate names =
        ['/'].intercalate ((if opens then [[]] else []) ++ names) := by
      split
      · rw [intercalate_append (by simp) hnone]
        rfl
      · rfl
    have hsegs : (if opens then [[]] else []) ++ names ≠ [] :=
      fun h => hnone (append_eq_nil_iff.mp h).2
    have hout : (if opens then ['/'] else []) ++ ['/'].intercalate names ≠ [] :=
      fun h => hne (append_eq_nil_iff.mp h).2
    have hlast : ((if opens then ['/'] else []) ++ ['/'].intercalate names).getLast? ≠
        some '/' := by
      rw [getLast?_append_of_ne_nil _ hne]
      exact getLast?_intercalate_ne hnone hs
    dsimp only
    rw [if_neg (by simpa using hout), if_neg hnone]
    by_cases hcloses : closes
    · rw [if_pos ⟨hcloses, hlast⟩, if_pos hcloses, String.toList_ofList, hlead,
        intercalate_append hsegs (cons_ne_nil _ _)]
      rfl
    · rw [if_neg (fun h => hcloses h.1), if_neg hcloses, append_nil, String.toList_ofList,
        hlead]

theorem toList_normalizePath (path : String) :
    (normalizePath path).toList = ['/'].intercalate (landing path) := by
  have hnames : (((beforeFragment path).splitOn '/').foldl pathSegment []).reverse =
      namesLeft path := by
    rw [pathSegment_eq_visit, foldl_visit, drop_nil, append_nil, reverse_reverse]
    rfl
  have hsegs : ∀ seg ∈ namesLeft path, '/' ∉ seg ∧ seg ≠ [] := fun _ h => names_of_kept h
  have hwritten := toList_written ((beforeFragment path).head? = some '/')
    ((beforeFragment path).getLast? = some '/') hsegs
  rw [← hnames] at hwritten
  unfold normalizePath
  split
  · next hempty =>
    have hpath : path = "" := by simpa using hempty
    subst hpath
    rfl
  · unfold landing
    rw [← hnames]
    exact hwritten

theorem splitOn_normalizePath (path : String) :
    (normalizePath path).toList.splitOn '/' = landing path := by
  rw [toList_normalizePath]
  exact splitOn_intercalate '/' (fun _ h => slash_not_mem_landing h) (landing_ne_nil path)

/-! ## Patterns -/

/-- How far an exempted path reaches: itself, the paths below it, or whatever it starts. -/
inductive Reach where
  | whole | below | opening

structure ExemptPattern where
  reach : Reach
  text : String

/-- The comparison that the source makes. -/
def ExemptPattern.accepts (p : ExemptPattern) (path : String) : Bool :=
  match p.reach with
  | .whole => path = p.text
  | .below => underPath path p.text
  | .opening => hasPrefix path p.text

/-- The segments at the places between the slashes are the pattern's own and no more; begin with
them; or begin with all but the last, and then comes one that the last begins. -/
def ExemptPattern.Fits (p : ExemptPattern) (hasAt : Nat → List Char → Prop) : Prop :=
  let segs := p.text.toList.splitOn '/'
  match p.reach with
  | .whole => (∀ i seg, segs[i]? = some seg → hasAt i seg) ∧
      ∀ i seg, hasAt i seg → i < segs.length
  | .below => ∀ i seg, segs[i]? = some seg → hasAt i seg
  | .opening => (∀ i seg, segs.dropLast[i]? = some seg → hasAt i seg) ∧
      ∃ last, segs.getLast? = some last ∧ ∃ seg, hasAt (segs.length - 1) seg ∧ last <+: seg

theorem ExemptPattern.accepts_iff_fits (p : ExemptPattern) (path : String) :
    p.accepts path = true ↔ p.Fits fun i seg => (path.toList.splitOn '/')[i]? = some seg := by
  unfold ExemptPattern.accepts ExemptPattern.Fits
  cases p.reach with
  | whole =>
    simp only [← prefix_iff_forall_getElem?]
    rw [decide_eq_true_eq, ← eq_iff_prefix_and_no_more, splitOn_inj, String.toList_inj]
    exact eq_comm
  | below =>
    simp only [← prefix_iff_forall_getElem?, ← segments_prefix_iff]
    simp [underPath, hasPrefix, String.toList_inj]
  | opening =>
    obtain ⟨front, last, hsegs⟩ := eq_nil_or_concat (p.text.toList.splitOn '/') |>.resolve_left
      (splitOn_ne_nil '/' p.text.toList)
    rw [concat_eq_append] at hsegs
    unfold hasPrefix
    rw [ isPrefixOf_iff_prefix, prefix_iff_segments hsegs]
    simp [hsegs, ← prefix_iff_forall_getElem?]

/-! ## Paths that stay within a pattern -/

/-- The path before its fragment, cut at its slashes. -/
def pathSegments (path : String) : List (List Char) :=
  (beforeFragment path).splitOn '/'

/-- The path begins with a slash, or leads to the root, which is written with one. -/
def opens (path : String) : Bool :=
  (beforeFragment path).head? = some '/' ∨ depth dotMove (pathSegments path) = 0

/-- The path ends with a slash, or leads to the root. -/
def closes (path : String) : Bool :=
  (beforeFragment path).getLast? = some '/' ∨ depth dotMove (pathSegments path) = 0

/-- The path has `seg` at the `i`-th place between its slashes to stay: the blank before its first
slash, a name that deep that no later `..` climbs over, or the blank behind its last slash, at the
depth where the path ends. -/
def HasAt (path : String) (i : Nat) (seg : List Char) : Prop :=
  let opened := if opens path then 1 else 0
  (i < opened ∧ seg = []) ∨
    ∃ j, i = j + opened ∧ (Stands dotMove (pathSegments path) j seg ∨
      depth dotMove (pathSegments path) = j ∧ closes path = true ∧ seg = [])

/-- The path has the pattern's segments at their places to stay. -/
def ExemptPattern.Holds (p : ExemptPattern) (path : String) : Prop := p.Fits (HasAt path)

theorem getElem?_framed {opens closes : Prop} [Decidable opens] [Decidable closes]
    {i : Nat} {seg : List Char} :
    ((if opens then [[]] else []) ++ (names ++ (if closes then [[]] else [])))[i]? = some seg ↔
      (i < (if opens then 1 else 0) ∧ seg = []) ∨
        ∃ j, i = j + (if opens then 1 else 0) ∧
          (names[j]? = some seg ∨ names.length = j ∧ closes ∧ seg = []) := by
  have hbehind (j : Nat) : (names ++ (if closes then [[]] else []))[j]? = some seg ↔
      names[j]? = some seg ∨ names.length = j ∧ closes ∧ seg = [] := by
    rw [getElem?_append]
    split
    · next hj =>
      rw [or_iff_left (fun h => Nat.ne_of_gt hj h.1)]
    · next hj =>
      have hout : names[j]? = none := getElem?_eq_none (Nat.le_of_not_lt hj)
      rw [hout, or_iff_right (by simp)]
      split
      · next hc =>
        rw [getElem?_singleton]
        simp only [hc, true_and]
        split
        · grind
        · grind
      · next hc => simp [hc]
  by_cases ho : opens
  · simp only [if_pos ho, singleton_append]
    cases i with
    | zero => simp [eq_comm]
    | succ i => simp [hbehind]
  · simp [if_neg ho, hbehind]

theorem landing_eq_framed (path : String) :
    landing path = (if opens path then [[]] else []) ++
      (namesLeft path ++ (if closes path then [[]] else [])) := by
  have hdepth : depth dotMove (pathSegments path) = (namesLeft path).length := depth_eq ..
  unfold landing opens closes
  rw [hdepth]
  by_cases hnone : namesLeft path = []
  · simp [hnone]
  · simp [hnone]

theorem getElem?_landing_iff {path : String} {i : Nat} {seg : List Char} :
    (landing path)[i]? = some seg ↔ HasAt path i seg := by
  have hdepth : depth dotMove (pathSegments path) = (namesLeft path).length := depth_eq ..
  have hstands (j : Nat) : Stands dotMove (pathSegments path) j seg ↔
      (namesLeft path)[j]? = some seg := (getElem?_kept_iff dotMove).symm
  unfold HasAt
  simp only [hdepth, hstands]
  rw [landing_eq_framed, getElem?_framed]

theorem ExemptPattern.accepts_normalizePath (p : ExemptPattern) (path : String) :
    p.accepts (normalizePath path) = true ↔ p.Holds path := by
  rw [p.accepts_iff_fits, splitOn_normalizePath]
  simp only [getElem?_landing_iff]
  rfl

/-! ## The exemptions of the data plane -/

/-- Site path exceptions without regular expressions, the challenge plugin's ACME path, and the
exempt paths of a challenge engine. -/
inductive Exemption where
  | siteExceptions (rules : List PathExceptionConfig)
      (plain : ∀ rule ∈ rules, rule.matchType ≠ "regex")
  | acmePath
  | exemptPaths (engine : Challenge.ChallengeEngine)

/-- The exemption as the source decides it. -/
def Exemption.accepts (v : Services) (compiles : String → Bool) (path : String) :
    Exemption → Bool
  | .siteExceptions rules _ =>
    ((build compiles rules).bind (·.matchPath v path)).isSome
  | .acmePath => hasPrefix path acmeHttp01PathPrefix
  | .exemptPaths engine => engine.isExemptPath path

def PathExceptionConfig.pattern (rule : PathExceptionConfig) : Option ExemptPattern :=
  if !rule.enabled || rule.path = "" then none
  else if rule.matchType = "exact" then some ⟨.whole, rule.path⟩
  else if rule.matchType = "wildcard" then
    some ⟨.opening, String.ofList (trimEndList (· == '*') rule.path.toList)⟩
  else some ⟨.below, rule.path⟩

def exemptPathPattern (exempt : String) : ExemptPattern :=
  if hasSuffix exempt "*" then ⟨.opening, String.ofList exempt.toList.dropLast⟩
  else ⟨.whole, exempt⟩

/-- What it exempts. -/
def Exemption.patterns : Exemption → List ExemptPattern
  | .siteExceptions rules _ => rules.filterMap PathExceptionConfig.pattern
  | .acmePath => [⟨.opening, acmeHttp01PathPrefix⟩]
  | .exemptPaths engine => engine.config.exemptPaths.map exemptPathPattern

def PathExceptions.hits (v : Services) (x : PathExceptions) (path : String) : Bool :=
  x.exact.any (fun e => e.1 = path) || x.pre.any (fun e => underPath path e.1) ||
    x.wildcard.any (fun e => hasPrefix path e.1) ||
    x.regex.any fun e => v.crates.regexIsMatch e.1 path

theorem PathExceptions.isSome_matchPath (v : Services) (x : PathExceptions) (path : String) :
    (x.matchPath v path).isSome = x.hits v path := by
  unfold matchPath hits
  rw [Option.isSome_map, Option.isSome_or, Option.isSome_or, Option.isSome_or,
    isSome_find?, isSome_find?, isSome_find?, isSome_find?]

theorem PathExceptions.hits_add (v : Services) (compiles : String → Bool) (x : PathExceptions)
    {rule : PathExceptionConfig} (plain : rule.matchType ≠ "regex") (path : String) :
    (x.add compiles rule).hits v path =
      (x.hits v path || rule.pattern.any (·.accepts path)) := by
  unfold add PathExceptionConfig.pattern
  split
  · simp
  · split
    · simp only [hits, ExemptPattern.accepts, any_append, any_cons, any_nil,
        Option.any_some, Bool.or_false, eq_comm]
      simp only [Bool.or_assoc, Bool.or_comm, Bool.or_left_comm]
    · split
      all_goals
        simp only [hits, ExemptPattern.accepts, any_append, any_cons, any_nil,
          Option.any_some, Bool.or_false]
        simp only [Bool.or_assoc, Bool.or_comm, Bool.or_left_comm]

theorem PathExceptions.hits_foldl_add (v : Services) (compiles : String → Bool)
    (x : PathExceptions) {rules : List PathExceptionConfig}
    (plain : ∀ rule ∈ rules, rule.matchType ≠ "regex") (path : String) :
    (rules.foldl (add compiles) x).hits v path =
      (x.hits v path || (rules.filterMap PathExceptionConfig.pattern).any (·.accepts path)) := by
  induction rules generalizing x with
  | nil => simp
  | cons rule _ ih =>
    rw [foldl_cons, ih _ fun r hr => plain r (mem_cons_of_mem _ hr),
      hits_add v compiles x (plain rule mem_cons_self), Bool.or_assoc]
    cases hp : rule.pattern with
    | none => rw [filterMap_cons_none hp]; simp
    | some _ => rw [filterMap_cons_some hp]; simp

theorem PathExceptions.isSome_matchPath_build (v : Services) (compiles : String → Bool)
    {rules : List PathExceptionConfig} (plain : ∀ rule ∈ rules, rule.matchType ≠ "regex")
    (path : String) :
    ((build compiles rules).bind (·.matchPath v path)).isSome =
      (rules.filterMap PathExceptionConfig.pattern).any (·.accepts path) := by
  have hhits := hits_foldl_add v compiles ⟨[], [], [], []⟩ plain path
  have hnone : (mk [] [] [] []).hits v path = false := rfl
  rw [hnone, Bool.false_or] at hhits
  rw [← hhits]
  unfold build
  dsimp only
  split
  · next hempty =>
    simp only [Bool.and_eq_true, List.isEmpty_iff] at hempty
    unfold hits
    rw [hempty.1.1.1, hempty.1.1.2, hempty.1.2, hempty.2]
    rfl
  · rw [Option.bind_some, isSome_matchPath]

theorem accepts_exemptPathPattern (exempt path : String) :
    (exemptPathPattern exempt).accepts path =
      if hasSuffix exempt "*" then hasPrefix path (String.ofList exempt.toList.dropLast)
      else decide (path = exempt) := by
  unfold exemptPathPattern
  split
  · rfl
  · rfl

theorem Exemption.accepts_eq_any (v : Services) (compiles : String → Bool) (x : Exemption)
    (path : String) : x.accepts v compiles path = x.patterns.any (·.accepts path) := by
  cases x with
  | siteExceptions _ plain => exact isSome_matchPath_build v compiles plain path
  | acmePath => exact (Bool.or_false _).symm
  | exemptPaths _ =>
    unfold Exemption.accepts Exemption.patterns Challenge.ChallengeEngine.isExemptPath
    rw [any_map]
    refine congrArg (any _) (funext fun exempt => ?_)
    rw [Function.comp_apply, accepts_exemptPathPattern]

/-- An accepted path is still accepted once it is decoded and resolved exactly when, decoded, it
holds to one of the exemption's patterns. -/
theorem exemption_kept_iff (v : Services) (compiles : String → Bool) (x : Exemption)
    (maxDecodeLayers : Nat) (raw : String) :
    (x.accepts v compiles raw = true →
        x.accepts v compiles (normalizePath (multiDecode raw maxDecodeLayers)) = true) ↔
      (x.accepts v compiles raw = true →
        ∃ p ∈ x.patterns, p.Holds (multiDecode raw maxDecodeLayers)) := by
  have hresolved : x.accepts v compiles (normalizePath (multiDecode raw maxDecodeLayers)) = true ↔
      ∃ p ∈ x.patterns, p.Holds (multiDecode raw maxDecodeLayers) := by
    rw [x.accepts_eq_any, any_eq_true]
    simp only [ExemptPattern.accepts_normalizePath]
  rw [hresolved]

/-! ## Paths that climb out -/

def publicRule : PathExceptionConfig where
  id := "x1"
  path := "/public"
  matchType := "prefix"
  skipLayers := ["*"]
  enabled := true
  logHits := false
  note := ""

def publicSite : Exemption :=
  .siteExceptions [publicRule] fun _ h => by rw [List.mem_singleton.mp h]; decide

def apiExempt : Exemption :=
  .exemptPaths ⟨⟨true, false, .managed, 3600, ["/api/*"], [], 100, false, "secret", "clearance", 4, 300⟩⟩

/-- Each kind of exemption takes a path that resolves to `/admin`. -/
theorem admin_reached_through_exemptions :
    (publicSite.accepts quietServices (fun _ => true) "/public/%2e%2e/admin" = true ∧
      publicSite.accepts quietServices (fun _ => true)
        (normalizePath (multiDecode "/public/%2e%2e/admin" 3)) = false) ∧
    (Exemption.acmePath.accepts quietServices (fun _ => true)
        "/.well-known/acme-challenge/../../admin" = true ∧
      Exemption.acmePath.accepts quietServices (fun _ => true)
        (normalizePath (multiDecode "/.well-known/acme-challenge/../../admin" 3)) = false) ∧
    (apiExempt.accepts quietServices (fun _ => true) "/api/..%2fadmin" = true ∧
      apiExempt.accepts quietServices (fun _ => true)
        (normalizePath (multiDecode "/api/..%2fadmin" 3)) = false) := by
  refine ⟨⟨?_, ?_⟩, ⟨?_, ?_⟩, ⟨?_, ?_⟩⟩ <;> decide +kernel

end PingWaf.Plugin
