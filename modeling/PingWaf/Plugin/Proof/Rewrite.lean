import PingWaf.Plugin.Rewrite

/-!
# The operations of a rewrite rule

What a rule is meant to do to a path and to a query is a fold over its operations (`rewrittenPath`,
`rewrittenQuery`). The loop of `apply_request_ops` computes both folds (`tracks_foldl`), but it puts
them into the request under a flag that the query operations do not set.
-/

namespace PingWaf.Plugin

open Text

section

variable (rc : RewriteCrates) (vars : InterpVars)

/-- What an operation does to the path. -/
def applyPathOp (path : String) : CompiledOperation → String
  | .setPath value => interpolate value vars
  | .regexReplacePath pattern replacement => rc.regexReplaceAll pattern replacement path
  | _ => path

/-- The path that the operations ask for. -/
def rewrittenPath (ops : List CompiledOperation) (r : RequestHeader) : String :=
  ops.foldl (applyPathOp rc vars) r.path

/-- The query that the operations ask for. -/
def rewrittenQuery (ops : List CompiledOperation) (r : RequestHeader) : String :=
  ops.foldl applyQueryOp (r.query.getD "")

/-- The request after the rule has the path and the query that its operations make. -/
def AppliesAll (rule : CompiledRewriteRule) (r : RequestHeader) : Prop :=
  (applyRequestOps rc vars rule r).1.path = rewrittenPath rc vars rule.operations r ∧
    (applyRequestOps rc vars rule r).1.query.getD "" = rewrittenQuery rule.operations r

/-- The path and the query are such, and the parser takes their text. -/
structure ValidTarget (p q : String) : Prop where
  path : isPathText p = true
  query : isQueryText q = true
  parsed : (rc.parseUri (joinTarget p q)).isSome = true

/-- An operation that changes this request, other than one on the query. -/
def TakesEffect (r : RequestHeader) : CompiledOperation → Prop
  | .setHeader _ value | .addHeader _ value => rc.headerValueOk (interpolate value vars) = true
  | .removeHeader name => r.hasHeader name = true
  | .setPath _ => True
  | .regexReplacePath pattern replacement =>
    rc.regexReplaceAll pattern replacement r.path ≠ r.path
  | .setQueryParam .. | .removeQueryParam .. | .setStatusCode _ => False

def CompiledOperation.onQuery : CompiledOperation → Bool
  | .setQueryParam .. | .removeQueryParam .. => true
  | _ => false

theorem foldl_applyQueryOp_filter (ops : List CompiledOperation) (query : String) :
    (ops.filter CompiledOperation.onQuery).foldl applyQueryOp query =
      ops.foldl applyQueryOp query := by
  induction ops generalizing query with
  | nil => rfl
  | cons op _ ih => cases op <;> exact ih _

/-! ## The loop -/

/-- What the loop has done after some operations. Until one of them takes effect, the request is as
it was. -/
structure Tracks (r : RequestHeader) (ops : List CompiledOperation) (st : Edits) : Prop where
  uri : st.header.path = r.path ∧ st.header.query = r.query
  path : st.newPath.getD r.path = rewrittenPath rc vars ops r
  queryOps : st.queryOps = ops.filter CompiledOperation.onQuery
  changed : st.changed = true ↔ ∃ op ∈ ops, TakesEffect rc vars r op
  idle : st.changed = false → st.header = r ∧ st.newPath = none

variable {rc vars} {r : RequestHeader} {ops : List CompiledOperation} {st : Edits}

theorem exists_effect_append (op : CompiledOperation) :
    (∃ o ∈ ops ++ [op], TakesEffect rc vars r o) ↔
      (∃ o ∈ ops, TakesEffect rc vars r o) ∨ TakesEffect rc vars r op := by
  simp [or_and_right, exists_or]

theorem rewrittenPath_append (op : CompiledOperation) :
    rewrittenPath rc vars (ops ++ [op]) r = applyPathOp rc vars (rewrittenPath rc vars ops r) op := by
  simp [rewrittenPath]

theorem Tracks.effect (h : Tracks rc vars r ops st) (op : CompiledOperation)
    (hop : st.changed = false → TakesEffect rc vars r op) (hquery : op.onQuery = false)
    {header : RequestHeader} {newPath : Option String}
    (huri : header.path = r.path ∧ header.query = r.query)
    (hpath : newPath.getD r.path = applyPathOp rc vars (rewrittenPath rc vars ops r) op) :
    Tracks rc vars r (ops ++ [op]) { st with header := header, newPath := newPath, changed := true }
    where
  uri := huri
  path := hpath.trans (rewrittenPath_append op).symm
  queryOps := by simp [h.queryOps, hquery]
  changed := by
    refine iff_of_true rfl ((exists_effect_append op).mpr ?_)
    cases hc : st.changed with
    | true => exact .inl (h.changed.mp hc)
    | false => exact .inr (hop hc)
  idle := nofun

theorem Tracks.skip (h : Tracks rc vars r ops st) (op : CompiledOperation)
    (hop : st.changed = false → ¬ TakesEffect rc vars r op)
    (hpath : applyPathOp rc vars (rewrittenPath rc vars ops r) op = rewrittenPath rc vars ops r) :
    Tracks rc vars r (ops ++ [op])
      { st with queryOps := st.queryOps ++ [op].filter CompiledOperation.onQuery } where
  uri := h.uri
  path := by
    rw [rewrittenPath_append, hpath]
    exact h.path
  queryOps := by rw [h.queryOps, List.filter_append]
  changed := by
    rw [exists_effect_append, ← h.changed]
    cases hc : st.changed with
    | true => exact iff_of_true rfl (.inl rfl)
    | false => simp [hop hc]
  idle := h.idle

theorem Tracks.skip_of_not_onQuery (h : Tracks rc vars r ops st) (op : CompiledOperation)
    (hop : st.changed = false → ¬ TakesEffect rc vars r op) (hquery : op.onQuery = false)
    (hpath : applyPathOp rc vars (rewrittenPath rc vars ops r) op = rewrittenPath rc vars ops r) :
    Tracks rc vars r (ops ++ [op]) st := by
  have hnone : [op].filter CompiledOperation.onQuery = [] := by simp [hquery]
  have hskip := h.skip op hop hpath
  rwa [hnone, List.append_nil] at hskip

theorem tracks_removeHeader (h : Tracks rc vars r ops st) (name : String) :
    Tracks rc vars r (ops ++ [.removeHeader name]) (applyOp rc vars st (.removeHeader name)) := by
  -- as long as nothing changed, the header is the one that came in
  have hsame (hc : st.changed = false) : st.header.hasHeader name = r.hasHeader name := by
    rw [(h.idle hc).1]
  unfold applyOp
  dsimp only
  split
  · next hpresent =>
    refine h.effect _ (fun hc => ?_) rfl h.uri h.path
    exact (hsame hc).symm.trans hpresent
  · next habsent =>
    exact h.skip_of_not_onQuery _ (fun hc he => habsent ((hsame hc).trans he)) rfl rfl

theorem tracks_regexReplacePath (h : Tracks rc vars r ops st) (pattern replacement : String) :
    Tracks rc vars r (ops ++ [.regexReplacePath pattern replacement])
      (applyOp rc vars st (.regexReplacePath pattern replacement)) := by
  have hcurrent : st.newPath.getD st.header.path = rewrittenPath rc vars ops r := by
    rw [h.uri.1]
    exact h.path
  have hsame (hc : st.changed = false) : rewrittenPath rc vars ops r = r.path := by
    rw [← h.path, (h.idle hc).2]
    rfl
  unfold applyOp
  dsimp only
  rw [hcurrent]
  split
  · next hne =>
    refine h.effect _ (fun hc => ?_) rfl h.uri rfl
    rwa [hsame hc] at hne
  · next heq =>
    rw [not_not] at heq
    refine h.skip_of_not_onQuery _ (fun hc he => ?_) rfl heq
    rw [hsame hc] at heq
    exact he heq

theorem tracks_applyOp (h : Tracks rc vars r ops st) (op : CompiledOperation) :
    Tracks rc vars r (ops ++ [op]) (applyOp rc vars st op) := by
  cases op with
  | setHeader _ _ | addHeader _ _ =>
    unfold applyOp
    dsimp only
    split
    · next hok =>
      refine h.effect _ (fun _ => ?_) rfl h.uri h.path
      exact hok
    · next hbad => exact h.skip_of_not_onQuery _ (fun _ => hbad) rfl rfl
  | removeHeader name => exact tracks_removeHeader h name
  | setPath _ =>
    refine h.effect _ (fun _ => ?_) rfl h.uri rfl
    exact trivial
  | regexReplacePath pattern replacement => exact tracks_regexReplacePath h pattern replacement
  | setQueryParam _ _ | removeQueryParam _ => exact h.skip _ (fun _ => id) rfl
  | setStatusCode _ => exact h.skip_of_not_onQuery _ (fun _ => id) rfl rfl

theorem tracks_foldl (ops : List CompiledOperation) :
    Tracks rc vars r ops (ops.foldl (applyOp rc vars) ⟨r, false, none, []⟩) := by
  induction ops using List.reverseRecOn with
  | nil => exact ⟨⟨rfl, rfl⟩, rfl, rfl, by simp, fun _ => ⟨rfl, rfl⟩⟩
  | append_singleton _ op ih =>
    rw [List.foldl_append]
    exact tracks_applyOp ih op

/-! ## The request after the rule -/

theorem Tracks.query (h : Tracks rc vars r ops st) :
    st.queryOps.foldl applyQueryOp (st.header.query.getD "") = rewrittenQuery ops r := by
  rw [h.queryOps, h.uri.2, foldl_applyQueryOp_filter]
  rfl

theorem commit_rebuilt (hlaw : ReadsOrigin rc.parseUri) (h : Tracks rc vars r ops st)
    (hvalid : ValidTarget rc (rewrittenPath rc vars ops r) (rewrittenQuery ops r))
    (hrebuild : (st.changed && (st.newPath.isSome || !st.queryOps.isEmpty)) = true) :
    (commit rc st).path = rewrittenPath rc vars ops r ∧
      (commit rc st).query.getD "" = rewrittenQuery ops r := by
  have hpath : st.newPath.getD st.header.path = rewrittenPath rc vars ops r := by
    rw [h.uri.1]
    exact h.path
  obtain ⟨u, hu⟩ := Option.isSome_iff_exists.mp hvalid.parsed
  have hread := readTarget_joinTarget hvalid.path hvalid.query
  have horigin := hlaw _ u (hasPrefix_joinTarget hvalid.path _) hu
  unfold commit
  rw [if_pos hrebuild]
  dsimp only
  rw [hpath, h.query, hu, horigin]
  exact hread

theorem commit_kept (h : Tracks rc vars r ops st)
    (hrebuild : ¬ (st.changed && (st.newPath.isSome || !st.queryOps.isEmpty)) = true) :
    (commit rc st).path = rewrittenPath rc vars ops r ∧ (commit rc st).query = r.query := by
  have hnone : st.newPath = none := by
    cases hc : st.changed with
    | false => exact (h.idle hc).2
    | true =>
      rw [hc] at hrebuild
      cases hp : st.newPath with
      | none => rfl
      | some _ => simp [hp] at hrebuild
  unfold commit
  rw [if_neg hrebuild]
  refine ⟨?_, h.uri.2⟩
  rw [h.uri.1, ← h.path, hnone]
  rfl

end

/-- **A rule applies all of its operations exactly when one that is not on the query takes effect**,
or the operations on the query leave it as it is. -/
theorem rewrite_applies_all_iff (rc : RewriteCrates) (hlaw : ReadsOrigin rc.parseUri)
    (vars : InterpVars) (rule : CompiledRewriteRule) (r : RequestHeader)
    (hvalid : ValidTarget rc (rewrittenPath rc vars rule.operations r)
      (rewrittenQuery rule.operations r)) :
    AppliesAll rc vars rule r ↔
      (∃ op ∈ rule.operations, TakesEffect rc vars r op) ∨
        rewrittenQuery rule.operations r = r.query.getD "" := by
  have h : Tracks rc vars r rule.operations _ := tracks_foldl rule.operations
  unfold AppliesAll applyRequestOps
  rw [← h.changed]
  dsimp only
  generalize rule.operations.foldl (applyOp rc vars) ⟨r, false, none, []⟩ = st at h ⊢
  by_cases hrebuild : (st.changed && (st.newPath.isSome || !st.queryOps.isEmpty)) = true
  · exact iff_of_true (commit_rebuilt hlaw h hvalid hrebuild)
      (.inl (Bool.and_eq_true_iff.mp hrebuild).1)
  · obtain ⟨hpath, hquery⟩ := commit_kept h hrebuild
    rw [hquery]
    constructor
    · rintro ⟨-, hq⟩
      exact .inr hq.symm
    · intro hcond
      refine ⟨hpath, ?_⟩
      rcases hcond with hc | hq
      · -- something changed and the URI was not rebuilt, so that there are no query operations
        have hidle : st.newPath = none ∧ st.queryOps = [] := by simpa [hc] using hrebuild
        rw [← h.query, hidle.2, h.uri.2]
        rfl
      · exact hq.symm

/-! ## A rule with a query operation alone -/

def originCrates : RewriteCrates where
  regexReplaceAll _ _ text := text
  regexIsMatch _ _ := false
  headerValueOk _ := true
  parseUri := originUri

def searchRequest : RequestHeader where
  method := "GET"
  uriHost := none
  path := "/search"
  query := some "q=a&page=1"
  headers := [⟨"host", utf8Encode "example.com"⟩]

def onRequest (ops : List CompiledOperation) : CompiledRewriteRule := ⟨none, .request, ops⟩

def localFacts : RewriteFacts := ⟨none, "192.0.2.1", fun _ => none⟩

/-- With a header beside it the parameter is set. -/
theorem query_beside_header_applied :
    AppliesAll originCrates (interpVars searchRequest localFacts)
        (onRequest [.setQueryParam "page" "2", .setHeader "x-page" "2"]) searchRequest ∧
      rewrittenQuery [.setQueryParam "page" "2", .setHeader "x-page" "2"] searchRequest =
        "q=a&page=2" := by
  refine ⟨(rewrite_applies_all_iff originCrates readsOrigin_originUri
    (interpVars searchRequest localFacts)
    (onRequest [.setQueryParam "page" "2", .setHeader "x-page" "2"]) searchRequest
    ⟨by decide +kernel, by decide +kernel, by decide +kernel⟩).mpr (.inl ?_), by decide +kernel⟩
  exact ⟨.setHeader "x-page" "2", by decide, rfl⟩

/-- Alone the rule matches and leaves the request. -/
theorem query_alone_not_applied :
    ValidTarget originCrates "/search" "q=a&page=2" ∧
      rewrittenQuery [.setQueryParam "page" "2"] searchRequest = "q=a&page=2" ∧
      rewriteRequest originCrates localFacts [onRequest [.setQueryParam "page" "2"]] searchRequest =
        (searchRequest, false) ∧
      (applyRequestOps originCrates (interpVars searchRequest localFacts)
        (onRequest [.setQueryParam "page" "2"]) searchRequest).1.query = some "q=a&page=1" :=
  ⟨⟨by decide +kernel, by decide +kernel, by decide +kernel⟩, by decide +kernel⟩

end PingWaf.Plugin
