import PingWaf.Lib.Segments
import PingWaf.Waf.Proof.Monitor
import PingWaf.Waf.Proof.Prefilter

/-!
# The search-phrase gates of the SQL detector

A verdict of the SQL detector is dropped as a search phrase by tests on its fingerprint, one for
each of four kinds of checks. One gate that applies to a check that fired drops the verdict as a
whole.
-/

namespace PingWaf.Waf

open Text Segments List

/-! ## What the fingerprint shows -/

def fpAlphabet : List Char := ['s', 'n', '-', '(', ')', ',', ';', 'o', 't', 'v', '1', 'k', 'f']

theorem fpChar_mem (tok : SqlTok) : tok.fpChar ∈ fpAlphabet := by
  cases tok <;> decide

theorem sqlToken_mem (a : Char) (l : List Char) : ∀ tok ∈ (sqlToken a l).1, tok ∈ fpAlphabet := by
  have hsome : ∀ {ch : Char} (n : Nat), ch ∈ fpAlphabet →
      ∀ tok ∈ ((some ch, n) : Option Char × Nat).1, tok ∈ fpAlphabet := by
    intro ch n hch tok htok
    cases htok
    exact hch
  have hnone : ∀ tok ∈ ((none, 0) : Option Char × Nat).1, tok ∈ fpAlphabet := fun _ h => nomatch h
  have hite : ∀ {c : Prop} [Decidable c] {x y : Option Char × Nat},
      (c → ∀ tok ∈ x.1, tok ∈ fpAlphabet) → (∀ tok ∈ y.1, tok ∈ fpAlphabet) →
      ∀ tok ∈ (if c then x else y).1, tok ∈ fpAlphabet := by
    intro c _ x y hx hy
    split
    · next hc => exact hx hc
    · exact hy
  unfold sqlToken
  refine hite (fun _ => hnone) ?_
  refine hite (fun _ => hsome _ (by split <;> decide)) ?_
  refine hite (fun _ => hsome _ (by decide)) ?_
  refine hite (fun _ => hsome _ (by decide)) ?_
  refine hite (fun hpunct => hsome _ ?_) ?_
  · simp only [Bool.or_eq_true, beq_iff_eq] at hpunct
    rcases hpunct with ((rfl | rfl) | rfl) | rfl <;> decide
  iterate 7 refine hite (fun _ => hsome _ (by decide)) ?_
  exact hite (fun _ => hsome _ (fpChar_mem _)) hnone

theorem fingerprintGo_mem {ch : Char} {n : Nat} {l : List Char} (h : ch ∈ fingerprintGo n l) :
    ch ∈ fpAlphabet := by
  induction l generalizing n with
  | nil => cases n <;> cases h
  | cons a l ih =>
    cases n with
    | succ _ => exact ih h
    | zero =>
      rw [fingerprintGo, mem_append, Option.mem_toList] at h
      exact h.elim (sqlToken_mem a l ch) ih

theorem sqliStrong_of_direct (t : CharTables) {lower : String}
    (h : sqliStrongChecks t lower.toList ≠ []) :
    sqliStrong t lower = sqliStrongChecks t lower.toList := by
  unfold sqliStrong
  dsimp only
  rw [if_neg fun hnone => h hnone.1]

def sqliCheckNames : List String :=
  ["union-select", "union-comment-split", "stacked-query", "dangerous-function",
   "waitfor-statement", "tautology", "truncated-tautology", "quote-keyword", "bare-select",
   "blind-probe", "bool-subquery", "info-schema", "into-file", "comment-stripped",
   "comment-terminator", "string-tautology", "stacked-shape", "fn-call-shape"]

section

variable (t : CharTables)

/-- The checks that fire. -/
def sqliFired (lower : String) : List String := sqliStrong t lower ++ sqliWeak t lower

theorem mem_checkIf {fired : Bool} {name check : String} (h : check ∈ checkIf fired name) :
    check = name := by
  cases fired with
  | false => cases h
  | true => exact mem_singleton.mp h

theorem mem_names_of_strongChecks {lower : List Char} {check : String}
    (h : check ∈ sqliStrongChecks t lower) : check ∈ sqliCheckNames := by
  unfold sqliStrongChecks at h
  simp only [mem_append] at h
  rcases h with (((((((((((h | h) | h) | h) | h) | h) | h) | h) | h) | h) | h) | h) | h
  all_goals
    rw [mem_checkIf h]
    decide +kernel

theorem mem_names_of_fired {lower check : String} (h : check ∈ sqliFired t lower) :
    check ∈ sqliCheckNames := by
  rcases mem_append.mp h with h | h
  · unfold sqliStrong at h
    dsimp only at h
    split at h
    · split at h
      · cases h
      · rcases mem_append.mp h with h | h
        · exact mem_names_of_strongChecks t h
        · rw [mem_singleton.mp h]
          decide +kernel
    · exact mem_names_of_strongChecks t h
  · unfold sqliWeak at h
    simp only [mem_append] at h
    rcases h with ((h | h) | h) | h
    all_goals
      rw [mem_checkIf h]
      decide +kernel

theorem hasSub_sqliFingerprint {lower name : String} (hfired : sqliFired t lower ≠ [])
    (hcomma : ',' ∉ name.toList) (hbar : '|' ∉ name.toList)
    {ch : Char} (hch : ch ∈ name.toList) (hout : ch ∉ fpAlphabet) :
    hasSub (sqliFingerprint t lower) name = (sqliFired t lower).any fun check => hasSub check name := by
  have hne : name.toList ≠ [] := ne_nil_of_mem hch
  have htext : (sqliFingerprint t lower).toList =
      (fingerprintSql lower).toList ++ '|' :: [','].intercalate ((sqliFired t lower).map (·.toList)) := by
    unfold sqliFingerprint
    rw [if_neg (show ¬ sqliStrong t lower ++ sqliWeak t lower = [] from hfired)]
    simp [sqliFired, String.toList_intercalate]
  have htokens : ¬ name.toList <:+: (fingerprintSql lower).toList := by
    intro hsub
    have hmem := hsub.subset hch
    rw [fingerprintSql, String.toList_ofList] at hmem
    exact hout (fingerprintGo_mem hmem)
  rw [Bool.eq_iff_iff, hasSub_iff, htext, infix_append_cons_iff hbar hne,
    infix_intercalate_iff hcomma hne, any_eq_true]
  simp [htokens, hasSub_iff]

end

/-! ## Gates -/

def isTautologyCheck (check : String) : Bool :=
  check == "tautology" || check == "truncated-tautology" || check == "string-tautology"

section

variable (d : Detectors) (t : CharTables) (needle : String)

/-- A tautology in the prose of a long text does not count. -/
def tautologyGate (fired : List String) : Bool :=
  32 < byteLen needle && !fired.contains "comment-terminator"
    && !d.sqliTautologyStatementShaped needle && d.tautologySitsInProse needle

/-- A check is muted by the gate of its own kind, if there is one. -/
def ownGate (fired : List String) (check : String) : Bool :=
  if check = "union-select" then !d.sqliUnionStatementShaped needle
  else if check = "into-file" then !d.sqliIntoFileStatementShaped needle
  else if isTautologyCheck check then tautologyGate d needle fired
  else if check = "quote-keyword" then decide (256 < byteLen needle)
  else false

theorem ownGate_of_tautology {fired : List String} {check : String}
    (h : isTautologyCheck check = true) :
    ownGate d needle fired check = tautologyGate d needle fired := by
  have hunion : check ≠ "union-select" := by rintro rfl; exact absurd h (by decide +kernel)
  have hinto : check ≠ "into-file" := by rintro rfl; exact absurd h (by decide +kernel)
  rw [ownGate, if_neg hunion, if_neg hinto, if_pos h]

theorem ownGate_quoteKeyword (fired : List String) :
    ownGate d needle fired "quote-keyword" = decide (256 < byteLen needle) := by
  have hnot : ¬ isTautologyCheck "quote-keyword" = true := by decide +kernel
  rw [ownGate, if_neg (by decide +kernel), if_neg (by decide +kernel), if_neg hnot, if_pos rfl]

theorem ownGate_stackedQuery (fired : List String) :
    ownGate d needle fired "stacked-query" = false := by
  have hnot : ¬ isTautologyCheck "stacked-query" = true := by decide +kernel
  rw [ownGate, if_neg (by decide +kernel), if_neg (by decide +kernel), if_neg hnot,
    if_neg (by decide +kernel)]

theorem ownGate_iff {fired : List String} {check : String} :
    ownGate d needle fired check = true ↔
      (check = "union-select" ∧ d.sqliUnionStatementShaped needle = false) ∨
      (check = "into-file" ∧ d.sqliIntoFileStatementShaped needle = false) ∨
      (isTautologyCheck check = true ∧ tautologyGate d needle fired = true) ∨
      (check = "quote-keyword" ∧ 256 < byteLen needle) := by
  constructor
  · intro h
    unfold ownGate at h
    split at h
    · next hcheck => exact .inl ⟨hcheck, by simpa using h⟩
    · split at h
      · next hcheck => exact .inr (.inl ⟨hcheck, by simpa using h⟩)
      · split at h
        · next hcheck => exact .inr (.inr (.inl ⟨hcheck, h⟩))
        · split at h
          · next hcheck => exact .inr (.inr (.inr ⟨hcheck, of_decide_eq_true h⟩))
          · cases h
  · rintro (⟨rfl, h⟩ | ⟨rfl, h⟩ | ⟨hcheck, h⟩ | ⟨rfl, h⟩)
    · rw [ownGate, if_pos rfl, h]
      rfl
    · rw [ownGate, if_neg (by decide +kernel), if_pos rfl, h]
      rfl
    · rw [ownGate_of_tautology d needle hcheck, h]
    · rw [ownGate_quoteKeyword, decide_eq_true h]

theorem sqliSearchPhrase_eq {lower : String} (hfired : sqliFired t lower ≠ []) :
    WafEngine.sqliSearchPhrase d needle (sqliFingerprint t lower) =
      (sqliFired t lower).any (ownGate d needle (sqliFired t lower)) := by
  -- each name holds a character, given here, that no token has
  have hshows : ∀ (name : String) (ch : Char) (q : String → Bool),
      (',' ∉ name.toList ∧ '|' ∉ name.toList ∧ ch ∈ name.toList ∧ ch ∉ fpAlphabet ∧
        ∀ check ∈ sqliCheckNames, hasSub check name = q check) →
      (hasSub (sqliFingerprint t lower) name = true ↔ ∃ check ∈ sqliFired t lower, q check = true) := by
    rintro name ch q ⟨hcomma, hbar, hch, hout, hq⟩
    rw [hasSub_sqliFingerprint t hfired hcomma hbar hch hout, any_eq_true]
    refine exists_congr fun check => and_congr_right fun hmem => ?_
    rw [hq check (mem_names_of_fired t hmem)]
  have hunion := hshows "union-select" 'u' (· == "union-select") (by decide +kernel)
  have hinto := hshows "into-file" 'i' (· == "into-file") (by decide +kernel)
  have htaut := hshows "tautology" 'a' isTautologyCheck (by decide +kernel)
  have hquote := hshows "quote-keyword" 'q' (· == "quote-keyword") (by decide +kernel)
  have hterm : hasSub (sqliFingerprint t lower) "comment-terminator" =
      (sqliFired t lower).contains "comment-terminator" := by
    rw [Bool.eq_iff_iff, hshows "comment-terminator" 'c' (· == "comment-terminator")
      (by decide +kernel), contains_iff_mem]
    simp
  rw [Bool.eq_iff_iff, any_eq_true]
  simp only [WafEngine.sqliSearchPhrase, Bool.or_eq_true, Bool.and_eq_true, hunion, hinto, htaut,
    hquote, hterm, beq_iff_eq, ownGate_iff, tautologyGate, decide_eq_true_eq, Bool.not_eq_true']
  -- one check that fires and is muted, against one kind of check that fires and is muted
  simp only [and_or_left, exists_or, ← and_assoc, exists_and_right, or_assoc]

end

/-! ## Records -/

def sqliRecs (st : Stage1) : List HitRec := st.recs.filter isSqliRec

namespace WafEngine

variable (e : WafEngine) (d : Detectors) (v : DecodedValue)

theorem Pushed.sqliRecs_eq {hit : Bool} {st st' : Stage1}
    (h : Pushed (fun r => isSqliRec r = false) st hit st') : sqliRecs st' = sqliRecs st := by
  induction h with
  | refl => rfl
  | push _ _ _ hr _ _ ih =>
    rw [← ih]
    simp [sqliRecs, Stage1.push, hr]

/-- The SQL verdict of a value leaves a record: it fires and is no search phrase. -/
def sqliScored : Bool :=
  (d.detectSqli v.decoded).1 && !sqliSearchPhrase d v.decoded (d.detectSqli v.decoded).2

theorem sqliRecs_scanValue (hsource : v.source ≠ .path) (st : Stage1) :
    sqliRecs (e.scanValue d st v) =
      sqliRecs st ++ if v.decoded ≠ "" ∧ sqliScored d v = true then
        [.lib "libinjection-sqli" (d.detectSqli v.decoded).2 v.source.asStr v.name
          (e.hitMonitored .sqlInjection .generic)] else [] := by
  unfold scanValue
  split
  · next hempty => simp [hempty]
  · next hempty =>
    dsimp only
    generalize (e.level.isStrict && _) = company
    have hsig : Pushed (fun r => isSqliRec r = false) st _
        ((d.scanInto v.decoded).foldl (e.sigHit d v company) st) :=
      pushed_foldl (sigHit_pushed d e v (fun _ h => h) company) _ st
    have hpath := hsig.trans (pathDetectors_pushed d e v (absurd · hsource) _)
    have hoff : (v.source == .path) = false := by simpa using hsource
    obtain ⟨_, -, hrest⟩ := inputDetectors_pushed d e v (fun _ h => h) (e.pathDetectors d v
      ((d.scanInto v.decoded).foldl (e.sigHit d v company) st))
    rw [hoff, if_neg Bool.false_ne_true, hrest.sqliRecs_eq, ← hpath.sqliRecs_eq]
    unfold libHitIf sqliScored
    split
    · next hscored => simp [sqliRecs, libHit, Stage1.push, isSqliRec, hempty, hscored]
    · next hscored => simp [hscored]

theorem exists_scan_of_mem {n : NormalizedRequest} (h : v ∈ n.decodedValues) :
    ∃ st, (e.scanValue d st v).recs <+: (e.stage1 d n).recs := by
  obtain ⟨before, after, hvalues⟩ := append_of_mem h
  refine ⟨before.foldl (e.scanValue d) .init, ?_⟩
  unfold stage1
  rw [hvalues, foldl_append, foldl_cons]
  exact (foldl_scanValue_pushed d e after _).recs_mono.trans
    (foldl_pathSigHit_pushed d e n.path _).recs_mono

/-- Stage 1 of every request that holds the value has a record of the SQL detector for it. -/
def Scores : Prop :=
  ∀ n : NormalizedRequest, v ∈ n.decodedValues → ∃ fingerprint monitored,
    HitRec.lib "libinjection-sqli" fingerprint v.source.asStr v.name monitored ∈ (e.stage1 d n).recs

/-- The request that holds this value alone. -/
def onlyValue : NormalizedRequest := ⟨"", "", "", [], [], none, .inspected, [], [v]⟩

theorem scores_iff_sqliScored (hsource : v.source ≠ .path) :
    Scores e d v ↔ v.decoded ≠ "" ∧ sqliScored d v = true := by
  constructor
  · intro h
    obtain ⟨fingerprint, monitored, hmem⟩ := h (onlyValue v) (mem_singleton.mpr rfl)
    have hsqli : HitRec.lib "libinjection-sqli" fingerprint v.source.asStr v.name monitored ∈
        sqliRecs (e.scanValue d .init v) := mem_filter.mpr ⟨hmem, by simp [isSqliRec]⟩
    rw [sqliRecs_scanValue e d v hsource] at hsqli
    by_contra hnot
    rw [if_neg hnot] at hsqli
    cases hsqli
  · intro hscored n hv
    obtain ⟨st, hst⟩ := exists_scan_of_mem e d v hv
    have hrecs := sqliRecs_scanValue e d v hsource st
    rw [if_pos hscored] at hrecs
    have hmem : HitRec.lib "libinjection-sqli" (d.detectSqli v.decoded).2 v.source.asStr v.name
        (e.hitMonitored .sqlInjection .generic) ∈ sqliRecs (e.scanValue d st v) := by
      rw [hrecs]
      exact mem_append_right _ (mem_singleton.mpr rfl)
    exact ⟨_, _, hst.subset (mem_of_mem_filter hmem)⟩

end WafEngine

/-! ## One gate, one check -/

/-- The detectors with the SQL detector of the source. -/
def Detectors.withSqli (d : Detectors) (t : CharTables) : Detectors :=
  { d with detectSqli := Waf.detectSqli t }

section

variable (e : WafEngine) (d : Detectors) (t : CharTables)

theorem detectSqli_of_strong {input : String} (h : sqliStrong t (toAsciiLowercase input) ≠ []) :
    detectSqli t input = (true, sqliFingerprint t (toAsciiLowercase input)) := by
  unfold detectSqli
  rw [if_neg fun hshort => h (sqliStrong_of_skipped t (.inl hshort)),
    if_neg fun hskip => h (sqliStrong_of_skipped t (.inr hskip))]
  dsimp only
  rw [Prod.mk.injEq]
  exact ⟨by simpa using h, rfl⟩

/-- The report for the value has a strong check that no gate of its own applies to. -/
def HasUngated (input : String) : Prop :=
  ∃ check ∈ sqliStrong t (toAsciiLowercase input), check ≠ "comment-stripped" ∧
    ownGate d input (sqliFired t (toAsciiLowercase input)) check = false

theorem scores_iff {v : DecodedValue} (hsource : v.source ≠ .path)
    (h : sqliStrong t (toAsciiLowercase v.decoded) ≠ []) :
    WafEngine.Scores e (d.withSqli t) v ↔
      ∀ check ∈ sqliFired t (toAsciiLowercase v.decoded),
        ownGate d v.decoded (sqliFired t (toAsciiLowercase v.decoded)) check = false := by
  have hfired : sqliFired t (toAsciiLowercase v.decoded) ≠ [] :=
    append_ne_nil_of_left_ne_nil h _
  have hnonempty : v.decoded ≠ "" := by
    intro hempty
    refine h (sqliStrong_of_skipped t (.inl ?_))
    rw [hempty]
    decide
  have hdetect : (d.withSqli t).detectSqli v.decoded =
      (true, sqliFingerprint t (toAsciiLowercase v.decoded)) := detectSqli_of_strong t h
  have hscored : WafEngine.sqliScored (d.withSqli t) v = true ↔
      ∀ check ∈ sqliFired t (toAsciiLowercase v.decoded),
        ownGate d v.decoded (sqliFired t (toAsciiLowercase v.decoded)) check = false := by
    have hphrase := sqliSearchPhrase_eq (d.withSqli t) t v.decoded hfired
    have hgate : ownGate (d.withSqli t) v.decoded = ownGate d v.decoded := rfl
    unfold WafEngine.sqliScored
    rw [hdetect]
    dsimp only
    rw [hphrase, hgate, Bool.true_and, Bool.not_eq_true', any_eq_false]
    simp only [Bool.not_eq_true]
  rw [← hscored, WafEngine.scores_iff_sqliScored e (d.withSqli t) v hsource]
  exact and_iff_right hnonempty

/-- **When a check without a gate is scored.** For every value from a query, a cookie, a header or a
body, whatever else fired: a strong check that no gate of its own applies to is scored exactly if no
gate applies to any other check that fired either. -/
theorem ungated_check_scores_iff (v : DecodedValue) (hsource : v.source ≠ .path) :
    (HasUngated d t v.decoded → WafEngine.Scores e (d.withSqli t) v) ↔
      (HasUngated d t v.decoded → ∀ check ∈ sqliFired t (toAsciiLowercase v.decoded),
        ownGate d v.decoded (sqliFired t (toAsciiLowercase v.decoded)) check = false) := by
  refine forall_congr' fun hungated => ?_
  obtain ⟨check, hcheck, -⟩ := hungated
  exact scores_iff e d t hsource (ne_nil_of_mem hcheck)

end

/-- A stacked query on its own is scored. -/
theorem stacked_query_is_scored :
    HasUngated .silent .ascii "1; drop table users" ∧
      WafEngine.Scores (.bare 10 []) (Detectors.silent.withSqli .ascii)
        ⟨.queryParam, "q", "1; drop table users", true⟩ := by
  have hlower : toAsciiLowercase "1; drop table users" = "1; drop table users" := by decide +kernel
  have hfired : sqliFired .ascii "1; drop table users" = ["stacked-query", "stacked-shape"] := by
    decide +kernel
  have hungated : HasUngated .silent .ascii "1; drop table users" := by
    unfold HasUngated
    rw [hlower, hfired]
    exact ⟨"stacked-query", by decide +kernel, by decide, by decide +kernel⟩
  refine ⟨hungated, (ungated_check_scores_iff (.bare 10 []) .silent .ascii
    ⟨.queryParam, "q", "1; drop table users", true⟩ (by decide)).mpr (fun _ => ?_) hungated⟩
  rw [hlower, hfired]
  decide +kernel

/-- A quote in front of the statement, and text behind it until the value is long. -/
def paddedText : List Char := "1'; drop table users -- ".toList ++ replicate 240 'a'

def paddedDrop : String := String.ofList paddedText

theorem paddedText_length : paddedText.length = 264 := by decide +kernel

theorem paddedText_lower : paddedText.map asciiLowerChar = paddedText := by decide +kernel

theorem toList_lower_paddedDrop : (toAsciiLowercase paddedDrop).toList = paddedText := by
  have hlist : paddedDrop.toList = paddedText := String.toList_ofList
  unfold toAsciiLowercase
  rw [String.toList_ofList, hlist, paddedText_lower]

theorem byteLen_paddedDrop : 256 < byteLen paddedDrop := by
  have hlen := length_le_byteLen paddedDrop
  have hlist : paddedDrop.toList = paddedText := String.toList_ofList
  rw [hlist, paddedText_length] at hlen
  omega

theorem checks_paddedDrop : "stacked-query" ∈ sqliStrong .ascii (toAsciiLowercase paddedDrop) ∧
    "quote-keyword" ∈ sqliStrong .ascii (toAsciiLowercase paddedDrop) := by
  have hstacked : Regex.isMatch CharTables.ascii.dialect sqliStacked paddedText = true := by
    decide +kernel
  have hquote : Regex.isMatch CharTables.ascii.dialect sqliQuoteKeyword paddedText = true := by
    decide +kernel
  have hchecks : "stacked-query" ∈ sqliStrongChecks .ascii paddedText ∧
      "quote-keyword" ∈ sqliStrongChecks .ascii paddedText := by
    simp [sqliStrongChecks, hstacked, hquote, checkIf]
  rw [← toList_lower_paddedDrop] at hchecks
  rw [sqliStrong_of_direct .ascii (ne_nil_of_mem hchecks.1)]
  exact hchecks

theorem hasUngated_paddedDrop (d : Detectors) : HasUngated d .ascii paddedDrop :=
  ⟨"stacked-query", checks_paddedDrop.1, by decide, ownGate_stackedQuery d _ _⟩

theorem not_scores_paddedDrop (e : WafEngine) (d : Detectors) {v : DecodedValue}
    (hsource : v.source ≠ .path) (hv : v.decoded = paddedDrop) :
    ¬ WafEngine.Scores e (d.withSqli .ascii) v := by
  have hchecks := checks_paddedDrop
  have hlong := byteLen_paddedDrop
  rw [← hv] at hchecks hlong
  intro hscores
  have hgate := (scores_iff e d .ascii hsource (ne_nil_of_mem hchecks.1)).mp hscores
    "quote-keyword" (mem_append_left _ hchecks.2)
  rw [ownGate_quoteKeyword, decide_eq_false_iff_not] at hgate
  exact hgate hlong

/-- The gate of the quote check drops the stacked query as well. -/
theorem padding_mutes_stacked_query :
    HasUngated .silent .ascii paddedDrop ∧
      ¬ WafEngine.Scores (.bare 10 []) (Detectors.silent.withSqli .ascii)
        ⟨.queryParam, "q", paddedDrop, true⟩ :=
  ⟨hasUngated_paddedDrop .silent, not_scores_paddedDrop (.bare 10 []) .silent (by decide) rfl⟩

end PingWaf.Waf
