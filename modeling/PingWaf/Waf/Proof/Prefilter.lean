import PingWaf.Waf.Detect.Sqli
import PingWaf.Waf.Detect.Xss

/-!
# The keyword prefilters are exact

The SQL and the XSS detector skip texts of fewer than three octets, and ASCII texts without any of
their needles. Every way through one of their expressions passes a literal that holds a needle, and no
match is shorter than three characters (`guarded`), so nothing is lost by that. Taking comments out
puts no needle in.
-/

namespace PingWaf.Waf

open Text Regex List Bool

/-! ## Texts that cannot match -/

def holdsNeedle (needles : List String) (w : List Char) : Bool :=
  needles.any fun needle => hasSubList needle.toList w

/-- A match of the expression holds a needle and has three characters. -/
def guarded (needles : List String) (r : Regex) : Bool :=
  passes (holdsNeedle needles) r && 3 ≤ minLen r

def Quiet (t : CharTables) (needles : List String) (text : List Char) : Prop :=
  ∀ r, guarded needles r = true → isMatch t.dialect r text = false

def IsPlain (text : List Char) : Prop := ∀ ch ∈ text, ch.toNat < 128 ∧ asciiLowerChar ch = ch

theorem foldsTo_plain {w ch : Char} (hch : ch.toNat < 128 ∧ asciiLowerChar ch = ch)
    (h : foldsTo w ch = true) : w = ch := by
  have hlong : longS.toNat = 0x17F := by decide
  have hkelvin : kelvinSign.toNat = 0x212A := by decide
  simp only [foldsTo, or_eq_true, and_eq_true, beq_iff_eq] at h
  rcases h with (h | h) | h
  · rw [← h, hch.2]
  · rw [h.2] at hch
    omega
  · rw [h.2] at hch
    omega

variable {t : CharTables} {needles : List String} {input : String}

theorem eq_of_same {w mid : List Char} (hplain : IsPlain mid)
    (h : List.Forall₂ (fun a b => t.dialect.same a b = true) w mid) : w = mid := by
  induction h with
  | nil => rfl
  | @cons a b w mid hab _ ih =>
    rw [foldsTo_plain (hplain b mem_cons_self) hab,
      ih fun ch hch => hplain ch (mem_cons_of_mem _ hch)]

theorem quiet_of_short {text : List Char} (h : text.length < 3) : Quiet t needles text := by
  intro r hr
  rw [guarded, and_eq_true, decide_eq_true_eq] at hr
  rw [← not_eq_true]
  intro hmatch
  have := minLen_le_of_isMatch hmatch
  omega

theorem quiet_of_no_needle {text : List Char} (hplain : IsPlain text)
    (h : ∀ needle ∈ needles, ¬ needle.toList <:+: text) : Quiet t needles text := by
  intro r hr
  rw [guarded, and_eq_true] at hr
  rw [← not_eq_true]
  intro hmatch
  obtain ⟨w, mid, hw, hmid, hall⟩ := literal_of_isMatch hr.1 hmatch
  have hself : w = mid := eq_of_same (fun ch hch => hplain ch (hmid.subset hch)) hall
  obtain ⟨needle, hneedle, hsub⟩ := any_eq_true.mp hw
  rw [hasSubList_iff, hself] at hsub
  exact h needle hneedle (hsub.trans hmid)

/-! ## What the prefilter lets through -/

theorem isPlain_lower (h : isAscii input = true) : IsPlain (toAsciiLowercase input).toList := by
  intro ch hch
  rw [toAsciiLowercase, String.toList_ofList] at hch
  obtain ⟨d, hd, rfl⟩ := mem_map.mp hch
  have hlt : d.toNat < 128 := by
    have := all_eq_true.mp h d hd
    simpa using this
  exact ⟨asciiLowerChar_lt hlt, asciiLowerChar_idem d⟩

theorem length_lower_le (input : String) :
    (toAsciiLowercase input).toList.length ≤ byteLen input := by
  rw [toAsciiLowercase, String.toList_ofList, length_map]
  exact length_le_byteLen input

theorem not_infix_of_not_prefilterHits (h : prefilterHits needles input = false) :
    ∀ needle ∈ needles, ¬ needle.toList <:+: (toAsciiLowercase input).toList := by
  intro needle hneedle hsub
  have := any_eq_false.mp h needle hneedle
  exact this (hasSub_iff.mpr hsub)

def Skipped (needles : List String) (input : String) : Prop :=
  byteLen input < 3 ∨ (isAscii input && !prefilterHits needles input) = true

theorem Skipped.quiet (h : Skipped needles input) :
    Quiet t needles (toAsciiLowercase input).toList := by
  rcases h with hshort | h
  · exact quiet_of_short (Nat.lt_of_le_of_lt (length_lower_le input) hshort)
  · rw [and_eq_true, not_eq_true'] at h
    exact quiet_of_no_needle (isPlain_lower h.1) (not_infix_of_not_prefilterHits h.2)

/-! ## SQL injection -/

section

variable (t : CharTables)

/-- The expressions that no table of characters enters, of the strong SQL checks. -/
def sqliPlain : List Regex :=
  [sqliUnionSelect, sqliUnionCommentSplit, sqliStacked, sqliDangerousFn, sqliWaitfor,
   sqliTruncatedTautology, sqliQuoteKeyword, sqliInfoSchema, sqliIntoFile]

def xssPlain : List Regex :=
  [xssScriptTag, xssEventHandler, xssJsUri, xssDangerousTag, xssDataUri, xssStyleExpr,
   xssHtmlCommentBreak, xssDomChain]

theorem plain_guarded : (∀ r ∈ sqliPlain, guarded sqliPrefilterNeedles r = true) ∧
    (∀ r ∈ xssPlain, guarded xssPrefilterNeedles r = true) ∧
    ∀ needle ∈ sqliPrefilterNeedles, ' ' ∉ needle.toList := by
  decide +kernel

theorem sqliStrongChecks_of_quiet {text : List Char} (h : Quiet t sqliPrefilterNeedles text) :
    sqliStrongChecks t text = [] := by
  have hplain : ∀ r ∈ sqliPlain, isMatch t.dialect r text = false :=
    fun r hr => h r (plain_guarded.1 r hr)
  simp only [sqliPlain, forall_mem_cons] at hplain
  simp [sqliStrongChecks, checkIf, hplain, h (sqliTautology t) (by cbv),
    h (sqliBareSelect t) (by cbv), h (sqliBlindProbe t) (by cbv), h (sqliBoolSubquery t) (by cbv)]

theorem inlineComment_eq_some {l : List Char} {ch : Char} {n : Nat}
    (h : inlineComment l = some (ch, n)) : ch = ' ' := by
  unfold inlineComment at h
  split at h
  · obtain ⟨p, -, hp⟩ := Option.map_eq_some_iff.mp h
    exact (Prod.mk.inj hp).1.symm
  · cases h

theorem Skipped.quiet_stripped {input : String} (h : Skipped sqliPrefilterNeedles input) :
    Quiet t sqliPrefilterNeedles (stripComments (toAsciiLowercase input).toList) := by
  rcases h with hshort | h
  · refine quiet_of_short (Nat.lt_of_le_of_lt (Resolve.length_go_le 0 _) ?_)
    exact Nat.lt_of_le_of_lt (length_lower_le input) hshort
  · rw [and_eq_true, not_eq_true'] at h
    refine quiet_of_no_needle (fun ch hch => ?_) (fun needle hneedle hsub => ?_)
    · rcases Resolve.mem_go 0 hch with hold | ⟨rest, n, hs⟩
      · exact isPlain_lower h.1 ch hold
      · rw [inlineComment_eq_some hs]
        decide
    · have hblank := plain_guarded.2.2
      refine not_infix_of_not_prefilterHits h.2 needle hneedle (Resolve.infix_of_infix_go ?_ 0 hsub)
      intro l ch n hs
      rw [inlineComment_eq_some hs]
      exact hblank needle hneedle

/-- The verdict without the prefilter: the strong checks on the lower-cased text and, if none fires
and there are both marks of a comment, on the text with a blank for every comment. -/
def unfilteredSqli (input : String) : Bool :=
  let lower := toAsciiLowercase input
  !(sqliStrongChecks t lower.toList).isEmpty ||
    (hasSub lower "/*" && hasSub lower "*/" &&
      !(sqliStrongChecks t (stripComments lower.toList)).isEmpty)

theorem isEmpty_fallback (first second extra : List String) (opened closed : Bool) :
    (!(if first = [] ∧ opened = true ∧ closed = true then
        if second = [] then [] else second ++ extra else first).isEmpty) =
      (!first.isEmpty || (opened && closed && !second.isEmpty)) := by
  cases first with
  | cons _ _ => simp
  | nil =>
    cases second with
    | nil => simp
    | cons _ _ => cases opened <;> cases closed <;> simp

theorem sqliStrong_isEmpty (input : String) :
    (!(sqliStrong t (toAsciiLowercase input)).isEmpty) = unfilteredSqli t input := by
  unfold sqliStrong unfilteredSqli
  dsimp only
  generalize sqliStrongChecks t (toAsciiLowercase input).toList = first
  generalize sqliStrongChecks t (stripComments (toAsciiLowercase input).toList) = second
  exact isEmpty_fallback first second _ _ _

theorem sqliStrong_of_skipped {input : String} (h : Skipped sqliPrefilterNeedles input) :
    sqliStrong t (toAsciiLowercase input) = [] := by
  have hdirect := sqliStrongChecks_of_quiet t h.quiet
  have hstripped := sqliStrongChecks_of_quiet t (h.quiet_stripped t)
  unfold sqliStrong
  simp only [hdirect, hstripped, if_true, ite_self]

/-- **The prefilter changes no verdict of the SQL detector.** -/
theorem detectSqli_prefilter_exact (input : String) :
    (detectSqli t input).1 = unfilteredSqli t input := by
  rw [← sqliStrong_isEmpty]
  have hquiet : Skipped sqliPrefilterNeedles input →
      false = !(sqliStrong t (toAsciiLowercase input)).isEmpty := by
    intro h
    rw [sqliStrong_of_skipped t h]
    rfl
  unfold detectSqli
  split
  · next hshort => exact hquiet (.inl hshort)
  · split
    · next hskip => exact hquiet (.inr hskip)
    · dsimp only

/-! ## Cross-site scripting -/

theorem xssChecks_of_quiet {text : List Char} (h : Quiet t xssPrefilterNeedles text) :
    xssChecks t text = [] := by
  have hplain : ∀ r ∈ xssPlain, isMatch t.dialect r text = false :=
    fun r hr => h r (plain_guarded.2.1 r hr)
  simp only [xssPlain, forall_mem_cons] at hplain
  simp [xssChecks, checkIf, hplain]

/-- **The prefilter changes no report of the XSS detector.** -/
theorem detectXss_prefilter_exact (input : String) :
    detectXss t input = xssReport (xssChecks t (toAsciiLowercase input).toList) := by
  have hquiet : Skipped xssPrefilterNeedles input →
      (false, "") = xssReport (xssChecks t (toAsciiLowercase input).toList) := by
    intro h
    rw [xssChecks_of_quiet t h.quiet]
    rfl
  unfold detectXss
  split
  · next hshort => exact hquiet (.inl hshort)
  · split
    · next hskip => exact hquiet (.inr hskip)
    · rfl

end

end PingWaf.Waf
