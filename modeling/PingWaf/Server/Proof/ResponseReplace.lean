import PingWaf.Server.ResponseReplace
import PingWaf.Lib.Framing
import PingWaf.Lib.Decimal

/-!
# Replacement policies survive the trip to the edge

Every rule that the API accepts is read back from its line as that rule (`parse_directive`), part by
part along the expression. The plugin is then built unless the path does not compile.
-/

namespace PingWaf.Server

open Text List ResponseReplaceRule ResponseReplaceRule
open Plugin

variable {c : Replacing} {rule : ResponseReplaceRule} {policy : ResponseReplaceConfig}

/-! ## What the API accepts -/

/-- What the validation of a rule comes to. -/
structure AcceptedRule (c : Replacing) (rule : ResponseReplaceRule) : Prop where
  pattern_ne : rule.pattern ≠ ""
  replacement_ne : rule.replacement ≠ ""
  no_quote : quote ∉ rule.pattern.toList ∧ quote ∉ rule.replacement.toList
  compiles : rule.isRegex = true → c.error rule.pattern = none

theorem acceptedRule_of_ok {number : Nat}
    (h : validateResponseReplaceRule c number rule = .ok ()) : AcceptedRule c rule := by
  unfold validateResponseReplaceRule at h
  simp only [badRequest, bind, Except.bind] at h
  split at h
  · cases h
  next hpattern =>
  split at h
  · cases h
  next hreplacement =>
  split at h
  · cases h
  next hquote =>
  split at h
  · cases h
  split at h
  · cases h
  simp only [Bool.or_eq_true, decide_eq_true_eq, not_or] at hpattern hreplacement
  simp only [Bool.or_eq_true, contains_iff_mem, not_or] at hquote
  refine ⟨hpattern.1, hreplacement.1, hquote, fun hregex => ?_⟩
  rw [if_pos hregex] at h
  split at h
  · cases h
  · assumption

theorem acceptedRules_of_ok {number : Nat} {rules : List ResponseReplaceRule}
    (h : validateRules c number rules = .ok ()) : ∀ rule ∈ rules, AcceptedRule c rule := by
  induction rules generalizing number with
  | nil => exact fun rule hrule => absurd hrule not_mem_nil
  | cons first _ ih =>
    unfold validateRules at h
    cases hfirst : validateResponseReplaceRule c number first with
    | error _ =>
      rw [hfirst] at h
      cases h
    | ok _ =>
      rw [hfirst] at h
      intro rule hrule
      rcases mem_cons.mp hrule with rfl | hrule
      · exact acceptedRule_of_ok hfirst
      · exact ih h rule hrule

theorem forM_validateStatusCode (codes : List Nat) :
    codes.forM validateStatusCode = .ok () ↔ ∀ code ∈ codes, 100 ≤ code ∧ code ≤ 599 := by
  induction codes with
  | nil => simp [pure, Except.pure]
  | cons _ _ ih =>
    rw [forM_eq_forM, forM_cons, ← forM_eq_forM, forall_mem_cons, ← ih]
    conv_lhs => enter [1, 1]; unfold validateStatusCode
    split
    · next h => simp [h, bind, Except.bind]
    · next h => simp [h, badRequest, bind, Except.bind]

structure AcceptedPolicy (c : Replacing) (policy : ResponseReplaceConfig) : Prop where
  path : validatePath c policy.path = .ok ()
  codes : ∀ code ∈ policy.statusCodes, 100 ≤ code ∧ code ≤ 599
  few : policy.rules.length ≤ maxResponseReplaceRules
  rules : validateRules c 1 policy.rules = .ok ()

theorem acceptedPolicy_iff : validateResponseReplace c policy = .ok () ↔ AcceptedPolicy c policy := by
  constructor
  · intro h
    unfold validateResponseReplace at h
    simp only [badRequest, bind, Except.bind] at h
    split at h
    · cases h
    next hpath =>
    split at h
    · cases h
    next hcodes =>
    split at h
    · cases h
    next hfew =>
    exact ⟨hpath, (forM_validateStatusCode _).mp hcodes, Nat.le_of_not_lt hfew, h⟩
  · intro h
    unfold validateResponseReplace
    rw [h.path, (forM_validateStatusCode _).mpr h.codes, h.rules, if_neg (Nat.not_lt.mpr h.few)]
    rfl

theorem mem_sortedCodes {codes : List Nat} {code : Nat} :
    code ∈ sortedCodes codes ↔ code ∈ codes := by
  unfold sortedCodes
  rw [mem_dedup, mem_mergeSort]

/-! ## Reading a line back -/

theorem quote_not_blank : isWhitespace quote = false := by decide

theorem takeBlanks_blank {d : Char} (hd : isWhitespace d = false) (l : List Char) :
    takeBlanks (' ' :: d :: l) = some (d :: l) := by
  have hblank : isWhitespace ' ' = true := by decide
  unfold takeBlanks
  dsimp only
  rw [if_pos hblank, dropWhile_cons_of_neg (by simp [hd])]

theorem takeQuoted_quoted {body : List Char} (hne : body ≠ []) (hquote : quote ∉ body)
    (rest : List Char) : takeQuoted (quote :: (body ++ quote :: rest)) = some (body, rest) := by
  have hbody : ∀ ch ∈ body, decide (ch ≠ quote) = true := by
    intro ch hch
    exact decide_eq_true fun heq => hquote (heq ▸ hch)
  have htake : (body ++ quote :: rest).takeWhile (· ≠ quote) = body := by
    rw [takeWhile_append_of_pos hbody, takeWhile_cons_of_neg (by simp), append_nil]
  have hdrop : (body ++ quote :: rest).dropWhile (· ≠ quote) = quote :: rest := by
    rw [dropWhile_append_of_pos hbody, dropWhile_cons_of_neg (by simp)]
  unfold takeQuoted
  dsimp only
  rw [if_pos rfl, htake, hdrop]
  cases body with
  | nil => exact absurd rfl hne
  | cons _ _ => rfl

theorem takeDirective_subs (l : List Char) :
    takeDirective ("subs_filter".toList ++ l) = some ("subs_filter", l) :=
  rfl

theorem takeDirective_sub (l : List Char) :
    takeDirective ("sub_filter".toList ++ l) = some ("sub_filter", l) :=
  rfl

theorem takeFlags_global : takeFlags [' ', 'g'] = some ['g'] := by decide

def ResponseReplaceRule.operands (rule : ResponseReplaceRule) : List Char :=
  ' ' :: quote :: (rule.pattern.toList ++ quote :: ' ' :: quote ::
    (rule.replacement.toList ++ quote :: [' ', 'g']))

theorem toList_directive (rule : ResponseReplaceRule) : rule.directive.toList =
    (if rule.isRegex then "subs_filter" else "sub_filter").toList ++ rule.operands := by
  unfold directive operands
  simp

theorem matchRule_directive (h : AcceptedRule c rule) : matchRule rule.directive.toList =
    some ⟨if rule.isRegex then "subs_filter" else "sub_filter", rule.pattern.toList,
      rule.replacement.toList, some ['g']⟩ := by
  have hpattern : rule.pattern.toList ≠ [] := fun hnil => h.pattern_ne (String.toList_eq_nil_iff.mp hnil)
  have hreplacement : rule.replacement.toList ≠ [] :=
    fun hnil => h.replacement_ne (String.toList_eq_nil_iff.mp hnil)
  have hdirective : takeDirective rule.directive.toList =
      some (if rule.isRegex then "subs_filter" else "sub_filter", rule.operands) := by
    rw [toList_directive]
    cases rule.isRegex
    · exact takeDirective_sub _
    · exact takeDirective_subs _
  unfold matchRule
  rw [hdirective]
  unfold operands
  simp only [Option.bind_some, takeBlanks_blank quote_not_blank,
    takeQuoted_quoted hpattern h.no_quote.1, takeQuoted_quoted hreplacement h.no_quote.2,
    Option.map_some, takeFlags_global]

/-- The rule as the edge is to have it. -/
def ResponseReplaceRule.params (rule : ResponseReplaceRule) : SubFilterParams :=
  if rule.isRegex then ⟨some ⟨rule.pattern, false⟩, [], utf8Encode rule.replacement, ['g']⟩
  else ⟨none, utf8Encode rule.pattern, utf8Encode rule.replacement, ['g']⟩

theorem searchRule_of_matchRule {l : List Char} {captures : RuleCaptures}
    (h : matchRule l = some captures) : searchRule l = some captures := by
  cases l with
  | nil => cases h
  | cons _ _ =>
    unfold searchRule
    rw [h]
    rfl

theorem parse_directive (hbytes : c.BuildsTexts) (h : AcceptedRule c rule) :
    parseSubsFilter c rule.directive = some rule.params := by
  unfold parseSubsFilter params
  rw [searchRule_of_matchRule (matchRule_directive h)]
  cases hregex : rule.isRegex with
  | false => simp
  | true =>
    have hbuilds := hbytes rule.pattern (h.compiles hregex)
    simp [hbuilds]

theorem parseFilters (hbytes : c.BuildsTexts) {rules : List ResponseReplaceRule}
    (h : ∀ rule ∈ rules, AcceptedRule c rule) :
    (rules.map directive).mapM (parseFilter c) =
      .ok (rules.map params) := by
  induction rules with
  | nil => rfl
  | cons rule _ ih =>
    have hrule : parseFilter c rule.directive = .ok rule.params := by
      unfold parseFilter
      rw [parse_directive hbytes (h rule mem_cons_self)]
    rw [map_cons, mapM_cons, hrule, ih fun r hr => h r (mem_cons_of_mem _ hr)]
    rfl

/-! ## The generated plugin -/

/-- What the rule says it does to a body. -/
def ResponseReplaceRule.apply (c : Replacing) (rule : ResponseReplaceRule) (data : List UInt8) :
    List UInt8 :=
  if rule.isRegex then
    c.regexReplaceAll ⟨rule.pattern, false⟩ data (utf8Encode rule.replacement)
  else c.replace (utf8Encode rule.pattern) (utf8Encode rule.replacement) data

theorem apply_params (data : List UInt8) : rule.params.apply c data = rule.apply c data := by
  unfold params apply
  cases rule.isRegex <;> rfl

/-! ## The responses it is for -/

theorem parseU16_toString {n : Nat} (h : n < 2 ^ 16) : parseU16 (trim (toString n)) = some n := by
  have hlist : (toString n).toList = Nat.toDigits 10 n := Nat.toList_repr
  obtain ⟨d, ds, hd, -, hplus⟩ := toDigits_eq_digit_cons n
  have hval : digitsVal (d :: ds) = some n := hd ▸ digitsVal_toDigits n
  have htrim : trim (toString n) = toString n := by
    apply trim_eq_self
    intro ch hch
    rw [hlist] at hch
    have hdigit : ch.isDigit = true := Nat.isDigit_of_mem_toDigits (by decide) (le_refl 10) hch
    simp only [Char.isDigit, Bool.and_eq_true, decide_eq_true_eq, UInt32.le_iff_toNat_le] at hdigit
    have hlo : 48 ≤ ch.toNat := hdigit.1
    have hhi : ch.toNat ≤ 57 := hdigit.2
    simp only [isWhitespace, Bool.or_eq_false_iff, Bool.and_eq_false_iff, decide_eq_false_iff_not,
      beq_eq_false_iff_ne]
    omega
  have hparse : parseU64 (toString n) = some n := by
    unfold parseU64
    rw [hlist, hd]
    split
    · next hsign => exact absurd (cons.inj hsign).1 hplus
    · dsimp only
      rw [hval]
      exact Option.filter_some_pos (by simpa using h.trans (by decide))
  rw [htrim, parseU16, hparse]
  exact Option.filter_some_pos (by simpa using h)

theorem parseStatusCodes_joined {codes : List Nat} (h : ∀ code ∈ codes, code < 2 ^ 16) :
    parseStatusCodes (",".intercalate (codes.map toString)) =
      if codes = [] then none else some codes := by
  cases codes with
  | nil => rfl
  | cons code rest =>
    have hcomma : ∀ part ∈ (code :: rest).map toString, ',' ∉ part.toList := by
      intro part hpart hmem
      obtain ⟨n, -, rfl⟩ := mem_map.mp hpart
      have hlist : (toString n).toList = Nat.toDigits 10 n := Nat.toList_repr
      rw [hlist] at hmem
      exact absurd (Nat.isDigit_of_mem_toDigits (by decide) (le_refl 10) hmem) (by decide)
    have hsplit : splitChar ',' (",".intercalate ((code :: rest).map toString)) =
        (code :: rest).map toString :=
      splitChar_intercalate (by simp) hcomma
    have hne : ",".intercalate ((code :: rest).map toString) ≠ "" := by
      intro hempty
      rw [hempty] at hsplit
      obtain ⟨d, ds, hd, -⟩ := toDigits_eq_digit_cons code
      have hlist : (toString code).toList = Nat.toDigits 10 code := Nat.toList_repr
      have hfirst : "" = toString code := (cons.inj hsplit).1
      rw [← hfirst, hd] at hlist
      exact absurd hlist.symm (cons_ne_nil d ds)
    unfold parseStatusCodes
    rw [if_neg hne, if_neg (cons_ne_nil _ _), hsplit, filterMap_map]
    have hread : (code :: rest).filterMap ((fun s => parseU16 (trim s)) ∘ toString) =
        (code :: rest).filterMap some := by
      refine filterMap_congr fun n hn => ?_
      rw [Function.comp_apply, parseU16_toString (h n hn)]
    rw [hread, filterMap_some]

theorem compilePath_iff {path : String} {compiled : Option String} :
    compilePath c path = .ok compiled ↔
      (path = "" ∨ c.error path = none) ∧ compiled = if path = "" then none else some path := by
  unfold compilePath
  by_cases hempty : path = ""
  · simp [hempty, eq_comm]
  · cases herror : c.error path with
    | none => simp [hempty, eq_comm]
    | some _ => simp [hempty, subFilterInvalid]

/-- The plugin holds the stored rules in their order, does to a body what they say, and does so for
the status codes and the path of the policy. -/
structure AppliesRules (c : Replacing) (policy : ResponseReplaceConfig) (p : SubFilter) : Prop where
  filters : p.filters = policy.rules.map params
  body : ∀ data, p.applyFilters c data =
    policy.rules.foldl (fun data rule => rule.apply c data) data
  responses : ∀ status path, p.selects c status path = true ↔
    (policy.statusCodes = [] ∨ status ∈ policy.statusCodes) ∧
      (trim policy.path = "" ∨ c.isMatch (trim policy.path) path = true)

theorem appliesRules_built (hcodes : ∀ code ∈ policy.statusCodes, code < 2 ^ 16) :
    AppliesRules c policy
      ⟨if trim policy.path = "" then none else some (trim policy.path),
        parseStatusCodes (",".intercalate ((sortedCodes policy.statusCodes).map toString)),
        policy.rules.map params⟩ where
  filters := rfl
  body data := by
    unfold SubFilter.applyFilters
    rw [foldl_map]
    simp only [apply_params]
  responses status path := by
    have hnil : sortedCodes policy.statusCodes = [] ↔ policy.statusCodes = [] := by
      simp only [eq_nil_iff_forall_not_mem, mem_sortedCodes]
    unfold SubFilter.selects
    rw [parseStatusCodes_joined fun code hcode => hcodes code (mem_sortedCodes.mp hcode),
      Bool.and_eq_true]
    dsimp only
    refine and_congr ?_ ?_
    · by_cases hempty : sortedCodes policy.statusCodes = []
      · rw [if_pos hempty]
        simp [hnil.mp hempty]
      · rw [if_neg hempty]
        simp [mem_sortedCodes, mt hnil.mpr hempty]
    · by_cases hblank : trim policy.path = ""
      · simp [hblank]
      · simp [hblank]

theorem tryFrom_iff {conf : SubFilterConf} {filters : List SubFilterParams} {p : SubFilter}
    (hfilters : conf.filters.mapM (parseFilter c) = .ok filters) :
    SubFilter.tryFrom c conf = .ok p ↔ (conf.path = "" ∨ c.error conf.path = none) ∧
      p = ⟨if conf.path = "" then none else some conf.path, parseStatusCodes conf.statusCodes,
        filters⟩ := by
  unfold SubFilter.tryFrom
  rw [hfilters]
  cases hpath : compilePath c conf.path with
  | error _ =>
    have hnot : ¬ (conf.path = "" ∨ c.error conf.path = none) := by
      intro h
      rw [compilePath_iff.mpr ⟨h, rfl⟩] at hpath
      cases hpath
    simp [bind, Except.bind, hnot]
  | ok _ =>
    obtain ⟨h, rfl⟩ := compilePath_iff.mp hpath
    simp only [bind, Except.bind, pure, Except.pure, Except.ok.injEq, h, true_and]
    exact eq_comm

theorem siteResponseReplacePlugin_eq (siteId : String) (hrules : policy.rules ≠ []) :
    siteResponseReplacePlugin siteId (some policy) =
      [(siteId ++ "_sub_filter",
        ⟨trim policy.path, ",".intercalate ((sortedCodes policy.statusCodes).map toString),
          policy.rules.map directive⟩)] := by
  unfold siteResponseReplacePlugin
  rw [Option.filter_some_pos (by simpa using hrules)]

theorem siteResponseReplacePlugin_nil (siteId : String) (hrules : policy.rules = []) :
    siteResponseReplacePlugin siteId (some policy) = [] := by
  unfold siteResponseReplacePlugin
  rw [Option.filter_some_neg (by simp [hrules])]

/-- Every rule of an accepted policy is read back from its line. The plugin that is generated is
built and applies the rules exactly when the path that it is sent, without the blanks around it,
still compiles. -/
theorem replacement_survives_iff (c : Replacing) (hbytes : c.BuildsTexts)
    (policy : ResponseReplaceConfig) (hvalid : validateResponseReplace c policy = .ok ())
    (siteId : String) :
    (∀ rule ∈ policy.rules, parseSubsFilter c rule.directive = some rule.params) ∧
      ((∀ name conf, (name, conf) ∈ siteResponseReplacePlugin siteId (some policy) →
          ∃ p, SubFilter.tryFrom c conf = .ok p ∧ AppliesRules c policy p) ↔
        policy.rules = [] ∨ trim policy.path = "" ∨ c.error (trim policy.path) = none) := by
  have hpolicy := acceptedPolicy_iff.mp hvalid
  have haccepted := acceptedRules_of_ok hpolicy.rules
  refine ⟨fun rule hrule => parse_directive hbytes (haccepted rule hrule), ?_⟩
  by_cases hrules : policy.rules = []
  · rw [siteResponseReplacePlugin_nil siteId hrules]
    exact iff_of_true (fun _ _ h => absurd h not_mem_nil) (.inl hrules)
  · rw [siteResponseReplacePlugin_eq siteId hrules]
    constructor
    · intro h
      obtain ⟨p, hp, -⟩ := h _ _ mem_cons_self
      exact .inr ((tryFrom_iff (parseFilters hbytes haccepted)).mp hp).1
    · intro hpath name conf hmem
      obtain ⟨rfl, rfl⟩ := Prod.mk.inj (mem_singleton.mp hmem)
      refine ⟨_, (tryFrom_iff (parseFilters hbytes haccepted)).mpr
        ⟨hpath.resolve_left hrules, rfl⟩, appliesRules_built fun code hcode => ?_⟩
      exact (hpolicy.codes code hcode).2.trans_lt (by decide)

/-! ## A policy with a path -/

/-- Of all patterns, one that starts with a repetition does not compile. -/
def plainReplacing : Replacing where
  error pattern :=
    if hasPrefix pattern "+" then some "repetition operator missing expression" else none
  isMatch _ _ := true
  builds regex := !hasPrefix regex.source "+"
  regexReplace _ data _ := data
  regexReplaceAll _ data _ := data
  replacen _ _ _ data := data
  replace _ _ data := data

theorem plainReplacing_buildsTexts : plainReplacing.BuildsTexts := by
  intro pattern h
  unfold plainReplacing at h ⊢
  dsimp only at h ⊢
  split at h
  · cases h
  · next hplain => simpa using hplain

def brandPolicy (path : String) : ResponseReplaceConfig where
  path := path
  statusCodes := []
  rules := [⟨"sub_filter", "subs_filter g", false⟩, ⟨"v\\d+", "v2", true⟩]

theorem brand_is_replaced :
    validateResponseReplace plainReplacing (brandPolicy " /docs ") = .ok () ∧
      ∀ name conf, (name, conf) ∈ siteResponseReplacePlugin "s1" (some (brandPolicy " /docs ")) →
        ∃ p, SubFilter.tryFrom plainReplacing conf = .ok p ∧
          AppliesRules plainReplacing (brandPolicy " /docs ") p :=
  ⟨by decide +kernel,
    (replacement_survives_iff plainReplacing plainReplacing_buildsTexts (brandPolicy " /docs ")
      (by decide +kernel) "s1").2.mpr (.inr (.inr (by decide +kernel)))⟩

/-- A path whose first character is a blank that is repeated. -/
theorem repeated_blank_breaks_site :
    validateResponseReplace plainReplacing (brandPolicy " +") = .ok () ∧
      (siteResponseReplacePlugin "s1" (some (brandPolicy " +"))).map
          (fun entry => SubFilter.tryFrom plainReplacing entry.2) =
        [.error ⟨"sub_filter", "repetition operator missing expression"⟩] :=
  ⟨by decide +kernel, by decide +kernel⟩

end PingWaf.Server
