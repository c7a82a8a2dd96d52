import PingWaf.Plugin.Site

/-!
# The `sub_filter` plugin

Rules that replace text in response bodies. A rule is one line,
`sub_filter|subs_filter 'pattern' 'replacement' [flags]`, read by an unanchored expression:
`(subs_filter|sub_filter)\s+'([^']+)'\s+'([^']+)'(?:\s+([ig]+))?`.
-/

namespace PingWaf.Plugin

open Text

/-! ## Foreign functions -/

structure BytesRegex where
  source : String
  caseInsensitive : Bool
  deriving DecidableEq

/-- The regular expressions of the `regex` crate, on texts and on octets, and the replacements on
octets that the plugin calls. -/
structure Replacing where
  /-- Why `Regex::new` refuses a pattern, if it does. -/
  error : String → Option String
  isMatch : String → String → Bool
  /-- `RegexBuilder::build`. -/
  builds : BytesRegex → Bool
  regexReplace : BytesRegex → List UInt8 → List UInt8 → List UInt8
  regexReplaceAll : BytesRegex → List UInt8 → List UInt8 → List UInt8
  replacen : List UInt8 → List UInt8 → Nat → List UInt8 → List UInt8
  replace : List UInt8 → List UInt8 → List UInt8 → List UInt8

def Replacing.BuildsTexts (c : Replacing) : Prop :=
  ∀ pattern, c.error pattern = none → c.builds ⟨pattern, false⟩ = true

/-! ## Reading a rule -/

def quote : Char := Char.ofNat 39

structure RuleCaptures where
  directive : String
  pattern : List Char
  replacement : List Char
  flags : Option (List Char)

/-- `(subs_filter|sub_filter)` -/
def takeDirective (l : List Char) : Option (String × List Char) :=
  if "subs_filter".toList.isPrefixOf l then some ("subs_filter", l.drop 11)
  else if "sub_filter".toList.isPrefixOf l then some ("sub_filter", l.drop 10)
  else none

/-- `\s+` -/
def takeBlanks : List Char → Option (List Char)
  | [] => none
  | c :: l => if isWhitespace c then some (l.dropWhile isWhitespace) else none

/-- `'([^']+)'` -/
def takeQuoted : List Char → Option (List Char × List Char)
  | [] => none
  | c :: l =>
    if c = quote then
      match l.takeWhile (· ≠ quote), l.dropWhile (· ≠ quote) with
      | d :: body, _ :: rest => some (d :: body, rest)
      | _, _ => none
    else none

/-- `(?:\s+([ig]+))?` -/
def takeFlags (l : List Char) : Option (List Char) :=
  (takeBlanks l).bind fun l =>
    match l.takeWhile fun c => c = 'i' || c = 'g' with
    | [] => none
    | flags => some flags

/-- The expression at the front of a text. No choice has to be taken back: the blanks end at a
quote or a flag, and what is quoted ends at a quote. -/
def matchRule (l : List Char) : Option RuleCaptures :=
  (takeDirective l).bind fun p =>
    (takeBlanks p.2).bind fun l =>
      (takeQuoted l).bind fun q =>
        (takeBlanks q.2).bind fun l =>
          (takeQuoted l).map fun r => ⟨p.1, q.1, r.1, takeFlags r.2⟩

def searchRule : List Char → Option RuleCaptures
  | [] => none
  | c :: l => (matchRule (c :: l)).or (searchRule l)

structure SubFilterParams where
  /-- For `subs_filter`. -/
  regexPattern : Option BytesRegex
  /-- For `sub_filter`. -/
  pattern : List UInt8
  replacement : List UInt8
  flags : List Char
  deriving DecidableEq

section

variable (c : Replacing)

def parseSubsFilter (rule : String) : Option SubFilterParams :=
  (searchRule rule.toList).bind fun captures =>
    let flags := captures.flags.getD []
    let replacement := utf8Encode (String.ofList captures.replacement)
    if captures.directive = "subs_filter" then
      let regex : BytesRegex := ⟨String.ofList captures.pattern, flags.contains 'i'⟩
      if c.builds regex then some ⟨some regex, [], replacement, flags⟩ else none
    else some ⟨none, utf8Encode (String.ofList captures.pattern), replacement, flags⟩

/-! ## The plugin -/

structure SubFilterConf where
  path : String
  statusCodes : String
  filters : List String

structure SubFilter where
  path : Option String
  statusCodes : Option (List Nat)
  filters : List SubFilterParams
  deriving DecidableEq

def subFilterInvalid {α : Type} (message : String) : Except InvalidPlugin α :=
  .error ⟨"sub_filter", message⟩

def parseFilter (rule : String) : Except InvalidPlugin SubFilterParams :=
  match parseSubsFilter c rule with
  | some params => .ok params
  | none => subFilterInvalid ("invalid subs filter: " ++ rule)

def parseU16 (s : String) : Option Nat := (parseU64 s).filter (· < 2 ^ 16)

def parseStatusCodes (value : String) : Option (List Nat) :=
  if value = "" then none
  else some ((splitChar ',' value).filterMap fun s => parseU16 (trim s))

def compilePath (path : String) : Except InvalidPlugin (Option String) :=
  if path = "" then .ok none
  else
    match c.error path with
    | some err => subFilterInvalid err
    | none => .ok (some path)

def SubFilter.tryFrom (conf : SubFilterConf) : Except InvalidPlugin SubFilter := do
  let path ← compilePath c conf.path
  let filters ← conf.filters.mapM (parseFilter c)
  return ⟨path, parseStatusCodes conf.statusCodes, filters⟩

/-- The response is one whose body is rewritten, as far as its status and its path say. -/
def SubFilter.selects (p : SubFilter) (status : Nat) (path : String) : Bool :=
  p.statusCodes.all (·.contains status) && p.path.all (c.isMatch · path)

def SubFilterParams.apply (item : SubFilterParams) (data : List UInt8) : List UInt8 :=
  match item.regexPattern with
  | some regex =>
    if item.flags.contains 'g' then c.regexReplaceAll regex data item.replacement
    else c.regexReplace regex data item.replacement
  | none =>
    if item.flags.contains 'g' then c.replace item.pattern item.replacement data
    else c.replacen item.pattern item.replacement 1 data

def SubFilter.applyFilters (p : SubFilter) (data : List UInt8) : List UInt8 :=
  p.filters.foldl (fun data item => item.apply c data) data

end

end PingWaf.Plugin
