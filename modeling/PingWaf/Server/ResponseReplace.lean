import PingWaf.Plugin.SubFilter

/-!
# Response replacement policies

A site's policy on its way from the API, which checks it and puts it in order, to the plugin that
the edge generates from it.
-/

namespace PingWaf.Server

open Text
open Plugin (Replacing SubFilterConf)

structure ResponseReplaceRule where
  pattern : String
  replacement : String
  isRegex : Bool

structure ResponseReplaceConfig where
  path : String
  statusCodes : List Nat
  rules : List ResponseReplaceRule

/-- `ApiError::BadRequest`. -/
structure BadRequest where
  message : String
  deriving DecidableEq

def badRequest {α : Type} (message : String) : Except BadRequest α := .error ⟨message⟩

/-! ## The API -/

def maxResponseReplacePatternLen : Nat := 512

def maxResponseReplaceReplacementLen : Nat := 2048

def maxResponseReplaceRules : Nat := 20

def forbiddenRuleChars : List Char := ['\n', '\r', '\t']

def forbiddenRuleChar (value : String) (allowBackslash : Bool) : Option Char :=
  value.toList.find? fun ch => forbiddenRuleChars.contains ch || (!allowBackslash && ch == '\\')

/-- The `Debug` form of the characters that can be forbidden. -/
def debugForbidden (ch : Char) : String :=
  let escape := if ch = '\n' then "n" else if ch = '\r' then "r" else if ch = '\t' then "t" else "\\"
  "'\\" ++ escape ++ "'"

section

variable (c : Replacing)

def validateOperand (number : Nat) (operand value : String) (allowBackslash : Bool) :
    Except BadRequest Unit :=
  match forbiddenRuleChar value allowBackslash with
  | some bad =>
    badRequest ("response_replace rule " ++ toString number ++ " " ++ operand ++
      " must not contain " ++ debugForbidden bad ++
      "; a rule is one single-line `sub_filter '<pattern>' '<replacement>' [flags]` entry, " ++
      "and only a regex pattern may carry a backslash (its regex escape)")
  | none => .ok ()

def validateResponseReplaceRule (number : Nat) (rule : ResponseReplaceRule) :
    Except BadRequest Unit := do
  if rule.pattern = "" || maxResponseReplacePatternLen < byteLen rule.pattern then
    badRequest ("response_replace rule " ++ toString number ++ " pattern must be 1-" ++
      toString maxResponseReplacePatternLen ++ " bytes")
  if rule.replacement = "" || maxResponseReplaceReplacementLen < byteLen rule.replacement then
    badRequest ("response_replace rule " ++ toString number ++ " replacement must be 1-" ++
      toString maxResponseReplaceReplacementLen ++ " bytes")
  if rule.pattern.toList.contains Plugin.quote || rule.replacement.toList.contains Plugin.quote then
    badRequest ("response_replace rule " ++ toString number ++
      " must not contain a single quote; the data plane's rule syntax uses ' to delimit the " ++
      "pattern and the replacement")
  validateOperand number "pattern" rule.pattern rule.isRegex
  validateOperand number "replacement" rule.replacement false
  if rule.isRegex then
    match c.error rule.pattern with
    | some err =>
      badRequest ("response_replace rule " ++ toString number ++
        " pattern is not a valid regex: " ++ err)
    | none => .ok ()

def validateRules (number : Nat) : List ResponseReplaceRule → Except BadRequest Unit
  | [] => .ok ()
  | rule :: rules => do
    validateResponseReplaceRule c number rule
    validateRules (number + 1) rules

def validatePath (path : String) : Except BadRequest Unit :=
  if trim path = "" then .ok ()
  else
    match c.error path with
    | some err => badRequest ("response_replace path is not a valid regex: " ++ err)
    | none => .ok ()

def validateStatusCode (code : Nat) : Except BadRequest Unit :=
  if 100 ≤ code ∧ code ≤ 599 then .ok ()
  else badRequest ("response_replace status code " ++ toString code ++ " must be between 100 and 599")

def validateResponseReplace (policy : ResponseReplaceConfig) : Except BadRequest Unit := do
  validatePath c policy.path
  policy.statusCodes.forM validateStatusCode
  if maxResponseReplaceRules < policy.rules.length then
    badRequest ("response_replace accepts at most " ++ toString maxResponseReplaceRules ++ " rules")
  validateRules c 1 policy.rules

/-- `sort_unstable` and `dedup`. -/
def sortedCodes (codes : List Nat) : List Nat := (codes.mergeSort (· ≤ ·)).dedup

end

/-! ## The edge -/

def ResponseReplaceRule.directive (rule : ResponseReplaceRule) : String :=
  (if rule.isRegex then "subs_filter" else "sub_filter") ++ " " ++ String.singleton Plugin.quote ++
    rule.pattern ++ String.singleton Plugin.quote ++ " " ++ String.singleton Plugin.quote ++
    rule.replacement ++ String.singleton Plugin.quote ++ " g"

def siteResponseReplacePlugin (siteId : String) (policy : Option ResponseReplaceConfig) :
    List (String × SubFilterConf) :=
  match policy.filter fun policy => !policy.rules.isEmpty with
  | none => []
  | some policy =>
    [(siteId ++ "_sub_filter",
      { path := trim policy.path
        statusCodes := ",".intercalate ((sortedCodes policy.statusCodes).map toString)
        filters := policy.rules.map ResponseReplaceRule.directive })]

end PingWaf.Server
