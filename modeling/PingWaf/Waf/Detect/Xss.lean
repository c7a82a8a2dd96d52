import PingWaf.Waf.Detect.Patterns

/-!
# The cross-site scripting detector

`detectXss` looks for tags, event handlers and script URIs by eight expressions on the lower-cased
text, behind a prefilter like that of the SQL detector.
-/

namespace PingWaf.Waf

open Text

section

open Regex Pattern

/-- `(?i)<\s*/?\s*script\b` -/
def xssScriptTag : Regex :=
  seq [word "<", spaces, opt (word "/"), spaces, word "script", boundary]

/-- `(?i)(?:\s|\+)on[a-z]+\s*=` -/
def xssEventHandler : Regex :=
  seq [alt space (word "+"), word "on", plus (.set isFoldedLetter), spaces, word "="]

/-- `(?i)\b(?:javascript|vbscript|livescript|mocha)\s*:` -/
def xssJsUri : Regex :=
  seq [boundary, words "javascript" ["vbscript", "livescript", "mocha"], spaces, word ":"]

/-- `(?i)<\s*(?:iframe|object|...|portal)\b` -/
def xssDangerousTag : Regex :=
  seq [word "<", spaces,
    words "iframe" ["object", "embed", "svg", "math", "form", "input", "body", "frame", "frameset",
      "applet", "meta", "link", "base", "style", "marquee", "details", "audio", "video", "template",
      "portal"],
    boundary]

/-- `(?i)data\s*:\s*(?:text/html|application/xhtml|text/javascript|application/javascript)` -/
def xssDataUri : Regex :=
  seq [word "data", spaces, word ":", spaces,
    words "text/html" ["application/xhtml", "text/javascript", "application/javascript"]]

/-- `(?i)expression\s*\(|url\s*\(\s*['"]?\s*javascript` -/
def xssStyleExpr : Regex :=
  alt (seq [word "expression", spaces, word "("])
    (seq [word "url", spaces, word "(", spaces, opt (chars "'\""), spaces, word "javascript"])

/-- `(?i)<\s*/\s*(?:style|title|textarea|noscript|comment)\b` -/
def xssHtmlCommentBreak : Regex :=
  seq [word "<", spaces, word "/", spaces,
    words "style" ["title", "textarea", "noscript", "comment"], boundary]

/-- `(?i)constructor\s*(?:\.\s*prototype|\.\s*constructor|\[\s*['"]constructor|\[\s*['"]prototype)` -/
def xssDomChain : Regex :=
  seq [word "constructor", spaces,
    oneOf (seq [word ".", spaces, word "prototype"])
      [seq [word ".", spaces, word "constructor"],
       seq [word "[", spaces, chars "'\"", word "constructor"],
       seq [word "[", spaces, chars "'\"", word "prototype"]]]

variable (t : CharTables)

def xssChecks (lower : List Char) : List String :=
  checkIf (isMatch t.dialect xssScriptTag lower) "script-tag" ++
  checkIf (isMatch t.dialect xssEventHandler lower) "event-handler" ++
  checkIf (isMatch t.dialect xssJsUri lower) "js-uri" ++
  checkIf (isMatch t.dialect xssDangerousTag lower) "dangerous-tag" ++
  checkIf (isMatch t.dialect xssDataUri lower) "data-uri" ++
  checkIf (isMatch t.dialect xssStyleExpr lower) "style-expr" ++
  checkIf (isMatch t.dialect xssHtmlCommentBreak lower) "html-context-break" ++
  checkIf (isMatch t.dialect xssDomChain lower) "dom-chain"

/-- `XSS_PREFILTER_NEEDLES` -/
def xssPrefilterNeedles : List String :=
  ["<", "on", "javascript", "vbscript", "livescript", "mocha", "data", "expression", "url",
   "constructor"]

def xssReport (hits : List String) : Bool × String :=
  if hits = [] then (false, "") else (true, "xss|" ++ ",".intercalate hits)

def detectXss (input : String) : Bool × String :=
  if byteLen input < 3 then (false, "")
  else if isAscii input && !prefilterHits xssPrefilterNeedles input then (false, "")
  else xssReport (xssChecks t (toAsciiLowercase input).toList)

end

end PingWaf.Waf
