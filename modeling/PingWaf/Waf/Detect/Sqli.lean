import PingWaf.Lib.Resolve
import PingWaf.Waf.Detect.Patterns

/-!
# The SQL injection detector

`detectSqli` confirms structural SQL syntax by thirteen expressions, on the lower-cased text and, if
nothing fires, on the text without its inline comments. It reports a fingerprint: the tokens of the
text, then the names of the checks that fired, the weak ones included. A keyword prefilter skips ASCII
texts that cannot match.

The source walks byte indices. Here the tokenizer walks the list of characters with a count of those
that the last token has already covered; whatever is not ASCII is passed over in both.
-/

namespace PingWaf.Waf

open Text

/-! ## The token fingerprint -/

/-- `SQL_KEYWORDS` -/
def sqlKeywords : List String :=
  ["select", "union", "all", "distinct", "from", "where", "and", "or", "not", "in", "like",
   "between", "is", "null", "having", "group", "order", "by", "limit", "offset", "asc", "desc",
   "insert", "into", "values", "update", "set", "delete", "drop", "alter", "create", "truncate",
   "table", "database", "schema", "user", "version", "current_user", "session_user", "join",
   "inner", "left", "right", "outer", "on", "as", "case", "when", "then", "else", "end", "exists",
   "any", "some", "with", "recursive", "cast", "convert", "exec", "execute", "begin", "commit",
   "rollback", "savepoint", "grant", "revoke", "show", "describe", "true", "false"]

/-- `SQL_FUNCTIONS` -/
def sqlFunctions : List String :=
  ["sleep", "benchmark", "waitfor", "delay", "pg_sleep", "load_file", "outfile", "dumpfile",
   "extractvalue", "updatexml", "concat", "concat_ws", "group_concat", "char", "ascii", "ord",
   "hex", "unhex", "substring", "substr", "mid", "left", "right", "length", "count", "sum", "avg",
   "min", "max", "rand", "floor", "ceil", "round", "if", "ifnull", "nullif", "coalesce", "version",
   "user", "database", "schema", "current_user", "session_user", "system_user", "row_number",
   "rank", "dense_rank", "xp_cmdshell", "sp_executesql", "make_set", "elt", "find_in_set",
   "regexp", "rlike"]

inductive SqlTok where
  | keyword
  | function
  | operator
  | ident

def SqlTok.fpChar : SqlTok → Char
  | .keyword => 'k'
  | .function => 'f'
  | .operator => 't'
  | .ident => 'n'

def sqlWordTok (word : String) : SqlTok :=
  if sqlFunctions.contains word then .function
  else if word == "and" || word == "or" || word == "xor" then .operator
  else if sqlKeywords.contains word then .keyword
  else .ident

def quotedLen (quote : Char) : List Char → Nat
  | [] => 0
  | ['\\'] => 1
  | '\\' :: _ :: l => 2 + quotedLen quote l
  | [_] => 1
  | a :: b :: l =>
    if a = quote then if b = quote then 2 + quotedLen quote l else 1
    else 1 + quotedLen quote (b :: l)

def isSqlWordChar (ch : Char) : Bool := isAsciiAlphanumeric ch || ch == '_'

def isComparison (ch : Char) : Bool := ch == '=' || ch == '<' || ch == '>' || ch == '!'

def isNumberChar (ch : Char) : Bool :=
  isAsciiDigit ch || ch == '.' || ch == 'e' || ch == 'E' || ch == 'x' || ch == 'X'

/-- The token at a character, if it begins one, and how much of the rest it covers. -/
def sqlToken (a : Char) (l : List Char) : Option Char × Nat :=
  if a == ' ' || a == '\t' || a == '\n' || a == '\r' then (none, 0)
  else if a == '\'' || a == '"' || a == '\x60' then
    (some (if a == '\x60' then 'n' else 's'), quotedLen a l)
  else if (a == '-' && l.head? == some '-') || a == '#' then (some '-', l.length)
  else if a == '/' && l.head? == some '*' then
    (some '-', match splitOnceSub ['*', '/'] l.tail with
      | some p => 1 + p.1.length + 2
      | none => l.length)
  else if a == '(' || a == ')' || a == ',' || a == ';' then (some a, 0)
  else if isComparison a then (some 'o', (l.takeWhile isComparison).length)
  else if a == '+' || a == '-' || a == '*' || a == '/' || a == '%' then (some 'o', 0)
  else if (a == '|' && l.head? == some '|') || (a == '&' && l.head? == some '&') then (some 't', 1)
  else if a == '|' || a == '&' || a == '^' || a == '~' then (some 'o', 0)
  else if a == '@' then (some 'v', (l.takeWhile fun ch => isSqlWordChar ch || ch == '@').length)
  else if a == ':' && l.head?.any isAsciiAlpha then (some 'v', (l.takeWhile isSqlWordChar).length)
  else if isAsciiDigit a then (some '1', (l.takeWhile isNumberChar).length)
  else if isAsciiAlpha a || a == '_' then
    let rest := l.takeWhile isSqlWordChar
    (some (sqlWordTok (String.ofList (a :: rest))).fpChar, rest.length)
  else (none, 0)

def fingerprintGo : Nat → List Char → List Char
  | _, [] => []
  | n + 1, _ :: l => fingerprintGo n l
  | 0, a :: l => (sqlToken a l).1.toList ++ fingerprintGo (sqlToken a l).2 l

def fingerprintSql (lower : String) : String := String.ofList (fingerprintGo 0 lower.toList)

/-! ## Expressions -/

section

open Regex Pattern

/-- `(?i)\bunion\b[\s/*!]+(?:\ball\b[\s/*!]+)?\bselect\b` -/
def sqliUnionSelect : Regex :=
  let glue := plus (.set fun ch => isWhitespace ch || ch == '/' || ch == '*' || ch == '!')
  seq [wholeWord "union", glue, opt (cat (wholeWord "all") glue), wholeWord "select"]

/-- `(?i)\bunion(?:#|--)[\s\S]{0,64}?\bselect(?:[^a-z]|$)` -/
def sqliUnionCommentSplit : Regex :=
  seq [boundary, word "union", words "#" ["--"], upTo anyChar 64, boundary, word "select",
    alt (.set fun ch => !isFoldedLetter ch) endOfText]

/-- `(?i);\s*(?:select|insert|...|shutdown)\b` -/
def sqliStacked : Regex :=
  seq [word ";", spaces,
    words "select" ["insert", "update", "delete", "drop", "alter", "create", "truncate", "exec",
      "execute", "grant", "revoke", "declare", "begin", "shutdown"],
    boundary]

/-- `(?i)\b(?:sleep|benchmark|...|sp_executesql)\s*\(` -/
def sqliDangerousFn : Regex :=
  seq [boundary,
    words "sleep" ["benchmark", "pg_sleep", "waitfor", "load_file", "extractvalue", "updatexml",
      "xp_cmdshell", "sp_executesql"],
    spaces, word "("]

/-- `(?i)\bwaitfor\b` -/
def sqliWaitfor : Regex := wholeWord "waitfor"

def quoteChar : Regex := chars "'\"\x60"

/-- `(?:--\s|--$|#\s|#$|/\*[\s\S]*?\*/)` -/
def sqliCommentTerm : Regex :=
  oneOf (seq [word "--", space])
    [seq [word "--", endOfText], seq [word "#", space], seq [word "#", endOfText],
     seq [word "/*", star anyChar, word "*/"]]

/-- `(?i)['"][\s);]{0,4}\b(?:union|select|...|execute)\b` -/
def sqliQuoteKeyword : Regex :=
  seq [chars "'\"", upTo (.set fun ch => isWhitespace ch || ch == ')' || ch == ';') 4, boundary,
    words "union" ["select", "insert", "update", "delete", "drop", "alter", "create", "truncate",
      "exec", "execute"],
    boundary]

/-- `(?i)information_schema|\bsqlite_master\b|\bpg_catalog\b|\bsysobjects\b|\bsyscolumns\b` -/
def sqliInfoSchema : Regex :=
  oneOf (word "information_schema")
    [wholeWord "sqlite_master", wholeWord "pg_catalog", wholeWord "sysobjects",
     wholeWord "syscolumns"]

/-- `(?i)\binto\s+(?:out|dump)file\b` -/
def sqliIntoFile : Regex :=
  seq [boundary, word "into", spaces1, words "out" ["dump"], word "file", boundary]

/-- `(?i)\b(?:where|group\s+by|order\s+by|having|limit|offset|join)\b` -/
def sqliFullQueryClause : Regex :=
  seq [boundary,
    oneOf (word "where")
      [seq [word "group", spaces1, word "by"], seq [word "order", spaces1, word "by"],
       word "having", word "limit", word "offset", word "join"],
    boundary]

/-- `(?i)(?:\bor\b|\band\b|\|\|)\s*['"\x60]{1,2}\s*=\s*['"\x60]{0,2}\s*(?:--|#)?\s*$` -/
def sqliTruncatedTautology : Regex :=
  seq [oneOf (wholeWord "or") [wholeWord "and", word "||"], spaces, quoteChar, upTo quoteChar 1,
    spaces, word "=", spaces, upTo quoteChar 2, spaces, opt (words "--" ["#"]), spaces, endOfText]

variable (t : CharTables)

/-- `(?i)(?:\bor\b|\band\b|\|\||&&)\s*(?:Q[\w.\- ]{0,32}Q\s*=\s*Q[\w.\- ]{0,32}Q?|Q?\d+Q?\s*=\s*Q?\d+Q?|`
`\b1\s*<>\s*0\b|\b1\s*>\s*0\b)`, with `Q` for one of the three quotes. -/
def sqliTautology : Regex :=
  let inner := upTo (wordOr t ".- ") 32
  seq [oneOf (wholeWord "or") [wholeWord "and", word "||", word "&&"], spaces,
    oneOf
      (seq [quoteChar, inner, quoteChar, spaces, word "=", spaces, quoteChar, inner, opt quoteChar])
      [seq [opt quoteChar, digits1 t, opt quoteChar, spaces, word "=", spaces, opt quoteChar,
         digits1 t, opt quoteChar],
       seq [boundary, word "1", spaces, word "<>", spaces, word "0", boundary],
       seq [boundary, word "1", spaces, word ">", spaces, word "0", boundary]]]

/-- `(?i)\bselect\s+(?:\*|\w+\s*,\s*[\w.\'"()]+\s*(?:,\s*[\w.\'"()]+)*)\s+from\s+[\w."']` -/
def sqliBareSelect : Regex :=
  let column := plus (wordOr t ".'\"()")
  seq [boundary, word "select", spaces1,
    alt (word "*")
      (seq [plus (wordOr t ""), spaces, word ",", spaces, column, spaces,
        star (seq [word ",", spaces, column])]),
    spaces1, word "from", spaces1, wordOr t ".\"'"]

/-- `(?i)\bselect\s+case\s+when\b|(?:\bselect\b|\b(?:and|or)\b|\|\||;|['"\x60(])\s*case\s+when\b`
`[\s\S]{0,80}\bthen\b|\bto_char\s*\(\s*[\w'"]+\s*/\s*[\w'"]+\s*\)` -/
def sqliBlindProbe : Regex :=
  let operand := plus (wordOr t "'\"")
  oneOf (seq [boundary, word "select", spaces1, word "case", spaces1, word "when", boundary])
    [seq [oneOf (wholeWord "select")
        [seq [boundary, words "and" ["or"], boundary], word "||", word ";", chars "'\"\x60("],
       spaces, word "case", spaces1, word "when", boundary, upTo anyChar 80, wholeWord "then"],
     seq [boundary, word "to_char", spaces, word "(", spaces, operand, spaces, word "/", spaces,
       operand, spaces, word ")"]]

/-- `(?i)\b(?:and|or)\b\s*(?:\(\s*select\b|\d+\s*=\s*(?:\(\s*)?(?:cast\s*\(\s*\(?\s*)?select\b)`
`|\b\d+\s*=\s*\(\s*select\b` -/
def sqliBoolSubquery : Regex :=
  alt
    (seq [boundary, words "and" ["or"], boundary, spaces,
      alt (seq [word "(", spaces, word "select", boundary])
        (seq [digits1 t, spaces, word "=", spaces, opt (cat (word "(") spaces),
          opt (seq [word "cast", spaces, word "(", spaces, opt (word "("), spaces]), word "select",
          boundary])])
    (seq [boundary, digits1 t, spaces, word "=", spaces, word "(", spaces, word "select", boundary])

/-! ## The checks -/

def sqliStrongChecks (lower : List Char) : List String :=
  checkIf (isMatch t.dialect sqliUnionSelect lower) "union-select" ++
  checkIf (isMatch t.dialect sqliUnionCommentSplit lower) "union-comment-split" ++
  checkIf (isMatch t.dialect sqliStacked lower) "stacked-query" ++
  checkIf (isMatch t.dialect sqliDangerousFn lower) "dangerous-function" ++
  checkIf (isMatch t.dialect sqliWaitfor lower) "waitfor-statement" ++
  checkIf (isMatch t.dialect (sqliTautology t) lower) "tautology" ++
  checkIf (isMatch t.dialect sqliTruncatedTautology lower) "truncated-tautology" ++
  checkIf (isMatch t.dialect sqliQuoteKeyword lower) "quote-keyword" ++
  -- a complete query passed as a parameter is left alone
  checkIf (isMatch t.dialect (sqliBareSelect t) lower && !isMatch t.dialect sqliFullQueryClause lower)
    "bare-select" ++
  checkIf (isMatch t.dialect (sqliBlindProbe t) lower) "blind-probe" ++
  checkIf (isMatch t.dialect (sqliBoolSubquery t) lower) "bool-subquery" ++
  checkIf (isMatch t.dialect sqliInfoSchema lower) "info-schema" ++
  checkIf (isMatch t.dialect sqliIntoFile lower) "into-file"

/-- The inline comment `/\*[\s\S]*?\*/` at the head of the text, and what it is replaced by. -/
def inlineComment (l : List Char) : Option (Char × Nat) :=
  if ['/', '*'].isPrefixOf l then
    (splitOnceSub ['*', '/'] (l.drop 2)).map fun p => (' ', 2 + p.1.length + 2)
  else none

def stripComments (lower : List Char) : List Char := Resolve.go inlineComment id 0 lower

/-- The strong checks of a text; those of the text without comments if there are none. -/
def sqliStrong (lower : String) : List String :=
  let strong := sqliStrongChecks t lower.toList
  if strong = [] ∧ hasSub lower "/*" = true ∧ hasSub lower "*/" = true then
    let stripped := sqliStrongChecks t (stripComments lower.toList)
    if stripped = [] then [] else stripped ++ ["comment-stripped"]
  else strong

def sqliWeak (lower : String) : List String :=
  let fp := fingerprintSql lower
  checkIf (isMatch t.dialect sqliCommentTerm lower.toList) "comment-terminator" ++
  checkIf (hasPrefix fp "s" && hasSub fp "to") "string-tautology" ++
  checkIf (hasSub fp ";k") "stacked-shape" ++
  checkIf (hasSub fp "kf" && hasSub fp "(" && sqlFunctions.any (hasSub lower ·)) "fn-call-shape"

/-- `SQLI_PREFILTER_NEEDLES` -/
def sqliPrefilterNeedles : List String :=
  ["or", "and", "||", "&&", "union", "select", "insert", "update", "delete", "drop", "alter",
   "create", "truncate", "exec", "grant", "revoke", "declare", "begin", "shutdown", "sleep",
   "benchmark", "waitfor", "load_file", "extractvalue", "updatexml", "xp_cmdshell",
   "sp_executesql", "information_schema", "sqlite_master", "pg_catalog", "sysobjects",
   "syscolumns", "into", "case", "to_char"]

def sqliFingerprint (lower : String) : String :=
  let fp := fingerprintSql lower
  let all := sqliStrong t lower ++ sqliWeak t lower
  if all = [] then fp else fp ++ "|" ++ ",".intercalate all

def detectSqli (input : String) : Bool × String :=
  if byteLen input < 3 then (false, "")
  else if isAscii input && !prefilterHits sqliPrefilterNeedles input then (false, "")
  else
    let lower := toAsciiLowercase input
    (!(sqliStrong t lower).isEmpty, sqliFingerprint t lower)

end

end PingWaf.Waf
