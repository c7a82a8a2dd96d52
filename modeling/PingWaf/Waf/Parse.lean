import PingWaf.Waf.Expression

/-!
# The expression parser

Tokens, and the recursive descent from tokens to a syntax tree. Nesting is bounded, so the descent
recurses on the levels that are left; the loops of the binary operators consume a token per turn.
-/

namespace PingWaf.Waf

open Text Net

/-! ## Tokens -/

inductive Token where
  | ident (s : String)
  | str (s : String)
  | num (n : Int)
  | lParen | rParen | lBracket | rBracket | lBrace | rBrace
  | eof
  deriving DecidableEq

inductive ParseError where
  | tooLong (length : Nat)
  | tooManyTokens (count : Nat)
  | tooDeep
  | unterminatedString
  | invalidNumber (text : String)
  | unexpectedCharacter (c : Char)
  | expectedIdentifier (got : Token)
  | unexpectedToken (got : Token)
  | expectedRParen
  | expectedHeaderName (got : Token)
  | expectedRBracket
  | expectedOperator (got : Token)
  | expectedNegatedOperator (got : Token)
  | unsupportedNegatedOperator (word : String)
  | unknownOperator (word : String)
  | unterminatedSet
  | unexpectedInSet (got : Token)
  | expectedValue (got : Token)
  | patternNotString
  | invalidPattern (pattern : String)
  | invalidCidr (text : String)
  | trailingTokens
  deriving DecidableEq

def maxExpressionLen : Nat := 16 * 1024

def maxExpressionTokens : Nat := 512

def maxExpressionDepth : Nat := 64

/-- The rest of a string literal, and what follows its closing quote. An unknown escape stays as it
is written. -/
def scanString (quote : Char) : List Char → List Char → Except ParseError (String × List Char)
  | _, [] => .error .unterminatedString
  | buf, '\\' :: esc :: rest =>
    match esc with
    | 'n' => scanString quote ('\n' :: buf) rest
    | 't' => scanString quote ('\t' :: buf) rest
    | 'r' => scanString quote ('\r' :: buf) rest
    | '\\' => scanString quote ('\\' :: buf) rest
    | '"' => scanString quote ('"' :: buf) rest
    | '\'' => scanString quote ('\'' :: buf) rest
    | esc => scanString quote (esc :: '\\' :: buf) rest
  | buf, c :: rest =>
    if c = quote then .ok (String.ofList buf.reverse, rest) else scanString quote (c :: buf) rest

def isWordChar (c : Char) : Bool :=
  isAsciiAlphanumeric c || c == '_' || c == '.' || c == '/' || c == ':'

def nextToken (c : Char) (rest : List Char) : Except ParseError (Option Token × List Char) :=
  if c == ' ' || c == '\t' || c == '\n' || c == '\r' then .ok (none, rest)
  else if c = '(' then .ok (some .lParen, rest)
  else if c = ')' then .ok (some .rParen, rest)
  else if c = '[' then .ok (some .lBracket, rest)
  else if c = ']' then .ok (some .rBracket, rest)
  else if c = '\x7b' then .ok (some .lBrace, rest)
  else if c = '\x7d' then .ok (some .rBrace, rest)
  else if c == '"' || c == '\'' then
    (scanString c [] rest).map fun p => (some (.str p.1), p.2)
  else if c == '-' && (rest.head?.any isAsciiDigit) then
    let text := String.ofList (c :: rest.takeWhile isAsciiDigit)
    match parseI64 text with
    | some n => .ok (some (.num n), rest.dropWhile isAsciiDigit)
    | none => .error (.invalidNumber text)
  else if isAsciiAlphanumeric c || c == '_' then
    let word := String.ofList (c :: rest.takeWhile isWordChar)
    match parseI64 word with
    | some n => .ok (some (.num n), rest.dropWhile isWordChar)
    | none => .ok (some (.ident word), rest.dropWhile isWordChar)
  else .error (.unexpectedCharacter c)

/-- Every turn consumes a character, so as many turns as there are characters are enough. -/
def tokenizeLoop : Nat → List Char → Except ParseError (List Token)
  | _, [] => .ok [.eof]
  | 0, _ :: _ => .ok [.eof]
  | n + 1, c :: rest => do
    let (token, rest) ← nextToken c rest
    let tokens ← tokenizeLoop n rest
    pure (token.toList ++ tokens)

def tokenize (input : String) : Except ParseError (List Token) :=
  tokenizeLoop input.toList.length input.toList

/-! ## Values -/

section

variable (c : Crates) (compiles : String → Bool)

def parseCidr (s : String) : Except ParseError IpNet :=
  match c.ipNetFromStr s with
  | some net => .ok net
  | none =>
    match IpAddr.fromStr s with
    | some addr => .ok (.ofAddr addr)
    | none => .error (.invalidCidr s)

def Operator.takesCidr : Operator → Bool
  | .eq | .ne | .in_ | .notIn => true
  | _ => false

def Operator.takesPattern : Operator → Bool
  | .matches_ | .notMatches => true
  | _ => false

/-- `finish_scalar`: a pattern is compiled, an address becomes a network. -/
def finishScalar (kind : FieldKind) (op : Operator) (v : Value) : Except ParseError Value :=
  if op.takesPattern then
    match v with
    | .str pattern => if compiles pattern then .ok (.regex pattern) else .error (.invalidPattern pattern)
    | _ => .error .patternNotString
  else if kind = .ipSrc ∧ op.takesCidr then
    match v with
    | .str s => (parseCidr c s).map fun net => .cidrSet [net]
    | v => .ok v
  else .ok v

inductive SetItem where
  | str (s : String)
  | num (n : Int)

def SetItem.text : SetItem → String
  | .str s => s
  | .num n => toString n

def parseSetItems : List Token → Except ParseError (List SetItem × List Token)
  | [] | .eof :: _ => .error .unterminatedSet
  | .rBrace :: rest => .ok ([], rest)
  | .str s :: rest | .ident s :: rest =>
    (parseSetItems rest).map fun p => (.str s :: p.1, p.2)
  | .num n :: rest => (parseSetItems rest).map fun p => (.num n :: p.1, p.2)
  | token :: _ => .error (.unexpectedInSet token)

/-- A set of networks for the client address, where numbers are passed over; else of texts. -/
def finishSet (kind : FieldKind) (op : Operator) (items : List SetItem) : Except ParseError Value :=
  if kind = .ipSrc ∧ op.takesCidr then
    (items.filterMap fun
      | .str s => some s
      | .num _ => none).mapM (parseCidr c) |>.map .cidrSet
  else .ok (.set (items.map SetItem.text))

def bareWord (s : String) : Value :=
  if toAsciiLowercase s = "true" then .bool true
  else if toAsciiLowercase s = "false" then .bool false
  else .str s

/-- `parse_value`, with the tokens left. -/
def parseValue (kind : FieldKind) (op : Operator) :
    List Token → Except ParseError (Value × List Token)
  | .str s :: rest => (finishScalar c compiles kind op (.str s)).map (·, rest)
  | .num n :: rest => (finishScalar c compiles kind op (.num n)).map (·, rest)
  | .ident s :: rest => (finishScalar c compiles kind op (bareWord s)).map (·, rest)
  | .lBrace :: rest =>
    (parseSetItems rest).bind fun p => (finishSet c kind op p.1).map (·, p.2)
  | token :: _ => .error (.expectedValue token)
  | [] => .error (.expectedValue .eof)

end

/-! ## Comparisons -/

def FieldKind.fromPath (path : String) : FieldKind :=
  match toAsciiLowercase path with
  | "http.request.uri.path" | "request.path" | "uri.path" => .requestPath
  | "http.request.uri.full" | "http.request.uri" | "request.uri" => .requestUriFull
  | "http.request.uri.query" | "request.query" | "http.request.uri.args" => .requestQuery
  | "http.request.method" | "request.method" => .requestMethod
  | "http.request.headers" | "http.request.header" => .requestHeader
  | "http.request.cookies" | "http.request.cookie" => .requestCookie
  | "http.request.body" | "request.body" => .requestBody
  | "http.host" | "host" => .host
  | "ip.src" | "client.ip" => .ipSrc
  | "ip.src.country" | "geo.country" => .ipSrcCountry
  | "cf.waf.score" | "waf.score" => .wafScore
  | "cf.waf.score.sqli" | "waf.score.sqli" => .wafScoreSqli
  | "cf.waf.score.xss" | "waf.score.xss" => .wafScoreXss
  | "cf.waf.score.rce" | "waf.score.rce" => .wafScoreRce
  | "ssl" | "https" => .ssl
  | "user_agent" | "http.user_agent" | "http.useragent" => .userAgent
  | other => .unknown other

def Field.fromPath (path : String) : Field :=
  match FieldKind.fromPath path with
  | .unknown "http.referer" => ⟨.requestHeader, some "referer"⟩
  | .unknown "http.cookie" => ⟨.requestHeader, some "cookie"⟩
  | kind => ⟨kind, none⟩

def parseIndex (field : Field) : List Token → Except ParseError (Field × List Token)
  | .lBracket :: .str s :: .rBracket :: rest => .ok ({ field with index := some s }, rest)
  | .lBracket :: .str _ :: _ => .error .expectedRBracket
  | .lBracket :: token :: _ => .error (.expectedHeaderName token)
  | [.lBracket] => .error (.expectedHeaderName .eof)
  | toks => .ok (field, toks)

def Operator.fromWord : String → Option Operator
  | "eq" | "=" | "==" => some .eq
  | "ne" | "neq" | "!=" => some .ne
  | "contains" => some .contains
  | "not_contains" => some .notContains
  | "matches" => some .matches_
  | "in" => some .in_
  | "starts_with" | "startswith" => some .startsWith
  | "ends_with" | "endswith" => some .endsWith
  | "lt" | "<" => some .lt
  | "gt" | ">" => some .gt
  | "le" | "<=" => some .le
  | "ge" | ">=" => some .ge
  | _ => none

/-- The operator of two words whose first is `not`. -/
def Operator.fromNegatedWord : String → Option Operator
  | "contains" => some .notContains
  | "in" => some .notIn
  | "matches" => some .notMatches
  | _ => none

def parseNegatedOperator : List Token → Except ParseError (Operator × List Token)
  | .ident s :: rest =>
    match Operator.fromNegatedWord (toAsciiLowercase s) with
    | some op => .ok (op, rest)
    | none => .error (.unsupportedNegatedOperator (toAsciiLowercase s))
  | token :: _ => .error (.expectedNegatedOperator token)
  | [] => .error (.expectedNegatedOperator .eof)

def parseOperator : List Token → Except ParseError (Operator × List Token)
  | .ident s :: rest =>
    if toAsciiLowercase s = "not" then parseNegatedOperator rest
    else match Operator.fromWord (toAsciiLowercase s) with
      | some op => .ok (op, rest)
      | none => .error (.unknownOperator (toAsciiLowercase s))
  | token :: _ => .error (.expectedOperator token)
  | [] => .error (.expectedOperator .eof)

section

variable (c : Crates) (compiles : String → Bool)

def parseComparison (path : String) (toks : List Token) :
    Except ParseError (Expression × List Token) := do
  let (field, toks) ← parseIndex (.fromPath path) toks
  let (op, toks) ← parseOperator toks
  let (value, toks) ← parseValue c compiles field.kind op toks
  pure (.field field op value, toks)

/-! ## Clauses -/

def parseChain (word : String) (join : Expression → Expression → Expression)
    (operand : List Token → Except ParseError (Expression × List Token)) :
    Nat → Expression → List Token → Except ParseError (Expression × List Token)
  | n + 1, lhs, .ident s :: toks =>
    if eqIgnoreAsciiCase s word then do
      let (rhs, toks) ← operand toks
      parseChain word join operand n (join lhs rhs) toks
    else .ok (lhs, .ident s :: toks)
  | _, lhs, toks => .ok (lhs, toks)

def parseBinary (word : String) (join : Expression → Expression → Expression)
    (operand : List Token → Except ParseError (Expression × List Token)) (toks : List Token) :
    Except ParseError (Expression × List Token) := do
  let (lhs, rest) ← operand toks
  parseChain word join operand rest.length lhs rest

/-- `parse_or` over a given `parse_unary`. -/
def parseOr (unary : List Token → Except ParseError (Expression × List Token)) :
    List Token → Except ParseError (Expression × List Token) :=
  parseBinary "or" .or (parseBinary "and" .and unary)

def expectRParen (p : Expression × List Token) : Except ParseError (Expression × List Token) :=
  match p.2 with
  | .rParen :: rest => .ok (p.1, rest)
  | _ => .error .expectedRParen

/-- `parse_unary` with `parse_primary`, given the parser of the next level. -/
def parseClause (deeper : List Token → Except ParseError (Expression × List Token)) :
    List Token → Except ParseError (Expression × List Token)
  | .ident s :: rest =>
    if eqIgnoreAsciiCase s "not" then (deeper rest).map fun p => (.not p.1, p.2)
    else parseComparison c compiles s rest
  | .lParen :: rest => (parseOr deeper rest).bind expectRParen
  | token :: _ => .error (.unexpectedToken token)
  | [] => .error (.unexpectedToken .eof)

/-- `parse_unary` with so many levels left. -/
def parseUnary : Nat → List Token → Except ParseError (Expression × List Token)
  | 0 => parseClause c compiles fun _ => .error .tooDeep
  | left + 1 => parseClause c compiles (parseUnary left)

def parseExpression (input : String) : Except ParseError Expression := do
  if byteLen input > maxExpressionLen then throw (.tooLong (byteLen input))
  let toks ← tokenize input
  if toks.length > maxExpressionTokens then throw (.tooManyTokens toks.length)
  let (e, rest) ← parseOr (parseUnary c compiles maxExpressionDepth) toks
  if rest.headD .eof ≠ .eof then throw .trailingTokens
  pure e

/-! ## The cache of parsed expressions -/

/-- `expression_cache`, by the text of the expression. -/
abbrev ExpressionCache := AList fun _ : String => Expression

def maxCachedExpressions : Nat := 512

def ExpressionCache.store (cache : ExpressionCache) (input : String) (e : Expression) :
    ExpressionCache :=
  (if maxCachedExpressions ≤ cache.entries.length then ∅ else cache).insert input e

/-- `parse_expression`: the length is checked before the cache is asked, a tree that was parsed is
kept. -/
def parseExpressionCached (cache : ExpressionCache) (input : String) :
    Except ParseError Expression × ExpressionCache :=
  if byteLen input > maxExpressionLen then (.error (.tooLong (byteLen input)), cache)
  else match cache.lookup input with
    | some e => (.ok e, cache)
    | none =>
      match parseExpression c compiles input with
      | .ok e => (.ok e, cache.store input e)
      | .error err => (.error err, cache)

def cacheAfter (inputs : List String) : ExpressionCache :=
  inputs.foldl (fun cache input => (parseExpressionCached c compiles cache input).2) ∅

end

end PingWaf.Waf
