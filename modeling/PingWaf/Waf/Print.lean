import PingWaf.Waf.Parse

/-!
# Printed expressions

The trees that the grammar of rule expressions describes (`Clause`), the text of one with all its
parentheses (`Clause.print`), and the expression it stands for (`Clause.ast`). Between the two
stands the `Phrase`: a tree that says where parentheses are written.
-/

namespace PingWaf.Waf

open Text Net

/-! ## Words and literals -/

def isIdentifier (word : String) : Bool :=
  (word.toList.head?.any fun ch => isAsciiAlphanumeric ch || ch == '_') &&
    word.toList.all isWordChar && (parseI64 word).isNone

/-- `IDENT` in the grammar. -/
structure Identifier where
  text : String
  isIdentifier : isIdentifier text = true

/-- `STRING|NUMBER`, an element of a set. -/
inductive Element where
  | str (s : String)
  | num (n : Int64)

def Element.token : Element → Token
  | .str s => .str s
  | .num n => .num n.toInt

def Element.item : Element → SetItem
  | .str s => .str s
  | .num n => .num n.toInt

/-- `value` in the grammar. -/
inductive Literal where
  | str (s : String)
  | num (n : Int64)
  | bool (b : Bool)
  | set (elements : List Element)

def Literal.tokens : Literal → List Token
  | .str s => [.str s]
  | .num n => [.num n.toInt]
  | .bool true => [.ident "true"]
  | .bool false => [.ident "false"]
  | .set elements => .lBrace :: (elements.map Element.token ++ [.rBrace])

/-- The words of `op` in the grammar. -/
def Operator.tokens : Operator → List Token
  | .eq => [.ident "eq"]
  | .ne => [.ident "ne"]
  | .contains => [.ident "contains"]
  | .notContains => [.ident "not", .ident "contains"]
  | .matches_ => [.ident "matches"]
  | .notMatches => [.ident "not", .ident "matches"]
  | .in_ => [.ident "in"]
  | .notIn => [.ident "not", .ident "in"]
  | .startsWith => [.ident "starts_with"]
  | .endsWith => [.ident "ends_with"]
  | .lt => [.ident "lt"]
  | .gt => [.ident "gt"]
  | .le => [.ident "le"]
  | .ge => [.ident "ge"]

/-- `comparison` in the grammar. -/
structure Comparison where
  path : Identifier
  index : Option String
  operator : Operator
  literal : Literal

def indexTokens : Option String → List Token
  | none => []
  | some s => [.lBracket, .str s, .rBracket]

def Comparison.tokens (cmp : Comparison) : List Token :=
  .ident cmp.path.text :: (indexTokens cmp.index ++ cmp.operator.tokens ++ cmp.literal.tokens)

/-- The field that is meant: a written index goes before the one a path is short for. -/
def Comparison.field (cmp : Comparison) : Field :=
  match cmp.index with
  | none => .fromPath cmp.path.text
  | some s => { Field.fromPath cmp.path.text with index := some s }

section

variable (c : Crates) (compiles : String → Bool)

/-- The value a literal stands for behind an operator: a pattern for `matches`, networks for the
client address. There is none where the pattern or the address is no such thing. -/
def Literal.value (kind : FieldKind) (op : Operator) : Literal → Except ParseError Value
  | .str s => finishScalar c compiles kind op (.str s)
  | .num n => finishScalar c compiles kind op (.num n.toInt)
  | .bool b => finishScalar c compiles kind op (.bool b)
  | .set elements => finishSet c kind op (elements.map Element.item)

def Comparison.ast (cmp : Comparison) : Except ParseError Expression :=
  (cmp.literal.value c compiles cmp.field.kind cmp.operator).map (.field cmp.field cmp.operator)

end

/-! ## Phrases -/

inductive Phrase where
  | comparison (cmp : Comparison)
  | paren (p : Phrase)
  | not (p : Phrase)
  | and (p q : Phrase)
  | or (p q : Phrase)

namespace Phrase

def tokens : Phrase → List Token
  | comparison cmp => cmp.tokens
  | paren p => .lParen :: (p.tokens ++ [.rParen])
  | not p => .ident "not" :: p.tokens
  | and p q => p.tokens ++ .ident "and" :: q.tokens
  | or p q => p.tokens ++ .ident "or" :: q.tokens

/-- The levels of the grammar: `unary`, `and_expr` and `or_expr`. -/
def level : Phrase → Nat
  | comparison _ | paren _ | not _ => 0
  | and _ _ => 1
  | or _ _ => 2

/-- The grammar derives the phrase with this structure: the operand of `not` and the right operand
of `and` are unary, no operand of `and` and no right operand of `or` is an open disjunction. -/
def Grouped : Phrase → Prop
  | comparison _ => True
  | paren p => p.Grouped
  | not p => p.Grouped ∧ p.level = 0
  | and p q => p.Grouped ∧ q.Grouped ∧ p.level ≤ 1 ∧ q.level = 0
  | or p q => p.Grouped ∧ q.Grouped ∧ q.level ≤ 1

/-- The nesting of parentheses and of `not`. -/
def depth : Phrase → Nat
  | comparison _ => 0
  | paren p | not p => p.depth + 1
  | and p q | or p q => max p.depth q.depth

def Unreserved : Phrase → Prop
  | comparison cmp => eqIgnoreAsciiCase cmp.path.text "not" = false
  | paren p | not p => p.Unreserved
  | and p q | or p q => p.Unreserved ∧ q.Unreserved

def ast (c : Crates) (compiles : String → Bool) : Phrase → Except ParseError Expression
  | comparison cmp => cmp.ast c compiles
  | paren p => p.ast c compiles
  | not p => (p.ast c compiles).map .not
  | and p q => do
    let a ← p.ast c compiles
    let b ← q.ast c compiles
    pure (.and a b)
  | or p q => do
    let a ← p.ast c compiles
    let b ← q.ast c compiles
    pure (.or a b)

end Phrase

/-! ## Text -/

def escapeChar (ch : Char) : List Char :=
  if ch = '\n' then ['\\', 'n']
  else if ch = '\t' then ['\\', 't']
  else if ch = '\r' then ['\\', 'r']
  else if ch = '\\' then ['\\', '\\']
  else if ch = '"' then ['\\', '"']
  else [ch]

def quoted (s : String) : List Char := '"' :: (s.toList.flatMap escapeChar ++ ['"'])

def Token.spelling : Token → List Char
  | .ident s => s.toList
  | .str s => quoted s
  | .num n => (toString n).toList
  | .lParen => ['(']
  | .rParen => [')']
  | .lBracket => ['[']
  | .rBracket => [']']
  | .lBrace => ['\x7b']
  | .rBrace => ['\x7d']
  | .eof => []

def spell (toks : List Token) : List Char := toks.flatMap fun tok => tok.spelling ++ [' ']

def Phrase.text (p : Phrase) : String := String.ofList (spell p.tokens)

/-- The text is within the bounds of `parse_expression`; the end counts as a token. -/
structure Phrase.Fits (p : Phrase) : Prop where
  length : byteLen p.text ≤ maxExpressionLen
  tokens : p.tokens.length + 1 ≤ maxExpressionTokens
  depth : p.depth ≤ maxExpressionDepth

/-! ## Clauses -/

inductive Clause where
  | comparison (cmp : Comparison)
  | not (t : Clause)
  | and (a b : Clause)
  | or (a b : Clause)

namespace Clause

def parenthesised : Clause → Phrase
  | comparison cmp => .comparison cmp
  | not t => .paren (.not t.parenthesised)
  | and a b => .paren (.and a.parenthesised b.parenthesised)
  | or a b => .paren (.or a.parenthesised b.parenthesised)

def print (t : Clause) : String := t.parenthesised.text

def ast (c : Crates) (compiles : String → Bool) : Clause → Except ParseError Expression
  | comparison cmp => cmp.ast c compiles
  | not t => (t.ast c compiles).map .not
  | and a b => do
    let l ← a.ast c compiles
    let r ← b.ast c compiles
    pure (.and l r)
  | or a b => do
    let l ← a.ast c compiles
    let r ← b.ast c compiles
    pure (.or l r)

/-- No field path is the word `not`. -/
def Unreserved : Clause → Prop
  | comparison cmp => eqIgnoreAsciiCase cmp.path.text "not" = false
  | not t => t.Unreserved
  | and a b | or a b => a.Unreserved ∧ b.Unreserved

end Clause

end PingWaf.Waf
