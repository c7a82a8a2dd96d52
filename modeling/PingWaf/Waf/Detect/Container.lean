import PingWaf.Lib.Text

/-!
# Expression and template containers

The structural detector of expression-language and template injection. A container counts when its
content has the shape of something that is evaluated: a nested container, a call, an operator, a deep
accessor chain or a `new` expression.

The source walks byte indices. Here the scan walks the list of characters with a count of those that
the last container has already covered.
-/

namespace PingWaf.Waf

open Text

structure Container where
  opener : String
  closer : String
  kind : String
  opens : opener.toList ≠ []
  deriving DecidableEq

/-- `CONTAINERS` -/
def containers : List Container :=
  [⟨"$\x7b", "\x7d", "el", by decide⟩,
   ⟨"\x7b\x7b", "\x7d\x7d", "template", by decide⟩,
   ⟨"\x7b%", "%\x7d", "template-stmt", by decide⟩,
   ⟨"<%=", "%>", "jsp", by decide⟩]

/-! ## The content -/

def isPrintableAscii (ch : Char) : Bool := 0x20 ≤ ch.toNat && ch.toNat ≤ 0x7E

def hasCall : List Char → Bool
  | a :: b :: l => (b == '(' && (isAsciiAlphanumeric a || a == '_')) || hasCall (b :: l)
  | _ => false

def isExprOperator (ch : Char) : Bool :=
  ch == '+' || ch == '*' || ch == '%' || ch == '|' || ch == '^' || ch == '<' || ch == '>'
    || ch == '=' || ch == '!'

def splitWhitespace (l : List Char) : List (List Char) := (l.splitOnP isWhitespace).filter (· ≠ [])

def isStructuralExpr (inner : List Char) : Bool :=
  if !inner.all isPrintableAscii then false
  else if hasSubList "$\x7b".toList inner || hasSubList "\x7b\x7b".toList inner
      || hasSubList "\x7b%".toList inner then true
  else if hasCall inner then true
  else if inner.any isExprOperator then true
  else if 3 ≤ ((inner.splitOn '.').filter (· ≠ [])).length then true
  else (splitWhitespace inner).any (· == "new".toList)

def isExprPayload (inner : List Char) : Bool :=
  !inner.isEmpty && byteLen (String.ofList inner) ≤ 256 && isStructuralExpr inner

/-! ## The scan -/

/-- A container of the kind counts, as far as the scan sees. Its content ends at the next closer; the
scan goes on at that closer, and stops at an opener without one. -/
def containerGo (k : Container) : Nat → List Char → Bool
  | _, [] => false
  | n + 1, _ :: l => containerGo k n l
  | 0, a :: l =>
    if k.opener.toList.isPrefixOf (a :: l) then
      match splitOnceSub k.closer.toList ((a :: l).drop k.opener.toList.length) with
      | none => false
      | some (inner, _) =>
        isExprPayload inner || containerGo k (k.opener.toList.length + inner.length - 1) l
    else containerGo k 0 l

def detectExprInjection (input : String) : Option String :=
  if !(hasSub input "$\x7b" || hasSub input "\x7b\x7b" || hasSub input "\x7b%"
      || hasSub input "<%=") then none
  else (containers.find? fun k => containerGo k 0 input.toList).map (·.kind)

end PingWaf.Waf
