import PingWaf.Lib.Regex
import PingWaf.Lib.Text

/-!
# The dialect of the detectors' expressions

What the text detectors share: how the `regex` crate reads an expression under `(?i)` in Unicode mode,
the sets their expressions are written with, and the keyword prefilter in front of them.
-/

namespace PingWaf.Waf

open Text

/-- The Unicode tables behind `\w` and `\d`, which are the usual sets on ASCII. -/
structure CharTables where
  isWord : Char → Bool
  isDigit : Char → Bool
  word_ascii : ∀ ch, ch.toNat < 128 → isWord ch = (isAsciiAlphanumeric ch || ch == '_')
  digit_ascii : ∀ ch, ch.toNat < 128 → isDigit ch = isAsciiDigit ch

def CharTables.ascii : CharTables where
  isWord ch := isAsciiAlphanumeric ch || ch == '_'
  isDigit := isAsciiDigit
  word_ascii _ _ := rfl
  digit_ascii _ _ := rfl

def longS : Char := Char.ofNat 0x17F

def kelvinSign : Char := Char.ofNat 0x212A

def foldsTo (w ch : Char) : Bool :=
  asciiLowerChar ch == w || (w == 's' && ch == longS) || (w == 'k' && ch == kelvinSign)

/-- `[a-z]` under case folding. -/
def isFoldedLetter (ch : Char) : Bool := isAsciiAlpha ch || ch == longS || ch == kelvinSign

def CharTables.dialect (t : CharTables) : Dialect := ⟨foldsTo, t.isWord⟩

/-! ## Pieces of expressions -/

namespace Pattern

open Regex

def word (s : String) : Regex := .lit s.toList

def words (s : String) (rest : List String) : Regex := oneOf (word s) (rest.map word)

def chars (s : String) : Regex := .set fun ch => s.toList.contains ch

def anyChar : Regex := .set fun _ => true

def space : Regex := .set isWhitespace

/-- `\s*` -/
def spaces : Regex := star space

/-- `\s+` -/
def spaces1 : Regex := plus space

def wholeWord (s : String) : Regex := seq [boundary, word s, boundary]

variable (t : CharTables)

def digits1 : Regex := plus (.set t.isDigit)

def wordOr (s : String) : Regex := .set fun ch => t.isWord ch || s.toList.contains ch

end Pattern

/-! ## The prefilter -/

def isAscii (s : String) : Bool := s.toList.all fun ch => ch.toNat < 128

/-- The automaton of a prefilter finds one of its (lower-case) needles, in any case. -/
def prefilterHits (needles : List String) (input : String) : Bool :=
  needles.any fun needle => hasSub (toAsciiLowercase input) needle

def checkIf (fired : Bool) (name : String) : List String := if fired then [name] else []

end PingWaf.Waf
