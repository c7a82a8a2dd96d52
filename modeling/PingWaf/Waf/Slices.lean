import PingWaf.Lib.Boundary
import PingWaf.Waf.Detect.Sqli
import PingWaf.Waf.Normalize.Decode
import PingWaf.Waf.Parse

/-!
# Slices of attacker text

The byte loops of the tokenizer, the two decoders and the SQL fingerprint, with the slices that each
turn takes. Their tests are on single octets, so the functions of the model that read characters are
applied to octets.
-/

namespace PingWaf.Waf

open Text List

structure Slice where
  start : Nat
  stop : Nat
  -- of the text, not of its byte array, which has no boundaries to keep
  ofText : Bool

/-- What one turn of a loop takes, and where the loop goes on, if it does. -/
abbrev Turn (σ : Type) := List Slice × Option σ

section

variable (o : List Char)

/-- A turn inside a string literal of the tokenizer. -/
def quotedTurn (quote : Char) (j : Nat) : Turn (Option Char × Nat) :=
  match o.drop j with
  | [] => ([], none)
  | '\\' :: esc :: _ =>
    if esc ∈ ['n', 't', 'r', '\\', '"', '\''] then ([], some (quote, j + 2))
    else ([⟨j + 1, j + 1 + utf8Width esc, true⟩], some (quote, j + 1 + utf8Width esc))
  | b :: _ =>
    if b = quote then ([], some (none, j + 1))
    else ([⟨j, j + utf8Width b, true⟩], some (quote, j + utf8Width b))

/-- How far a number or a word of the tokenizer goes on behind its first octet. -/
def wordRun (c : Char) (rest : List Char) : Option Nat :=
  if c == '-' && rest.head?.any isAsciiDigit then some (rest.takeWhile isAsciiDigit).length
  else if isAsciiAlphanumeric c || c == '_' then some (rest.takeWhile isWordChar).length
  else none

/-- A turn outside. A number that does not fit is sliced before the tokenizer gives up. -/
def plainTurn (i : Nat) : Turn (Option Char × Nat) :=
  match o.drop i with
  | [] => ([], none)
  | c :: rest =>
    if c ∈ [' ', '\t', '\n', '\r', '(', ')', '[', ']', '\x7b', '\x7d'] then ([], some (none, i + 1))
    else if c ∈ ['"', '\''] then ([], some (c, i + 1))
    else match wordRun c rest with
      | some n =>
        ([⟨i, i + 1 + n, true⟩], if (nextToken c rest).isOk then some (none, i + 1 + n) else none)
      | none => ([], none)

/-- The position goes with the quote of the literal it stands in. -/
def tokenizeTurn (st : Option Char × Nat) : Turn (Option Char × Nat) :=
  st.1.elim (plainTurn o st.2) fun quote => quotedTurn o quote st.2

/-- The octets of one character are copied. -/
def copyTurn (i : Nat) (b : Char) (digits : List Slice) : Turn Nat :=
  (digits ++ [⟨i, o.length, true⟩, ⟨i, i + utf8Width b, true⟩], some (i + utf8Width b))

def hexWidth (k : Char) : Nat :=
  if k = 'x' ∨ k = 'X' then 2 else if k = 'u' ∨ k = 'U' then 4 else 0

def decodeEscapesTurn (i : Nat) : Turn Nat :=
  match o.drop i with
  | [] => ([], none)
  | '\\' :: k :: rest =>
    let stop := i + 2 + hexWidth k
    if hexWidth k = 0 ∨ rest.length < hexWidth k then copyTurn o i '\\' []
    else if (rest.take (hexWidth k)).any fun c => (hexVal c).isNone then
      copyTurn o i '\\' [⟨i + 2, stop, false⟩]
    else if (escapeAt ('\\' :: k :: rest)).isNone then
      copyTurn o i '\\' [⟨i + 2, stop, false⟩, ⟨i + 2, stop, true⟩]
    else ([⟨i + 2, stop, false⟩, ⟨i + 2, stop, true⟩], some stop)
  | b :: _ => copyTurn o i b []

/-- Where the candidate bodies of an entity end. -/
def entityEnds (after : List Char) : List Nat :=
  let run := after.takeWhile isEntityChar
  if run.length < 10 ∧ after[run.length]? = some ';' then [run.length]
  else (List.range (min run.length 8)).map (· + 1)

def decodeEntitiesTurn (i : Nat) : Turn Nat :=
  let amp := i + (o.drop i).idxOf '&'
  match o.drop amp with
  | [] => ([], none)
  | _ :: after =>
    let rest := amp + 1 + (tryDecodeEntity after).elim 0 (·.2)
    ([⟨i, amp, true⟩, ⟨amp + 1, o.length, true⟩, ⟨rest, o.length, true⟩] ++
      (entityEnds after).map fun n => ⟨amp + 1, amp + 1 + n, true⟩, some rest)

/-- Only words are sliced; between them the position may stand inside a character. -/
def fingerprintTurn (i : Nat) : Turn Nat :=
  match o.drop i with
  | [] => ([], none)
  | a :: l =>
    (if isAsciiAlpha a || a == '_' then [⟨i, i + 1 + (l.takeWhile isSqlWordChar).length, true⟩]
      else [], some (i + 1 + (sqlToken a l).2))

end

/-- The slices of all turns that a loop comes to. -/
def taken {σ : Type} (turn : σ → Turn σ) (start : σ) : Set Slice :=
  {c | ∃ a, Relation.ReflTransGen (fun a b => (turn a).2 = some b) start a ∧ c ∈ (turn a).1}

def slices (s : String) : Set Slice :=
  taken (tokenizeTurn (octets s)) (none, 0) ∪ taken (decodeEscapesTurn (octets s)) 0 ∪
    taken (decodeEntitiesTurn (octets s)) 0 ∪ taken (fingerprintTurn (octets s)) 0

end PingWaf.Waf
