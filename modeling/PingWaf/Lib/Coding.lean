import Mathlib

/-!
# Streams one after another

A decoder that reads one stream from the front of its input and says what follows. `first` is what
such a decoder makes of an input by itself, `whole` insists that nothing follows, and `all` reads
streams until the input is used up.
-/

namespace Coding

variable {α : Type}

/-- A decoder of one stream: its content and the rest of the input, which is shorter. -/
structure Decoder (α : Type) where
  read : List α → Option (List α × List α)
  shorter : ∀ raw content rest, read raw = some (content, rest) → rest.length < raw.length

variable (d : Decoder α)

def Decoder.first (raw : List α) : Option (List α) := (d.read raw).map (·.1)

def Decoder.whole (raw : List α) : Option (List α) :=
  match d.read raw with
  | some (content, []) => some content
  | _ => none

def Decoder.allGo : Nat → List α → Option (List α)
  | _, [] => some []
  | 0, _ :: _ => none
  | fuel + 1, raw@(_ :: _) =>
    match d.read raw with
    | none => none
    | some (content, rest) => (Decoder.allGo fuel rest).map (content ++ ·)

/-- Every stream takes at least one element, so the length of the input is fuel enough. -/
def Decoder.all (raw : List α) : Option (List α) := d.allGo raw.length raw

variable {d} {raw content : List α}

theorem Decoder.not_read_nil {content rest : List α} : d.read [] ≠ some (content, rest) := by
  intro h
  have := d.shorter _ _ _ h
  simp at this

theorem Decoder.whole_of_read (h : d.read raw = some (content, [])) : d.whole raw = some content := by
  simp [Decoder.whole, h]

theorem Decoder.first_of_read {rest : List α} (h : d.read raw = some (content, rest)) :
    d.first raw = some content := by
  simp [Decoder.first, h]

theorem Decoder.all_of_read (h : d.read raw = some (content, [])) : d.all raw = some content := by
  cases raw with
  | nil => exact absurd h d.not_read_nil
  | cons _ _ => simp [Decoder.all, Decoder.allGo, h]

end Coding
