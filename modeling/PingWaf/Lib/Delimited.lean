import PingWaf.Lib.Text

/-!
# Delimited blocks of a text

The blocks that stand between an opening and a closing marker, read one after another.
-/

namespace Text

/-! ## Splitting at a marker -/

theorem splitOnceSub_drop {sep : List Char} :
    ∀ {l : List Char}, splitOnceSub sep l = none → ∀ m, splitOnceSub sep (l.drop m) = none
  | [], h, m => by rw [List.drop_nil]; exact h
  | _ :: _, h, 0 => h
  | c :: cs, h, m + 1 => by
    unfold splitOnceSub at h
    split at h
    · cases h
    · exact splitOnceSub_drop (Option.map_eq_none_iff.mp h) m

/-! ## Blocks -/

section

variable (opener closer : List Char)

/-- Walks a text block by block. The closing marker is searched from the opening one on; a block
without one ends the walk. -/
def blocksGo : Nat → List Char → List (List Char)
  | 0, _ => []
  | fuel + 1, text =>
    match splitOnceSub opener text with
    | none => []
    | some (_, body) =>
      match splitOnceSub closer (opener ++ body) with
      | none => []
      | some (block, rest) => (block ++ closer) :: blocksGo fuel rest

def blocks (text : List Char) : List (List Char) := blocksGo opener closer text.length text

end

end Text
