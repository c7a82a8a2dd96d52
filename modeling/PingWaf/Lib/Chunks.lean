import Mathlib

/-!
# Bodies in chunks

A handler sees the chunks of a body one by one, the last with the end of the stream, and sends
something on in the place of each. `flatten_emit` says what is sent in all, from what one call does.
-/

namespace Chunks

variable {σ α : Type}

def octets (chunks : List (Option (List α))) : List α := chunks.flatMap (·.getD [])

def emit (handle : σ → Option (List α) → Bool → Option (List α) × σ) :
    σ → List (Option (List α)) → List (List α)
  | _, [] => []
  | s, [last] => [(handle s last true).1.getD []]
  | s, chunk :: chunks => (handle s chunk false).1.getD [] :: emit handle (handle s chunk false).2 chunks

@[simp] theorem octets_nil : octets ([] : List (Option (List α))) = [] := rfl

@[simp] theorem octets_cons (chunk : Option (List α)) (chunks : List (Option (List α))) :
    octets (chunk :: chunks) = chunk.getD [] ++ octets chunks :=
  List.flatMap_cons

/-- If `total s rest` is what a handler in state `s` sends for the octets `rest`, as far as one call
can tell, then it is so for every way of cutting them into chunks. -/
theorem flatten_emit {handle : σ → Option (List α) → Bool → Option (List α) × σ}
    (total : σ → List α → List α)
    (hchunk : ∀ s chunk rest, (handle s chunk false).1.getD [] ++ total (handle s chunk false).2 rest =
      total s (chunk.getD [] ++ rest))
    (hlast : ∀ s last, (handle s last true).1.getD [] = total s (last.getD []))
    (s : σ) {chunks : List (Option (List α))} (hne : chunks ≠ []) :
    (emit handle s chunks).flatten = total s (octets chunks) := by
  induction chunks generalizing s with
  | nil => exact absurd rfl hne
  | cons chunk chunks ih =>
    cases chunks with
    | nil => simp [emit, hlast]
    | cons _ _ =>
      rw [emit, List.flatten_cons, ih _ (by simp), octets_cons chunk]
      · exact hchunk s chunk _
      · simp

end Chunks
