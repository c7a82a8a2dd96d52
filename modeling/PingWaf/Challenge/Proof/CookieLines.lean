import PingWaf.Challenge.Proof.Agreement

/-!
# Cookies on several lines

A client may send its cookies on several `Cookie` lines. The lookups read the first one only.
-/

namespace PingWaf.Challenge

open Text List
open Plugin (RequestHeader getCookieValue cookieItemValue)

/-- The `cookie` lines of the request, each with its items. -/
structure Carries (r : RequestHeader) (lines : List (List String)) : Prop where
  texts : (r.headers.filter fun l => l.name = "cookie").map Plugin.HeaderLine.toStr =
    lines.map fun items => some (";".intercalate items)
  items : ∀ items ∈ lines, items ≠ [] ∧ ∀ item ∈ items, ';' ∉ item.toList

/-- The first line has an item that the lookup takes, or no line has. -/
def OnFirstLine (take : String → Option String) (first : List String) (rest : List (List String)) :
    Prop :=
  (∃ item ∈ first, (take item).isSome) ∨ ∀ item ∈ rest.flatten, take item = none

variable {r r' : RequestHeader} {first : List String} {rest : List (List String)}

theorem Carries.line (h : Carries r (first :: rest)) :
    (r.get "cookie").bind Plugin.HeaderLine.toStr = some (";".intercalate first) ∧
      splitChar ';' (";".intercalate first) = first := by
  obtain ⟨hne, hitems⟩ := h.items first mem_cons_self
  have hhead := congrArg head? h.texts
  rw [head?_map, head?_filter, map_cons, head?_cons,
    Option.map_eq_some_iff] at hhead
  obtain ⟨line, hline, htext⟩ := hhead
  exact ⟨Option.bind_eq_some_iff.mpr ⟨line, hline, htext⟩, splitChar_intercalate hne hitems⟩

theorem Carries.getCookieValue (h : Carries r (first :: rest)) (name : String) :
    getCookieValue r name = first.findSome? (cookieItemValue name) := by
  unfold Plugin.getCookieValue Plugin.getReqHeaderValue
  rw [h.line.1, Option.bind_some, h.line.2]

theorem Carries.clearanceCookie (h : Carries r (first :: rest)) :
    Plugin.clearanceCookie (Plugin.collectHeaders r.headers).headers =
      first.findSome? clearanceItem := by
  unfold Plugin.clearanceCookie
  rw [find_collected h.line.1, Option.bind_some]
  show (splitChar ';' (";".intercalate first)).findSome? clearanceItem = _
  rw [h.line.2]

theorem findSome_onFirstLine_iff (take : String → Option String) :
    first.findSome? take = (first ++ rest.flatten).findSome? take ↔ OnFirstLine take first rest := by
  rw [findSome?_append]
  cases hfind : first.findSome? take with
  | some _ =>
    obtain ⟨item, hmem, hitem⟩ := exists_of_findSome?_eq_some hfind
    exact iff_of_true rfl (.inl ⟨item, hmem, by simp [hitem]⟩)
  | none =>
    have hno := findSome?_eq_none_iff.mp hfind
    rw [Option.none_or, eq_comm, findSome?_eq_none_iff]
    refine ⟨.inr, fun h => h.resolve_left ?_⟩
    rintro ⟨item, hmem, hsome⟩
    simp [hno item hmem] at hsome

/-- The items of a line after those of an earlier one, which a `"; "` joins. -/
def indented : List String → List String
  | [] => []
  | item :: items => (" " ++ item) :: items

theorem splitOnce_blank_append (item : String) :
    splitOnce '=' (" " ++ item) = (splitOnce '=' item).map fun kv => (" " ++ kv.1, kv.2) := by
  unfold splitOnce
  rw [String.toList_append]
  show (Option.map _ (Option.map _ (splitOnceList '=' item.toList))) = _
  cases splitOnceList '=' item.toList with
  | none => rfl
  | some _ => exact congrArg (fun k => some (k, _)) (@String.ofList_append [' '] _)

theorem cookieItemValue_blank (name item : String) :
    cookieItemValue name (" " ++ item) = cookieItemValue name item := by
  unfold Plugin.cookieItemValue
  rw [trim_blank_append, splitOnce_blank_append]
  cases splitOnce '=' item with
  | none => rfl
  | some _ => simp only [Option.map_some, Option.bind_some, trim_blank_append]

theorem clearanceItem_blank (item : String) : clearanceItem (" " ++ item) = clearanceItem item := by
  unfold clearanceItem
  rw [trim_blank_append]

theorem findSome_indented {take : String → Option String}
    (htake : ∀ item, take (" " ++ item) = take item) (lines : List (List String)) :
    (lines.flatMap indented).findSome? take = lines.flatten.findSome? take := by
  induction lines with
  | nil => rfl
  | cons line _ ih =>
    rw [flatMap_cons, flatten_cons, findSome?_append, findSome?_append, ih]
    cases line with
    | nil => rfl
    | cons _ _ => rw [indented, findSome?_cons, htake, findSome?_cons]

/-- For every request with its cookies on several lines and every one with these lines joined: a
cookie lookup, and the lookup of the clearance, yield the same if and only if the first line has an
item that is taken or no line has. -/
theorem split_cookies_same_iff (r r' : RequestHeader) (first : List String)
    (rest : List (List String)) (h : Carries r (first :: rest))
    (h' : Carries r' [first ++ rest.flatMap indented]) :
    (∀ name, getCookieValue r name = getCookieValue r' name ↔
      OnFirstLine (cookieItemValue name) first rest) ∧
    (Plugin.clearanceCookie (Plugin.collectHeaders r.headers).headers =
        Plugin.clearanceCookie (Plugin.collectHeaders r'.headers).headers ↔
      OnFirstLine clearanceItem first rest) := by
  refine ⟨fun name => ?_, ?_⟩
  · rw [h.getCookieValue, h'.getCookieValue, List.findSome?_append,
      findSome_indented (cookieItemValue_blank name), ← List.findSome?_append]
    exact findSome_onFirstLine_iff _
  · rw [h.clearanceCookie, h'.clearanceCookie, List.findSome?_append,
      findSome_indented clearanceItem_blank, ← List.findSome?_append]
    exact findSome_onFirstLine_iff _

def cookieRequest (lines : List String) : RequestHeader :=
  ⟨"GET", none, "/", none, lines.map (Plugin.HeaderLine.ofText "cookie")⟩

theorem carries_two_lines : Carries (cookieRequest ["a=1", "b=2"]) [["a=1"], ["b=2"]] :=
  ⟨by decide +kernel, by decide⟩

theorem carries_one_line :
    Carries (cookieRequest ["a=1; b=2"]) [["a=1"] ++ [["b=2"]].flatMap indented] :=
  ⟨by decide +kernel, by decide⟩

theorem first_cookie_is_found : getCookieValue (cookieRequest ["a=1", "b=2"]) "a" =
    getCookieValue (cookieRequest ["a=1; b=2"]) "a" :=
  ((split_cookies_same_iff _ _ _ _ carries_two_lines carries_one_line).1 "a").mpr
    (.inl ⟨"a=1", by decide, by decide +kernel⟩)

theorem second_line_is_lost : getCookieValue (cookieRequest ["a=1", "b=2"]) "b" = none ∧
    getCookieValue (cookieRequest ["a=1; b=2"]) "b" = some "2" := by
  decide +kernel

end PingWaf.Challenge
