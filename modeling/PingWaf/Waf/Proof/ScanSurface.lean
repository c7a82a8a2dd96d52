import PingWaf.Waf.Normalize.Request

/-!
# What the scan surface leaves out

The decoded values of a request are cut by several caps: the number of query pairs, the members and
the depth of serialized JSON, the number of values altogether. None of them is reflected in the body
inspection.

The account is kept by items: everything a request holds for the scan, in the order of the parsers,
each with a flag for whether it is pushed.
-/

namespace PingWaf.Waf

open Text List

/-- A text of the request: whether its pair is judged by it, and whether a parser pushes it. -/
structure Item where
  text : String
  wanted : Bool
  pushed : Bool
  deriving DecidableEq

def pushedTexts (items : List Item) : List String := (items.filter (·.pushed)).map (·.text)

@[simp] theorem pushedTexts_nil : pushedTexts [] = [] := rfl

@[simp] theorem pushedTexts_append (a b : List Item) :
    pushedTexts (a ++ b) = pushedTexts a ++ pushedTexts b := by
  simp [pushedTexts]

theorem pushedTexts_cons (it : Item) (items : List Item) :
    pushedTexts (it :: items) = (if it.pushed then [it.text] else []) ++ pushedTexts items := by
  cases h : it.pushed <;> simp [pushedTexts, h]

theorem pushedTexts_flatMap {α : Type} (f : α → List Item) (l : List α) :
    pushedTexts (l.flatMap f) = l.flatMap fun x => pushedTexts (f x) := by
  induction l with
  | nil => rfl
  | cons _ _ ih => simp [ih]

/-! ## JSON -/

mutual

def Json.strings : Json → List String
  | .string s => [s]
  | .array items => stringsOfItems items
  | .object members => stringsOfMembers members
  | .null | .bool _ | .number _ => []

def stringsOfItems : List Json → List String
  | [] => []
  | v :: vs => v.strings ++ stringsOfItems vs

def stringsOfMembers : List (String × Json) → List String
  | [] => []
  | (_, v) :: ms => v.strings ++ stringsOfMembers ms

end

section

variable (c : Crates) (o : DecodeOpts)

def leftOut (v : Json) : List Item := v.strings.map fun s => ⟨o.value s, true, false⟩

/-- The items of a JSON value, in the order of `walkJson` and with its count. The walk leaves out
what comes after `jsonMaxValues` members, what lies too deep, and strings that are empty or long; a
string that is itself serialized JSON is judged by its own leaves once it is unpacked. -/
def walkItems : Nat → Json → Nat → List Item × Nat
  | left, value, count =>
    if jsonMaxValues ≤ count then (leftOut o value, count)
    else
      match value with
      | .string s =>
        if s = "" ∨ jsonMaxValueLen < byteLen s then ([⟨o.value s, true, false⟩], count)
        else
          let nested := match left with
            | 0 => []
            | left + 1 =>
              match nestedJson c s with
              | some v => (walkItems left v 0).1
              | none => []
          if pushedTexts nested ≠ [] then (nested, count + 1)
          else ([⟨o.value s, true, true⟩], count + 1)
      | .array items =>
        match left with
        | 0 => (leftOut o (.array items), count)
        | left + 1 =>
          items.zipIdx.foldl (fun st item =>
            let r := walkItems left item.1 st.2
            (st.1 ++ r.1, r.2)) ([], count)
      | .object members =>
        match left with
        | 0 => (leftOut o (.object members), count)
        | left + 1 =>
          members.foldl (fun st member =>
            let r := walkItems left member.2 st.2
            (st.1 ++ r.1, r.2)) ([], count)
      | .number n => ([⟨n, false, true⟩], count + 1)
      | .bool b => ([⟨toString b, false, true⟩], count + 1)
      | .null => ([], count)

def Agree (a : List Item × Nat) (b : List DecodedValue × Nat) : Prop :=
  pushedTexts a.1 = b.1.map (·.decoded) ∧ a.2 = b.2

theorem pushedTexts_leftOut (v : Json) : pushedTexts (leftOut o v) = [] := by
  simp [pushedTexts, leftOut, filter_map, Function.comp_def]

variable {c o}

theorem agree_foldl {γ : Type} {left : Nat} {g : γ → Json} {p : γ → String}
    (ih : ∀ v path count, Agree (walkItems c o left v count) (walkJson c o left v path count))
    (l : List γ) {a : List Item × Nat} {b : List DecodedValue × Nat} (h : Agree a b) :
    Agree (l.foldl (fun st x => (st.1 ++ (walkItems c o left (g x) st.2).1,
        (walkItems c o left (g x) st.2).2)) a)
      (l.foldl (fun st x => (st.1 ++ (walkJson c o left (g x) (p x) st.2).1,
        (walkJson c o left (g x) (p x) st.2).2)) b) := by
  induction l generalizing a b with
  | nil => exact h
  | cons x _ ihl =>
    simp only [foldl_cons]
    apply ihl
    obtain ⟨ht, hn⟩ := ih (g x) (p x) b.2
    rw [h.2]
    exact ⟨by simp [h.1, ht], hn⟩

theorem walkItems_full {count : Nat} (hfull : jsonMaxValues ≤ count) (left : Nat) (v : Json) :
    walkItems c o left v count = (leftOut o v, count) := by
  rw [walkItems.eq_def]
  exact if_pos hfull

theorem agree_full {count : Nat} (hfull : jsonMaxValues ≤ count) (left : Nat) (v : Json)
    (path : String) : Agree (walkItems c o left v count) (walkJson c o left v path count) := by
  rw [walkItems_full hfull, walkJson.eq_def]
  dsimp only
  rw [if_pos hfull]
  exact ⟨by simp [pushedTexts_leftOut], rfl⟩

theorem walkItems_agree (left : Nat) : ∀ v path count,
    Agree (walkItems c o left v count) (walkJson c o left v path count) := by
  induction left using Nat.strong_induction_on with
  | _ left ih =>
    intro v path count
    by_cases hfull : jsonMaxValues ≤ count
    · exact agree_full hfull left v path
    rw [walkItems.eq_def, walkJson.eq_def]
    dsimp only
    rw [if_neg hfull, if_neg hfull]
    cases v with
    | string s =>
      dsimp only
      by_cases hs : s = "" ∨ jsonMaxValueLen < byteLen s
      · rw [if_pos hs, if_pos hs]
        exact ⟨by simp [pushedTexts], rfl⟩
      rw [if_neg hs, if_neg hs]
      cases left with
      | zero => simp [Agree, pushedTexts, pushCounted, bodyField]
      | succ left =>
        cases hnested : nestedJson c s with
        | none => simp [Agree, pushedTexts, pushCounted, bodyField]
        | some w =>
          obtain ⟨ht, -⟩ := ih left (Nat.lt_succ_self left) w path 0
          dsimp only
          by_cases hempty : (walkJson c o left w path 0).1 = []
          · have hitems : pushedTexts (walkItems c o left w 0).1 = [] := by simp [ht, hempty]
            rw [if_neg (not_not.mpr hitems), if_neg (not_not.mpr hempty)]
            simp [Agree, pushedTexts, pushCounted, bodyField]
          · have hitems : pushedTexts (walkItems c o left w 0).1 ≠ [] := by simp [ht, hempty]
            rw [if_pos hempty, if_pos hitems]
            exact ⟨ht, rfl⟩
    | array items =>
      cases left with
      | zero => exact ⟨by simp [pushedTexts_leftOut], rfl⟩
      | succ left => exact agree_foldl (ih left (Nat.lt_succ_self left)) items.zipIdx ⟨rfl, rfl⟩
    | object members =>
      cases left with
      | zero => exact ⟨by simp [pushedTexts_leftOut], rfl⟩
      | succ left => exact agree_foldl (ih left (Nat.lt_succ_self left)) members ⟨rfl, rfl⟩
    | number _ | bool _ => exact ⟨by simp [pushedTexts, pushCounted, bodyField], rfl⟩
    | null => exact ⟨rfl, rfl⟩

end

/-! ## Pairs -/

section

variable (c : Crates) (o : DecodeOpts)

def jsonItems (val : String) : List Item :=
  if val = "" then []
  else match nestedJson c val with
    | some v => (walkItems c o (jsonMaxDepth - 1) v 0).1
    | none => []

/-- The items of a pair: it is judged by the leaves of its value once that was unpacked, by the
decoded value otherwise. -/
def pairItems (pair : String) : List Item :=
  let key := o.form (splitPair pair).1
  let val := o.form (splitPair pair).2
  if pushedTexts (jsonItems c o val) ≠ [] then jsonItems c o val
  else
    (if key ≠ "" ∧ byteLen key ≤ 1024 then [⟨key, false, true⟩] else []) ++ [⟨val, true, true⟩]

theorem pushedTexts_jsonItems (val path : String) :
    pushedTexts (jsonItems c o val) =
      (if val = "" then [] else unpackStringJson c o val path).map (·.decoded) := by
  unfold jsonItems unpackStringJson
  split_ifs
  · rfl
  · cases nestedJson c val with
    | none => rfl
    | some v => exact (walkItems_agree (jsonMaxDepth - 1) v path 0).1

theorem pushedTexts_pairItems (source : ValueSource) (pair : String) :
    pushedTexts (pairItems c o pair) = (pairValues c o source pair).map (·.decoded) := by
  have hjson := pushedTexts_jsonItems c o (o.form (splitPair pair).2) (o.form (splitPair pair).1)
  simp only [pairItems, pairValues]
  by_cases hmembers : (if o.form (splitPair pair).2 = "" then []
      else unpackStringJson c o (o.form (splitPair pair).2) (o.form (splitPair pair).1)) = []
  · rw [hmembers, map_nil] at hjson
    rw [if_neg (not_not.mpr hjson), if_neg (not_not.mpr hmembers)]
    split_ifs <;> simp [pushedTexts]
  · have hitems : pushedTexts (jsonItems c o (o.form (splitPair pair).2)) ≠ [] := by
      rw [hjson]
      simpa using hmembers
    rw [if_pos hitems, if_pos hmembers]
    exact hjson

def droppedPair (pair : String) : Item := ⟨o.form (splitPair pair).2, true, false⟩

/-- The items of a query: the pairs among the first `maxQueryParams` pieces, and the rest. -/
def queryItems (query : String) : List Item :=
  if query = "" then []
  else
    (((splitChar '&' query).take maxQueryParams).filter (· ≠ "")).flatMap (pairItems c o) ++
      (((splitChar '&' query).drop maxQueryParams).filter (· ≠ "")).map (droppedPair o)

theorem pushedTexts_queryItems (query : String) :
    pushedTexts (queryItems c o query) = (parseQuery c o query).map (·.decoded) := by
  have hdropped : ∀ l : List String, pushedTexts (l.map (droppedPair o)) = [] := by
    intro l
    simp [pushedTexts, filter_map, Function.comp_def, droppedPair]
  unfold queryItems parseQuery queryPairs
  split_ifs
  · rfl
  · simp only [pushedTexts_append, hdropped, append_nil, pushedTexts_flatMap,
      pushedTexts_pairItems c o .queryParam, map_flatMap]

def isForm (contentType : String) : Bool :=
  !hasSub (toAsciiLowercase contentType) "multipart/form-data" &&
    hasSub (toAsciiLowercase contentType) "application/x-www-form-urlencoded"

def otherItems (values : List DecodedValue) : List Item :=
  values.map fun v => ⟨v.decoded, false, true⟩

theorem pushedTexts_otherItems (values : List DecodedValue) :
    pushedTexts (otherItems values) = values.map (·.decoded) := by
  simp [pushedTexts, otherItems, filter_map, Function.comp_def]

def formItems (text : String) : List Item := (formPairs text).flatMap (pairItems c o)

def bodyItems (contentType text : String) : List Item :=
  if isForm contentType then formItems c o text else otherItems (bodyValues c o contentType text)

theorem pushedTexts_bodyItems (contentType text : String) :
    pushedTexts (bodyItems c o contentType text) =
      (bodyValues c o contentType text).map (·.decoded) := by
  unfold bodyItems
  split_ifs with hform
  · simp only [isForm, Bool.and_eq_true, Bool.not_eq_true'] at hform
    simp only [bodyValues, hform.1, hform.2, if_true, Bool.false_eq_true, if_false, formItems,
      parseFormBody, pushedTexts_flatMap, pushedTexts_pairItems c o .body, map_flatMap]
  · exact pushedTexts_otherItems _

/-! ## The request -/

/-- Everything a request holds for the scan, in the order of the parsers. -/
def requestItems (rawPath rawQuery : String) (headers : Headers) (bodyText : Option String) :
    List Item :=
  ⟨multiDecode rawPath o.maxDecodeLayers, false, true⟩ :: queryItems c o rawQuery ++
    otherItems (headers.flatMap (headerValues o)) ++
    (match bodyText with
      | some text => bodyItems c o ((headerValue headers "content-type").getD "") text
      | none => [])

theorem pushedTexts_requestItems (rawPath rawQuery : String) (headers : Headers)
    (bodyText : Option String) :
    pushedTexts (requestItems c o rawPath rawQuery headers bodyText) =
      (parsedValues c o rawPath rawQuery headers bodyText).map (·.decoded) := by
  unfold requestItems parsedValues
  rw [pushedTexts_append, pushedTexts_append, pushedTexts_cons, pushedTexts_queryItems,
    pushedTexts_otherItems]
  cases bodyText with
  | none => simp
  | some _ => simp [pushedTexts_bodyItems]

/-- What a base64 layer of a value, or of one unwrapped before, or a quoted base64 run holds. -/
def unwrapped (values : List DecodedValue) : List DecodedValue :=
  let layers := expandLayers c o b64MaxDepth values
  layers ++ if o.decodeEscapes then
    ((values ++ layers).filter isQuotedCandidate).flatMap fun v =>
      (quotedRuns c 0 0 v.decoded.toList).map fun d =>
        ⟨v.source, if v.name = "" then "b64q" else v.name ++ ".b64q", d, true⟩
    else []

theorem expandB64Substrings_expandBase64 (values : List DecodedValue) :
    expandB64Substrings c o (expandBase64 c o values) = values ++ unwrapped c o values := by
  unfold expandB64Substrings expandBase64 unwrapped
  split
  · exact append_assoc ..
  · simp

end

/-- A text among the first values is the text of an item with fewer than that pushed before it. -/
theorem mem_take_pushedTexts_iff {items : List Item} {n : Nat} {text : String} :
    text ∈ (pushedTexts items).take n ↔
      ∃ before it after, items = before ++ it :: after ∧
        (it.pushed = true ∧ (pushedTexts before).length < n) ∧ it.text = text := by
  constructor
  · intro h
    induction items generalizing n with
    | nil => cases (take_nil ▸ h : text ∈ ([] : List String))
    | cons it items ih =>
      rw [pushedTexts_cons] at h
      cases hp : it.pushed with
      | false =>
        rw [hp] at h
        obtain ⟨before, it', after, rfl, ⟨hpushed, hn⟩, htext⟩ := ih h
        refine ⟨it :: before, it', after, rfl, ⟨hpushed, ?_⟩, htext⟩
        rwa [pushedTexts_cons, hp]
      | true =>
        rw [hp, if_pos rfl, singleton_append] at h
        cases n with
        | zero => cases h
        | succ n =>
          rcases mem_cons.mp h with rfl | h
          · exact ⟨[], it, items, rfl, ⟨hp, Nat.succ_pos n⟩, rfl⟩
          · obtain ⟨before, it', after, rfl, ⟨hpushed, hn⟩, htext⟩ := ih h
            refine ⟨it :: before, it', after, rfl, ⟨hpushed, ?_⟩, htext⟩
            rw [pushedTexts_cons, hp]
            exact Nat.succ_lt_succ hn
  · rintro ⟨before, it, after, rfl, ⟨hpushed, hn⟩, rfl⟩
    obtain ⟨k, rfl⟩ : ∃ k, n = (pushedTexts before).length + (k + 1) :=
      ⟨n - (pushedTexts before).length - 1, by omega⟩
    rw [pushedTexts_append, pushedTexts_cons, if_pos hpushed, singleton_append,
      take_length_add_append]
    simp

/-! ## Holes -/

section

variable (c : Crates) (o : DecodeOpts) (rawPath rawQuery : String) (headers : Headers)
  (body : Option (List UInt8))

def bodyTextOf : Option String := (body.map (decodeBody c headers)).map (·.text)

/-- Everything the request holds for the scan: what the parsers come to, and then what base64
covers. -/
def itemsOf : List Item :=
  let text := bodyTextOf c headers body
  requestItems c o rawPath rawQuery headers text ++
    otherItems (unwrapped c o (parsedValues c o rawPath rawQuery headers text))

/-- **No silent hole in the scan surface**: where the body counts as inspected, the decoded value of
every pair of the query and of a form body, or every string leaf of it once it was unpacked, is
among the decoded values. -/
def WithoutHoles (method : String) : Prop :=
  let n := normalizeRequest c o method rawPath rawQuery headers body
  n.bodyInspection = .inspected →
    ∀ it ∈ itemsOf c o rawPath rawQuery headers body, it.wanted = true →
      capText it.text ∈ n.decodedValues.map (·.decoded)

/-- A cap drops the item that stands behind `before`: its parser leaves it out, or it comes after
the first `maxDecodedValues` values. -/
def DroppedBehind (before : List Item) (it : Item) : Prop :=
  it.pushed = false ∨ maxDecodedValues ≤ (pushedTexts before).length

/-- Some item of the request that no cap drops has this text, as far as texts are kept. -/
def StandsWithin (text : String) : Prop :=
  ∃ before it after, itemsOf c o rawPath rawQuery headers body = before ++ it :: after ∧
    ¬ DroppedBehind before it ∧ capText it.text = capText text

/-- Whatever a cap drops of a body that counts as inspected, or of the query, is repeated by an item
within the caps. -/
def DropsRepeated : Prop :=
  ((body.map (decodeBody c headers)).map (·.inspection)).getD .inspected = .inspected →
    ∀ before it after, itemsOf c o rawPath rawQuery headers body = before ++ it :: after →
      it.wanted = true → DroppedBehind before it →
        StandsWithin c o rawPath rawQuery headers body it.text

theorem not_droppedBehind_iff {before : List Item} {it : Item} :
    ¬ DroppedBehind before it ↔
      it.pushed = true ∧ (pushedTexts before).length < maxDecodedValues := by
  simp [DroppedBehind, not_or]

theorem pushedTexts_itemsOf :
    pushedTexts (itemsOf c o rawPath rawQuery headers body) =
      (expandB64Substrings c o (expandBase64 c o
        (parsedValues c o rawPath rawQuery headers (bodyTextOf c headers body)))).map
          (·.decoded) := by
  rw [expandB64Substrings_expandBase64, map_append, ← pushedTexts_requestItems,
    ← pushedTexts_otherItems, ← pushedTexts_append]
  rfl

theorem mem_decodedValues_iff (method : String) (text : String) :
    capText text ∈
        (normalizeRequest c o method rawPath rawQuery headers body).decodedValues.map (·.decoded) ↔
      StandsWithin c o rawPath rawQuery headers body text := by
  have hvalues : (normalizeRequest c o method rawPath rawQuery headers body).decodedValues.map
      (·.decoded) = ((pushedTexts (itemsOf c o rawPath rawQuery headers body)).take
        maxDecodedValues).map capText := by
    rw [pushedTexts_itemsOf, ← map_take, map_map]
    exact map_map ..
  rw [hvalues, mem_map]
  simp only [mem_take_pushedTexts_iff, ← not_droppedBehind_iff]
  unfold StandsWithin
  constructor
  · rintro ⟨_, ⟨before, it, after, hsplit, hkept, rfl⟩, hcap⟩
    exact ⟨before, it, after, hsplit, hkept, hcap⟩
  · rintro ⟨before, it, after, hsplit, hkept, hcap⟩
    exact ⟨it.text, ⟨before, it, after, hsplit, hkept, rfl⟩, hcap⟩

/-- **When the scan surface has no silent hole.** For every request: every pair of the query and of
a form body is there for the detectors unless the body inspection says otherwise, exactly when
whatever the caps drop is repeated within them. -/
theorem surface_without_holes_iff (method : String) :
    WithoutHoles c o rawPath rawQuery headers body method ↔
      DropsRepeated c o rawPath rawQuery headers body := by
  constructor
  · intro h hinsp before it after hsplit hwanted _
    exact (mem_decodedValues_iff c o rawPath rawQuery headers body method it.text).mp
      (h hinsp it (by rw [hsplit]; simp) hwanted)
  · intro h hinsp it hmem hwanted
    rw [mem_decodedValues_iff]
    obtain ⟨before, after, hsplit⟩ := append_of_mem hmem
    by_cases hdrop : DroppedBehind before it
    · exact h hinsp before it after hsplit hwanted hdrop
    · exact ⟨before, it, after, hsplit, hdrop, rfl⟩

end

/-- A query whose one pair stands behind as many empty pieces as the cap counts. -/
def hiddenPair : String := String.ofList (List.replicate maxQueryParams '&' ++ "q=evil".toList)

theorem hiddenPair_pieces :
    splitChar '&' hiddenPair = List.replicate maxQueryParams "" ++ ["q=evil"] := by
  rw [splitChar, hiddenPair, String.toList_ofList]
  decide +kernel

theorem hiddenPair_ne_empty : hiddenPair ≠ "" := by
  intro h
  have hlist := congrArg String.toList h
  rw [hiddenPair, String.toList_ofList] at hlist
  exact absurd hlist (by decide +kernel)

theorem hiddenPair_queryPairs : queryPairs hiddenPair = [] := by
  rw [queryPairs, if_neg hiddenPair_ne_empty, hiddenPair_pieces]
  decide +kernel

/-- The pair is nowhere in the decoded values, and the request counts as inspected. -/
theorem query_cap_hides_pair :
    (normalizeRequest .inert ⟨2, false⟩ "GET" "/" hiddenPair [] none).bodyInspection = .inspected ∧
      (normalizeRequest .inert ⟨2, false⟩ "GET" "/" hiddenPair [] none).decodedValues.map
        (·.decoded) = ["/"] ∧
      ¬ WithoutHoles .inert ⟨2, false⟩ "/" hiddenPair [] none "GET" := by
  have htexts : (normalizeRequest .inert ⟨2, false⟩ "GET" "/" hiddenPair [] none).decodedValues.map
      (·.decoded) = ["/"] := by
    simp only [normalizeRequest, parsedValues, parseQuery, hiddenPair_queryPairs]
    decide +kernel
  refine ⟨rfl, htexts, fun h => ?_⟩
  have hitem : (⟨"evil", true, false⟩ : Item) ∈
      itemsOf .inert ⟨2, false⟩ "/" hiddenPair [] none := by
    simp only [itemsOf, requestItems, queryItems, hiddenPair_ne_empty, if_false, hiddenPair_pieces]
    decide +kernel
  have hmem := h rfl _ hitem rfl
  rw [htexts] at hmem
  exact absurd hmem (by decide +kernel)

end PingWaf.Waf
