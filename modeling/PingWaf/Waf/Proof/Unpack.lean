import PingWaf.Waf.Proof.ScanSurface

/-!
# What unpacking serialized JSON keeps

A string that is serialized JSON is replaced by the members of the JSON, at whatever depth it is
found. The walk keeps the first `jsonMaxValues` of the leaves that are not too deep and not too
long.
-/

namespace PingWaf.Waf

open Text List Json

/-! ## Leaves -/

inductive LeafValue where
  | scalar (text : String)
  | str (s : String)
  deriving DecidableEq

/-- A number, a boolean or a string that is not empty, and the depth at which the walk meets it. -/
structure Leaf where
  value : LeafValue
  depth : Nat
  deriving DecidableEq

mutual

/-- The leaves of a value at a depth, in the order of the walk. -/
def Json.leaves (depth : Nat) : Json → List Leaf
  | .null => []
  | .bool b => [⟨.scalar (toString b), depth⟩]
  | .number n => [⟨.scalar n, depth⟩]
  | .string s => if s = "" then [] else [⟨.str s, depth⟩]
  | .array items => leavesOfItems (depth + 1) items
  | .object members => leavesOfMembers (depth + 1) members

def leavesOfItems (depth : Nat) : List Json → List Leaf
  | [] => []
  | v :: vs => v.leaves depth ++ leavesOfItems depth vs

def leavesOfMembers (depth : Nat) : List (String × Json) → List Leaf
  | [] => []
  | (_, v) :: ms => v.leaves depth ++ leavesOfMembers depth ms

end

theorem leavesOfItems_eq_flatMap (depth : Nat) (items : List Json) :
    leavesOfItems depth items = items.flatMap (·.leaves depth) := by
  induction items with
  | nil => rfl
  | cons _ _ ih => rw [leavesOfItems, ih, flatMap_cons]

theorem flatMap_zipIdx {α β : Type} (f : α → List β) (l : List α) :
    l.flatMap f = l.zipIdx.flatMap fun x => f x.1 := by
  calc l.flatMap f
    _ = (l.zipIdx.map Prod.fst).flatMap f := by rw [zipIdx_map_fst]
    _ = l.zipIdx.flatMap fun x => f x.1 := flatMap_map _ _ _

theorem leavesOfMembers_eq_flatMap (depth : Nat) (members : List (String × Json)) :
    leavesOfMembers depth members = members.flatMap (·.2.leaves depth) := by
  induction members with
  | nil => rfl
  | cons _ _ ih => rw [leavesOfMembers, ih, flatMap_cons]

mutual

theorem depth_le_of_mem_leaves {depth : Nat} {l : Leaf} :
    ∀ v : Json, l ∈ v.leaves depth → depth ≤ l.depth
  | .null, h => by simp [Json.leaves] at h
  | .bool b, h => by
    obtain rfl : l = ⟨.scalar (toString b), depth⟩ := by simpa [leaves] using h
    exact Nat.le_refl _
  | .number n, h => by
    obtain rfl : l = ⟨.scalar n, depth⟩ := by simpa [leaves] using h
    exact Nat.le_refl _
  | .string s, h => by
    rw [leaves] at h
    split at h
    · cases h
    · obtain rfl := mem_singleton.mp h
      exact Nat.le_refl _
  | .array items, h => by
    rw [leaves] at h
    exact Nat.le_of_succ_le (depth_le_of_mem_items items h)
  | .object members, h => by
    rw [leaves] at h
    exact Nat.le_of_succ_le (depth_le_of_mem_members members h)

theorem depth_le_of_mem_items {depth : Nat} {l : Leaf} :
    ∀ items : List Json, l ∈ leavesOfItems depth items → depth ≤ l.depth
  | [], h => by simp [leavesOfItems] at h
  | v :: vs, h => by
    rw [leavesOfItems, mem_append] at h
    exact h.elim (depth_le_of_mem_leaves v) (depth_le_of_mem_items vs)

theorem depth_le_of_mem_members {depth : Nat} {l : Leaf} :
    ∀ members : List (String × Json), l ∈ leavesOfMembers depth members → depth ≤ l.depth
  | [], h => by simp [leavesOfMembers] at h
  | (_, v) :: ms, h => by
    rw [leavesOfMembers, mem_append] at h
    exact h.elim (depth_le_of_mem_leaves v) (depth_le_of_mem_members ms)

end

/-- The walk gets to the leaf. -/
def Leaf.inReach (l : Leaf) : Bool :=
  l.depth ≤ jsonMaxDepth && match l.value with
    | .scalar _ => true
    | .str s => byteLen s ≤ jsonMaxValueLen

theorem scalar_inReach {left depth : Nat} (hdepth : depth + left = jsonMaxDepth) (text : String) :
    Leaf.inReach ⟨.scalar text, depth⟩ = true := by
  simp only [Leaf.inReach, Bool.and_true, decide_eq_true_eq]
  omega

/-- The leaves that a walk keeps when it has counted so many before. -/
def keptFrom (count : Nat) (leaves : List Leaf) : List Leaf :=
  (leaves.filter (·.inReach)).take (jsonMaxValues - count)

theorem keptFrom_append (count : Nat) (a b : List Leaf) :
    keptFrom count (a ++ b) = keptFrom count a ++ keptFrom (count + (keptFrom count a).length) b := by
  unfold keptFrom
  rw [filter_append, take_append, length_take]
  congr 2
  omega

@[simp] theorem keptFrom_nil (count : Nat) : keptFrom count [] = [] := take_nil

theorem keptFrom_of_full {count : Nat} (h : jsonMaxValues ≤ count) (leaves : List Leaf) :
    keptFrom count leaves = [] := by
  unfold keptFrom
  rw [Nat.sub_eq_zero_of_le h, take_zero]

theorem keptFrom_singleton {count : Nat} (h : ¬ jsonMaxValues ≤ count) {l : Leaf}
    (hl : l.inReach = true) : keptFrom count [l] = [l] := by
  have hroom : 1 ≤ jsonMaxValues - count := by omega
  unfold keptFrom
  rw [filter_cons_of_pos hl, filter_nil, take_of_length_le (by simpa using hroom)]

theorem keptFrom_eq_nil {count : Nat} {leaves : List Leaf} (h : ∀ l ∈ leaves, l.inReach = false) :
    keptFrom count leaves = [] := by
  have hnone : leaves.filter (·.inReach) = [] :=
    filter_eq_nil_iff.mpr fun l hl => by rw [h l hl]; exact Bool.false_ne_true
  unfold keptFrom
  rw [hnone, take_nil]

section

variable (c : Crates) (o : DecodeOpts)

/-! ## The walk -/

/-- The members of a string that is serialized JSON, found at a depth. -/
def unpackStringAt (depth : Nat) (s path : String) : List DecodedValue :=
  if jsonMaxDepth ≤ depth then []
  else
    match nestedJson c s with
    | some v => (walkJson c o (jsonMaxDepth - (depth + 1)) v path 0).1
    | none => []

def textsOf (values : List DecodedValue) : List String := values.map (·.decoded)

/-- The texts of those members; they do not depend on the names. -/
def unpackTexts (depth : Nat) (s : String) : List String := textsOf (unpackStringAt c o depth s "")

theorem textsOf_unpackStringAt (depth : Nat) (s path : String) :
    textsOf (unpackStringAt c o depth s path) = unpackTexts c o depth s := by
  unfold unpackTexts unpackStringAt
  split
  · rfl
  · cases nestedJson c s with
    | none => rfl
    | some v =>
      exact (walkItems_agree _ v path 0).1.symm.trans (walkItems_agree _ v "" 0).1

def Leaf.form (l : Leaf) : String :=
  match l.value with
  | .scalar text => text
  | .str s => o.value s

def Leaf.pushes (l : Leaf) : List String :=
  match l.value with
  | .scalar text => [text]
  | .str s => if unpackTexts c o l.depth s ≠ [] then unpackTexts c o l.depth s else [o.value s]

/-- A walk over these leaves, begun with a count: the texts it pushes and the count it ends with. -/
def Walks (leaves : List Leaf) (count : Nat) (r : List DecodedValue × Nat) : Prop :=
  textsOf r.1 = (keptFrom count leaves).flatMap (·.pushes c o) ∧
    r.2 = count + (keptFrom count leaves).length

variable {c o}

variable {leaves : List Leaf} {count : Nat} {l : Leaf} {v : Json} {depth : Nat} {s : String}

theorem walks_none (h : keptFrom count leaves = []) : Walks c o leaves count ([], count) := by
  unfold Walks
  rw [h]
  exact ⟨rfl, rfl⟩

theorem walks_one (hroom : ¬ jsonMaxValues ≤ count) (hl : l.inReach = true)
    {values : List DecodedValue} (h : textsOf values = l.pushes c o) :
    Walks c o [l] count (values, count + 1) := by
  unfold Walks
  rw [keptFrom_singleton hroom hl]
  exact ⟨by simpa using h, rfl⟩

theorem Walks.append {a b : List Leaf} {r r' : List DecodedValue × Nat} (h : Walks c o a count r)
    (h' : Walks c o b r.2 r') : Walks c o (a ++ b) count (r.1 ++ r'.1, r'.2) := by
  obtain ⟨htexts, hcount⟩ := h
  obtain ⟨htexts', hcount'⟩ := h'
  rw [hcount] at htexts' hcount'
  constructor
  · rw [keptFrom_append, flatMap_append, ← htexts, ← htexts']
    exact map_append
  · rw [keptFrom_append, length_append, hcount']
    omega

theorem walks_foldl {γ : Type} {left depth : Nat} {g : γ → Json} {p : γ → String}
    (ih : ∀ v path count, Walks c o (v.leaves depth) count (walkJson c o left v path count))
    (l : List γ) {r : List DecodedValue × Nat} (h : Walks c o leaves count r) :
    Walks c o (leaves ++ l.flatMap fun x => (g x).leaves depth) count
      (l.foldl (fun st x => (st.1 ++ (walkJson c o left (g x) (p x) st.2).1,
        (walkJson c o left (g x) (p x) st.2).2)) r) := by
  induction l generalizing leaves r with
  | nil => simpa using h
  | cons x _ ihl =>
    rw [flatMap_cons, ← append_assoc, foldl_cons]
    exact ihl (h.append (ih (g x) (p x) r.2))

theorem walks_full (hfull : jsonMaxValues ≤ count) (left : Nat) (v : Json) (path : String)
    (leaves : List Leaf) : Walks c o leaves count (walkJson c o left v path count) := by
  rw [walkJson.eq_def]
  dsimp only
  rw [if_pos hfull]
  exact walks_none (keptFrom_of_full hfull leaves)

theorem walkJson_string {left depth count : Nat} (hdepth : depth + left = jsonMaxDepth)
    (hroom : ¬ jsonMaxValues ≤ count) (s path : String) :
    walkJson c o left (.string s) path count =
      if s = "" ∨ jsonMaxValueLen < byteLen s then ([], count)
      else if unpackStringAt c o depth s path ≠ [] then (unpackStringAt c o depth s path, count + 1)
      else pushCounted path (o.value s) count := by
  unfold unpackStringAt
  rw [walkJson.eq_def]
  dsimp only
  rw [if_neg hroom]
  cases left with
  | zero => rw [if_pos (show jsonMaxDepth ≤ depth by omega)]
  | succ left =>
    have hleft : jsonMaxDepth - (depth + 1) = left := by omega
    have hdeep : ¬ jsonMaxDepth ≤ depth := by omega
    cases nestedJson c s with
    | none => simp only [if_neg hdeep]
    | some _ => simp only [if_neg hdeep, hleft]

theorem walks_string {left depth count : Nat} (hdepth : depth + left = jsonMaxDepth)
    (hroom : ¬ jsonMaxValues ≤ count) (s path : String) :
    Walks c o ((Json.string s).leaves depth) count (walkJson c o left (.string s) path count) := by
  rw [walkJson_string hdepth hroom, leaves]
  by_cases hempty : s = ""
  · rw [if_pos hempty, if_pos (Or.inl hempty)]
    exact walks_none (keptFrom_nil _)
  · rw [if_neg hempty]
    by_cases hlong : jsonMaxValueLen < byteLen s
    · rw [if_pos (Or.inr hlong)]
      refine walks_none (keptFrom_eq_nil fun l hl => ?_)
      rw [mem_singleton.mp hl]
      simp [Leaf.inReach, hlong]
    · rw [if_neg (not_or.mpr ⟨hempty, hlong⟩)]
      have hreach : Leaf.inReach ⟨.str s, depth⟩ = true := by
        simp only [Leaf.inReach, Bool.and_eq_true, decide_eq_true_eq]
        omega
      have htexts := textsOf_unpackStringAt c o depth s path
      split
      · next hunpacked =>
        refine walks_one hroom hreach ?_
        have hsome : unpackTexts c o depth s ≠ [] := by
          rw [← htexts]
          simpa [textsOf] using hunpacked
        rw [htexts, Leaf.pushes]
        exact (if_pos hsome).symm
      · next hunpacked =>
        refine walks_one hroom hreach ?_
        have hnone : ¬ unpackTexts c o depth s ≠ [] := by
          rw [← htexts]
          simpa [textsOf] using hunpacked
        rw [Leaf.pushes]
        exact (if_neg hnone).symm

theorem walks_deepest (leaves : List Leaf) {path : String}
    (hleaves : ∀ l ∈ leaves, jsonMaxDepth + 1 ≤ l.depth)
    (hwalk : walkJson c o 0 v path count = ([], count)) :
    Walks c o leaves count (walkJson c o 0 v path count) := by
  rw [hwalk]
  refine walks_none (keptFrom_eq_nil fun l hl => ?_)
  have := hleaves l hl
  simp only [Leaf.inReach, Bool.and_eq_false_imp, decide_eq_true_eq]
  omega

theorem walks_step {left depth : Nat} (hdepth : depth + left = jsonMaxDepth)
    (hchild : ∀ below, left = below + 1 → ∀ v path count,
      Walks c o (v.leaves (depth + 1)) count (walkJson c o below v path count))
    (v : Json) (path : String) (count : Nat) :
    Walks c o (v.leaves depth) count (walkJson c o left v path count) := by
  by_cases hroom : jsonMaxValues ≤ count
  · exact walks_full hroom left v path _
  · cases v with
    | null =>
      rw [walkJson.eq_def, leaves]
      dsimp only
      rw [if_neg hroom]
      exact walks_none (keptFrom_nil _)
    | bool _ | number _ =>
      rw [walkJson.eq_def, leaves]
      dsimp only
      rw [if_neg hroom]
      exact walks_one hroom (scalar_inReach hdepth _) rfl
    | string s => exact walks_string hdepth hroom s path
    | array items =>
      cases left with
      | zero =>
        refine walks_deepest _ (fun l hl => ?_) ?_
        · rw [leaves] at hl
          exact hdepth ▸ depth_le_of_mem_items items hl
        · rw [walkJson.eq_def]
          exact if_neg hroom
      | succ left =>
        rw [walkJson.eq_def, leaves, leavesOfItems_eq_flatMap, flatMap_zipIdx]
        dsimp only
        rw [if_neg hroom]
        exact walks_foldl (hchild left rfl) items.zipIdx (walks_none (keptFrom_nil _))
    | object members =>
      cases left with
      | zero =>
        refine walks_deepest _ (fun l hl => ?_) ?_
        · rw [leaves] at hl
          exact hdepth ▸ depth_le_of_mem_members members hl
        · rw [walkJson.eq_def]
          exact if_neg hroom
      | succ left =>
        rw [walkJson.eq_def, leaves, leavesOfMembers_eq_flatMap]
        dsimp only
        rw [if_neg hroom]
        exact walks_foldl (hchild left rfl) members (walks_none (keptFrom_nil _))

theorem walkJson_texts (left : Nat) : ∀ (depth : Nat), depth + left = jsonMaxDepth →
    ∀ v path count, Walks c o (v.leaves depth) count (walkJson c o left v path count) := by
  induction left with
  | zero => exact fun depth hdepth => walks_step hdepth nofun
  | succ _ ih =>
    intro depth hdepth
    refine walks_step hdepth fun below hbelow => ?_
    obtain rfl := Nat.succ.inj hbelow
    exact ih (depth + 1) (by omega)

/-! ## Strings that are unpacked -/

variable (c) in
/-- The string is JSON with a leaf in reach, so it is replaced. -/
def Unpacks (depth : Nat) (s : String) : Prop :=
  depth < jsonMaxDepth ∧ ∃ v, nestedJson c s = some v ∧ ∃ l ∈ v.leaves (depth + 1), l.inReach = true

/-- The leaves within the count. -/
def Json.kept (v : Json) (depth : Nat) : List Leaf := keptFrom 0 (v.leaves depth)

theorem unpackTexts_eq (hdepth : depth < jsonMaxDepth) (hv : nestedJson c s = some v) :
    unpackTexts c o depth s = (v.kept (depth + 1)).flatMap (·.pushes c o) := by
  have hwalk := walkJson_texts (c := c) (o := o) (jsonMaxDepth - (depth + 1)) (depth + 1)
    (by omega) v "" 0
  unfold unpackTexts unpackStringAt
  rw [if_neg (by omega), hv]
  exact hwalk.1

theorem pushes_ne_nil (l : Leaf) : l.pushes c o ≠ [] := by
  unfold Leaf.pushes
  cases l.value with
  | scalar _ => simp
  | str _ =>
    dsimp only
    split
    · assumption
    · simp

theorem kept_ne_nil_iff : v.kept depth ≠ [] ↔ ∃ l ∈ v.leaves depth, l.inReach = true := by
  unfold kept keptFrom
  rw [ne_eq, take_eq_nil_iff, not_or, filter_eq_nil_iff]
  have hroom : jsonMaxValues ≠ 0 := by decide
  simp [hroom]

theorem unpackTexts_ne_nil_iff : unpackTexts c o depth s ≠ [] ↔ Unpacks c depth s := by
  constructor
  · intro h
    by_cases hdepth : depth < jsonMaxDepth
    · cases hv : nestedJson c s with
      | none =>
        unfold unpackTexts unpackStringAt at h
        rw [hv] at h
        split at h
        · exact absurd rfl h
        · exact absurd rfl h
      | some v =>
        rw [unpackTexts_eq hdepth hv] at h
        refine ⟨hdepth, v, hv, kept_ne_nil_iff.mp fun hnil => h ?_⟩
        rw [hnil]
        rfl
    · unfold unpackTexts unpackStringAt at h
      rw [if_pos (by omega)] at h
      exact absurd rfl h
  · rintro ⟨hdepth, v, hv, hreach⟩
    have hkept : v.kept (depth + 1) ≠ [] := kept_ne_nil_iff.mpr hreach
    rw [unpackTexts_eq hdepth hv]
    obtain ⟨l, rest, hcons⟩ := exists_cons_of_ne_nil hkept
    rw [hcons, flatMap_cons]
    exact append_ne_nil_of_left_ne_nil (pushes_ne_nil l) _

/-! ## What is left out -/

variable (c o) in
/-- The leaf is accounted for by these texts: by its own form, or, if it is serialized JSON, by the
leaves of that. -/
inductive Reached (has : String → Prop) : Leaf → Prop
  | direct {l : Leaf} : has (l.form o) → Reached has l
  | unpacked {s : String} {depth : Nat} {v : Json} : Unpacks c depth s → nestedJson c s = some v →
      (∀ l ∈ v.leaves (depth + 1), Reached has l) → Reached has ⟨.str s, depth⟩

variable (c o) in
/-- The text is the form of a leaf that is kept, in the JSON that the string holds or in that of a
string that is kept and unpacked in its turn. -/
inductive KeptForm : Nat → String → String → Prop
  | plain {depth : Nat} {s : String} {v : Json} {l : Leaf} : nestedJson c s = some v →
      l ∈ v.kept (depth + 1) → (∀ t, l.value = .str t → ¬ Unpacks c l.depth t) →
      KeptForm depth s (l.form o)
  | deeper {depth : Nat} {s : String} {v : Json} {t : String} {below : Nat} {text : String} :
      nestedJson c s = some v → ⟨.str t, below⟩ ∈ v.kept (depth + 1) → Unpacks c below t →
      KeptForm below t text → KeptForm depth s text

/-- A cap leaves the leaf out: it is too deep or too long, or comes after as many as are kept. -/
def LeftOutOf (leaves : List Leaf) (l : Leaf) : Prop :=
  ∃ before after, leaves = before ++ l :: after ∧
    (l.inReach = false ∨ jsonMaxValues ≤ (before.filter (·.inReach)).length)

variable (c o) in
/-- A leaf that a cap leaves out, in the JSON that the string holds or in that of a string that is
unpacked in its turn, and whose own form is not there. -/
inductive LeftOut (has : String → Prop) : Nat → String → Leaf → Prop
  | here {depth : Nat} {s : String} {v : Json} {l : Leaf} : nestedJson c s = some v →
      LeftOutOf (v.leaves (depth + 1)) l → LeftOut has depth s l
  | deeper {depth : Nat} {s : String} {v : Json} {t : String} {below : Nat} {l : Leaf} :
      nestedJson c s = some v → ⟨.str t, below⟩ ∈ v.kept (depth + 1) → Unpacks c below t →
      ¬ has (o.value t) → LeftOut has below t l → LeftOut has depth s l

theorem mem_kept_or_leftOutOf (h : l ∈ v.leaves depth) :
    l ∈ v.kept depth ∨ LeftOutOf (v.leaves depth) l := by
  obtain ⟨before, after, hsplit⟩ := append_of_mem h
  by_cases hout : l.inReach = false ∨ jsonMaxValues ≤ (before.filter (·.inReach)).length
  · exact .inr ⟨before, after, hsplit, hout⟩
  · rw [not_or, Bool.not_eq_false, Nat.not_le] at hout
    left
    unfold kept keptFrom
    rw [hsplit, filter_append, filter_cons_of_pos hout.1, take_append]
    refine mem_append_right _ ?_
    obtain ⟨room, hroom⟩ : ∃ room, jsonMaxValues - 0 - (before.filter (·.inReach)).length = room + 1 :=
      ⟨jsonMaxValues - 0 - (before.filter (·.inReach)).length - 1, by omega⟩
    rw [hroom, take_succ_cons]
    exact mem_cons_self

theorem mem_leaves_of_leftOutOf (h : LeftOutOf leaves l) : l ∈ leaves := by
  obtain ⟨before, after, rfl, -⟩ := h
  simp

theorem mem_leaves_of_mem_kept (h : l ∈ v.kept depth) :
    l ∈ v.leaves depth :=
  mem_of_mem_filter (mem_of_mem_take h)

theorem pushes_of_not_unpacks (h : ∀ t, l.value = .str t → ¬ Unpacks c l.depth t) :
    l.pushes c o = [l.form o] := by
  unfold Leaf.pushes Leaf.form
  cases hl : l.value with
  | scalar _ => rfl
  | str t => exact if_neg fun hne => h t hl (unpackTexts_ne_nil_iff.mp hne)

theorem pushes_of_unpacks {t : String} (h : Unpacks c depth t) :
    Leaf.pushes c o ⟨.str t, depth⟩ = unpackTexts c o depth t :=
  if_pos (unpackTexts_ne_nil_iff.mpr h)

theorem lt_of_mem_kept (h : l ∈ v.kept (depth + 1)) :
    depth < l.depth :=
  depth_le_of_mem_leaves v (mem_leaves_of_mem_kept h)

theorem mem_unpackTexts_iff {s text : String} (h : Unpacks c depth s) :
    text ∈ unpackTexts c o depth s ↔ KeptForm c o depth s text := by
  constructor
  · -- the strings that are unpacked lie deeper and deeper
    generalize hleft : jsonMaxDepth - depth = left
    induction left using Nat.strong_induction_on generalizing depth s with
    | _ _ ih =>
      intro hmem
      obtain ⟨hdepth, v, hv, -⟩ := h
      rw [unpackTexts_eq hdepth hv, mem_flatMap] at hmem
      obtain ⟨l, hl, htext⟩ := hmem
      by_cases hplain : ∀ t, l.value = .str t → ¬ Unpacks c l.depth t
      · rw [pushes_of_not_unpacks hplain, mem_singleton] at htext
        rw [htext]
        exact .plain hv hl hplain
      · push Not at hplain
        obtain ⟨t, ht, hunpacks⟩ := hplain
        obtain ⟨value, below⟩ := l
        obtain rfl : value = .str t := ht
        rw [pushes_of_unpacks hunpacks] at htext
        have hlt : depth < below := lt_of_mem_kept hl
        exact .deeper hv hl hunpacks (ih _ (by omega) hunpacks rfl htext)
  · intro hform
    induction hform with
    | plain hv hl hplain =>
      rw [unpackTexts_eq h.1 hv, mem_flatMap]
      refine ⟨_, hl, ?_⟩
      rw [pushes_of_not_unpacks hplain]
      exact mem_singleton_self _
    | deeper hv hl hunpacks _ ih =>
      rw [unpackTexts_eq h.1 hv, mem_flatMap]
      refine ⟨_, hl, ?_⟩
      rw [pushes_of_unpacks hunpacks]
      exact ih hunpacks

theorem reached_of_leftOut {has : String → Prop} (h : Unpacks c depth s)
    (hkept : ∀ text, KeptForm c o depth s text → has text)
    (hout : ∀ l, LeftOut c o has depth s l → Reached c o has l) (hv : nestedJson c s = some v) :
    ∀ l ∈ v.leaves (depth + 1), Reached c o has l := by
  generalize hleft : jsonMaxDepth - depth = left
  induction left using Nat.strong_induction_on generalizing depth s v with
  | _ _ ih =>
    intro l hl
    rcases mem_kept_or_leftOutOf hl with hkeep | hleftOut
    · by_cases hplain : ∀ t, l.value = .str t → ¬ Unpacks c l.depth t
      · exact .direct (hkept _ (.plain hv hkeep hplain))
      · push Not at hplain
        obtain ⟨t, ht, hunpacks⟩ := hplain
        obtain ⟨value, below⟩ := l
        obtain rfl : value = .str t := ht
        by_cases hthere : has (o.value t)
        · exact .direct hthere
        · have hlt : depth < below := lt_of_mem_kept hkeep
          have hbelow : below < jsonMaxDepth := hunpacks.1
          obtain ⟨-, w, hw, -⟩ := id hunpacks
          refine .unpacked hunpacks hw (ih (jsonMaxDepth - below) ?_ hunpacks ?_ ?_ hw rfl)
          · omega
          · exact fun text htext => hkept text (.deeper hv hkeep hunpacks htext)
          · exact fun l hl => hout l (.deeper hv hkeep hunpacks hthere hl)
    · exact hout l (.here hv hleftOut)

theorem reached_of_all {has : String → Prop} (hl : LeftOut c o has depth s l)
    (hall : ∀ v, nestedJson c s = some v → ∀ l ∈ v.leaves (depth + 1), Reached c o has l) :
    Reached c o has l := by
  induction hl with
  | here hv hleftOut => exact hall _ hv _ (mem_leaves_of_leftOutOf hleftOut)
  | deeper hv hkeep _ hthere _ ih =>
    have hreached := hall _ hv _ (mem_leaves_of_mem_kept hkeep)
    refine ih fun w hw => ?_
    cases hreached with
    | direct hform => exact absurd hform hthere
    | unpacked _ hw' hleaves =>
      rw [hw] at hw'
      cases hw'
      exact hleaves

end

section

variable (c : Crates) (o : DecodeOpts)

/-- **When the members of a string stand for all of it.** Whatever the depth, if the string is
replaced by its members, every leaf of its JSON is accounted for by them exactly if this holds of
each leaf that a cap leaves out. -/
theorem unpack_loses_nothing_iff (depth : Nat) (s path : String) :
    (unpackStringAt c o depth s path ≠ [] → ∀ v, nestedJson c s = some v →
        ∀ l ∈ v.leaves (depth + 1),
          Reached c o (· ∈ textsOf (unpackStringAt c o depth s path)) l) ↔
      (Unpacks c depth s → ∀ l, LeftOut c o (KeptForm c o depth s) depth s l →
        Reached c o (KeptForm c o depth s) l) := by
  have hunpacks : unpackStringAt c o depth s path ≠ [] ↔ Unpacks c depth s := by
    rw [← unpackTexts_ne_nil_iff (o := o), ← textsOf_unpackStringAt c o depth s path, textsOf, ne_eq,
      ne_eq, map_eq_nil_iff]
  rw [hunpacks, textsOf_unpackStringAt]
  refine forall_congr' fun h => ?_
  have hforms : (· ∈ unpackTexts c o depth s) = KeptForm c o depth s :=
    funext fun text => propext (mem_unpackTexts_iff h)
  rw [hforms]
  constructor
  · exact fun hall l hl => reached_of_all hl hall
  · exact fun hout v hv => reached_of_leftOut h (fun _ htext => htext) hout hv

end

def deepText : String := "[2,[[[[[\"evil\"]]]]]]"

def deepValue : Json :=
  .array [.number "2", .array [.array [.array [.array [.array [.string "evil"]]]]]]

def deepCrates : Crates :=
  { Crates.inert with jsonFromStr := fun s => if s = deepText then some deepValue else none }

/-- The number stands for the whole string, and the member at the bottom is lost. -/
theorem deep_member_is_lost :
    unpackStringAt deepCrates ⟨3, false⟩ 0 deepText "q" ≠ [] ∧
      nestedJson deepCrates deepText = some deepValue ∧
      ∃ l ∈ deepValue.leaves 1, ¬ Reached deepCrates ⟨3, false⟩
        (· ∈ textsOf (unpackStringAt deepCrates ⟨3, false⟩ 0 deepText "q")) l := by
  have hjson : nestedJson deepCrates deepText = some deepValue := rfl
  have htexts : textsOf (unpackStringAt deepCrates ⟨3, false⟩ 0 deepText "q") = ["2"] := by
    decide +kernel
  refine ⟨by decide +kernel, hjson, ⟨.str "evil", 7⟩, by decide +kernel, ?_⟩
  rw [htexts]
  intro h
  cases h with
  | direct hform =>
    have hother : Leaf.form ⟨3, false⟩ ⟨.str "evil", 7⟩ = "evil" := by decide +kernel
    rw [hother] at hform
    exact absurd hform (by decide)
  | unpacked hunpacks _ _ => exact absurd hunpacks.1 (by decide)

end PingWaf.Waf
