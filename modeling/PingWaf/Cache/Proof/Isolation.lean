import PingWaf.Cache.Storage

/-!
# Whose objects a lookup returns

An object leaves the storage under the key that it was stored under (`run_keyed`), and the key is
one text in which nothing tells where a part ends: what two requests share is decided by the pieces
between the colons (`primary_eq_iff`).
-/

namespace PingWaf.Cache

open Text Waf Plugin List Storage CachePlugin

variable {k : Primitives}

/-! ## The text of a key -/

namespace CacheUse

variable (u : CacheUse k)

def nameSpace : String := (u.plugin.effectiveNamespace k u.visit).getD ""

/-- The parts of the key behind the name space, in order. -/
def keyParts : List String :=
  u.earlierKeys ++ u.plugin.keyValues k u.visit ++
    (if u.visit.host = "" then [] else [u.visit.host]) ++ [u.visit.header.method]

def headed (nameSpace : String) : List String → List String
  | [] => []
  | part :: parts => (nameSpace ++ part) :: parts

/-- All that is left of the parts once they are cut at their colons. -/
def keyPieces : List String :=
  (headed u.nameSpace u.keyParts).flatMap (splitChar ':') ++ splitChar ':' u.visit.uri

theorem info_nameSpace : u.info.nameSpace.getD "" = u.nameSpace := by
  rw [info_of_continue u.continues, (applyRule_key _ _).1,
    keyInfo_nameSpace]
  rfl

theorem info_keys :
    u.info.keys.getD [] = u.earlierKeys ++ u.plugin.keyValues k u.visit := by
  rw [info_of_continue u.continues, (applyRule_key _ _).2,
    keyInfo_keys]
  rfl

theorem framed_headed (c : Char) (nameSpace last : String) {parts : List String}
    (h : parts ≠ []) :
    nameSpace ++ framed c parts last = framed c (headed nameSpace parts) last := by
  cases parts with
  | nil => exact absurd rfl h
  | cons _ _ =>
    rw [headed, framed_cons, framed_cons, String.append_assoc, String.append_assoc,
      String.append_assoc]

theorem key_primary (variance : Option (List UInt8)) :
    (u.key variance).primary = u.nameSpace ++ framed ':' u.keyParts u.visit.uri := by
  rw [← foldl_push_eq_framed]
  unfold keyParts
  rw [foldl_append, foldl_append, ← info_keys, ← info_nameSpace]
  unfold key getCacheKey
  dsimp only
  split <;> rfl

theorem splitChar_primary (variance : Option (List UInt8)) :
    splitChar ':' (u.key variance).primary = u.keyPieces := by
  have hparts : u.keyParts ≠ [] := by simp [keyParts]
  rw [key_primary, framed_headed _ _ _ hparts, splitChar_framed]
  rfl

theorem primary_eq_iff (u₁ u₂ : CacheUse k) (v₁ v₂ : Option (List UInt8)) :
    (u₁.key v₁).primary = (u₂.key v₂).primary ↔ u₁.keyPieces = u₂.keyPieces := by
  rw [← splitChar_primary u₁ v₁, ← splitChar_primary u₂ v₂]
  exact (splitChar_injective ':').eq_iff.symm

end CacheUse

/-! ## Objects stay under their key -/

/-- The request that stored the object asks for it with this key. -/
def Filed.KeyedBy (o : Filed k) (key : String) : Prop :=
  ∃ variance, (o.storedBy.key variance).combined k = key

namespace Storage

/-- Every object stands under a key of the request that stored it. -/
structure Keyed (st : Storage k) : Prop where
  memory : st.memory.Each fun hash o => ∃ key, k.hashOne key = hash ∧ o.KeyedBy key
  disk : st.disk.Each fun path o => o.KeyedBy path.name

variable {st : Storage k} {b : Backend} {limits : Pressure} {key nameSpace : String} {o : Filed k}

theorem keyed_empty : (empty : Storage k).Keyed := ⟨Table.each_empty, Table.each_empty⟩

theorem Keyed.memoryPut (h : st.Keyed) (ho : o.KeyedBy key) : (st.memoryPut key o).Keyed :=
  ⟨h.memory.insert ⟨key, rfl, ho⟩, h.disk⟩

theorem Keyed.memoryRemove (h : st.Keyed) (key : String) : (st.memoryRemove key).Keyed :=
  ⟨h.memory.erase _, h.disk⟩

theorem Keyed.memoryGet (hk : k.Lawful) (h : st.Keyed) (hget : st.memoryGet key = some o) :
    o.KeyedBy key := by
  obtain ⟨key', hhash, ho⟩ := h.memory _ _ hget
  rwa [hk.hashOne_inj hhash] at ho

theorem Keyed.putHot (h : st.Keyed) (c : FileCache) (ho : o.KeyedBy key) :
    (putHot c st key o).Keyed := by
  unfold Storage.putHot
  split
  · exact h
  split
  · exact h
  · exact h.memoryPut ho

theorem Keyed.get (hk : k.Lawful) (h : st.Keyed) :
    (∀ o, (st.get b limits key nameSpace).1 = some o → o.KeyedBy key) ∧
      (st.get b limits key nameSpace).2.Keyed := by
  cases b with
  | tinyUfo => exact ⟨fun o hget => h.memoryGet hk hget, h⟩
  | file c =>
    unfold get readEntry
    dsimp only
    split
    · next o hhot =>
      refine ⟨?_, h⟩
      rintro _ ⟨⟩
      rw [ite_eq_iff] at hhot
      obtain ⟨_, hget⟩ | ⟨_, hnone⟩ := hhot
      · exact h.memoryGet hk hget
      · cases hnone
    · split
      · exact ⟨fun _ hnone => absurd hnone.symm (Option.some_ne_none _), h⟩
      split
      · exact ⟨fun _ hnone => absurd hnone.symm (Option.some_ne_none _), h⟩
      · next o hdisk =>
        have ho : o.KeyedBy key := h.disk _ _ hdisk
        refine ⟨?_, ?_⟩
        · rintro _ ⟨⟩
          exact ho
        · dsimp only
          split
          · exact h.putHot c ho
          · exact h

theorem Keyed.put (h : st.Keyed) (ho : o.KeyedBy key) :
    (st.put b limits key nameSpace o).Keyed := by
  cases b with
  | tinyUfo => exact h.memoryPut ho
  | file c =>
    unfold put putFile
    dsimp only
    split
    · exact h.putHot c ho
    · exact ⟨(h.putHot c ho).memory, (h.putHot c ho).disk.insert ho⟩

theorem Keyed.remove (h : st.Keyed) : (st.remove b key nameSpace).2.Keyed := by
  cases b with
  | tinyUfo => exact h.memoryRemove key
  | file _ =>
    unfold remove removeFile
    dsimp only
    split
    · exact ⟨(h.memoryRemove key).memory, h.disk.erase _⟩
    · exact ⟨h.memory, h.disk.erase _⟩

theorem step_keyed (hk : k.Lawful) (h : st.Keyed) (op : Op k) : (step b st op).Keyed := by
  cases op with
  | lookup _ _ _ => exact (h.get hk).2
  | finish _ variance _ _ => exact h.put ⟨variance, rfl⟩
  | updateMeta u variance limits _ _ =>
    obtain ⟨hfound, hst⟩ := @Keyed.get k st b limits ((u.key variance).combined k)
      (u.key variance).userTag hk h
    unfold step updateMeta
    dsimp only
    split
    · next o st' hget =>
      rw [hget] at hfound hst
      -- The object keeps its owner, so the key it was found under is still its own.
      exact hst.put (hfound o rfl)
    · next st' hget =>
      rw [hget] at hst
      exact hst
  | purge _ => exact h.remove
  | drop _ _ => exact ⟨h.memory.retain _, h.disk.retain _⟩

theorem run_keyed (hk : k.Lawful) (h : st.Keyed) (ops : List (Op k)) : (run b st ops).Keyed := by
  unfold run
  induction ops generalizing st with
  | nil => exact h
  | cons op _ ih => exact ih (step_keyed hk h op)

end Storage

/-! ## Isolation -/

/-- Whatever the backend and whatever has happened to it, no lookup of the second request returns
an object that the first has stored. -/
def Isolated (u₁ u₂ : CacheUse k) : Prop :=
  ∀ (b : Backend) (ops : List (Storage.Op k)) (variance : Option (List UInt8))
    (limits : Storage.Pressure) (o : Filed k),
    ((Storage.run b .empty ops).lookup b limits (u₂.key variance)).1 = some o → o.storedBy ≠ u₁

theorem isolated_of_pieces (hk : k.Lawful) {u₁ u₂ : CacheUse k}
    (h : u₁.keyPieces ≠ u₂.keyPieces) : Isolated u₁ u₂ := by
  rintro b ops variance limits o hget rfl
  have hkeyed := run_keyed (b := b) hk keyed_empty ops
  obtain ⟨variance', hcombined⟩ := (hkeyed.get hk).1 o hget
  have hprimary := (hk.combined_inj hcombined).1
  exact h ((CacheUse.primary_eq_iff _ _ _ _).mp hprimary)

theorem not_isolated_of_pieces {u₁ u₂ : CacheUse k} (h : u₁.keyPieces = u₂.keyPieces) :
    ¬Isolated u₁ u₂ := by
  intro hisolated
  let object : CacheObject := ⟨[], [], []⟩
  let limits : Storage.Pressure := ⟨false, false⟩
  refine hisolated .tinyUfo [.finish u₁ none limits object] none limits ⟨object, u₁⟩ ?_ rfl
  have hprimary : (u₁.key none).primary = (u₂.key none).primary :=
    (CacheUse.primary_eq_iff u₁ u₂ none none).mpr h
  have hcombined : (u₂.key none).combined k = (u₁.key none).combined k :=
    congrArg (k.combined · none) hprimary.symm
  show memoryGet (memoryPut .empty _ _) ((u₂.key none).combined k) = _
  rw [hcombined]
  exact AList.lookup_insert _

/-- **Isolation** is a matter of the pieces between colons, nothing else. -/
theorem cache_isolated_iff (hk : k.Lawful) (u₁ u₂ : CacheUse k) :
    Isolated u₁ u₂ ↔ u₁.keyPieces ≠ u₂.keyPieces :=
  ⟨fun h hpieces => not_isolated_of_pieces hpieces h, isolated_of_pieces hk⟩

/-! ## Two headers, one value -/

def Primitives.plain : Primitives where
  crates := Crates.inert
  toStrLossy := latin1
  combined primary variance :=
    String.ofList (List.replicate (Encodable.encode (variance.map (·.map UInt8.toNat))) 'v') ++
      String.singleton ':' ++ primary
  hashOne s := Encodable.encode (s.toList.map Char.toNat)
  resolveDir := id

theorem Primitives.plain_lawful : Primitives.plain.Lawful where
  combined_inj {p p' v v'} h := by
    have hmem : ∀ n : Nat, ':' ∉ (String.ofList (replicate n 'v')).toList := by
      intro n hn
      rw [String.toList_ofList, mem_replicate] at hn
      exact absurd hn.2 (by decide)
    have hcut := congrArg (splitOnce ':') h
    simp only [Primitives.plain] at hcut
    rw [splitOnce_append (hmem _), splitOnce_append (hmem _)] at hcut
    obtain ⟨hv, hp⟩ := Prod.mk.inj (Option.some.inj hcut)
    have hlen := congrArg (·.toList.length) hv
    simp only [String.toList_ofList, length_replicate] at hlen
    have hbytes : Function.Injective (Option.map (map UInt8.toNat)) :=
      Option.map_injective (map_injective_iff.mpr fun _ _ => UInt8.toNat_inj.mp)
    exact ⟨hp, hbytes (Encodable.encode_injective hlen)⟩
  hashOne_inj {s t} h := by
    have hchars := Encodable.encode_injective h
    exact String.toList_injective
      (map_injective_iff.mpr (fun _ _ => Char.toNat_inj.mp) hchars)

/-- A plugin without an agent that tells languages and devices apart. -/
def shopCache : CachePlugin where
  nameSpace := none
  headers := some ["X-Lang", "X-Device"]
  maxTtl := none
  varyHeaders := none
  checkCacheControl := false
  purgeIpRules := ⟨[], []⟩
  skip := none
  agentRules _ := none

/-- A request for the start page with one header besides the host. -/
def shopVisit (line : HeaderLine) : CacheVisit where
  step := .request
  header := ⟨"GET", none, "/", none, [⟨"host", utf8Encode "shop"⟩, line]⟩
  scheme := none
  authority := none
  clientIp := "192.0.2.7"
  tls := true
  cache := none

def shopInfo (key : String) : CacheInfo := { CacheInfo.default with keys := some [key] }

def malteseUse : CacheUse .plain :=
  ⟨shopCache, shopVisit ⟨"x-lang", utf8Encode "m"⟩, shopInfo "m", by decide +kernel⟩

def mobileUse : CacheUse .plain :=
  ⟨shopCache, shopVisit ⟨"x-device", utf8Encode "m"⟩, shopInfo "m", by decide +kernel⟩

def frenchUse : CacheUse .plain :=
  ⟨shopCache, shopVisit ⟨"x-lang", utf8Encode "f"⟩, shopInfo "f", by decide +kernel⟩

theorem languages_isolated : Isolated malteseUse frenchUse :=
  (cache_isolated_iff Primitives.plain_lawful malteseUse frenchUse).mpr (by decide +kernel)

/-- The requests differ in something that the key is meant to tell apart. -/
def Differ (u₁ u₂ : CacheUse k) : Prop :=
  u₁.nameSpace ≠ u₂.nameSpace ∨
  (∃ name ∈ u₁.plugin.keyHeaders k u₁.visit ++ u₂.plugin.keyHeaders k u₂.visit,
    u₁.visit.header.get (toAsciiLowercase name) ≠ u₂.visit.header.get (toAsciiLowercase name)) ∨
  u₁.visit.host ≠ u₂.visit.host ∨
  u₁.visit.header.method ≠ u₂.visit.header.method ∨
  u₁.visit.uri ≠ u₂.visit.uri

/-- The page stored for a language is served to a device of the same name. -/
theorem language_page_served_to_device :
    Differ malteseUse mobileUse ∧ ¬Isolated malteseUse mobileUse :=
  ⟨.inr (.inl (by decide +kernel)), not_isolated_of_pieces (by decide +kernel)⟩

end PingWaf.Cache
