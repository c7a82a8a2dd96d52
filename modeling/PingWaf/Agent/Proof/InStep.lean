import PingWaf.Lib.Framing
import PingWaf.Agent.Blocks

/-!
# The map of blocks and the index of ranges

Every operation keeps the two in step (`InStep`) as long as the sites that blocks are stored under
have no colon in their ids: the first colon of a key is taken for the end of its site.
-/

namespace PingWaf.Agent

open Text Net List BlockTables
open Waf (Crates)

variable {c : Crates} {t : BlockTables} {key site : String} {ce : CidrEntry}

/-! ## Keys -/

variable {siteId : String}

theorem splitOnce_blockKey (h : ':' ∉ siteId.toList) (ip : String) :
    splitOnce ':' (blockKey siteId ip) = some (siteId, ip) :=
  splitOnce_append h

theorem blockKey_inj {a b ip ip' : String} (ha : ':' ∉ a.toList) (hb : ':' ∉ b.toList) :
    blockKey a ip = blockKey b ip' ↔ a = b ∧ ip = ip' := by
  constructor
  · intro h
    have hsplit := splitOnce_blockKey ha ip
    rw [h, splitOnce_blockKey hb, Option.some.injEq] at hsplit
    obtain ⟨rfl, rfl⟩ := Prod.mk.inj hsplit
    exact ⟨rfl, rfl⟩
  · rintro ⟨rfl, rfl⟩
    rfl

theorem hasPrefix_blockKey {a b : String} (ha : ':' ∉ a.toList) (hb : ':' ∉ b.toList)
    (ip : String) : hasPrefix (blockKey a ip) (b ++ ":") = true ↔ a = b := by
  constructor
  · intro h
    unfold hasPrefix at h
    rw [ isPrefixOf_iff_prefix] at h
    obtain ⟨rest, hrest⟩ := h
    have hkey : blockKey a ip = blockKey b (String.ofList rest) := by
      apply String.toList_injective
      rw [← hrest, blockKey, String.toList_append (s := b ++ ":"), String.toList_ofList]
    exact ((blockKey_inj ha hb).mp hkey).1
  · rintro rfl
    unfold hasPrefix
    rw [ isPrefixOf_iff_prefix, blockKey, String.toList_append (s := a ++ ":")]
    exact prefix_append _ _

/-! ## The invariant -/

/-- Every block lies under its own key, and the index of a site holds exactly the ranges among the
blocks of that site, each once and with the block's expiry. -/
structure InStep (c : Crates) (t : BlockTables) : Prop where
  keyed : ∀ key e, t.blockedIps.lookup key = some e →
    key = blockKey e.siteId e.ip ∧ ':' ∉ e.siteId.toList
  indexed : ∀ site ce, ce ∈ t.index site ↔
    ∃ e, t.blockedIps.lookup ce.key = some e ∧ e.siteId = site ∧
      parseEntryNet c e.ip = some ce.net ∧ ce.expiresAt = e.expiresAt
  distinct : ∀ site, ((t.index site).map CidrEntry.key).Nodup

theorem index_empty (site : String) : empty.index site = [] := by
  rw [index, empty, AList.lookup_empty]
  rfl

theorem inStep_empty (c : Crates) : InStep c .empty where
  keyed key e h := by
    rw [empty, AList.lookup_empty] at h
    cases h
  indexed site ce := by
    rw [index_empty, empty, AList.lookup_empty]
    simp
  distinct site := by
    rw [index_empty]
    exact nodup_nil

theorem mem_keysWhere {p : String → BlockedIpEntry → Bool} :
    key ∈ t.keysWhere p ↔ ∃ e, t.blockedIps.lookup key = some e ∧ p key e = true := by
  unfold keysWhere
  rw [mem_map]
  constructor
  · rintro ⟨⟨k, e⟩, hmem, rfl⟩
    obtain ⟨hmem, hp⟩ := mem_filter.mp hmem
    exact ⟨e, AList.mem_lookup_iff.mpr hmem, hp⟩
  · rintro ⟨e, hlook, hp⟩
    exact ⟨⟨key, e⟩, mem_filter.mpr ⟨AList.mem_lookup_iff.mp hlook, hp⟩, rfl⟩

/-! ## Removal -/

@[simp] theorem blockedIps_indexRemoveKey (t : BlockTables) (key : String) :
    (t.indexRemoveKey key).blockedIps = t.blockedIps := by
  unfold indexRemoveKey
  split
  · rfl
  · split
    · rfl
    · rfl

theorem blockedIps_removeKey (t : BlockTables) (key : String) :
    (t.removeKey key).blockedIps = t.blockedIps.erase key :=
  blockedIps_indexRemoveKey _ _

theorem index_insert (t : BlockTables) (m : Table String BlockedIpEntry) (s : String)
    (entries : List CidrEntry) (site : String) :
    index ⟨m, t.cidrIndex.insert s entries⟩ site =
      if site = s then entries else t.index site := by
  unfold index
  split
  · next h =>
    subst h
    rw [AList.lookup_insert]
    rfl
  · next h => rw [AList.lookup_insert_ne h]

/-- The site whose part of the index a key belongs to. -/
def keySite (key : String) : Option String := (splitOnce ':' key).map (·.1)

theorem index_indexRemoveKey (t : BlockTables) (key site : String) :
    (t.indexRemoveKey key).index site =
      if keySite key = some site then (t.index site).filter fun e => e.key ≠ key
      else t.index site := by
  unfold indexRemoveKey keySite
  cases splitOnce ':' key with
  | none => rfl
  | some p =>
    simp only [Option.map_some, Option.some.injEq]
    cases hlook : t.cidrIndex.lookup p.1 with
    | none =>
      dsimp only
      split
      · next hs =>
        subst hs
        simp [index, hlook]
      · rfl
    | some entries =>
      dsimp only
      rw [index_insert]
      split
      · next hs => rw [if_pos hs.symm, hs, index, hlook]; rfl
      · next hs => rw [if_neg (Ne.symm hs)]

theorem InStep.keySite_eq (h : InStep c t) (hmem : ce ∈ t.index site) :
    keySite ce.key = some site := by
  obtain ⟨e, hlook, rfl, -⟩ := (h.indexed site ce).mp hmem
  obtain ⟨hkey, hcolon⟩ := h.keyed _ _ hlook
  rw [keySite, hkey, splitOnce_blockKey hcolon]
  rfl

theorem InStep.index_removeKey (h : InStep c t) (key site : String) :
    (t.removeKey key).index site = (t.index site).filter fun e => e.key ≠ key := by
  rw [BlockTables.removeKey, index_indexRemoveKey]
  split
  · rfl
  · next hsite =>
    -- where the site's part is left as it is, it holds no entry of the key
    refine (filter_eq_self.mpr fun e he => ?_).symm
    have hne : e.key ≠ key := fun hkey => hsite (hkey ▸ h.keySite_eq he)
    simpa using hne

theorem InStep.removeKey (h : InStep c t) (key : String) : InStep c (t.removeKey key) := by
  refine ⟨fun k e hlook => ?_, fun site ce => ?_, fun site => ?_⟩
  · rw [blockedIps_removeKey] at hlook
    by_cases hk : k = key
    · rw [hk, AList.lookup_erase] at hlook
      cases hlook
    · rw [AList.lookup_erase_ne hk] at hlook
      exact h.keyed k e hlook
  · rw [h.index_removeKey, mem_filter, h.indexed, blockedIps_removeKey]
    by_cases hk : ce.key = key
    · have hgone : (t.blockedIps.erase key).lookup ce.key = none := by
        rw [hk, AList.lookup_erase]
      simp [hk, hgone]
    · simp [hk, AList.lookup_erase_ne hk]
  · rw [h.index_removeKey]
    exact (h.distinct site).sublist (filter_sublist.map _)

theorem InStep.removeKeys (h : InStep c t) (keys : List String) : InStep c (t.removeKeys keys) := by
  unfold BlockTables.removeKeys
  induction keys generalizing t with
  | nil => exact h
  | cons key _ ih => exact ih (h.removeKey key)

/-! ## Storing -/

theorem blockedIps_store (c : Crates) (t : BlockTables) (siteId : String)
    (entry : BlockedIpEntry) :
    (t.store c siteId entry).blockedIps = t.blockedIps.insert (blockKey siteId entry.ip) entry := by
  unfold BlockTables.store indexInsert
  split <;> rfl

theorem index_indexInsert (c : Crates) (t : BlockTables) (siteId key : String)
    (entry : BlockedIpEntry) (site : String) :
    (t.indexInsert c siteId key entry).index site =
      match parseEntryNet c entry.ip with
      | none => t.index site
      | some net => if site = siteId then
          Table.upsertBy CidrEntry.key ⟨key, net, entry.expiresAt⟩ (t.index siteId)
        else t.index site := by
  unfold indexInsert
  cases parseEntryNet c entry.ip with
  | none => rfl
  | some net => exact index_insert t t.blockedIps siteId _ site

theorem index_store (c : Crates) (t : BlockTables) (siteId : String) (entry : BlockedIpEntry) :
    (t.store c siteId entry).index =
      (t.indexInsert c siteId (blockKey siteId entry.ip) entry).index := by
  unfold BlockTables.store indexInsert
  split <;> rfl

theorem InStep.same_of_key (h : InStep c t) {entry e : BlockedIpEntry}
    (hcolon : ':' ∉ entry.siteId.toList)
    (hlook : t.blockedIps.lookup (blockKey entry.siteId entry.ip) = some e) :
    e.siteId = entry.siteId ∧ e.ip = entry.ip := by
  obtain ⟨hkey, hcolon'⟩ := h.keyed _ _ hlook
  obtain ⟨hsite, hip⟩ := (blockKey_inj hcolon hcolon').mp hkey
  exact ⟨hsite.symm, hip.symm⟩

theorem InStep.mem_index_store (h : InStep c t) {entry : BlockedIpEntry}
    (hcolon : ':' ∉ entry.siteId.toList) :
    ce ∈ (t.store c entry.siteId entry).index site ↔
      (ce.key ≠ blockKey entry.siteId entry.ip ∧ ce ∈ t.index site) ∨
        (site = entry.siteId ∧ ∃ net, parseEntryNet c entry.ip = some net ∧
          ce = ⟨blockKey entry.siteId entry.ip, net, entry.expiresAt⟩) := by
  -- a range that was there under the key was one of this site and of this text
  have hold : ce ∈ t.index site → ce.key = blockKey entry.siteId entry.ip →
      site = entry.siteId ∧ parseEntryNet c entry.ip = some ce.net := by
    intro hmem hkey
    obtain ⟨e, hlook, hsite, hnet, -⟩ := (h.indexed site ce).mp hmem
    rw [hkey] at hlook
    obtain ⟨hs, hi⟩ := h.same_of_key hcolon hlook
    exact ⟨hsite.symm.trans hs, hi ▸ hnet⟩
  rw [index_store, index_indexInsert]
  cases hnet : parseEntryNet c entry.ip with
  | none =>
    simp only [reduceCtorEq, false_and, exists_false, and_false, or_false]
    refine ⟨fun hmem => ⟨fun hkey => ?_, hmem⟩, And.right⟩
    cases hnet.symm.trans (hold hmem hkey).2
  | some net =>
    dsimp only
    split
    · next hsite =>
      subst hsite
      rw [Table.mem_upsertBy (h.distinct _)]
      constructor
      · rintro (rfl | ⟨hmem, hne⟩)
        · exact .inr ⟨rfl, net, rfl, rfl⟩
        · exact .inl ⟨hne, hmem⟩
      · rintro (⟨hne, hmem⟩ | ⟨-, net', hnet', rfl⟩)
        · exact .inr ⟨hmem, hne⟩
        · cases hnet'
          exact .inl rfl
    · next hsite =>
      refine ⟨fun hmem => .inl ⟨fun hkey => hsite (hold hmem hkey).1, hmem⟩, ?_⟩
      rintro (⟨-, hmem⟩ | ⟨hs, -⟩)
      · exact hmem
      · exact absurd hs hsite

theorem InStep.store (h : InStep c t) (entry : BlockedIpEntry)
    (hcolon : ':' ∉ entry.siteId.toList) : InStep c (t.store c entry.siteId entry) := by
  refine ⟨fun k e hlook => ?_, fun site ce => ?_, fun site => ?_⟩
  · rw [blockedIps_store] at hlook
    by_cases hk : k = blockKey entry.siteId entry.ip
    · rw [hk, AList.lookup_insert] at hlook
      cases hlook
      exact ⟨hk, hcolon⟩
    · rw [AList.lookup_insert_ne hk] at hlook
      exact h.keyed k e hlook
  · rw [h.mem_index_store hcolon, blockedIps_store]
    by_cases hk : ce.key = blockKey entry.siteId entry.ip
    · rw [hk, AList.lookup_insert]
      constructor
      · rintro (⟨hne, -⟩ | ⟨hs, net, hnet, rfl⟩)
        · exact absurd rfl hne
        · exact ⟨entry, rfl, hs.symm, hnet, rfl⟩
      · rintro ⟨e, hlook, hs, hnet, hexp⟩
        cases hlook
        refine .inr ⟨hs.symm, ce.net, hnet, ?_⟩
        rw [← hk, ← hexp]
    · rw [AList.lookup_insert_ne hk, h.indexed]
      constructor
      · rintro (⟨-, hmem⟩ | ⟨-, net, -, rfl⟩)
        · exact hmem
        · exact absurd rfl hk
      · exact fun hmem => .inl ⟨hk, hmem⟩
  · rw [index_store, index_indexInsert]
    cases parseEntryNet c entry.ip with
    | none => exact h.distinct site
    | some _ =>
      dsimp only
      split
      · exact Table.nodup_keys_upsertBy _ _ (h.distinct _)
      · exact h.distinct site

/-! ## Clearing a site -/

theorem InStep.lookup_clearSiteBlocks (h : InStep c t) (hcolon : ':' ∉ siteId.toList) (k : String)
    (e : BlockedIpEntry) :
    (t.clearSiteBlocks siteId).blockedIps.lookup k = some e ↔
      t.blockedIps.lookup k = some e ∧ e.siteId ≠ siteId := by
  unfold BlockTables.clearSiteBlocks indexRemoveSite
  dsimp only
  rw [Table.lookup_foldl_erase]
  constructor
  · intro hlook
    split at hlook
    · cases hlook
    · next hk =>
      refine ⟨hlook, fun hs => hk (mem_keysWhere.mpr ⟨e, hlook, ?_⟩)⟩
      obtain ⟨hkey, hcolon'⟩ := h.keyed k e hlook
      rw [hkey]
      exact (hasPrefix_blockKey hcolon' hcolon _).mpr hs
  · rintro ⟨hlook, hs⟩
    rw [if_neg, hlook]
    intro hk
    obtain ⟨e', hlook', hpre⟩ := mem_keysWhere.mp hk
    obtain rfl : e = e' := Option.some.inj (hlook.symm.trans hlook')
    obtain ⟨hkey, hcolon'⟩ := h.keyed k e hlook
    rw [hkey] at hpre
    exact hs ((hasPrefix_blockKey hcolon' hcolon _).mp hpre)

theorem index_clearSiteBlocks (t : BlockTables) (siteId site : String) :
    (t.clearSiteBlocks siteId).index site = if site = siteId then [] else t.index site := by
  unfold BlockTables.clearSiteBlocks indexRemoveSite index
  dsimp only
  split
  · next hs =>
    rw [hs, AList.lookup_erase]
    rfl
  · next hs => rw [AList.lookup_erase_ne hs]

theorem InStep.clearSiteBlocks (h : InStep c t) (hcolon : ':' ∉ siteId.toList) :
    InStep c (t.clearSiteBlocks siteId) := by
  have hleft := h.lookup_clearSiteBlocks hcolon
  refine ⟨fun k e hlook => h.keyed k e ((hleft k e).mp hlook).1, fun site ce => ?_, fun site => ?_⟩
  · rw [index_clearSiteBlocks]
    simp only [hleft]
    split
    · next hs =>
      refine iff_of_false not_mem_nil ?_
      rintro ⟨e, ⟨-, hne⟩, hsite, -⟩
      exact hne (hsite.trans hs)
    · next hs =>
      rw [h.indexed]
      constructor
      · rintro ⟨e, hlook, hsite, hrest⟩
        exact ⟨e, ⟨hlook, fun he => hs (hsite.symm.trans he)⟩, hsite, hrest⟩
      · rintro ⟨e, ⟨hlook, -⟩, hsite, hrest⟩
        exact ⟨e, hlook, hsite, hrest⟩
  · rw [index_clearSiteBlocks]
    split
    · exact nodup_nil
    · exact h.distinct site

/-! ## Runs -/

/-- The blocks that the operation stores or clears by site are under ids without a colon. -/
def BlockOp.PlainSites : BlockOp → Prop
  | .block _ siteId _ _ _ => ':' ∉ siteId.toList
  | .clearSite siteId => ':' ∉ siteId.toList
  | .load _ entries => ∀ e ∈ entries, ':' ∉ e.siteId.toList
  | _ => True

theorem InStep.enforceCapacity (h : InStep c t) (now limit headroom : Nat) :
    InStep c (t.enforceBlockedCapacityInner now limit headroom) := by
  unfold BlockTables.enforceBlockedCapacityInner
  dsimp only
  split
  · exact h.removeKeys _
  · exact (h.removeKeys _).removeKeys _

theorem InStep.blockIp (h : InStep c t) (hcolon : ':' ∉ siteId.toList) (now : Nat) (ip : String)
    (duration : Option Nat) (reason : String) :
    InStep c (t.blockIp c now siteId ip duration reason) := by
  unfold BlockTables.blockIp
  dsimp only
  have hroom : InStep c (if maxBlockedIpEntries ≤ t.blockedIps.size then
      t.enforceBlockedCapacityInner now maxBlockedIpEntries blockedCapacityHeadroom else t) := by
    split
    · exact h.enforceCapacity ..
    · exact h
  exact hroom.store (blockedEntry now siteId ip duration reason) hcolon

theorem InStep.probe (h : InStep c t) (now : Nat) (key : String) : InStep c (t.probe now key).2 := by
  unfold BlockTables.probe
  split
  · exact h
  · split
    · exact h.removeKey key
    · exact h

theorem InStep.loadBlockedIps (h : InStep c t) (now : Nat) {entries : List BlockedIpEntry}
    (hcolon : ∀ e ∈ entries, ':' ∉ e.siteId.toList) : InStep c (t.loadBlockedIps c now entries) := by
  unfold BlockTables.loadBlockedIps
  induction entries generalizing t with
  | nil => exact h
  | cons e _ ih =>
    refine ih ?_ fun e' he' => hcolon e' (mem_cons_of_mem _ he')
    dsimp only
    split
    · exact h
    · exact h.store e (hcolon e mem_cons_self)

theorem InStep.probeNormalized (h : InStep c t) (now : Nat) (siteId ip : String) :
    InStep c (t.probeNormalized now siteId ip).2 := by
  unfold BlockTables.probeNormalized
  split
  · exact h.probe now _
  · exact h

theorem InStep.blockedLookup (h : InStep c t) (now : Nat) (siteId ip : String) :
    InStep c (t.blockedLookup now siteId ip).2 := by
  have hfirst := h.probe now (blockKey siteId ip)
  unfold BlockTables.blockedLookup
  cases hprobe : t.probe now (blockKey siteId ip) with
  | mk first t1 =>
    rw [hprobe] at hfirst
    have hsecond := hfirst.probeNormalized now siteId ip
    cases first with
    | some _ => exact hfirst
    | none =>
      dsimp only at hsecond ⊢
      cases hnormal : t1.probeNormalized now siteId ip with
      | mk second _ =>
        rw [hnormal] at hsecond
        cases second with
        | some _ => exact hsecond
        | none => exact hsecond

theorem InStep.apply (h : InStep c t) {op : BlockOp} (hop : op.PlainSites) :
    InStep c (t.apply c op) := by
  cases op with
  | block now _ ip duration reason => exact h.blockIp hop now ip duration reason
  | unblock _ _ => exact h.removeKey _
  | clearWaf _ _ => exact h.removeKeys _
  | clearSite _ => exact h.clearSiteBlocks hop
  | cleanup _ => exact h.removeKeys _
  | enforceCapacity now limit headroom => exact h.enforceCapacity now limit headroom
  | lookup now siteId ip => exact h.blockedLookup now siteId ip
  | load now _ => exact h.loadBlockedIps now hop

theorem InStep.run (h : InStep c t) {ops : List BlockOp} (hops : ∀ op ∈ ops, op.PlainSites) :
    InStep c (t.run c ops) := by
  unfold BlockTables.run
  induction ops generalizing t with
  | nil => exact h
  | cons op _ ih =>
    exact ih (h.apply (hops op mem_cons_self)) fun o ho => hops o (mem_cons_of_mem _ ho)

end PingWaf.Agent
