import PingWaf.Routing.Sync

/-!
# The index from domains to sites

A bundle keeps the index exact unless its site gives up a name that another site claims too. A full
configuration keeps it unless a site it drops shares a name with one that stays, or a site it lists
again has given up a name (`Clean`).
-/

namespace PingWaf.Routing

open List AList CachedRules CachedRules

open Plugin (normalizeHost)

variable {cached : CachedRules} {config : SiteConfig} {d s : String}

def SiteRules.names (site : SiteRules) : List String := site.domains.map normalizeHost

/-- The cached site has the name among its own. -/
def CachedRules.Claims (cached : CachedRules) (s d : String) : Prop :=
  ∃ site, cached.sites.lookup s = some site ∧ d ∈ site.names

/-- The index gives a name only to a cached site that claims it, and gives every claimed name to
some site that claims it. -/
structure CachedRules.IndexExact (cached : CachedRules) : Prop where
  sound : ∀ d s, cached.domainIndex.lookup d = some s → cached.Claims s d
  complete : ∀ s d, cached.Claims s d → ∃ t, cached.domainIndex.lookup d = some t

theorem indexExact_empty : empty.IndexExact where
  sound d s h := by
    rw [empty, lookup_empty] at h
    cases h
  complete s d h := by
    obtain ⟨site, h, -⟩ := h
    rw [empty, lookup_empty] at h
    cases h

/-! ## Index entries -/

theorem lookup_foldl_set {f : Table String String → String → Table String String} {o : Option String}
    (hf : ∀ index domain, (f index domain).lookup d =
      if d = normalizeHost domain then o else index.lookup d)
    (domains : List String) (index : Table String String) :
    (domains.foldl f index).lookup d =
      if d ∈ domains.map normalizeHost then o else index.lookup d := by
  induction domains generalizing index with
  | nil => rw [foldl_nil, map_nil, if_neg not_mem_nil]
  | cons domain _ ih =>
    rw [foldl_cons, ih, map_cons, hf]
    by_cases hd : d = normalizeHost domain <;> simp [hd]

theorem lookup_foldl_indexDomain (id : String) (domains : List String)
    (index : Table String String) (d : String) :
    (domains.foldl (indexDomain id) index).lookup d =
      if d ∈ domains.map normalizeHost then some id else index.lookup d :=
  lookup_foldl_set (fun _ _ => Table.lookup_insert_eq ..) domains index

theorem lookup_foldl_dropDomain (domains : List String) (index : Table String String)
    (d : String) :
    (domains.foldl dropDomain index).lookup d =
      if d ∈ domains.map normalizeHost then none else index.lookup d :=
  lookup_foldl_set (fun _ _ => Table.lookup_erase_eq ..) domains index

theorem lookup_foldl_unindexDomain (id : String) (domains : List String)
    (index : Table String String) (d : String) :
    (domains.foldl (unindexDomain id) index).lookup d =
      if d ∈ domains.map normalizeHost ∧ index.lookup d = some id then none
      else index.lookup d := by
  induction domains generalizing index with
  | nil => simp
  | cons domain _ ih =>
    have hone : (unindexDomain id index domain).lookup d =
        if d = normalizeHost domain ∧ index.lookup d = some id then none else index.lookup d := by
      unfold unindexDomain
      by_cases hd : d = normalizeHost domain
      · subst hd
        split
        · next h => simp [h]
        · next h => simp [h]
      · split
        · simp [lookup_erase_ne hd, hd]
        · simp [hd]
    rw [foldl_cons, ih, hone, map_cons]
    by_cases hd : d = normalizeHost domain <;> by_cases hi : index.lookup d = some id <;>
      simp [hd, hi]

/-! ## A rule bundle -/

theorem names_convertedFor (cached : CachedRules) (bundle : RuleBundle) :
    (cached.convertedFor bundle).names = [""] := by
  unfold convertedFor
  split
  · rfl
  · rfl

theorem claims_updateFromBundle (cached : CachedRules) (bundle : RuleBundle) (s d : String) :
    (cached.updateFromBundle bundle).Claims s d ↔
      (s = bundle.siteId ∧ d = "") ∨ (s ≠ bundle.siteId ∧ cached.Claims s d) := by
  unfold Claims updateFromBundle
  dsimp only
  by_cases hs : s = bundle.siteId
  · subst hs
    simp [names_convertedFor]
  · simp [lookup_insert_ne hs, hs]

theorem IndexExact.mem_old (h : cached.IndexExact) (hd : cached.domainIndex.lookup d = some s) :
    d ∈ (((cached.sites.lookup s).map SiteRules.domains).getD []).map normalizeHost := by
  obtain ⟨site, hsite, hmem⟩ := h.sound d s hd
  rw [hsite]
  exact hmem

theorem lookup_updateFromBundle (h : cached.IndexExact) (bundle : RuleBundle) (d : String) :
    (cached.updateFromBundle bundle).domainIndex.lookup d =
      if d = "" then some bundle.siteId
      else if cached.domainIndex.lookup d = some bundle.siteId then none
      else cached.domainIndex.lookup d := by
  have hnames : (cached.convertedFor bundle).domains.map normalizeHost = [""] :=
    names_convertedFor cached bundle
  unfold updateFromBundle
  rw [lookup_foldl_indexDomain, hnames, lookup_foldl_unindexDomain]
  simp only [mem_singleton]
  by_cases hd : cached.domainIndex.lookup d = some bundle.siteId
  · simp [hd, IndexExact.mem_old h hd]
  · simp [hd]

/-- No name that the index gives to the bundle's site is claimed by another site. -/
def CachedRules.BundleClean (cached : CachedRules) (bundle : RuleBundle) : Prop :=
  ∀ d, d ≠ "" → cached.domainIndex.lookup d = some bundle.siteId →
    ∀ s, s ≠ bundle.siteId → ¬ cached.Claims s d

theorem indexExact_updateFromBundle_iff (h : cached.IndexExact) (bundle : RuleBundle) :
    (cached.updateFromBundle bundle).IndexExact ↔ cached.BundleClean bundle := by
  constructor
  · intro h' d hd hid s hs hclaim
    obtain ⟨t, ht⟩ := h'.complete s d ((claims_updateFromBundle ..).mpr (.inr ⟨hs, hclaim⟩))
    rw [lookup_updateFromBundle h, if_neg hd, if_pos hid] at ht
    cases ht
  · intro hclean
    refine ⟨fun d s hlook => ?_, fun s d hclaim => ?_⟩
    · rw [lookup_updateFromBundle h] at hlook
      rw [claims_updateFromBundle]
      split at hlook
      · next hd => exact .inl ⟨(Option.some.inj hlook).symm, hd⟩
      · split at hlook
        · cases hlook
        · next hid =>
          exact .inr ⟨fun hs => hid (hs ▸ hlook), h.sound d s hlook⟩
    · rw [lookup_updateFromBundle h]
      by_cases hd : d = ""
      · exact ⟨_, if_pos hd⟩
      · obtain ⟨-, he⟩ | ⟨hs, hclaim⟩ := (claims_updateFromBundle ..).mp hclaim
        · exact absurd he hd
        · obtain ⟨t, ht⟩ := h.complete s d hclaim
          have hid : cached.domainIndex.lookup d ≠ some bundle.siteId :=
            fun hid => hclean d hd hid s hs hclaim
          exact ⟨t, by rw [if_neg hd, if_neg hid, ht]⟩

/-! ## A full configuration -/

def Site.names (site : Site) : List String :=
  (site.domain :: site.alternateDomains).map normalizeHost

theorem names_siteRules (site : Site) (bundle : RuleBundle) :
    (site.siteRules bundle).names = site.names := by
  have hdomain : (site.siteRules bundle).domain = site.domain := by
    unfold Site.siteRules
    dsimp only
    split
    · rfl
    · next h => exact (not_not.mp h).symm
  unfold SiteRules.names SiteRules.domains Site.names
  rw [hdomain]
  rfl

/-- What a listed site does to a name: it takes it, or clears the empty name, or neither. -/
def Site.word (site : Site) (d : String) : Option (Option String) :=
  if site.rules.isNone then none
  else if d ∈ site.names then some (some site.id)
  else if site.domain ≠ "" ∧ d = "" then some none
  else none

/-- The last listed site that does something to the name decides. -/
def SiteConfig.lastWord (config : SiteConfig) (d : String) : Option (Option String) :=
  config.sites.reverse.findSome? (·.word d)

def SiteConfig.lastEntry (config : SiteConfig) (s : String) : Option Site :=
  config.sites.reverse.find? fun site => site.rules.isSome && decide (site.id = s)

theorem lookup_applySite (cached : CachedRules) (site : Site) (d : String) :
    (cached.applySite site).domainIndex.lookup d =
      (site.word d).getD (cached.domainIndex.lookup d) := by
  unfold applySite Site.word
  cases site.rules with
  | none => rfl
  | some bundle =>
    have hnames : (site.siteRules bundle).domains.map normalizeHost = site.names :=
      names_siteRules site bundle
    have hblank : normalizeHost (convertBundle bundle).domain = "" := rfl
    have hrules : (some bundle).isNone = false := rfl
    dsimp only
    rw [lookup_foldl_indexDomain, hnames, hrules, if_neg Bool.false_ne_true]
    by_cases hd : d ∈ site.names
    · rw [if_pos hd, if_pos hd]
      rfl
    · rw [if_neg hd, if_neg hd]
      by_cases hsite : site.domain ≠ ""
      · rw [if_pos hsite, dropDomain, hblank]
        by_cases hempty : d = ""
        · subst hempty
          simp [hsite]
        · simp [lookup_erase_ne hempty, hempty]
      · simp [hsite]

theorem claims_applySite (cached : CachedRules) (site : Site) (s d : String) :
    (cached.applySite site).Claims s d ↔
      if (site.rules.isSome && decide (site.id = s)) = true then d ∈ site.names
      else cached.Claims s d := by
  unfold applySite
  cases site.rules with
  | none => simp
  | some _ =>
    unfold Claims
    dsimp only
    by_cases hs : s = site.id
    · subst hs
      simp [names_siteRules]
    · simp [lookup_insert_ne hs, Ne.symm hs]

theorem lookup_foldl_applySite (sites : List Site) (cached : CachedRules) (d : String) :
    (sites.foldl applySite cached).domainIndex.lookup d =
      (sites.reverse.findSome? (·.word d)).getD (cached.domainIndex.lookup d) := by
  induction sites generalizing cached with
  | nil => rfl
  | cons site sites ih =>
    rw [foldl_cons, ih, lookup_applySite, reverse_cons, findSome?_append]
    cases sites.reverse.findSome? (·.word d) with
    | some _ => rfl
    | none =>
      cases hw : site.word d with
      | some _ => simp [hw]
      | none => simp [hw]

theorem claims_foldl_applySite (sites : List Site) (cached : CachedRules) (s d : String) :
    (sites.foldl applySite cached).Claims s d ↔
      match sites.reverse.find? fun site => site.rules.isSome && decide (site.id = s) with
      | some site => d ∈ site.names
      | none => cached.Claims s d := by
  induction sites generalizing cached with
  | nil => rfl
  | cons site sites ih =>
    rw [foldl_cons, ih, reverse_cons, find?_append]
    cases sites.reverse.find? fun site => site.rules.isSome && decide (site.id = s) with
    | some _ => rfl
    | none =>
      rw [Option.none_or, find?_singleton]
      dsimp only
      rw [claims_applySite]
      split
      · rfl
      · rfl

/-! ### Sites that are dropped -/

theorem lookup_sites_dropGhost (cached : CachedRules) (id s : String) :
    (cached.dropGhost id).sites.lookup s = if s = id then none else cached.sites.lookup s := by
  unfold dropGhost
  by_cases hs : s = id
  · subst hs
    rw [if_pos rfl]
    split
    · next h => exact h
    · exact lookup_erase _ _
  · rw [if_neg hs]
    split
    · rfl
    · exact lookup_erase_ne hs

theorem claims_dropGhost (cached : CachedRules) (id s d : String) :
    (cached.dropGhost id).Claims s d ↔ s ≠ id ∧ cached.Claims s d := by
  unfold Claims
  rw [lookup_sites_dropGhost]
  by_cases hs : s = id
  · simp [hs]
  · simp [hs]

theorem lookup_dropGhost_iff {id t : String} :
    (cached.dropGhost id).domainIndex.lookup d = some t ↔
      cached.domainIndex.lookup d = some t ∧ ¬ cached.Claims id d := by
  unfold dropGhost Claims
  cases cached.sites.lookup id with
  | none => simp
  | some old =>
    dsimp only
    rw [lookup_foldl_dropDomain]
    by_cases hd : d ∈ old.domains.map normalizeHost
    · rw [if_pos hd]
      exact iff_of_false nofun fun h => h.2 ⟨old, rfl, hd⟩
    · rw [if_neg hd]
      exact (and_iff_left fun ⟨site, hsite, hmem⟩ => hd (Option.some.inj hsite ▸ hmem)).symm

theorem claims_foldl_dropGhost (ids : List String) (cached : CachedRules) (s d : String) :
    (ids.foldl dropGhost cached).Claims s d ↔ s ∉ ids ∧ cached.Claims s d := by
  induction ids generalizing cached with
  | nil => simp
  | cons _ _ ih =>
    rw [foldl_cons, ih, claims_dropGhost, mem_cons, not_or]
    tauto

theorem lookup_foldl_dropGhost_iff {ids : List String} {t : String} :
    (ids.foldl dropGhost cached).domainIndex.lookup d = some t ↔
      cached.domainIndex.lookup d = some t ∧ ¬ ∃ g ∈ ids, cached.Claims g d := by
  induction ids generalizing cached with
  | nil => simp
  | cons id _ ih =>
    rw [foldl_cons, ih, lookup_dropGhost_iff, and_assoc]
    refine and_congr_right fun _ => ⟨?_, fun h => ⟨fun hid => ?_, ?_⟩⟩
    · rintro ⟨hid, hlater⟩ ⟨g, hg, hclaim⟩
      have hne : g ≠ id := fun heq => hid (heq ▸ hclaim)
      exact hlater ⟨g, (mem_cons.mp hg).resolve_left hne,
        (claims_dropGhost ..).mpr ⟨hne, hclaim⟩⟩
    · exact h ⟨id, mem_cons_self, hid⟩
    · rintro ⟨g, hg, hclaim⟩
      exact h ⟨g, mem_cons_of_mem _ hg, ((claims_dropGhost ..).mp hclaim).2⟩

/-! ### The whole update -/

/-- A site that is dropped claims the name. -/
def SiteConfig.Ghostly (config : SiteConfig) (cached : CachedRules) (d : String) : Prop :=
  ∃ g, config.knows g = false ∧ cached.Claims g d

/-- The site is still cached afterwards and claims the name: by its last entry, or as before where
the configuration brings no rules for it. -/
def SiteConfig.Keeps (config : SiteConfig) (cached : CachedRules) (s d : String) : Prop :=
  config.knows s = true ∧
    match config.lastEntry s with
    | some site => d ∈ site.names
    | none => cached.Claims s d

theorem lastEntry_of_unknown (h : config.knows s = false) : config.lastEntry s = none := by
  rw [SiteConfig.lastEntry, find?_eq_none]
  intro site hsite
  have := any_eq_false.mp h site (mem_reverse.mp hsite)
  simp_all

theorem claims_listed_of_unknown (h : config.knows s = false) :
    (config.sites.foldl applySite cached).Claims s d ↔ cached.Claims s d := by
  have hentry := lastEntry_of_unknown h
  rw [SiteConfig.lastEntry] at hentry
  rw [claims_foldl_applySite, hentry]

theorem exists_ghost_iff :
    (∃ g ∈ (config.sites.foldl applySite cached).sites.keys.filter
        (fun id => !config.knows id),
      (config.sites.foldl applySite cached).Claims g d) ↔
      config.Ghostly cached d := by
  constructor
  · rintro ⟨g, hg, hclaim⟩
    have hunknown : config.knows g = false := by simpa using (mem_filter.mp hg).2
    exact ⟨g, hunknown, (claims_listed_of_unknown hunknown).mp hclaim⟩
  · rintro ⟨g, hunknown, hclaim⟩
    obtain ⟨site, hsite, hd⟩ := (claims_listed_of_unknown hunknown).mpr hclaim
    refine ⟨g, mem_filter.mpr ⟨?_, by simpa using hunknown⟩, site, hsite, hd⟩
    exact mem_keys.mp (lookup_isSome.mp (by rw [hsite]; rfl))

theorem claims_updateFromSiteConfig (cached : CachedRules) (config : SiteConfig) (s d : String) :
    (cached.updateFromSiteConfig config).Claims s d ↔ config.Keeps cached s d := by
  have hlisted := claims_foldl_applySite config.sites cached s d
  unfold updateFromSiteConfig
  dsimp only
  rw [claims_foldl_dropGhost]
  constructor
  · rintro ⟨hs, hclaim⟩
    refine ⟨?_, hlisted.mp hclaim⟩
    obtain ⟨site, hsite, -⟩ := hclaim
    by_contra hunknown
    refine hs (mem_filter.mpr ⟨?_, by simpa using hunknown⟩)
    exact mem_keys.mp (lookup_isSome.mp (by rw [hsite]; rfl))
  · rintro ⟨hknown, hclaim⟩
    refine ⟨fun hs => ?_, hlisted.mpr hclaim⟩
    have hunknown := (mem_filter.mp hs).2
    rw [hknown] at hunknown
    cases hunknown

theorem lookup_updateFromSiteConfig_iff {t : String} :
    (cached.updateFromSiteConfig config).domainIndex.lookup d = some t ↔
      (config.lastWord d).getD (cached.domainIndex.lookup d) = some t ∧
        ¬ config.Ghostly cached d := by
  rw [← exists_ghost_iff, SiteConfig.lastWord, ← lookup_foldl_applySite]
  exact lookup_foldl_dropGhost_iff

/-- No name suffers from what the update drops, clears or lists twice. -/
structure SiteConfig.Clean (config : SiteConfig) (cached : CachedRules) : Prop where
  /-- No site that is dropped shares a name with one that stays. -/
  unshared : ∀ s d, config.Keeps cached s d → ¬ config.Ghostly cached d
  /-- No claimed name is cleared last: only the empty name is ever cleared. -/
  unblanked : ∀ s d, config.Keeps cached s d → config.lastWord d ≠ some none
  /-- A name that no entry mentions is not left with a site that has given it up. -/
  released : ∀ s d, config.lastWord d = none → cached.domainIndex.lookup d = some s →
    config.knows s = true → ¬ config.Ghostly cached d → config.Keeps cached s d
  /-- A site that is listed twice has the name in its last entry as well. -/
  settled : ∀ s d, config.lastWord d = some (some s) → ¬ config.Ghostly cached d →
    config.Keeps cached s d

theorem word_of_mem_names {site : Site} (hrules : site.rules.isSome = true)
    (hd : d ∈ site.names) : site.word d = some (some site.id) := by
  unfold Site.word
  rw [if_neg (by simpa [Option.isSome_iff_ne_none] using hrules), if_pos hd]

theorem SiteConfig.Keeps.claimed (h : config.Keeps cached s d) (hword : config.lastWord d = none) :
    cached.Claims s d := by
  obtain ⟨-, h⟩ := h
  cases hentry : config.lastEntry s with
  | none =>
    rw [hentry] at h
    exact h
  | some site =>
    rw [hentry] at h
    have hrules := find?_some hentry
    rw [Bool.and_eq_true] at hrules
    have hno := findSome?_eq_none_iff.mp hword site (mem_of_find?_eq_some hentry)
    rw [word_of_mem_names hrules.1 h] at hno
    cases hno

theorem indexExact_updateFromSiteConfig_iff (h : cached.IndexExact) (config : SiteConfig) :
    (cached.updateFromSiteConfig config).IndexExact ↔ config.Clean cached := by
  constructor
  · intro h'
    -- a kept name has an entry, and whatever has an entry is kept
    have hkept : ∀ s d, config.Keeps cached s d → ∃ t,
        (config.lastWord d).getD (cached.domainIndex.lookup d) = some t ∧
          ¬ config.Ghostly cached d := by
      intro s d hk
      obtain ⟨t, ht⟩ := h'.complete s d ((claims_updateFromSiteConfig ..).mpr hk)
      exact ⟨t, lookup_updateFromSiteConfig_iff.mp ht⟩
    have hentry : ∀ s d, (config.lastWord d).getD (cached.domainIndex.lookup d) = some s →
        ¬ config.Ghostly cached d → config.Keeps cached s d := fun s d hlook hg =>
      (claims_updateFromSiteConfig ..).mp
        (h'.sound d s (lookup_updateFromSiteConfig_iff.mpr ⟨hlook, hg⟩))
    refine ⟨fun s d hk => ?_, fun s d hk hword => ?_, fun s d hword hlook _ => ?_,
      fun s d hword => ?_⟩
    · obtain ⟨t, -, hg⟩ := hkept s d hk
      exact hg
    · obtain ⟨t, ht, -⟩ := hkept s d hk
      rw [hword] at ht
      cases ht
    · exact hentry s d (by rw [hword]; exact hlook)
    · exact hentry s d (by rw [hword]; rfl)
  · intro hclean
    refine ⟨fun d s hlook => ?_, fun s d hclaim => ?_⟩
    · obtain ⟨hlook, hg⟩ := lookup_updateFromSiteConfig_iff.mp hlook
      rw [claims_updateFromSiteConfig]
      cases hword : config.lastWord d with
      | some _ =>
        rw [hword, Option.getD_some] at hlook
        exact hclean.settled s d (hlook ▸ hword) hg
      | none =>
        rw [hword, Option.getD_none] at hlook
        refine hclean.released s d hword hlook ?_ hg
        -- a site the configuration does not know would have been dropped with the name
        by_contra hunknown
        exact hg ⟨s, by simpa using hunknown, h.sound d s hlook⟩
    · have hk := (claims_updateFromSiteConfig ..).mp hclaim
      simp only [lookup_updateFromSiteConfig_iff, hclean.unshared s d hk, not_false_iff, and_true]
      cases hword : config.lastWord d with
      | some o =>
        cases o with
        | none => exact absurd hword (hclean.unblanked s d hk)
        | some t => exact ⟨t, rfl⟩
      | none => exact h.complete s d (hk.claimed hword)

/-! ## Runs -/

def CachedRules.Clean (cached : CachedRules) : CacheUpdate → Prop
  | .bundle b => cached.BundleClean b
  | .siteConfig c => c.Clean cached

theorem indexExact_update_iff (h : cached.IndexExact) (u : CacheUpdate) :
    (cached.update u).IndexExact ↔ cached.Clean u := by
  cases u with
  | bundle b => exact indexExact_updateFromBundle_iff h b
  | siteConfig c => exact indexExact_updateFromSiteConfig_iff h c

/-- The states of a run. -/
def CachedRules.reached (cached : CachedRules) : List CacheUpdate → List CachedRules
  | [] => [cached]
  | u :: us => cached :: (cached.update u).reached us

/-- Every update is clean where the run applies it. -/
def CachedRules.CleanRun (cached : CachedRules) : List CacheUpdate → Prop
  | [] => True
  | u :: us => cached.Clean u ∧ (cached.update u).CleanRun us

theorem indexExact_reached_iff (h : cached.IndexExact) (us : List CacheUpdate) :
    (∀ c ∈ cached.reached us, c.IndexExact) ↔ cached.CleanRun us := by
  induction us generalizing cached with
  | nil => simpa [reached, CleanRun] using h
  | cons u us ih =>
    unfold reached CleanRun
    rw [forall_mem_cons, ← indexExact_update_iff h u]
    constructor
    · rintro ⟨-, hrest⟩
      have hnext : (cached.update u).IndexExact := by
        refine hrest _ ?_
        cases us with
        | nil => exact mem_singleton_self _
        | cons _ _ => exact mem_cons_self
      exact ⟨hnext, (ih hnext).mp hrest⟩
    · rintro ⟨hnext, hrun⟩
      exact ⟨h, (ih hnext).mpr hrun⟩

/-- The domain index is exact all along in the clean runs, and in no other. -/
theorem index_exact_run_iff (us : List CacheUpdate) :
    (∀ c ∈ empty.reached us, c.IndexExact) ↔ empty.CleanRun us :=
  indexExact_reached_iff indexExact_empty us

/-! ## A name given up and a name shared -/

def namedSite (id domain : String) (alternateDomains : List String) : Site where
  id := id
  domain := domain
  alternateDomains := alternateDomains
  status := 0
  rules := some ⟨id, none, [], none, [], [], false⟩
  trustProxyHeaders := false
  trustedHeader := ""
  trustLastHop := true
  trustedProxyRanges := []
  downstreamTimeoutSecs := 0

def aliasGivenUp : List CacheUpdate :=
  [.siteConfig ⟨[namedSite "s" "a.example" ["b.example"]]⟩,
    .siteConfig ⟨[namedSite "s" "a.example" []]⟩]

def sharerDropped : List CacheUpdate :=
  [.siteConfig ⟨[namedSite "s" "a.example" [], namedSite "t" "b.example" ["a.example"]]⟩,
    .siteConfig ⟨[namedSite "s" "a.example" []]⟩]

/-- The name given up still resolves; the name shared no longer does, though its site is cached. -/
theorem index_stale_and_unhooked :
    ((aliasGivenUp.foldl update .empty).siteFor "b.example" = some "s" ∧
      ¬ (aliasGivenUp.foldl update .empty).IndexExact) ∧
    ((sharerDropped.foldl update .empty).siteFor "a.example" = none ∧
      ¬ (sharerDropped.foldl update .empty).IndexExact) := by
  have hstale : (aliasGivenUp.foldl update .empty).domainIndex.lookup "b.example" =
      some "s" := by decide +kernel
  have hgiven : ((aliasGivenUp.foldl update .empty).sites.lookup "s").map
      SiteRules.names = some ["a.example"] := by decide +kernel
  have hgone : (sharerDropped.foldl update .empty).domainIndex.lookup "a.example" =
      none := by decide +kernel
  have hlive : ((sharerDropped.foldl update .empty).sites.lookup "s").map
      SiteRules.names = some ["a.example"] := by decide +kernel
  refine ⟨⟨by decide +kernel, fun h => ?_⟩, ⟨by decide +kernel, fun h => ?_⟩⟩
  · obtain ⟨site, hsite, hd⟩ := h.sound _ _ hstale
    rw [hsite, Option.map_some, Option.some.injEq] at hgiven
    rw [hgiven] at hd
    exact absurd hd (by decide)
  · obtain ⟨site, hsite, hnames⟩ := Option.map_eq_some_iff.mp hlive
    obtain ⟨t, ht⟩ := h.complete "s" "a.example" ⟨site, hsite, by rw [hnames]; decide⟩
    rw [hgone] at ht
    cases ht

end PingWaf.Routing
