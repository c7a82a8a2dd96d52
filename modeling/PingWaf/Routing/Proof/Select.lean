import PingWaf.Routing.Sync

/-!
# The serving site and the protecting site

A request is served by the first location that accepts it in descending weight, and protected by the
rules of the site that the domain index gives for its host: the one with the exact name, or else
with the longest wildcard.
-/

namespace PingWaf.Routing

open Text Net Option CachedRules Location ServerConfig

/-! ## Generated locations by name -/

section

variable (c : Patterns) (cached : CachedRules) (t : Target)

/-- The location that stands under a name: the last one declared. -/
def CachedRules.standing (name : String) : Option LocationConf :=
  (cached.declared.reverse.find? fun d => d.1 == name).map (·.2)

/-- Every location of the configuration builds. -/
def CachedRules.Loads : Prop :=
  ∀ name conf, cached.standing name = some conf → (Location.new c name conf).isOk = true

/-- The location of this name accepts the request. -/
def CachedRules.serves (name : String) : Bool :=
  (cached.standing name).any fun conf => (Location.new c name conf).toOption.any (·.accepts c t)

def CachedRules.weight (name : String) : Nat :=
  ((cached.standing name).map LocationConf.getWeight).getD 0

/-- The site that a location belongs to. -/
def CachedRules.owner (name : String) : Option String := (cached.standing name).bind (·.site)

/-- The location belongs to a site, and its rules are not the ones the host is given. -/
def CachedRules.Foreign (name : String) : Prop :=
  ∃ id, cached.owner name = some id ∧ cached.siteFor t.host ≠ some id

/-- **Every accepting location of another site is outranked** by an accepting location that is not
another site's: by its weight, or at equal weight by standing before it. -/
def CachedRules.ForeignOutranked : Prop :=
  ∀ pre name post, cached.declared.map (·.1) = pre ++ name :: post →
    cached.serves c t name = true → cached.Foreign t name →
      (∃ n ∈ pre, cached.serves c t n = true ∧ ¬ cached.Foreign t n ∧
        cached.weight name ≤ cached.weight n) ∨
      (∃ n ∈ post, cached.serves c t n = true ∧ ¬ cached.Foreign t n ∧
        cached.weight name < cached.weight n)

theorem lookup_locations (name : String) :
    (cachedRulesToPingapConfig cached).server.locations.lookup name = cached.standing name := by
  simp [cachedRulesToPingapConfig, Table.lookup_foldl_insert, standing]

theorem builds_iff :
    (cachedRulesToPingapConfig cached).server.builds c = true ↔ cached.Loads c := by
  simp only [builds, List.all_eq_true, CachedRules.Loads, ← lookup_locations]
  constructor
  · intro h name conf hl
    exact h ⟨name, conf⟩ (AList.mem_lookup_iff.mp hl)
  · rintro h ⟨name, conf⟩ hmem
    exact h name conf (AList.mem_lookup_iff.mpr hmem)

variable {c}

theorem Location.new_site {name : String} {conf : LocationConf} {l : Location}
    (h : Location.new c name conf = .ok l) : l.site = conf.site := by
  simp only [new, bind, Except.bind, pure, Except.pure, throw, throwThe,
    MonadExceptOf.throw] at h
  repeat' split at h
  all_goals simp_all
  all_goals rw [← h]

/-! ## The selected location -/

theorem location_filter_isSome (name : String) :
    (((cachedRulesToPingapConfig cached).server.location c name).filter
      (·.accepts c t)).isSome = cached.serves c t name := by
  rw [location, lookup_locations, serves]
  cases cached.standing name with
  | none => rfl
  | some conf =>
    cases hnew : new c name conf with
    | error _ => simp [hnew, Except.toOption]
    | ok _ => simp [hnew, Except.toOption, isSome_filter]

theorem findLocation_eq (h : cached.Loads c) :
    (cachedRulesToPingapConfig cached).server.findLocation c t =
      (Ranked.pick cached.weight (cached.serves c t) (cached.declared.map (·.1))).bind fun name =>
        ((cachedRulesToPingapConfig cached).server.location c name).filter (·.accepts c t) := by
  have hweight : (cachedRulesToPingapConfig cached).server.weightOf = cached.weight := by
    funext name
    simp [weightOf, lookup_locations, weight]
  have hserves : (fun name => (((cachedRulesToPingapConfig cached).server.location c name).filter
      (·.accepts c t)).isSome) = cached.serves c t := by
    funext name
    exact location_filter_isSome cached t name
  rw [findLocation, if_pos ((builds_iff c cached).mpr h), ordered,
    Ranked.findSome_order, hweight, hserves]
  rfl

theorem site_of_pick (h : cached.Loads c) {name : String}
    (hpick : Ranked.pick cached.weight (cached.serves c t) (cached.declared.map (·.1)) = some name) :
    ∃ l, (cachedRulesToPingapConfig cached).server.findLocation c t = some l ∧
      l.site = cached.owner name := by
  obtain ⟨_, _, -, hlead⟩ := Ranked.leads_of_pick hpick
  have hsome := location_filter_isSome (c := c) cached t name
  rw [hlead.passes, isSome_iff_exists] at hsome
  obtain ⟨l, hl⟩ := hsome
  refine ⟨l, by rw [findLocation_eq cached t h, hpick, bind_some, hl], ?_⟩
  obtain ⟨hl, -⟩ := filter_eq_some_iff.mp hl
  rw [location, lookup_locations] at hl
  obtain ⟨conf, hconf, hnew⟩ := bind_eq_some_iff.mp hl
  rw [owner, hconf, bind_some]
  cases hbuilt : new c name conf with
  | error _ => rw [hbuilt] at hnew; cases hnew
  | ok l' =>
    rw [hbuilt] at hnew
    obtain rfl : l' = l := by simpa [Except.toOption] using hnew
    exact new_site hbuilt

variable (c)

/-- The location a request is routed to belongs to the site whose rules protect the request. -/
def RoutedSiteProtected : Prop :=
  ∀ l id, (cachedRulesToPingapConfig cached).server.findLocation c t = some l →
    l.site = some id → cached.siteFor t.host = some id

theorem not_leads_of_outranked {pre post : List String} {name : String}
    (hlead : Ranked.Leads cached.weight (cached.serves c t) pre name post) :
    ¬ ((∃ n ∈ pre, cached.serves c t n = true ∧ ¬ cached.Foreign t n ∧
        cached.weight name ≤ cached.weight n) ∨
      (∃ n ∈ post, cached.serves c t n = true ∧ ¬ cached.Foreign t n ∧
        cached.weight name < cached.weight n)) := by
  rintro (⟨n, hmem, hs, -, hw⟩ | ⟨n, hmem, hs, -, hw⟩)
  · exact absurd hw (Nat.not_le.mpr (hlead.before n hmem hs))
  · exact absurd hw (Nat.not_lt.mpr (hlead.after n hmem hs))

/-- **When the serving site is the protecting site.** For every set of cached sites and every
request: the site the request is routed to is the one whose rules the domain index gives, exactly
when the generated configuration does not load or every accepting location of another site is
outranked. -/
theorem routed_site_protected_iff :
    RoutedSiteProtected c cached t ↔ (cached.Loads c → cached.ForeignOutranked c t) := by
  constructor
  · intro hprot hload pre name post hsplit hserves hforeign
    -- the pick is not foreign, so it stands elsewhere in the list, ahead of `name`
    cases hpick : Ranked.pick cached.weight (cached.serves c t) (cached.declared.map (·.1)) with
    | none =>
      have hnone := (Ranked.pick_eq_none_iff _ _).mp hpick name (by rw [hsplit]; simp)
      simp [hserves] at hnone
    | some n =>
      obtain ⟨l, hfind, hsite⟩ := site_of_pick cached t hload hpick
      have hown : ¬ cached.Foreign t n := by
        rintro ⟨id, hid, hne⟩
        exact hne (hprot l id hfind (hsite.trans hid))
      obtain ⟨pre', post', hsplit', hlead⟩ := Ranked.leads_of_pick hpick
      rcases hlead.outranks (hsplit'.symm.trans hsplit) hserves with rfl | ⟨hmem, hw⟩ | ⟨hmem, hw⟩
      · exact absurd hforeign hown
      · exact .inl ⟨n, hmem, hlead.passes, hown, hw⟩
      · exact .inr ⟨n, hmem, hlead.passes, hown, hw⟩
  · intro hout l id hfind hsite
    by_contra hne
    by_cases hload : cached.Loads c
    · rw [findLocation_eq cached t hload] at hfind
      obtain ⟨name, hpick, hloc⟩ := Option.bind_eq_some_iff.mp hfind
      obtain ⟨l', hfind', hsite'⟩ := site_of_pick cached t hload hpick
      rw [findLocation_eq cached t hload, hpick, Option.bind_some, hloc] at hfind'
      obtain rfl : l = l' := by simpa using hfind'
      obtain ⟨pre, post, hsplit, hlead⟩ := Ranked.leads_of_pick hpick
      exact not_leads_of_outranked c cached t hlead
        (hout hload pre name post hsplit hlead.passes ⟨id, hsite'.symm.trans hsite, hne⟩)
    · have hb : ¬ (cachedRulesToPingapConfig cached).server.builds c = true :=
        fun hb => hload ((builds_iff c cached).mp hb)
      rw [ServerConfig.findLocation, if_neg hb] at hfind
      cases hfind

end

/-! ## An exact site and a wildcard site -/

/-- A site with one pool and, where a priority is given, one route over every path. -/
def simpleSite (id domain : String) (priority : Option Int) : Site where
  id := id
  domain := domain
  alternateDomains := []
  status := 0
  rules := some ⟨id, none, [], none, [⟨"pool", ["10.0.0.1:80"], true⟩],
    (priority.map fun p => ⟨"r", .start, "/", some p, true, "pool", [], ""⟩).toList, false⟩
  trustProxyHeaders := false
  trustedHeader := ""
  trustLastHop := true
  trustedProxyRanges := []
  downstreamTimeoutSecs := 0

/-- The exact site has its fallback only, the wildcard site a route of priority 10. -/
def overlappingSites : CachedRules :=
  CachedRules.empty.updateFromSiteConfig
    ⟨[simpleSite "exact" "www.example.com" none, simpleSite "wild" "*.example.com" (some 10)]⟩

def wwwRoot : Target := ⟨"www.example.com", "/", none⟩

/-- The wildcard site's route outweighs the exact site's fallback: the request goes to the one
site's origin under the other site's rules. -/
theorem wildcard_route_serves_exact_host :
    (((cachedRulesToPingapConfig overlappingSites).server.findLocation .inert wwwRoot).bind
        (·.site)) = some "wild" ∧
      overlappingSites.siteFor "www.example.com" = some "exact" ∧
      ¬ RoutedSiteProtected .inert overlappingSites wwwRoot := by
  have hwild : (((cachedRulesToPingapConfig overlappingSites).server.findLocation .inert
      wwwRoot).bind (·.site)) = some "wild" := by decide +kernel
  have hexact : overlappingSites.siteFor "www.example.com" = some "exact" := by decide +kernel
  refine ⟨hwild, hexact, fun hprot => ?_⟩
  obtain ⟨l, hl, hsite⟩ := Option.bind_eq_some_iff.mp hwild
  have h := hprot l "wild" hl hsite
  rw [show wwwRoot.host = "www.example.com" from rfl, hexact] at h
  exact absurd h (by decide)

end PingWaf.Routing
