import PingWaf.Routing.Proof.Index

/-!
# What a rule bundle leaves alone

A bundle carries the rules of a site and none of its settings, but the record that is swapped in
comes from the bundle alone, with the timeout copied over. The settings survive, and the site is
still found under its domains, exactly where they are the defaults of that record.
-/

namespace PingWaf.Routing

open Plugin (normalizeHost)

/-- The settings that a bundle does not carry. -/
structure SiteSettings where
  domain : String
  alternateDomains : List String
  status : String
  downstreamTimeoutSecs : Nat
  proxyTrust : Plugin.ProxyTrustConfig
  deriving DecidableEq

/-- The settings of a site that a bundle does not carry. -/
def SiteRules.settings (site : SiteRules) : SiteSettings :=
  ⟨site.domain, site.alternateDomains, site.status, site.downstreamTimeoutSecs, site.proxyTrust⟩

theorem settings_convertedFor {cached : CachedRules} {bundle : RuleBundle} {old : SiteRules}
    (hold : cached.sites.lookup bundle.siteId = some old) :
    (cached.convertedFor bundle).settings =
      ⟨"", [], "active", old.downstreamTimeoutSecs, defaultProxyTrust⟩ := by
  unfold CachedRules.convertedFor
  rw [hold]
  rfl

theorem lookup_sites_updateFromBundle (cached : CachedRules) (bundle : RuleBundle) (s : String) :
    (cached.updateFromBundle bundle).sites.lookup s =
      if s = bundle.siteId then some (cached.convertedFor bundle) else cached.sites.lookup s := by
  unfold CachedRules.updateFromBundle
  dsimp only
  split
  · next h =>
    subst h
    exact AList.lookup_insert _
  · next h => exact AList.lookup_insert_ne h

theorem siteFor_blank_updateFromBundle (cached : CachedRules) (bundle : RuleBundle) :
    (cached.updateFromBundle bundle).siteFor "" = some bundle.siteId := by
  have hnames : (cached.convertedFor bundle).domains.map normalizeHost = [""] :=
    names_convertedFor cached bundle
  have hindex : (cached.updateFromBundle bundle).domainIndex.lookup "" = some bundle.siteId := by
    unfold CachedRules.updateFromBundle
    rw [lookup_foldl_indexDomain, hnames, if_pos (List.mem_singleton_self _)]
  have hsite := lookup_sites_updateFromBundle cached bundle bundle.siteId
  rw [if_pos rfl] at hsite
  rw [CachedRules.siteFor, lookupWithWildcard, hindex, Option.some_or, Option.filter_some, hsite,
    Option.isSome_some, if_pos rfl]

/-- A bundle keeps the settings and names of a site exactly where they are the defaults. -/
theorem bundle_settings_kept_iff (cached : CachedRules) (bundle : RuleBundle) (old : SiteRules)
    (hold : cached.sites.lookup bundle.siteId = some old) :
    (((cached.updateFromBundle bundle).sites.lookup bundle.siteId).map SiteRules.settings =
          some old.settings ∧
        ∀ d ∈ old.domains,
          (cached.updateFromBundle bundle).siteFor (normalizeHost d) = some bundle.siteId) ↔
      old.domain = "" ∧ old.alternateDomains = [] ∧ old.status = "active" ∧
        old.proxyTrust = defaultProxyTrust := by
  have hsite := lookup_sites_updateFromBundle cached bundle bundle.siteId
  rw [if_pos rfl] at hsite
  rw [hsite, Option.map_some, Option.some.injEq, settings_convertedFor hold]
  constructor
  · rintro ⟨hkept, -⟩
    have h := SiteSettings.mk.inj hkept
    exact ⟨h.1.symm, h.2.1.symm, h.2.2.1.symm, h.2.2.2.2.symm⟩
  · rintro ⟨hdomain, halternate, hstatus, htrust⟩
    refine ⟨?_, fun d hd => ?_⟩
    · rw [SiteRules.settings, hdomain, halternate, hstatus, htrust]
    · rw [SiteRules.domains, hdomain, halternate, List.mem_singleton] at hd
      subst hd
      exact siteFor_blank_updateFromBundle cached bundle

/-- A site without a name keeps what it has. -/
theorem nameless_site_kept :
    ((CachedRules.empty.updateFromSiteConfig ⟨[namedSite "s" "" []]⟩).sites.lookup "s").isSome =
        true ∧
      ((((CachedRules.empty.updateFromSiteConfig ⟨[namedSite "s" "" []]⟩).updateFromBundle
          ⟨"s", some .block, [], none, [], [], false⟩).sites.lookup "s").map SiteRules.settings =
        some ⟨"", [], "active", 60, defaultProxyTrust⟩) :=
  ⟨by decide +kernel,
    ((bundle_settings_kept_iff (CachedRules.empty.updateFromSiteConfig ⟨[namedSite "s" "" []]⟩)
      ⟨"s", some .block, [], none, [], [], false⟩
      ((namedSite "s" "" []).siteRules ⟨"s", none, [], none, [], [], false⟩)
      (by decide +kernel)).mpr (by decide +kernel)).1⟩

def pausedSite : Site :=
  { namedSite "s" "a.example" ["b.example"] with
    status := 1
    trustProxyHeaders := true
    trustedProxyRanges := ["10.0.0.0/8"] }

/-- After an update of its rules the site is active, trusts no proxy, and is no longer found. -/
theorem bundle_resets_paused_site :
    (CachedRules.empty.updateFromSiteConfig ⟨[pausedSite]⟩).siteFor "a.example" = some "s" ∧
      (((CachedRules.empty.updateFromSiteConfig ⟨[pausedSite]⟩).updateFromBundle
          ⟨"s", some .block, [], none, [], [], false⟩).sites.lookup "s").map SiteRules.settings =
        some ⟨"", [], "active", 60, defaultProxyTrust⟩ ∧
      ((CachedRules.empty.updateFromSiteConfig ⟨[pausedSite]⟩).updateFromBundle
        ⟨"s", some .block, [], none, [], [], false⟩).siteFor "a.example" = none := by
  refine ⟨?_, ?_, ?_⟩ <;> decide +kernel

end PingWaf.Routing
