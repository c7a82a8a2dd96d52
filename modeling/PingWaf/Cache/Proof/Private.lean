import PingWaf.Cache.Proof.Stored

/-!
# Private responses

A response that answers an authorized request or sets a cookie is stored only where the origin says
so. One that answers a request with a cookie should be stored only where the origin has dated it;
the filter asks for that on one of the ways into the cache (`CookieFloored` names the others).
-/

namespace PingWaf.Cache

open Text Plugin

variable {P : Pingora} {now : Int} {q : RequestHeader} {cache : Option CacheInfo}
  {r : ResponseHeader}

/-- The origin gave the response a freshness lifetime: by a directive, or by its `Expires`. -/
def OriginDated (P : Pingora) (r : ResponseHeader) : Prop :=
  ((P.fromRespHeaders r).bind P.freshDuration).isSome = true ∨
    (P.expiresTime r).isSome = true

/-- The origin's consent to storing a response that may be one visitor's alone. -/
structure Consented (P : Pingora) (q : RequestHeader) (r : ResponseHeader) : Prop where
  authorization : carries q "authorization" = true → ∃ c, P.fromRespHeaders r = some c ∧
    (P.isPublic c = true ∨ P.hasDirective c .sMaxAge = true ∨ P.mustRevalidate c = true)
  setCookie : r.containsKey "set-cookie" = true → ∃ c, P.fromRespHeaders r = some c ∧
    (P.isPublic c = true ∨ P.hasDirective c .sMaxAge = true)
  cookie : carries q "cookie" = true → OriginDated P r

/-- A lifetime comes from the proxy: the ceiling, or the default. -/
def ProxyDates (P : Pingora) (cache : Option CacheInfo) (r : ResponseHeader) : Prop :=
  match P.fromRespHeaders r with
  | some c =>
    P.noCache c = false ∧ P.noStore c = false ∧ P.isPrivate c = false ∧
      ((cache.bind (·.maxTtl)).isSome = true ∨ hasExpiresHeader r = true)
  | none =>
    cache.any (·.checkCacheControl) = false ∧
      (cache.bind (·.maxTtl) = none ∨ hasExpiresHeader r = true)

/-- The request carries a cookie, its response no date of the origin's, and it gets one here. -/
structure CookieFloored (P : Pingora) (q : RequestHeader) (cache : Option CacheInfo)
    (r : ResponseHeader) : Prop where
  screened : Screened P q cache r
  cookie : carries q "cookie" = true
  undated : ¬OriginDated P r
  dates : ProxyDates P cache r

theorem Screened.authorization_consent (h : Screened P q cache r)
    (hauth : carries q "authorization" = true) : ∃ c, P.fromRespHeaders r = some c ∧
      (P.isPublic c = true ∨ P.hasDirective c .sMaxAge = true ∨ P.mustRevalidate c = true) := by
  obtain ⟨c, hcc, hc⟩ := (Option.any_eq_true _ _).mp (h.authorization hauth)
  simp only [Bool.or_eq_true, or_assoc] at hc
  exact ⟨c, hcc, hc⟩

theorem Screened.setCookie_consent (h : Screened P q cache r)
    (hset : r.containsKey "set-cookie" = true) : ∃ c, P.fromRespHeaders r = some c ∧
      (P.isPublic c = true ∨ P.hasDirective c .sMaxAge = true) := by
  obtain ⟨c, hcc, hc⟩ := (Option.any_eq_true _ _).mp (h.setCookie hset)
  simp only [Bool.or_eq_true] at hc
  exact ⟨c, hcc, hc⟩

theorem stored_unfresh_iff (hP : P.Lawful) {c : CacheControl} (hs : Screened P q cache r)
    (hcc : P.fromRespHeaders r = some c) (hfresh : P.freshDuration c = none) :
    (∃ entry, storeScreened P now q cache r = .cacheable entry) ↔ ProxyDates P cache r := by
  unfold ProxyDates
  rw [hcc]
  constructor
  · rintro ⟨entry, h⟩
    unfold storeScreened at h
    simp only [hcc] at h
    split at h
    · cases h
    next c' hok =>
    obtain ⟨hu, -⟩ := processCacheControl_ok hok
    refine ⟨hu.noCache, hu.noStore, hu.isPrivate, ?_⟩
    cases hex : hasExpiresHeader r with
    | true => exact .inr rfl
    | false =>
      rw [hex, processCacheControl_silent hu hfresh] at hok
      left
      cases hm : cache.bind (·.maxTtl) with
      | none => rw [hm] at hok; cases hok
      | some _ => rfl
  · rintro ⟨hnc, hns, hp, hdates⟩
    have hu : P.Usable c := ⟨hnc, hns, hp, by rw [hfresh]; exact Option.some_ne_none 0 |>.symm⟩
    cases hex : hasExpiresHeader r with
    | true =>
      exact ⟨_, storeScreened_ok hP hs hcc (by rw [hex, processCacheControl_expires hu hfresh])⟩
    | false =>
      obtain ⟨m, hm⟩ : ∃ m, cache.bind (·.maxTtl) = some m := by
        rcases hdates with h | h
        · exact Option.isSome_iff_exists.mp h
        · rw [hex] at h
          cases h
      exact ⟨_, storeScreened_ok hP hs hcc
        (by rw [hex, hm, processCacheControl_silent hu hfresh])⟩

theorem stored_silent_iff (hP : P.Lawful) (hs : Screened P q cache r) (hcookie : carries q "cookie" = true)
    (hcc : P.fromRespHeaders r = none) :
    (∃ entry, storeScreened P now q cache r = .cacheable entry) ↔ ProxyDates P cache r := by
  have hauth := not_authorized_of_silent hs hcc
  have hstored : P.respCacheable now none r (carries q "authorization") =
      .cacheable ⟨P.freshUntil now none r, now⟩ :=
    hP.stores now none r _ (fun h => absurd h (by rw [hauth]; decide)) rfl
  unfold ProxyDates storeScreened
  simp only [hcc]
  cases cache.any (·.checkCacheControl) with
  | true => simp
  | false =>
    cases hm : cache.bind (·.maxTtl) with
    | none => simp [hstored]
    | some _ =>
      cases hex : hasExpiresHeader r with
      | true => simp [hstored]
      | false => simp [hcookie]

theorem stored_undated_iff (hP : P.Lawful) (hs : Screened P q cache r) (hcookie : carries q "cookie" = true)
    (hu : ¬OriginDated P r) :
    (∃ entry, storeScreened P now q cache r = .cacheable entry) ↔ ProxyDates P cache r := by
  obtain ⟨hfresh, -⟩ := not_or.mp hu
  rw [Bool.not_eq_true, Option.isSome_eq_false_iff, Option.isNone_iff_eq_none] at hfresh
  cases hcc : P.fromRespHeaders r with
  | some _ =>
    rw [hcc, Option.bind_some] at hfresh
    exact stored_unfresh_iff hP hs hcc hfresh
  | none => exact stored_silent_iff hP hs hcookie hcc

/-- **Consent**: no stored response is without it, unless the proxy dates a response to a request
with a cookie. -/
theorem private_responses_kept_out_iff (P : Pingora) (hP : P.Lawful) (now : Int) (q : RequestHeader)
    (cache : Option CacheInfo) (r : ResponseHeader) :
    (∀ entry, responseCacheFilter P now q cache r = .cacheable entry → Consented P q r) ↔
      ¬CookieFloored P q cache r := by
  constructor
  · rintro h ⟨hs, hcookie, hu, hdates⟩
    obtain ⟨entry, hstored⟩ : ∃ entry, storeScreened P now q cache r = .cacheable entry :=
      (stored_undated_iff hP hs hcookie hu).mpr hdates
    rw [← responseCacheFilter_screened hs] at hstored
    exact hu ((h entry hstored).cookie hcookie)
  · intro h entry hstored
    have hs := screened_of_cacheable hstored
    refine ⟨hs.authorization_consent, hs.setCookie_consent, ?_⟩
    intro hcookie
    apply Classical.byContradiction
    intro hu
    rw [responseCacheFilter_screened hs] at hstored
    exact h ⟨hs, hcookie, hu, (stored_undated_iff hP hs hcookie hu).mp ⟨entry, hstored⟩⟩

/-- A page that the origin has dated is stored with its consent, for a visitor with a session too. -/
theorem dated_page_consented :
    responseCacheFilter .plain 0 (pageRequest [⟨"cookie", utf8Encode "id=7"⟩])
        (some (ceilingOf (600 * second))) ⟨[⟨"cache-control", utf8Encode "max-age=60"⟩]⟩ =
      .cacheable ⟨60 * second, 0⟩ ∧
    Consented .plain (pageRequest [⟨"cookie", utf8Encode "id=7"⟩])
      ⟨[⟨"cache-control", utf8Encode "max-age=60"⟩]⟩ := by
  have hstored : responseCacheFilter .plain 0 (pageRequest [⟨"cookie", utf8Encode "id=7"⟩])
      (some (ceilingOf (600 * second))) ⟨[⟨"cache-control", utf8Encode "max-age=60"⟩]⟩ =
        .cacheable ⟨60 * second, 0⟩ := by decide +kernel
  refine ⟨hstored, (private_responses_kept_out_iff .plain Pingora.plain_lawful 0 _ _ _).mpr
    (fun h => h.undated (.inl ?_)) _ hstored⟩
  decide +kernel

/-- A visitor with a session asks for a page that is merely `public`; the rule's ten minutes make it
everybody's. -/
theorem session_page_stored_by_ceiling :
    carries (pageRequest [⟨"cookie", utf8Encode "id=7"⟩]) "cookie" = true ∧
      ¬OriginDated .plain ⟨[⟨"cache-control", utf8Encode "public"⟩]⟩ ∧
      responseCacheFilter .plain 0 (pageRequest [⟨"cookie", utf8Encode "id=7"⟩])
          (some (ceilingOf (600 * second))) ⟨[⟨"cache-control", utf8Encode "public"⟩]⟩ =
        .cacheable ⟨600 * second, 0⟩ := by
  refine ⟨by decide +kernel, ?_, by decide +kernel⟩
  unfold OriginDated
  decide +kernel

end PingWaf.Cache
