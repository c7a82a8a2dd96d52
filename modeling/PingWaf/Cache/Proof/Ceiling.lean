import PingWaf.Cache.Proof.Stored

/-!
# The ceiling on freshness

`max_ttl` caps a lifetime that the directives give and replaces one that nobody gives. It does not
reach a lifetime that `Expires` gives, and a ceiling below a second becomes no time at all.
-/

namespace PingWaf.Cache

open Text Plugin

variable {P : Pingora} {now : Int} {q : RequestHeader} {info : CacheInfo} {r : ResponseHeader}
  {m : Nat}

/-- All that the filter asks of a response that it stores. -/
structure Storable (P : Pingora) (q : RequestHeader) (info : CacheInfo) (r : ResponseHeader) :
    Prop where
  screened : Screened P q (some info) r
  usable : ∀ c, P.fromRespHeaders r = some c → P.Usable c
  silent : P.fromRespHeaders r = none →
    info.checkCacheControl = false ∧ (hasExpiresHeader r = true ∨ carries q "cookie" = false)

/-- The lifetime that `Expires` gives lies within the ceiling: the time it is read as, or the second
that is the default where it is not read. -/
def ExpiresWithin (P : Pingora) (now : Int) (r : ResponseHeader) (m : Nat) : Prop :=
  match P.expiresTime r with
  | some t => now < t ∧ t ≤ now + m
  | none => second ≤ m

/-- The lifetime the origin gives is no longer than the ceiling, or the ceiling is a second. -/
def CeilingHeeded (P : Pingora) (now : Int) (r : ResponseHeader) (m : Nat) : Prop :=
  match (P.fromRespHeaders r).bind P.freshDuration with
  | some f => f ≤ m ∨ second ≤ m
  | none => if hasExpiresHeader r = true then ExpiresWithin P now r m else second ≤ m

/-- The lifetime is positive and no longer than the ceiling. -/
def Within (now : Int) (freshUntil : Int) (m : Nat) : Prop :=
  0 < freshUntil - now ∧ freshUntil - now ≤ m

theorem freshUntil_undated_within_iff {cc : Option CacheControl}
    (h : cc.bind P.freshDuration = none) :
    Within now (P.freshUntil now cc r) m ↔ ExpiresWithin P now r m := by
  have hpos : 0 < second := by decide
  unfold Within Pingora.freshUntil ExpiresWithin
  rw [h]
  cases P.expiresTime r with
  | some t =>
    show 0 < t - now ∧ t - now ≤ m ↔ now < t ∧ t ≤ now + m
    omega
  | none =>
    show 0 < now + second - now ∧ now + second - now ≤ (m : Int) ↔ second ≤ m
    omega

theorem freshUntil_dated {c : CacheControl} {f : Nat} (h : P.freshDuration c = some f)
    (hf : f ≠ 0) : P.freshUntil now (some c) r = now + f := by
  unfold Pingora.freshUntil
  rw [Option.bind_some, h]
  exact if_neg hf

theorem stored_within_iff_of_directives (hP : P.Lawful) (hm : info.maxTtl = some m)
    (hs : Storable P q info r) {c : CacheControl} (hcc : P.fromRespHeaders r = some c) :
    ∃ freshUntil, storeScreened P now q (some info) r = .cacheable ⟨freshUntil, now⟩ ∧
      (Within now freshUntil m ↔ CeilingHeeded P now r m) := by
  have hu := hs.usable c hcc
  have hmax : (some info).bind (·.maxTtl) = some m := hm
  unfold CeilingHeeded
  rw [hcc, Option.bind_some]
  cases hfresh : P.freshDuration c with
  | some f =>
    have hf : f ≠ 0 := fun h => hu.fresh (h ▸ hfresh)
    have hok : processCacheControl P c ((some info).bind (·.maxTtl)) (hasExpiresHeader r) =
        .ok (if f > m then setSMaxage c m else c) := by
      rw [hmax]
      exact processCacheControl_dated hu hfresh
    refine ⟨_, storeScreened_ok hP hs.screened hcc hok, ?_⟩
    by_cases hlt : f > m
    · rw [if_pos hlt]
      refine (setSMaxage_within_iff hP hu.noCache m).trans ?_
      show second ≤ m ↔ f ≤ m ∨ second ≤ m
      omega
    · rw [if_neg hlt, freshUntil_dated hfresh hf]
      unfold Within
      show 0 < now + f - now ∧ now + f - now ≤ m ↔ f ≤ m ∨ second ≤ m
      omega
  | none =>
    cases hex : hasExpiresHeader r with
    | true =>
      refine ⟨_, storeScreened_ok hP hs.screened hcc
        (by rw [hex]; exact processCacheControl_expires hu hfresh), ?_⟩
      exact freshUntil_undated_within_iff hfresh
    | false =>
      refine ⟨_, storeScreened_ok hP hs.screened hcc
        (by rw [hex, hmax]; exact processCacheControl_silent hu hfresh), ?_⟩
      exact setSMaxage_within_iff hP hu.noCache m

theorem stored_within_iff_of_silence (hP : P.Lawful) (hm : info.maxTtl = some m)
    (hs : Storable P q info r) (hcc : P.fromRespHeaders r = none) :
    ∃ freshUntil, storeScreened P now q (some info) r = .cacheable ⟨freshUntil, now⟩ ∧
      (Within now freshUntil m ↔ CeilingHeeded P now r m) := by
  obtain ⟨hcheck, hcookie⟩ := hs.silent hcc
  have hauth := not_authorized_of_silent hs.screened hcc
  unfold CeilingHeeded storeScreened
  rw [hcc, hauth]
  simp only [Option.any_some, hcheck, Option.bind_some, hm, Option.bind_none]
  cases hex : hasExpiresHeader r with
  | true =>
    refine ⟨_, hP.stores now none r false (fun h => absurd h (by decide)) rfl, ?_⟩
    exact freshUntil_undated_within_iff rfl
  | false =>
    have hno : carries q "cookie" = false := by
      rcases hcookie with h | h
      · rw [hex] at h
        cases h
      · exact h
    rw [hno]
    obtain ⟨hcache, hstore, hprivate⟩ := hP.empty
    obtain ⟨-, hstore', hprivate'⟩ := hP.set_frame ⟨∅⟩ m
    refine ⟨_, hP.stores now (some (floorCacheControl m)) r false
      (fun h => absurd h (by decide)) ?_, ?_⟩
    · rw [Option.any_some, floorCacheControl, hstore', hprivate', hstore, hprivate]
      rfl
    · exact setSMaxage_within_iff hP hcache m

theorem storable_of_cacheable (hm : info.maxTtl = some m) {entry : CacheMeta}
    (h : responseCacheFilter P now q (some info) r = .cacheable entry) :
    Storable P q info r := by
  have hscreened := screened_of_cacheable h
  rw [responseCacheFilter_screened hscreened] at h
  unfold storeScreened at h
  refine ⟨hscreened, ?_, ?_⟩
  · intro c hcc
    simp only [hcc] at h
    split at h
    · cases h
    next c' hok => exact (processCacheControl_ok hok).1
  · intro hcc
    simp only [hcc, Option.any_some, Option.bind_some, hm] at h
    split at h
    · cases h
    next hcheck =>
    refine ⟨by simpa using hcheck, ?_⟩
    split at h
    · next hex => exact .inl hex
    · split at h
      · cases h
      next hcookie => exact .inr (by simpa using hcookie)

/-- **The ceiling**: it bounds the lifetime of a stored response exactly where it is heeded. -/
theorem max_ttl_ceiling_iff (P : Pingora) (hP : P.Lawful) (now : Int) (q : RequestHeader)
    (info : CacheInfo) (r : ResponseHeader) (m : Nat) (hm : info.maxTtl = some m) :
    (∀ entry, responseCacheFilter P now q (some info) r = .cacheable entry →
        0 < entry.lifetime ∧ entry.lifetime ≤ m) ↔
      (Storable P q info r → CeilingHeeded P now r m) := by
  have hstored : Storable P q info r → ∃ freshUntil,
      storeScreened P now q (some info) r = .cacheable ⟨freshUntil, now⟩ ∧
        (Within now freshUntil m ↔ CeilingHeeded P now r m) := by
    intro hs
    cases hcc : P.fromRespHeaders r with
    | some _ => exact stored_within_iff_of_directives hP hm hs hcc
    | none => exact stored_within_iff_of_silence hP hm hs hcc
  constructor
  · intro h hs
    obtain ⟨freshUntil, heq, hiff⟩ := hstored hs
    exact hiff.mp (h ⟨freshUntil, now⟩ ((responseCacheFilter_screened hs.screened).trans heq))
  · intro h entry hentry
    have hs := storable_of_cacheable hm hentry
    obtain ⟨freshUntil, heq, hiff⟩ := hstored hs
    rw [responseCacheFilter_screened hs.screened, heq] at hentry
    obtain rfl := RespCacheable.cacheable.inj hentry
    exact hiff.mpr (h hs)

/-- An hour's ceiling cuts a directive of two hours down to itself. -/
theorem hour_ceiling_cuts_directive :
    responseCacheFilter .plain 0 (pageRequest []) (some (ceilingOf (3600 * second)))
        ⟨[⟨"cache-control", utf8Encode "max-age=7200"⟩]⟩ = .cacheable ⟨3600 * second, 0⟩ ∧
      0 < (⟨3600 * second, 0⟩ : CacheMeta).lifetime ∧
      (⟨3600 * second, 0⟩ : CacheMeta).lifetime ≤ (3600 * second : Nat) := by
  have hstored : responseCacheFilter .plain 0 (pageRequest []) (some (ceilingOf (3600 * second)))
      ⟨[⟨"cache-control", utf8Encode "max-age=7200"⟩]⟩ = .cacheable ⟨3600 * second, 0⟩ := by
    decide +kernel
  refine ⟨hstored, (max_ttl_ceiling_iff .plain Pingora.plain_lawful 0 (pageRequest [])
    (ceilingOf (3600 * second)) _ _ rfl).mpr (fun _ => ?_) _ hstored⟩
  have hfresh : (Pingora.plain.fromRespHeaders
      ⟨[⟨"cache-control", utf8Encode "max-age=7200"⟩]⟩).bind Pingora.plain.freshDuration =
        some (7200 * second) := by
    decide +kernel
  unfold CeilingHeeded
  rw [hfresh]
  exact .inr (by decide)

/-- A page that expires at the end of the century outlives a ceiling of a minute, and a ceiling of
half a second stores a page that is stale already. -/
theorem expires_outlives_ceiling :
    responseCacheFilter .plain (1800000000 * second) (pageRequest [])
        (some (ceilingOf (60 * second)))
        ⟨[⟨"expires", utf8Encode "Fri, 01 Jan 2100 00:00:00 GMT"⟩]⟩ =
      .cacheable ⟨4102444800 * second, 1800000000 * second⟩ ∧
    ¬(⟨4102444800 * second, 1800000000 * second⟩ : CacheMeta).lifetime ≤ (60 * second : Nat) ∧
    responseCacheFilter .plain 0 (pageRequest []) (some (ceilingOf (second / 2)))
        ⟨[⟨"cache-control", utf8Encode "max-age=60"⟩]⟩ = .cacheable ⟨-second, 0⟩ ∧
    ¬0 < (⟨-second, 0⟩ : CacheMeta).lifetime :=
  ⟨by decide +kernel, by decide, by decide +kernel, by decide⟩

end PingWaf.Cache
