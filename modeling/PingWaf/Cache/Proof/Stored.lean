import PingWaf.Lib.Decimal
import PingWaf.Cache.Freshness

/-!
# Stored responses

What the filter lets into the cache. Its guards come first (`Screened`), so nothing that asks for
`Authorization` or sets a cookie gets past them; the policy changes the directives of the rest at
most in `s-maxage`.
-/

namespace PingWaf.Cache

open Text Plugin

variable {P : Pingora} {now : Int} {q : RequestHeader} {cache : Option CacheInfo}
  {r : ResponseHeader} {c : CacheControl} {d : Nat}

/-! ## Until when a response is fresh -/

theorem setSMaxage_within_iff (hP : P.Lawful) (hn : P.noCache c = false) (m : Nat) :
    (0 < P.freshUntil now (some (setSMaxage c m)) r - now ∧
        P.freshUntil now (some (setSMaxage c m)) r - now ≤ m) ↔ second ≤ m := by
  obtain ⟨s, hfresh, hle, hge⟩ := hP.set_fresh c m hn
  have htime : P.freshUntil now (some (setSMaxage c m)) r =
      if s * second = 0 then now - second else now + (s * second : Nat) := by
    rw [Pingora.freshUntil, Option.bind_some, hfresh]
    rfl
  have hmul : s * second ≤ m :=
    (Nat.mul_le_mul_right _ hle).trans (Nat.div_mul_le_self m second)
  have hpos : 0 < second := by decide
  rw [htime]
  by_cases hs : s = 0
  · have hsecs : asSecs m = 0 := by
      rw [hs] at hge
      omega
    have hlt : m < second := by
      rcases Nat.div_eq_zero_iff.mp hsecs with h | h
      · omega
      · exact h
    rw [if_pos (by rw [hs, Nat.zero_mul])]
    omega
  · have hne : s * second ≠ 0 := Nat.mul_ne_zero hs hpos.ne'
    have hsecond : second ≤ s * second := Nat.le_mul_of_pos_left _ (Nat.pos_of_ne_zero hs)
    rw [if_neg hne]
    omega

/-! ## The guards -/

/-- The guards ahead of the lifetime let the response pass. -/
structure Screened (P : Pingora) (q : RequestHeader) (cache : Option CacheInfo)
    (r : ResponseHeader) : Prop where
  varyStar : hasVaryStar r = false
  varyAllowed : ((cache.bind (·.varyHeaders)).any fun allowed =>
    (varyHeaderNames r).any fun name => !allowed.contains name) = false
  setCookie : r.containsKey "set-cookie" = true →
    setCookieIsShareable P (P.fromRespHeaders r) = true
  authorization : carries q "authorization" = true →
    originAllowsAuthorizedCaching P (P.fromRespHeaders r) = true

theorem responseCacheFilter_screened (h : Screened P q cache r) :
    responseCacheFilter P now q cache r = storeScreened P now q cache r := by
  have hcookie :
      (r.containsKey "set-cookie" && !setCookieIsShareable P (P.fromRespHeaders r)) = false := by
    cases hc : r.containsKey "set-cookie" with
    | false => rfl
    | true => rw [h.setCookie hc]; rfl
  have hauth : (carries q "authorization" &&
      !originAllowsAuthorizedCaching P (P.fromRespHeaders r)) = false := by
    cases hc : carries q "authorization" with
    | false => rfl
    | true => rw [h.authorization hc]; rfl
  unfold responseCacheFilter
  rw [h.varyStar, h.varyAllowed, hcookie, hauth]
  rfl

theorem screened_of_cacheable {entry : CacheMeta}
    (h : responseCacheFilter P now q cache r = .cacheable entry) : Screened P q cache r := by
  unfold responseCacheFilter at h
  split at h
  · cases h
  next hstar =>
  split at h
  · cases h
  next hvary =>
  split at h
  · cases h
  next hcookie =>
  split at h
  · cases h
  next hauth =>
  refine ⟨by simpa using hstar, Bool.not_eq_true _ ▸ hvary, ?_, ?_⟩
  · intro hc
    simpa [hc] using hcookie
  · intro hc
    simpa [hc] using hauth

/-! ## The policy -/

/-- The directives neither forbid reuse nor make it last no time. -/
structure Pingora.Usable (P : Pingora) (c : CacheControl) : Prop where
  noCache : P.noCache c = false
  noStore : P.noStore c = false
  isPrivate : P.isPrivate c = false
  fresh : P.freshDuration c ≠ some 0

variable {maxTtl : Option Nat} {hasExpires : Bool}

theorem processCacheControl_unusable (h : ¬P.Usable c) :
    processCacheControl P c maxTtl hasExpires = .error .originNotCache := by
  unfold processCacheControl
  split
  · rfl
  next hdirectives =>
  split
  · rfl
  next hfresh =>
  simp only [Bool.or_eq_true, not_or, Bool.not_eq_true] at hdirectives
  obtain ⟨⟨hcache, hstore⟩, hprivate⟩ := hdirectives
  exact absurd ⟨hcache, hstore, hprivate, hfresh⟩ h

theorem processCacheControl_silent (h : P.Usable c) (hfresh : P.freshDuration c = none) :
    processCacheControl P c maxTtl false =
      match maxTtl with
      | none => .error .originNotCache
      | some d => .ok (setSMaxage c d) := by
  unfold processCacheControl
  rw [h.noCache, h.noStore, h.isPrivate, hfresh]
  rfl

theorem processCacheControl_expires (h : P.Usable c) (hfresh : P.freshDuration c = none) :
    processCacheControl P c maxTtl true = .ok c := by
  unfold processCacheControl
  rw [h.noCache, h.noStore, h.isPrivate, hfresh]
  cases maxTtl <;> rfl

theorem processCacheControl_dated (h : P.Usable c) {f : Nat}
    (hfresh : P.freshDuration c = some f) :
    processCacheControl P c maxTtl hasExpires =
      match maxTtl with
      | some m => .ok (if f > m then setSMaxage c m else c)
      | none => .ok c := by
  have hne : ¬(some f = some (0 : Nat)) := hfresh ▸ h.fresh
  unfold processCacheControl
  rw [h.noCache, h.noStore, h.isPrivate, hfresh, if_neg (by decide), if_neg hne]
  cases maxTtl with
  | none => rfl
  | some m =>
    show (if f > m then Except.ok (setSMaxage c m) else Except.ok c) = _
    by_cases hlt : f > m
    · simp only [if_pos hlt]
    · simp only [if_neg hlt]

theorem processCacheControl_ok {c' : CacheControl}
    (h : processCacheControl P c maxTtl hasExpires = .ok c') :
    P.Usable c ∧ (c' = c ∨ ∃ m, maxTtl = some m ∧ c' = setSMaxage c m) := by
  by_cases hu : P.Usable c
  · refine ⟨hu, ?_⟩
    cases hfresh : P.freshDuration c with
    | none =>
      cases hasExpires with
      | true =>
        rw [processCacheControl_expires hu hfresh] at h
        exact .inl (Except.ok.inj h).symm
      | false =>
        rw [processCacheControl_silent hu hfresh] at h
        cases maxTtl with
        | none => cases h
        | some m => exact .inr ⟨m, rfl, (Except.ok.inj h).symm⟩
    | some _ =>
      rw [processCacheControl_dated hu hfresh] at h
      cases maxTtl with
      | none => exact .inl (Except.ok.inj h).symm
      | some m =>
        obtain rfl := Except.ok.inj h
        split
        · exact .inr ⟨m, rfl, rfl⟩
        · exact .inl rfl
  · rw [processCacheControl_unusable hu] at h
    cases h

theorem not_authorized_of_silent (h : Screened P q cache r) (hcc : P.fromRespHeaders r = none) :
    carries q "authorization" = false := by
  rw [← Bool.not_eq_true]
  intro hauth
  have hallow := h.authorization hauth
  rw [hcc] at hallow
  cases hallow

theorem storeScreened_ok (hP : P.Lawful) (h : Screened P q cache r)
    (hcc : P.fromRespHeaders r = some c) {c' : CacheControl}
    (hok : processCacheControl P c (cache.bind (·.maxTtl)) (hasExpiresHeader r) = .ok c') :
    storeScreened P now q cache r = .cacheable ⟨P.freshUntil now (some c') r, now⟩ := by
  obtain ⟨hu, hc'⟩ := processCacheControl_ok hok
  have hstore : (P.noStore c' || P.isPrivate c') = false := by
    rcases hc' with rfl | ⟨m, -, rfl⟩
    · rw [hu.noStore, hu.isPrivate]
      rfl
    · obtain ⟨-, hstore, hprivate⟩ := hP.set_frame c m
      rw [hstore, hprivate, hu.noStore, hu.isPrivate]
      rfl
  have hallow : carries q "authorization" = true →
      originAllowsAuthorizedCaching P (some c') = true := by
    intro hauth
    rcases hc' with rfl | ⟨m, -, rfl⟩
    · exact hcc ▸ h.authorization hauth
    · simp [originAllowsAuthorizedCaching, hP.set_present c m]
  unfold storeScreened
  simp only [hcc, hok]
  exact hP.stores now _ r _ hallow hstore

/-! ## A plain reading of headers -/

def directiveKey (name : String) : DirectiveKey :=
  match name with
  | "public" => .public_
  | "private" => .private_
  | "no-cache" => .noCache
  | "no-store" => .noStore
  | "max-age" => .maxAge
  | "s-maxage" => .sMaxAge
  | "must-revalidate" => .mustRevalidate
  | name => .other name

/-- The directives of all lines. A value is read in decimal digits, the one `Expires` that is known
as its date. -/
def plainControl (lines : List HeaderLine) : CacheControl :=
  ⟨((lines.filterMap HeaderLine.toStr).flatMap (splitChar ',')).foldl
    (fun directives entry =>
      match splitOnce '=' (trim entry) with
      | some (name, value) => directives.insert (directiveKey name) (some (utf8Encode value))
      | none => directives.insert (directiveKey (trim entry)) none) ∅⟩

def plainDuration (value : Option (List UInt8)) : Option Nat :=
  value.bind fun bytes =>
    (digitsVal (bytes.map fun b => Char.ofNat b.toNat)).map (· * second)

def plainHas (c : CacheControl) (key : DirectiveKey) : Bool := (c.directives.lookup key).isSome

def plainFresh (c : CacheControl) : Option Nat :=
  if plainHas c .noCache then some 0
  else ((c.directives.lookup .sMaxAge).or (c.directives.lookup .maxAge)).bind plainDuration

def plainExpires (r : ResponseHeader) : Option Int :=
  (r.getAll "expires").head?.map fun line =>
    if line.toStr = some "Fri, 01 Jan 2100 00:00:00 GMT" then 4102444800 * second else 0

def Pingora.plain : Pingora where
  fromRespHeaders r :=
    if r.containsKey "cache-control" then some (plainControl (r.getAll "cache-control")) else none
  isPublic c := plainHas c .public_
  isPrivate c := plainHas c .private_
  noCache c := plainHas c .noCache
  noStore c := plainHas c .noStore
  mustRevalidate c := plainHas c .mustRevalidate
  hasDirective := plainHas
  freshDuration := plainFresh
  expiresTime := plainExpires
  respCacheable now cc r _ :=
    if cc.any fun c => plainHas c .noStore || plainHas c .private_ then .uncacheable .originNotCache
    else .cacheable ⟨freshUntilOf now (cc.bind plainFresh) (plainExpires r), now⟩

theorem plainHas_setSMaxage {key : DirectiveKey} (h : key ≠ .sMaxAge) (c : CacheControl) (d : Nat) :
    plainHas (setSMaxage c d) key = plainHas c key := by
  unfold plainHas setSMaxage
  rw [AList.lookup_insert_ne h]

theorem Pingora.plain_lawful : Pingora.plain.Lawful where
  empty := by decide
  set_frame c d := ⟨plainHas_setSMaxage (by decide) c d, plainHas_setSMaxage (by decide) c d,
    plainHas_setSMaxage (by decide) c d⟩
  set_present c d := by simp [plain, plainHas, setSMaxage]
  set_fresh c d hn := by
    refine ⟨asSecs d, ?_, le_refl _, min_le_left _ _⟩
    have hno : plainHas (setSMaxage c d) .noCache = false :=
      (plainHas_setSMaxage (by decide) c d).trans hn
    have hlook : (setSMaxage c d).directives.lookup .sMaxAge =
        some (some (utf8Encode (toString (asSecs d)))) := AList.lookup_insert _
    show plainFresh (setSMaxage c d) = _
    rw [plainFresh, hno, hlook, Option.some_or, Option.bind_some, plainDuration, Option.bind_some,
      digitsVal_utf8Encode]
    rfl
  stores _ _ _ _ _ hstore := if_neg (by rw [Bool.not_eq_true]; exact hstore)

def pageRequest (headers : List HeaderLine) : RequestHeader := ⟨"GET", none, "/", none, headers⟩

def ceilingOf (m : Nat) : CacheInfo := { CacheInfo.default with maxTtl := some m }

end PingWaf.Cache
