import PingWaf.Challenge.Plain

/-!
# Clearance earned elsewhere

A cookie that does not validate is passed over, and the decision is the one for no cookie at all. A
cookie that validates but belongs to another site ends the decision at once, at the level the
request rate gives.
-/

namespace PingWaf.Challenge

open Text ChallengeEngine

variable {c : Primitives} {e : ChallengeEngine} {q : ChallengeRequest} {value : String} {now : Int}

/-- The same request with every cookie of the engine's clearance name left out. -/
def ChallengeEngine.dropClearance (e : ChallengeEngine) (q : ChallengeRequest) : ChallengeRequest :=
  { q with cookies := q.cookies.filter fun p => p.1 ≠ e.cookieManager.cookieName }

/-- The cookie value is invalid, expired or bound to another site than the request's. -/
def ChallengeEngine.earnedElsewhere (c : Primitives) (e : ChallengeEngine) (q : ChallengeRequest)
    (value : String) (now : Int) : Prop :=
  ∀ payload, e.cookieManager.validateClearance c value now = .ok payload →
    payload.siteId ≠ q.siteId

/-- The level that the rate gives is the decision that a request without a clearance gets: under
attack a rate of at most twice and of at most three times the threshold, products of 32 bits, and
otherwise a rate above the threshold. -/
def ChallengeEngine.rateDecides (e : ChallengeEngine) (q : ChallengeRequest) : Bool :=
  if e.config.underAttackMode then
    q.requestRate ≤ e.config.rateThreshold * 2 % 2 ^ 32 &&
      q.requestRate ≤ e.config.rateThreshold * 3 % 2 ^ 32
  else e.config.rateThreshold < q.requestRate

/-! ## The cookie-less decision -/

theorem extractClearance_dropClearance : e.extractClearance (e.dropClearance q) = none := by
  unfold extractClearance dropClearance
  rw [Option.map_eq_none_iff, List.find?_eq_none]
  intro p hp
  simpa using (List.mem_filter.mp hp).2

theorem exempts_dropClearance : e.exempts c (e.dropClearance q) = e.exempts c q := rfl

theorem shouldChallenge_dropClearance :
    e.shouldChallenge c (e.dropClearance q) now =
      if e.exempts c q then .pass else e.withoutClearance q := by
  unfold shouldChallenge
  rw [extractClearance_dropClearance, exempts_dropClearance]
  rfl

/-! ## Levels by rate -/

theorem decideChallengeLevel_ne_pass : e.decideChallengeLevel q ≠ .pass := by
  unfold decideChallengeLevel
  split
  · exact nofun
  · split <;> exact nofun

theorem decideChallengeLevel_eq_js :
    e.decideChallengeLevel q = .jsChallenge ↔
      q.requestRate ≤ e.config.rateThreshold * 2 % 2 ^ 32 ∧
        q.requestRate ≤ e.config.rateThreshold * 3 % 2 ^ 32 := by
  unfold decideChallengeLevel
  split
  · next h =>
    simp only [reduceCtorEq, false_iff, not_and]
    omega
  · next h3 =>
    split
    · next h2 =>
      simp only [reduceCtorEq, false_iff, not_and]
      omega
    · next h2 =>
      simp only [true_iff]
      omega

theorem decideChallengeLevel_eq_withoutClearance :
    e.decideChallengeLevel q = e.withoutClearance q ↔ e.rateDecides q = true := by
  unfold withoutClearance rateDecides
  split
  · rw [decideChallengeLevel_eq_js, Bool.and_eq_true, decide_eq_true_iff, decide_eq_true_iff]
  · split
    · next h => simp [h]
    · next h => simp [h, decideChallengeLevel_ne_pass]

/-! ## The decision with a cookie from elsewhere -/

theorem shouldChallenge_foreign (hsite : q.siteId ≠ "") (hcookie : e.extractClearance q = some value)
    (hforeign : e.earnedElsewhere c q value now) :
    e.shouldChallenge c q now =
      if e.exempts c q then .pass
      else if (e.validateClearance c value now).isSome then e.decideChallengeLevel q
      else e.withoutClearance q := by
  unfold shouldChallenge validateClearance
  rw [hcookie]
  cases hv : e.cookieManager.validateClearance c value now with
  | error _ => simp [hv, Except.toOption]
  | ok payload =>
    have hbound : cookieBoundToSite payload q = false := by
      simp [cookieBoundToSite, hsite, hforeign payload hv]
    simp [hv, hbound, Except.toOption]

/-- A clearance earned elsewhere changes nothing exactly when the request is exempt, when the cookie
does not validate, or when its rate brings about the same decision anyway. -/
theorem foreign_clearance_as_none_iff (c : Primitives) (e : ChallengeEngine) (q : ChallengeRequest)
    (value : String) (now : Int) (hsite : q.siteId ≠ "")
    (hcookie : e.extractClearance q = some value)
    (hforeign : e.earnedElsewhere c q value now) :
    e.shouldChallenge c q now = e.shouldChallenge c (e.dropClearance q) now ↔
      e.exempts c q = true ∨ e.validateClearance c value now = none ∨ e.rateDecides q = true := by
  rw [shouldChallenge_foreign hsite hcookie hforeign, shouldChallenge_dropClearance]
  cases hex : e.exempts c q with
  | true => simp
  | false =>
    cases hv : e.validateClearance c value now with
    | none => simp
    | some _ => simp [decideChallengeLevel_eq_withoutClearance]

/-! ## A visitor of two sites -/

def calmEngine : ChallengeEngine :=
  ⟨⟨true, false, .nonInteractive, 1800, [], [], 100, true, "secret", clearanceCookieName, 4, 300⟩⟩

/-- A clearance of the shop. -/
def otherSiteCookie : String :=
  calmEngine.cookieManager.encodePayload Primitives.plain shopPayload

/-- A request to another site at the given rate, with the shop's cookie. -/
def visitWithOtherCookie (rate : Nat) : ChallengeRequest :=
  ⟨"/", "Mozilla/5.0", [(clearanceCookieName, otherSiteCookie)], rate, "blog.example.com"⟩

theorem otherSiteCookie_elsewhere (rate : Nat) :
    calmEngine.earnedElsewhere Primitives.plain (visitWithOtherCookie rate) otherSiteCookie 1010 := by
  intro payload hp
  unfold otherSiteCookie at hp
  rw [validate_encodePayload Primitives.plain_lawful, if_neg (by simp)] at hp
  cases hp
  simp [shopPayload, visitWithOtherCookie]

/-- Above the threshold the cookie that validates makes no difference: the rate decides. -/
theorem foreign_clearance_busy_visitor :
    calmEngine.shouldChallenge Primitives.plain (visitWithOtherCookie 250) 1010 =
        calmEngine.shouldChallenge Primitives.plain
          (calmEngine.dropClearance (visitWithOtherCookie 250)) 1010 ∧
      (calmEngine.validateClearance Primitives.plain otherSiteCookie 1010).isSome = true := by
  refine ⟨(foreign_clearance_as_none_iff Primitives.plain calmEngine (visitWithOtherCookie 250)
    otherSiteCookie 1010 (by decide) (by decide +kernel)
    (otherSiteCookie_elsewhere 250)).mpr (.inr (.inr (by decide))), ?_⟩
  decide +kernel

/-- At a rate of 5 the visitor with the other site's cookie is challenged; without a cookie the
visitor passes. -/
theorem other_site_cookie_is_challenged :
    (visitWithOtherCookie 5).siteId ≠ "" ∧
      calmEngine.extractClearance (visitWithOtherCookie 5) = some otherSiteCookie ∧
      calmEngine.earnedElsewhere Primitives.plain (visitWithOtherCookie 5) otherSiteCookie 1010 ∧
      calmEngine.shouldChallenge Primitives.plain (visitWithOtherCookie 5) 1010 = .jsChallenge ∧
      calmEngine.shouldChallenge Primitives.plain
        (calmEngine.dropClearance (visitWithOtherCookie 5)) 1010 = .pass := by
  refine ⟨by decide, by decide +kernel, otherSiteCookie_elsewhere 5, ?_, ?_⟩
  · decide +kernel
  · decide +kernel

end PingWaf.Challenge
