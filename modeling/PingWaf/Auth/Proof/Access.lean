import PingWaf.Auth.Proof.Both
import PingWaf.Auth.Access

/-!
# Access decisions

The session carries every claim that a rule reads (`claimOf_callbackSession`), so the decision on a
later request is the one on the ID token's claims, and it is the one that the policy means
(`access_follows_policy`).
-/

namespace PingWaf.Auth

open Text List
open Plugin (getCookieValue)

variable {claims : ClaimMap} {name : String}

/-! ## What the session keeps -/

theorem claimOf_putClaim_same (value : Waf.Json) :
    claimOf (putClaim claims name value) name = some value := by
  unfold claimOf putClaim
  have hnone : (claims.filter fun c => c.1 ≠ name).find? (fun c => c.1 = name) = none := by
    simp [find?_eq_none]
  rw [find?_append, hnone]
  simp

theorem claimOf_putClaim_other {other : String} (h : other ≠ name) (value : Waf.Json) :
    claimOf (putClaim claims name value) other = claimOf claims other := by
  unfold claimOf putClaim
  have hnew : [(name, value)].find? (fun c => c.1 = other) = none := by
    simp [h.symm]
  rw [find?_append, hnew, Option.or_none, find?_filter]
  congr 2
  funext c
  by_cases hc : c.1 = other
  · simp [hc, h]
  · simp [hc]

theorem claimOf_keep (kept : ClaimMap) (other : String) :
    claimOf (keep claims kept name) other =
      if other = name ∧ (claimOf claims name).isSome then claimOf claims other
      else claimOf kept other := by
  unfold keep
  cases hclaim : claimOf claims name with
  | none => simp
  | some _ =>
    by_cases hname : other = name
    · subst hname
      simp [claimOf_putClaim_same, hclaim]
    · simp [hname, claimOf_putClaim_other hname]

theorem claimOf_foldl_keep (names : List String) (kept : ClaimMap)
    (hkept : ∀ other, claimOf kept other = none ∨ claimOf kept other = claimOf claims other)
    (hname : name ∈ names ∨ claimOf kept name = claimOf claims name) :
    claimOf (names.foldl (keep claims) kept) name = claimOf claims name := by
  induction names generalizing kept with
  | nil => exact hname.resolve_left not_mem_nil
  | cons _ _ ih =>
    rw [foldl_cons]
    apply ih
    · intro other
      rw [claimOf_keep]
      split
      · exact .inr rfl
      · exact hkept other
    · rw [claimOf_keep]
      rcases hname with hmem | hsame
      · rcases mem_cons.mp hmem with rfl | hrest
        · right
          split
          · rfl
          · next hnone =>
            -- the ID token has no such claim, and nothing else was kept under its name
            have habsent : claimOf claims name = none := by simpa using hnone
            rcases hkept name with h | h
            · rw [h, habsent]
            · exact h
        · exact .inl hrest
      · right
        split
        · rfl
        · exact hsame

theorem claimOf_callbackSession {o : Oidc} {exp : Nat} (h : name ∈ o.keptNames) :
    claimOf (o.callbackSession claims exp).claims name = claimOf claims name :=
  claimOf_foldl_keep o.keptNames [] (fun _ => .inl rfl) (.inl h)

theorem mem_foldl_claims (rules : List AccessRule) (names : List String) :
    name ∈ rules.foldl
        (fun names rule => if names.contains rule.claim then names else names ++ [rule.claim]) names ↔
      name ∈ names ∨ ∃ rule ∈ rules, rule.claim = name := by
  induction rules generalizing names with
  | nil => simp
  | cons rule _ ih =>
    rw [foldl_cons, ih]
    simp only [mem_cons, exists_eq_or_imp]
    by_cases hseen : names.contains rule.claim = true
    · rw [if_pos hseen]
      have hmem : rule.claim ∈ names := contains_iff_mem.mp hseen
      constructor
      · rintro (h | h)
        · exact .inl h
        · exact .inr (.inr h)
      · rintro (h | rfl | h)
        · exact .inl h
        · exact .inl hmem
        · exact .inr h
    · rw [if_neg hseen, mem_append, mem_singleton, or_assoc, eq_comm]

/-! ## What a rule admits -/

theorem contains_or_hasSub (scalars : List String) (value : String) :
    (scalars.any fun item => item = value || hasSub item value) =
      scalars.any fun item => hasSub item value := by
  congr 1
  funext item
  by_cases h : item = value
  · subst h
    simp [hasSub_iff]
  · simp [h]

theorem claimPresent_eq {claim : Option Waf.Json} (h : claim ≠ some (.object [])) :
    claimPresent claim = filled claim := by
  cases claim with
  | none => rfl
  | some value =>
    cases value with
    | object members =>
      cases members with
      | nil => exact absurd rfl h
      | cons _ _ => rfl
    | _ => simp [claimPresent, filled]

theorem matches_eq {rule : AccessRule} {claims : ClaimMap}
    (h : rule.operator = .exists_ → claimOf claims rule.claim ≠ some (.object [])) :
    rule.matches claims = rule.documented claims := by
  obtain ⟨claim, operator, value⟩ := rule
  unfold AccessRule.matches AccessRule.documented
  cases operator with
  | eq =>
    apply Bool.eq_iff_iff.mpr
    simp
  | ne => simp [all_eq_not_any_not]
  | in_ =>
    apply Bool.eq_iff_iff.mpr
    simp only [listedEntries, any_eq_true, contains_iff_mem]
    constructor
    · rintro ⟨entry, hentry, hscalar⟩
      exact ⟨entry, hscalar, hentry⟩
    · rintro ⟨entry, hscalar, hentry⟩
      exact ⟨entry, hentry, hscalar⟩
  | exists_ => exact claimPresent_eq (h rfl)
  | contains => exact contains_or_hasSub _ _

theorem matches_congr {rule : AccessRule} {claims other : ClaimMap}
    (h : claimOf claims rule.claim = claimOf other rule.claim) :
    rule.matches claims = rule.matches other := by
  unfold AccessRule.matches
  rw [h]

theorem admits_congr {policy : AccessPolicy} {claims other : ClaimMap}
    (h : ∀ name ∈ policy.claims, claimOf claims name = claimOf other name) :
    policy.admits claims = policy.admits other := by
  apply Bool.eq_iff_iff.mpr
  cases policy with
  | allowAll => rfl
  | requireAny rules =>
    simp only [AccessPolicy.admits, any_eq_true]
    refine exists_congr fun rule => and_congr_right fun hrule => ?_
    rw [matches_congr (h _ ((mem_foldl_claims rules []).mpr (.inr ⟨rule, hrule, rfl⟩)))]
  | requireAll rules =>
    simp only [AccessPolicy.admits, all_eq_true]
    refine forall₂_congr fun rule hrule => ?_
    rw [matches_congr (h _ ((mem_foldl_claims rules []).mpr (.inr ⟨rule, hrule, rfl⟩)))]

/-! ## What a policy admits -/

theorem admits_eq {policy : AccessPolicy} (h : policy.ReadsNoEmptyObject claims) :
    policy.admits claims = policy.documented claims := by
  apply Bool.eq_iff_iff.mpr
  cases policy with
  | allowAll => rfl
  | requireAny rules =>
    simp only [AccessPolicy.admits, AccessPolicy.documented, any_eq_true]
    exact exists_congr fun rule => and_congr_right fun hrule => by rw [matches_eq (h rule hrule)]
  | requireAll rules =>
    simp only [AccessPolicy.admits, AccessPolicy.documented, all_eq_true]
    exact forall₂_congr fun rule hrule => by rw [matches_eq (h rule hrule)]

/-! ## The decision on a later request -/

variable {f : Foreign} {o : Oidc} {q : Visit} {cookie : String} {exp : Nat}

theorem session_readsBack {data : SessionData}
    (hcookie : getCookieValue q.header o.cookieName = some cookie)
    (hseal : ReadsBack f o.key cookie data) (hnow : q.now < data.exp) :
    ∃ back, o.session f q.header q.now = some back ∧
      ∀ name, claimOf back.claims name = claimOf data.claims name := by
  obtain ⟨back, hread, hexp, hclaims⟩ := hseal
  refine ⟨back, ?_, hclaims⟩
  unfold Oidc.session
  rw [hcookie, Option.bind_some, hread]
  exact Option.filter_some_pos (by simpa [hexp] using hnow)

theorem handleRequest_continues_iff {data : SessionData} (hstep : q.step = o.pluginStep)
    (hcallback : q.requestUri.path ≠ o.redirectPath)
    (hlogout : o.logoutPath ≠ some q.requestUri.path)
    (hsession : o.session f q.header q.now = some data) :
    o.handleRequest f q = .continue_ ↔ o.access.admits data.claims = true := by
  unfold Oidc.handleRequest
  dsimp only
  rw [if_neg (not_not.mpr hstep), if_neg hcallback, if_neg hlogout, hsession]
  cases h : o.access.admits data.claims <;> simp [h]

/-- On a request that carries the session of a callback, the decision is that of the policy on the
ID token's claims, where no `exists` reads an empty object. -/
theorem access_follows_policy (f : Foreign) (o : Oidc) (claims : ClaimMap) (exp : Nat)
    (q : Visit) (cookie : String) (hstep : q.step = o.pluginStep)
    (hcallback : q.requestUri.path ≠ o.redirectPath)
    (hlogout : o.logoutPath ≠ some q.requestUri.path)
    (hcookie : getCookieValue q.header o.cookieName = some cookie)
    (hseal : ReadsBack f o.key cookie (o.callbackSession claims exp)) (hnow : q.now < exp)
    (hobject : o.access.ReadsNoEmptyObject claims) :
    o.handleRequest f q = .continue_ ↔ o.access.documented claims = true := by
  obtain ⟨back, hsession, hback⟩ := session_readsBack hcookie hseal hnow
  have hadmits : o.access.admits back.claims = o.access.admits claims := by
    apply admits_congr
    intro name hname
    rw [hback, claimOf_callbackSession]
    exact mem_append_right _ hname
  rw [handleRequest_continues_iff hstep hcallback hlogout hsession, hadmits, admits_eq hobject]

/-! ## A site for one group -/

def adminsConf : OidcConf :=
  { bothSite.oidcConf with
    authMode := ""
    accessMode := "require_any"
    accessRules := ["groups:contains:admins"] }

def adminsOidc : Oidc :=
  ⟨.request, "/cb", none, "sid", [7], [], .requireAny [⟨"groups", .contains, "admins"⟩], .oidc⟩

def inGroup (group : String) : ClaimMap :=
  [("sub", .string "u1"), ("email", .string "u1@example.com"), ("groups", .array [.string group])]

/-- The only session that can be read is the one of a callback with these claims. -/
def groupForeign (group : String) : Foreign :=
  { plainForeign with
    sessionFromJson := fun bs =>
      if bs = [2] then some (adminsOidc.callbackSession (inGroup group) 5000) else none }

def sealedCookie : String := Challenge.hexEncode (List.replicate 12 0 ++ [2])

theorem groupForeign_readsBack (group : String) :
    ReadsBack (groupForeign group) adminsOidc.key sealedCookie
      (adminsOidc.callbackSession (inGroup group) 5000) := by
  refine ⟨_, ?_, rfl, fun _ => rfl⟩
  have hopen : unsealAes (groupForeign group) adminsOidc.key sealedCookie = some [2] := by
    have hdecode : Challenge.hexDecode sealedCookie = some (replicate 12 0 ++ [2]) := by
      decide +kernel
    change (Challenge.hexDecode sealedCookie).bind _ = _
    rw [hdecode]
    rfl
  rw [hopen]
  rfl

theorem adminsOidc_reads (claims : ClaimMap) : adminsOidc.access.ReadsNoEmptyObject claims := by
  intro rule hrule hexists
  obtain rfl := mem_singleton.mp hrule
  cases hexists

/-- Who is in the group is let in, and who is in none that has its name within is not. -/
theorem admins_are_let_in :
    (adminsOidc.handleRequest (groupForeign "admins") (pageVisit oidcCookie) = .continue_ ↔
        adminsOidc.access.documented (inGroup "admins") = true) ∧
      adminsOidc.access.documented (inGroup "admins") = true ∧
      adminsOidc.access.documented (inGroup "users") = false :=
  ⟨access_follows_policy (groupForeign "admins") adminsOidc (inGroup "admins") 5000
    (pageVisit oidcCookie) sealedCookie rfl (by decide) (by decide) (by decide +kernel)
    (groupForeign_readsBack "admins") (by decide) (adminsOidc_reads (inGroup "admins")),
    by decide +kernel, by decide +kernel⟩

/-- Who is in a group with a longer name is let in too, though the list has no such element. -/
theorem not_admins_are_let_in :
    Oidc.tryFrom plainForeign adminsConf = .ok adminsOidc ∧
      ReadsBack (groupForeign "not-admins") adminsOidc.key sealedCookie
        (adminsOidc.callbackSession (inGroup "not-admins") 5000) ∧
      adminsOidc.handleRequest (groupForeign "not-admins") (pageVisit oidcCookie) = .continue_ ∧
      claimOf (inGroup "not-admins") "groups" = some (.array [.string "not-admins"]) ∧
      "admins" ∉ claimScalars (claimOf (inGroup "not-admins") "groups") :=
  ⟨by decide +kernel, groupForeign_readsBack "not-admins", by decide +kernel, rfl, by decide⟩

end PingWaf.Auth
