import PingWaf.Challenge.Plain
import PingWaf.Challenge.Plugin

/-!
# Solving the challenge

The cookie that the verify endpoint sets is issued by the plugin's own engine; the next request is
judged by the engine of the site.
-/

namespace PingWaf.Challenge

open Text ChallengePlugin ChallengeAnswer
open Waf (u32Max)
open Plugin (getCookieValue isCookieChar acmeHttp01PathPrefix)

variable {c : Primitives} {env : ChallengeEnv} {p : ChallengePlugin} {q v : Visit}
  {st st' : ChallengeState} {engine : ChallengeEngine} {k : SetCookie} {payload : ClearancePayload}

/-! ## The issued cookie -/

/-- The site of the pending challenge that a submission answers. -/
def Visit.solvedSite (c : Primitives) (v : Visit) (st : ChallengeState) : Option String :=
  (v.form c).bind fun form => (livePending form.requestId v.moment.unix st).map (·.siteId)

theorem verifySolutionInner_success {s : ChallengeSubmission} {secure signed : Bool}
    {moment : Moment} {used : UsedNonces} {value attributes : String}
    (h : (engine.verifySolutionInner c s secure signed moment used).1 =
      .success value attributes) :
    ∃ fpHash, value = (engine.cookieManager.issueClearanceWithPayload c engine.config.defaultLevel
      s.siteId fpHash moment).1 := by
  unfold ChallengeEngine.verifySolutionInner at h
  split at h
  · cases h
  · next fp _ =>
    split at h
    · cases h
    · obtain ⟨rfl, -⟩ := VerifyResult.success.inj h
      exact ⟨fp.hash c, rfl⟩

theorem peekPending_some {requestId : String} {now : Int} {pending : PendingChallenge}
    (h : peekPending requestId now st = (some pending, st')) :
    livePending requestId now st = some pending ∧ st' = st := by
  unfold peekPending at h
  split at h
  · next heq =>
    obtain ⟨h1, rfl⟩ := Prod.mk.inj h
    exact ⟨heq.trans h1, rfl⟩
  · cases (Prod.mk.inj h).1

/-- What is known of a cookie that the verify endpoint sets. -/
structure Issued (p : ChallengePlugin) (c : Primitives) (v : Visit) (st : ChallengeState)
    (k : SetCookie) (payload : ClearancePayload) : Prop where
  name_eq : k.name = p.cookieName
  value_eq : k.value = p.engine.cookieManager.encodePayload c payload
  level_eq : payload.level = .nonInteractive
  expires_eq : payload.expiresAt = p.engine.cookieManager.expiry v.moment.unix
  site_eq : v.solvedSite c st = some payload.siteId

theorem handleVerify_issues {redirect : String}
    (h : (p.handleVerify c v st).1 = .verified redirect (some k)) :
    ∃ payload, Issued p c v st k payload := by
  unfold handleVerify at h
  split at h
  · cases h
  · next form hform =>
    split at h
    · cases h
    · next pending st1 hpeek =>
      obtain ⟨hlive, rfl⟩ := peekPending_some hpeek
      dsimp only at h
      split at h
      · cases h
      · next value attributes used heq =>
        obtain ⟨-, hcookie⟩ := verified.inj h
        split at hcookie
        · obtain rfl := Option.some.inj hcookie
          have hsucc : (p.engine.verifySolutionForPending c ⟨pending.nonce, form.solution,
              form.fingerprintJson, form.timestamp, pending.siteId⟩ v.tls v.moment st1.used).1 =
              .success value attributes := by rw [heq]
          obtain ⟨fpHash, hvalue⟩ := verifySolutionInner_success hsucc
          exact ⟨_, rfl, hvalue, p.level_eq, rfl, by simp [Visit.solvedSite, hform, hlive]⟩
        · cases hcookie

theorem verified_issues {redirect : String}
    (h : (p.handleRequest env v st).1 = .verified redirect (some k)) :
    ∃ payload, Issued p env.prims v st k payload := by
  unfold handleRequest at h
  split at h
  · cases h
  split at h
  · cases h
  split at h
  · exact handleVerify_issues h
  split at h
  · cases h
  split at h
  · cases h
  split at h
  · cases h
  · unfold gate at h
    split at h
    · cases h
    · dsimp only at h
      split at h <;> cases h

/-! ## The cookie on the decision path -/

theorem hasClearance_issued (hl : c.Lawful) (hi : Issued p c v st k payload)
    (hcarry : getCookieValue q.header p.cookieName = some k.value) :
    p.hasClearance c engine q = true ↔
      q.moment.unix < p.engine.cookieManager.expiry v.moment.unix ∧
        v.solvedSite c st = some q.host ∧
        engine.config.defaultLevel.rank ≤ ClearanceLevel.nonInteractive.rank := by
  have hvalid : p.engine.validateClearance c k.value q.moment.unix =
      if isValid payload q.moment.unix then some payload else none := by
    unfold ChallengeEngine.validateClearance
    rw [hi.value_eq, validate_encodePayload hl, if_neg (by simp)]
    split <;> rfl
  unfold hasClearance
  rw [hcarry, Option.bind_some, hvalid, hi.site_eq, ← hi.expires_eq]
  by_cases hv : q.moment.unix < payload.expiresAt
  · simp [isValid, hv, ChallengeEngine.clearanceLevelSufficient, levelSufficient, hi.level_eq]
  · simp [isValid, hv]

/-! ## The cookie as text -/

theorem isCookieChar_of_base64 {ch : Char} (h : isBase64UrlChar ch = true) :
    isCookieChar ch = true := by
  simp only [isBase64UrlChar, isAsciiAlphanumeric, isAsciiAlpha, isAsciiDigit, Bool.or_eq_true,
    Bool.and_eq_true, decide_eq_true_eq, beq_iff_eq] at h
  simp only [isCookieChar, Bool.and_eq_true, decide_eq_true_eq, bne_iff_ne, ne_eq]
  rcases h with ((((hlow | hup) | hdigit) | rfl) | rfl)
  · have hrange : 97 ≤ ch.toNat ∧ ch.toNat ≤ 122 := hlow
    exact ⟨⟨by omega, by omega⟩, by rintro rfl; revert hlow; decide⟩
  · have hrange : 65 ≤ ch.toNat ∧ ch.toNat ≤ 90 := hup
    exact ⟨⟨by omega, by omega⟩, by rintro rfl; revert hup; decide⟩
  · have hrange : 48 ≤ ch.toNat ∧ ch.toNat ≤ 57 := hdigit
    exact ⟨⟨by omega, by omega⟩, by rintro rfl; revert hdigit; decide⟩
  · decide
  · decide

theorem encodePayload_cookieChars (hl : c.Lawful) (m : CookieManager) (payload : ClearancePayload) :
    ∀ ch ∈ (m.encodePayload c payload).toList, isCookieChar ch = true := by
  intro ch hch
  unfold CookieManager.encodePayload at hch
  rw [String.toList_append, String.toList_append, List.mem_append, List.mem_append] at hch
  rcases hch with (hch | hch) | hch
  · exact isCookieChar_of_base64 (hl.b64_alphabet _ ch hch)
  · rw [List.mem_singleton.mp hch]
    decide
  · exact isCookieChar_of_base64 (hl.b64_alphabet _ ch hch)

/-! ## Who is challenged -/

/-- The visitor is shown a challenge. -/
def ChallengeAnswer.challenges : ChallengeAnswer → Bool
  | .challengePage _ => true
  | _ => false

/-- The plugin comes to a decision about the request. -/
def ChallengePlugin.decides (p : ChallengePlugin) (q : Visit) : Bool :=
  q.step = p.pluginStep && !hasPrefix q.header.path acmeHttp01PathPrefix && !q.submits &&
    p.enabled && !q.bypasses

/-- The engine challenges every visitor without a clearance. -/
def ChallengeEngine.challengesAll (c : Primitives) (engine : ChallengeEngine) (q : Visit) : Bool :=
  !engine.exempts c (q.challengeRequest 0) && engine.config.underAttackMode

/-- The rate at which the request is counted. -/
def Visit.rate (env : ChallengeEnv) (q : Visit) (st : ChallengeState) : Nat :=
  (recordRate (rateKey q.host (q.clientIp env)) q.moment.unix st).1

theorem shouldChallenge_below {rate : Nat} (hrate : rate ≤ engine.config.rateThreshold) (now : Int) :
    engine.shouldChallenge c (q.challengeRequest rate) now =
      if engine.challengesAll c q then .jsChallenge else .pass := by
  have hex : engine.exempts c (q.challengeRequest rate) = engine.exempts c (q.challengeRequest 0) :=
    rfl
  have hnone : engine.extractClearance (q.challengeRequest rate) = none := rfl
  unfold ChallengeEngine.shouldChallenge ChallengeEngine.challengesAll
  rw [hnone, hex]
  cases engine.exempts c (q.challengeRequest 0) with
  | true => simp
  | false =>
    have hno : ¬ engine.config.rateThreshold < (q.challengeRequest rate).requestRate :=
      Nat.not_lt.mpr hrate
    simp [ChallengeEngine.withoutClearance, hno]

theorem gate_challenges_iff (hrate : q.rate env st ≤ engine.config.rateThreshold) :
    (p.gate env engine q st).1.challenges = true ↔
      p.hasClearance env.prims engine q = false ∧ engine.challengesAll env.prims q = true := by
  unfold gate
  split
  · next h => simp [h, challenges]
  · next h =>
    rw [Bool.not_eq_true] at h
    unfold Visit.rate at hrate
    dsimp only
    rw [shouldChallenge_below hrate, h]
    cases engine.challengesAll env.prims q <;> simp [challenges]

theorem handleVerify_not_challenges : (p.handleVerify c q st).1.challenges = false := by
  unfold handleVerify
  split
  · rfl
  · split
    · rfl
    · dsimp only
      split <;> rfl

/-- Below the threshold, the plugin challenges exactly the requests without a clearance that reach
the decision of an engine that challenges everyone. -/
theorem challenged_iff (hrate : ∀ engine, p.decisionEngine env q.host = some engine →
      q.rate env st ≤ engine.config.rateThreshold) :
    (p.handleRequest env q st).1.challenges = true ↔
      p.decides q = true ∧ ∃ engine, p.decisionEngine env q.host = some engine ∧
        p.hasClearance env.prims engine q = false ∧ engine.challengesAll env.prims q = true := by
  unfold handleRequest decides
  by_cases hstep : q.step = p.pluginStep
  · cases hacme : hasPrefix q.header.path acmeHttp01PathPrefix with
    | true => simp [hstep, challenges]
    | false =>
      cases hsub : q.submits with
      | true => simp [hstep, handleVerify_not_challenges]
      | false =>
        cases hen : p.enabled with
        | false => simp [hstep, challenges]
        | true =>
          cases hby : q.bypasses with
          | true => simp [hstep, challenges]
          | false =>
            cases heng : p.decisionEngine env q.host with
            | none => simp [hstep, challenges]
            | some engine => simp [hstep, gate_challenges_iff (hrate engine heng)]
  · simp [hstep, challenges]

/-- After a solved challenge, a request with the issued cookie that stays below the site's threshold
is not challenged exactly when it would not be challenged without the cookie either, or when the
site asks for no more than the level the plugin issues, the expiry of the plugin's own duration is
ahead, and the solved challenge was one of this host. The site's duration plays no part. -/
theorem solved_not_challenged_iff (env : ChallengeEnv) (hl : env.prims.Lawful)
    (p : ChallengePlugin) (v q : Visit) (st st' : ChallengeState) (redirect : String) (k : SetCookie)
    (hverify : (p.handleRequest env v st).1 = .verified redirect (some k))
    (hcarry : getCookieValue q.header p.cookieName = some k.value)
    (hrate : ∀ engine, p.decisionEngine env q.host = some engine →
      q.rate env st' ≤ engine.config.rateThreshold) :
    (p.handleRequest env q st').1.challenges = false ↔
      (p.decides q = true → ∀ engine, p.decisionEngine env q.host = some engine →
        engine.challengesAll env.prims q = true →
        engine.config.defaultLevel.rank ≤ ClearanceLevel.nonInteractive.rank ∧
          q.moment.unix < p.engine.cookieManager.expiry v.moment.unix ∧
          v.solvedSite env.prims st = some q.host) := by
  obtain ⟨payload, hi⟩ := verified_issues hverify
  rw [← Bool.not_eq_true, challenged_iff hrate]
  constructor
  · intro hnot hdec engine heng hall
    have hclear : p.hasClearance env.prims engine q = true := by
      by_contra hno
      exact hnot ⟨hdec, engine, heng, by simpa using hno, hall⟩
    obtain ⟨hlast, hsite, hlevel⟩ := (hasClearance_issued hl hi hcarry).mp hclear
    exact ⟨hlevel, hlast, hsite⟩
  · rintro hcond ⟨hdec, engine, heng, hno, hall⟩
    obtain ⟨hlevel, hlast, hsite⟩ := hcond hdec engine heng hall
    rw [(hasClearance_issued hl hi hcarry).mpr ⟨hlast, hsite, hlevel⟩] at hno
    cases hno

/-! ## A shop under attack -/

/-- The plugin with its defaults, but for the work it asks for. -/
def shopPlugin : ChallengePlugin where
  pluginStep := .earlyRequest
  engine := ⟨⟨true, false, .nonInteractive, 1800, [], [], 100, true, "k", clearanceCookieName, 0,
    300⟩⟩
  enabled := true
  cookieName := clearanceCookieName
  cookieSecret := "k"
  powDifficulty := 0
  level_eq := rfl
  name_eq := rfl
  secret_eq := rfl

/-- An agent whose sites are under attack, at this level and with this clearance duration. -/
def shopEnv (level : ClearanceLevel) (duration : Nat) : ChallengeEnv where
  prims := .plain
  crates := .inert
  agent := some fun _ => some ⟨some ⟨true, true, level, duration, [], 0, true⟩, ⟨false, "", false, []⟩⟩
  proxies := none

def shopState : ChallengeState where
  pending := (∅ : Table String PendingChallenge).insert "r1"
    ⟨"abc", "shop.example.com", "/", 990, 107⟩
  pendingBytes := 107
  used := ∅
  rates := ∅
  gcTick := 0

def shopVisit (method path : String) (cookie : List Plugin.HeaderLine) (body : List (List UInt8))
    (now : Int) : Visit where
  step := .earlyRequest
  session := ⟨none, ⟨method, some "shop.example.com", path, none, cookie⟩⟩
  requestId := some "q1"
  cachedIp := some "192.0.2.1"
  bypassesChallenge := false
  bypassesRateLimit := false
  tls := true
  bodyChunks := body
  moment := ⟨now, 0, "s", "n"⟩
  freshRequestId := "q2"
  freshNonce := "def"

def solveVisit : Visit := shopVisit "POST" verifyEndpoint [] [utf8Encode plainFormText] 1000

def solvedCookie : SetCookie :=
  ⟨clearanceCookieName, shopPlugin.engine.cookieManager.encodePayload .plain shopPayload,
    cookieAttributes shopPayload true 1000⟩

def returnVisit (now : Int) : Visit :=
  shopVisit "GET" "/" [.ofText "cookie" (clearanceCookieName ++ "=" ++ solvedCookie.value)] [] now

def solvedState (level : ClearanceLevel) (duration : Nat) : ChallengeState :=
  (shopPlugin.handleRequest (shopEnv level duration) solveVisit shopState).2

/-- The clearance of the lowest level clears a site that asks for it. -/
theorem solved_not_challenged_within_minutes :
    (shopPlugin.handleRequest (shopEnv .nonInteractive 3600) (returnVisit 1100)
      (solvedState .nonInteractive 3600)).1.challenges = false := by
  have hhost : (returnVisit 1100).host = "shop.example.com" := by decide +kernel
  have hengine {engine : ChallengeEngine} (h : shopPlugin.decisionEngine
      (shopEnv .nonInteractive 3600) (returnVisit 1100).host = some engine) :
      engine = buildSiteEngine ⟨true, true, .nonInteractive, 3600, [], 0, true⟩ "k"
        clearanceCookieName 0 := by
    rw [hhost] at h
    exact (Option.some.inj h).symm
  refine (solved_not_challenged_iff (shopEnv .nonInteractive 3600) Primitives.plain_lawful
    shopPlugin solveVisit (returnVisit 1100) shopState _ "/" solvedCookie
    (by decide +kernel) (by decide +kernel) ?_).mpr ?_
  · intro engine h
    rw [hengine h]
    decide +kernel
  · rintro - engine h -
    rw [hengine h]
    decide +kernel

/-- A site that asks for the managed level challenges the visitor who has just solved its challenge,
well within the clearance duration of the site. -/
theorem solved_is_challenged_again :
    (shopPlugin.handleRequest (shopEnv .managed 3600) solveVisit shopState).1 =
        .verified "/" (some solvedCookie) ∧
      getCookieValue (returnVisit 1100).header shopPlugin.cookieName = some solvedCookie.value ∧
      (shopPlugin.handleRequest (shopEnv .managed 3600) (returnVisit 1100)
        (solvedState .managed 3600)).1.challenges = true := by
  decide +kernel

end PingWaf.Challenge
