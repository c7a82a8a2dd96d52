import PingWaf.Lib.Table
import PingWaf.Challenge.Verify

/-!
# The challenge engine

`shouldChallenge` decides whether a request is challenged; `verifySolution` checks a solution and
issues the clearance. A nonce of the engine's own pages is signed and carries its time of issue; the
nonces that were used up are remembered in one table for the whole process.
-/

namespace PingWaf.Challenge

open Text

structure ChallengeConfig where
  enabled : Bool
  underAttackMode : Bool
  defaultLevel : ClearanceLevel
  clearanceDurationSecs : Int
  exemptPaths : List String
  exemptUserAgents : List String
  /-- An unsigned 32-bit number. -/
  rateThreshold : Nat
  browserIntegrityCheck : Bool
  cookieSecret : String
  cookieName : String
  powDifficulty : Nat
  submissionMaxAgeSecs : Int

structure ChallengeEngine where
  config : ChallengeConfig

def ChallengeEngine.cookieManager (e : ChallengeEngine) : CookieManager :=
  .withName (utf8Encode e.config.cookieSecret) e.config.clearanceDurationSecs e.config.cookieName

structure ChallengeRequest where
  path : String
  userAgent : String
  cookies : List (String × String)
  requestRate : Nat
  siteId : String

inductive ChallengeDecision where
  | pass | jsChallenge | managedChallenge | interactiveChallenge | block
  deriving DecidableEq

/-! ## The decision -/

section

variable (c : Primitives) (e : ChallengeEngine)

def ChallengeEngine.isExemptPath (path : String) : Bool :=
  e.config.exemptPaths.any fun exempt =>
    if hasSuffix exempt "*" then hasPrefix path (String.ofList exempt.toList.dropLast)
    else path = exempt

def ChallengeEngine.isExemptUserAgent (userAgent : String) : Bool :=
  let uaLower := c.toLowercase userAgent
  e.config.exemptUserAgents.any fun exempt => hasSub uaLower (c.toLowercase exempt)

def ChallengeEngine.extractClearance (q : ChallengeRequest) : Option String :=
  (q.cookies.find? fun p => p.1 = e.cookieManager.cookieName).map (·.2)

def cookieBoundToSite (payload : ClearancePayload) (q : ChallengeRequest) : Bool :=
  q.siteId = "" || payload.siteId = q.siteId

def ChallengeEngine.clearanceLevelSufficient (payload : ClearancePayload) : Bool :=
  levelSufficient payload e.config.defaultLevel

def ChallengeEngine.decideChallengeLevel (q : ChallengeRequest) : ChallengeDecision :=
  if e.config.rateThreshold * 3 % 2 ^ 32 < q.requestRate then .interactiveChallenge
  else if e.config.rateThreshold * 2 % 2 ^ 32 < q.requestRate then .managedChallenge
  else .jsChallenge

def ChallengeEngine.withoutClearance (q : ChallengeRequest) : ChallengeDecision :=
  if e.config.underAttackMode then .jsChallenge
  else if e.config.rateThreshold < q.requestRate then e.decideChallengeLevel q
  else .pass

def ChallengeEngine.exempts (q : ChallengeRequest) : Bool :=
  !e.config.enabled || e.isExemptPath q.path || e.isExemptUserAgent c q.userAgent

def ChallengeEngine.shouldChallenge (q : ChallengeRequest) (now : Int) : ChallengeDecision :=
  if e.exempts c q then .pass
  else match e.extractClearance q with
    | none => e.withoutClearance q
    | some clearance =>
      match e.cookieManager.validateClearance c clearance now with
      | .error _ => e.withoutClearance q
      | .ok payload =>
        if !cookieBoundToSite payload q then e.decideChallengeLevel q
        else if e.clearanceLevelSufficient payload then .pass
        else e.decideChallengeLevel q

def ChallengeEngine.validateClearance (cookieValue : String) (now : Int) : Option ClearancePayload :=
  (e.cookieManager.validateClearance c cookieValue now).toOption

end

/-! ## Signed nonces -/

section

variable (c : Primitives)

def nonceSignature (secret : List UInt8) (body : String) : String :=
  hexEncode (c.hmacSha256 secret (utf8Encode body))

/-- A nonce from random octets: the octets in hexadecimal, the time of issue and the signature. -/
def issueNonce (secret : List UInt8) (random : List UInt8) (now : Int) : String :=
  let body := hexEncode random ++ "." ++ toString now
  body ++ "." ++ nonceSignature c secret body

structure NonceParts where
  random : String
  issuedAt : String
  signature : String

def nonceParts (nonce : String) : Option NonceParts :=
  (rsplitOnce '.' nonce).bind fun (front, signature) =>
    (rsplitOnce '.' front).map fun (random, issuedAt) => ⟨random, issuedAt, signature⟩

def i64Max : Int := 2 ^ 63 - 1

/-- The nonce was issued under this secret and is still fresh; the difference of the times
saturates. -/
def verifyNonce (secret : List UInt8) (nonce : String) (maxAgeSecs now : Int) : Bool :=
  match nonceParts nonce with
  | none => false
  | some parts =>
    if parts.random = "" || parts.signature = "" then false
    else match parseI64 parts.issuedAt with
      | none => false
      | some issuedAt =>
        if now + 30 < issuedAt || maxAgeSecs < min (now - issuedAt) i64Max then false
        else nonceSignature c secret (parts.random ++ "." ++ toString issuedAt) = parts.signature

end

def maxUsedNonces : Nat := 100000

/-- The used nonces of the process, each with the instant of its use in milliseconds. -/
abbrev UsedNonces := Table String Nat

def consumeNonce (nonce : String) (ttlSecs now : Nat) (used : UsedNonces) : Bool × UsedNonces :=
  let used := used.retain fun _ seen => now - seen < ttlSecs * 1000
  if maxUsedNonces ≤ used.size || (used.lookup nonce).isSome then (false, used)
  else (true, used.insert nonce now)

/-! ## Solutions -/

structure ChallengeSubmission where
  challengeNonce : String
  solution : String
  fingerprintJson : String
  timestamp : Int
  siteId : String

inductive VerifyResult where
  | success (cookieValue cookieAttributes : String)
  | failed (reason : String)

def VerifyResult.succeeds : VerifyResult → Bool
  | .success _ _ => true
  | .failed _ => false

section

variable (c : Primitives) (e : ChallengeEngine)

/-- The checks ahead of the nonce's use: the fingerprint, or the reason of the failure. -/
def ChallengeEngine.precheck (s : ChallengeSubmission) (requireSignedNonce : Bool) (now : Int) :
    Except String BrowserFingerprint :=
  if !verifyTimestamp s.timestamp e.config.submissionMaxAgeSecs now then
    .error "submission expired or timestamp invalid"
  else if requireSignedNonce &&
      !verifyNonce c (utf8Encode e.config.cookieSecret) s.challengeNonce
        e.config.submissionMaxAgeSecs now then
    .error "challenge nonce is invalid or expired"
  else if !verifyProofOfWork c s.challengeNonce s.solution e.config.powDifficulty then
    .error "proof-of-work verification failed"
  else match c.fingerprintFromJson s.fingerprintJson with
    | .error err => .error ("invalid fingerprint data: " ++ err)
    | .ok fp =>
      if e.config.browserIntegrityCheck then
        match checkBrowserIntegrity c fp fp.userAgent with
        | .failed reason => .error ("browser integrity check failed: " ++ reason)
        -- a suspicious browser is logged and let through
        | _ => .ok fp
      else .ok fp

def ChallengeEngine.nonceTtlSecs : Nat := (max e.config.submissionMaxAgeSecs 1).toNat

def ChallengeEngine.verifySolutionInner (s : ChallengeSubmission) (secure requireSignedNonce : Bool)
    (moment : Moment) (used : UsedNonces) : VerifyResult × UsedNonces :=
  match e.precheck c s requireSignedNonce moment.unix with
  | .error reason => (.failed reason, used)
  | .ok fp =>
    match consumeNonce s.challengeNonce e.nonceTtlSecs moment.instant used with
    | (false, used) => (.failed "challenge nonce was already used", used)
    | (true, used) =>
      let (cookieValue, payload) := e.cookieManager.issueClearanceWithPayload c
        e.config.defaultLevel s.siteId (fp.hash c) moment
      (.success cookieValue (cookieAttributes payload secure moment.unix), used)

def ChallengeEngine.verifySolution (s : ChallengeSubmission) (secure : Bool) (moment : Moment)
    (used : UsedNonces) : VerifyResult × UsedNonces :=
  e.verifySolutionInner c s secure true moment used

def ChallengeEngine.verifySolutionForPending (s : ChallengeSubmission) (secure : Bool)
    (moment : Moment) (used : UsedNonces) : VerifyResult × UsedNonces :=
  e.verifySolutionInner c s secure false moment used

end

end PingWaf.Challenge
