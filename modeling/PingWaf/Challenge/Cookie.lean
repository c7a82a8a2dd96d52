import PingWaf.Lib.Framing
import PingWaf.Waf.External

/-!
# Clearance cookies

The signed cookie that a solved challenge earns: a JSON payload and its HMAC, both in URL-safe
base64, joined by a dot.
-/

namespace PingWaf.Challenge

open Text

inductive ClearanceLevel where
  | none | nonInteractive | managed | interactive

def ClearanceLevel.rank : ClearanceLevel → Nat
  | .none => 0
  | .nonInteractive => 1
  | .managed => 2
  | .interactive => 3

structure ClearancePayload where
  sessionId : String
  level : ClearanceLevel
  issuedAt : Int
  expiresAt : Int
  fingerprintHash : String
  siteId : String
  nonce : String

structure BrowserFingerprint where
  userAgent : String
  screenWidth : Nat
  screenHeight : Nat
  timezoneOffset : Int
  language : String
  platform : String
  canvasHash : String
  hardwareConcurrency : Nat

/-- Foreign functions of the challenge system: `hmac` and `sha2`, the URL-safe base64 engine without
padding, `serde_json` for the two records and for any value, and the Unicode lower case of a text. -/
structure Primitives where
  hmacSha256 : List UInt8 → List UInt8 → List UInt8
  sha256 : List UInt8 → List UInt8
  b64Encode : List UInt8 → String
  b64Decode : String → Option (List UInt8)
  payloadToJson : ClearancePayload → List UInt8
  payloadFromJson : List UInt8 → Option ClearancePayload
  fingerprintFromJson : String → Except String BrowserFingerprint
  jsonFromSlice : List UInt8 → Option Waf.Json
  toLowercase : String → String

def isBase64UrlChar (c : Char) : Bool := isAsciiAlphanumeric c || c == '-' || c == '_'

/-- What the encoders promise: each is undone by its decoder, and base64 keeps to its alphabet in
both directions. -/
structure Primitives.Lawful (c : Primitives) : Prop where
  b64_decode_encode : ∀ bs, c.b64Decode (c.b64Encode bs) = some bs
  b64_alphabet : ∀ bs, ∀ ch ∈ (c.b64Encode bs).toList, isBase64UrlChar ch = true
  b64_decode_alphabet : ∀ text bs, c.b64Decode text = some bs →
    ∀ ch ∈ text.toList, isBase64UrlChar ch = true
  json_round_trip : ∀ p, c.payloadFromJson (c.payloadToJson p) = some p

inductive CookieError where
  | invalidFormat | signatureMismatch | expired | invalidPayload

def clearanceCookieName : String := "__pingwaf_clearance"

structure CookieManager where
  secret : List UInt8
  defaultDurationSecs : Int
  cookieName : String

def CookieManager.new (secret : List UInt8) (durationSecs : Int) : CookieManager :=
  ⟨secret, durationSecs, clearanceCookieName⟩

def CookieManager.withName (secret : List UInt8) (durationSecs : Int) (name : String) :
    CookieManager :=
  ⟨secret, durationSecs, name⟩

/-- The value of an `i64` sum, which wraps in a release build. -/
def wrapI64 (n : Int) : Int := n.bmod (2 ^ 64)

def CookieManager.expiry (m : CookieManager) (now : Int) : Int :=
  wrapI64 (now + m.defaultDurationSecs)

/-- The clock readings and random draws of one call: the wall clock in seconds, the monotonic clock
in milliseconds, and the two random texts a fresh cookie carries. -/
structure Moment where
  unix : Int
  instant : Nat
  sessionId : String
  cookieNonce : String

section

variable (c : Primitives) (m : CookieManager)

def CookieManager.encodePayload (payload : ClearancePayload) : String :=
  let payloadB64 := c.b64Encode (c.payloadToJson payload)
  payloadB64 ++ "." ++ c.b64Encode (c.hmacSha256 m.secret (utf8Encode payloadB64))

def CookieManager.issueClearanceWithPayload (level : ClearanceLevel) (siteId : String)
    (fingerprintHash : String) (moment : Moment) : String × ClearancePayload :=
  let payload : ClearancePayload :=
    { sessionId := moment.sessionId
      level := level
      issuedAt := moment.unix
      expiresAt := m.expiry moment.unix
      fingerprintHash := fingerprintHash
      siteId := siteId
      nonce := moment.cookieNonce }
  (m.encodePayload c payload, payload)

def isValid (payload : ClearancePayload) (now : Int) : Bool := now < payload.expiresAt

def CookieManager.validateClearance (cookieValue : String) (now : Int) :
    Except CookieError ClearancePayload :=
  match splitOnce '.' cookieValue with
  | none => .error .invalidFormat
  | some (payloadB64, signatureB64) =>
    match c.b64Decode signatureB64 with
    | none => .error .invalidFormat
    | some signature =>
      if c.hmacSha256 m.secret (utf8Encode payloadB64) ≠ signature then .error .signatureMismatch
      else match c.b64Decode payloadB64 with
        | none => .error .invalidFormat
        | some json =>
          match c.payloadFromJson json with
          | none => .error .invalidPayload
          | some payload => if isValid payload now then .ok payload else .error .expired

def levelSufficient (payload : ClearancePayload) (required : ClearanceLevel) : Bool :=
  required.rank ≤ payload.level.rank

def cookieAttributes (payload : ClearancePayload) (secure : Bool) (now : Int) : String :=
  let maxAge := wrapI64 (payload.expiresAt - now)
  let maxAge := if maxAge < 0 then 0 else maxAge
  "Path=/; HttpOnly;" ++ (if secure then " Secure;" else "") ++ " SameSite=Lax; Max-Age=" ++
    toString maxAge

end

/-! ## Round trip -/

section

variable {c : Primitives} {m : CookieManager}

theorem dot_not_mem_b64 (hl : c.Lawful) (bs : List UInt8) : '.' ∉ (c.b64Encode bs).toList := by
  intro h
  have := hl.b64_alphabet bs '.' h
  revert this
  decide

theorem validate_encodePayload (hl : c.Lawful) {m' : CookieManager} (payload : ClearancePayload)
    (now : Int) :
    m'.validateClearance c (m.encodePayload c payload) now =
      if c.hmacSha256 m'.secret (utf8Encode (c.b64Encode (c.payloadToJson payload))) ≠
          c.hmacSha256 m.secret (utf8Encode (c.b64Encode (c.payloadToJson payload))) then
        .error .signatureMismatch
      else if isValid payload now then .ok payload
      else .error .expired := by
  have hsplit := splitOnce_append (b := c.b64Encode (c.hmacSha256 m.secret
    (utf8Encode (c.b64Encode (c.payloadToJson payload))))) (dot_not_mem_b64 hl
      (c.payloadToJson payload))
  have hdot : String.singleton '.' = "." := rfl
  rw [hdot] at hsplit
  unfold CookieManager.validateClearance CookieManager.encodePayload
  rw [hsplit]
  simp only [hl.b64_decode_encode, hl.json_round_trip]

end

end PingWaf.Challenge
