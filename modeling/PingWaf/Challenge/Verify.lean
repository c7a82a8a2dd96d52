import PingWaf.Challenge.Cookie

/-!
# Checks of a submission

The proof of work, the time stamp and the browser fingerprint that come with a solved challenge.
-/

namespace PingWaf.Challenge

open Text

/-! ## Proof of work -/

def hasLeadingZeroBits (hash : List UInt8) (bits : Nat) : Bool :=
  let fullBytes := bits / 8
  let remainingBits := bits % 8
  (hash.take fullBytes).all (· == 0) &&
    (remainingBits == 0 ||
      (hash[fullBytes]?).any fun byte =>
        byte.toNat &&& ((255 <<< (8 - remainingBits)) % 256) == 0)

def verifyProofOfWork (c : Primitives) (challengeNonce solution : String) (difficulty : Nat) : Bool :=
  hasLeadingZeroBits (c.sha256 (utf8Encode challengeNonce ++ utf8Encode solution)) difficulty

def verifyTimestamp (submittedAt maxAgeSecs now : Int) : Bool :=
  let age := now - submittedAt
  (-5 ≤ age) && (age ≤ maxAgeSecs)

/-! ## Fingerprint -/

def leBytes32 (n : Nat) : List UInt8 :=
  [n % 256, n / 256 % 256, n / 65536 % 256, n / 16777216 % 256].map UInt8.ofNat

def hexDigit (n : Nat) : Char := if n < 10 then Char.ofNat (48 + n) else Char.ofNat (87 + n)

def hexEncode (bs : List UInt8) : String :=
  String.ofList (bs.flatMap fun b => [hexDigit (b.toNat / 16), hexDigit (b.toNat % 16)])

def BrowserFingerprint.hash (c : Primitives) (fp : BrowserFingerprint) : String :=
  hexEncode ((c.sha256
    (utf8Encode fp.userAgent ++ leBytes32 fp.screenWidth ++ leBytes32 fp.screenHeight ++
      leBytes32 (fp.timezoneOffset % 2 ^ 32).toNat ++ utf8Encode fp.language ++
      utf8Encode fp.platform ++ utf8Encode fp.canvasHash ++
      leBytes32 fp.hardwareConcurrency)).take 16)

inductive IntegrityResult where
  | passed
  | suspicious (reason : String)
  | failed (reason : String)

def automationIndicators : List String :=
  ["headlesschrome", "phantomjs", "selenium", "puppeteer", "playwright", "webdriver"]

def nonBrowserPatterns : List String :=
  ["curl", "wget", "python-requests", "httpie", "scrapy", "go-http-client", "node-fetch", "java/",
    "libwww", "postmanruntime", "restsharp"]

def botUaPatterns : List String :=
  ["bot", "crawler", "spider", "slurp", "curl", "wget", "python-requests", "httpie", "scrapy",
    "headlesschrome", "phantomjs", "selenium", "puppeteer", "playwright", "googlebot", "bingbot",
    "yandex", "baiduspider", "facebookexternalhit", "twitterbot", "linkedinbot", "whatsapp",
    "telegrambot", "discordbot", "slackbot", "apache-httpclient", "java/", "okhttp",
    "go-http-client", "node-fetch", "axios", "libwww", "lwp-trivial", "mechanize", "httpclient",
    "restsharp", "postmanruntime"]

def goodBotPatterns : List String :=
  ["googlebot", "bingbot", "yandex", "baiduspider", "duckduckbot", "applebot"]

/-- The last check: the first bot pattern decides, unless a search engine is among them. -/
def checkBotPatterns (uaLower : String) : IntegrityResult :=
  match botUaPatterns.find? (hasSub uaLower ·) with
  | none => .passed
  | some pattern =>
    if goodBotPatterns.any (hasSub uaLower ·) then .passed
    else .suspicious ("bot user agent pattern: " ++ pattern)

def checkBrowserIntegrity (c : Primitives) (fp : BrowserFingerprint) (userAgent : String) :
    IntegrityResult :=
  let uaLower := c.toLowercase userAgent
  match automationIndicators.find? (hasSub uaLower ·) with
  | some indicator => .failed ("automation tool detected: " ++ indicator)
  | none =>
    match nonBrowserPatterns.find? (hasSub uaLower ·) with
    | some pattern => .failed ("non-browser user agent: " ++ pattern)
    | none =>
      if fp.userAgent = "" then .failed "empty user agent in fingerprint"
      else if fp.screenWidth = 0 || fp.screenHeight = 0 then .suspicious "zero screen dimensions"
      else if fp.hardwareConcurrency = 0 then .suspicious "zero hardware concurrency"
      else if fp.canvasHash = "" then .suspicious "empty canvas hash"
      else checkBotPatterns uaLower

end PingWaf.Challenge
