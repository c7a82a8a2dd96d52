import PingWaf.Waf.Engine

/-!
# Requests at the edge

A request header as the proxy hands it to the plugin chain, and what the WAF plugin reads from it
before any layer runs: the header list the engine inspects, the host, the clearance cookie and
whether a body is to be expected.
-/

namespace PingWaf.Plugin

open Text Waf

structure HeaderLine where
  name : String
  value : List UInt8
  deriving DecidableEq

structure RequestHeader where
  method : String
  uriHost : Option String
  path : String
  query : Option String
  headers : List HeaderLine
  deriving DecidableEq

/-! ## Header values as text -/

/-- The octets `HeaderValue::to_str` accepts: visible ASCII, space and tab. -/
def isVisibleAscii (b : UInt8) : Bool := (32 ≤ b && b < 127) || b == 9

def latin1 (bs : List UInt8) : String := String.ofList (bs.map fun b => Char.ofNat b.toNat)

/-- `HeaderValue::to_str`. -/
def HeaderLine.toStr (l : HeaderLine) : Option String :=
  if l.value.all isVisibleAscii then some (latin1 l.value) else none

structure Collected where
  headers : Headers
  userAgent : String

def collectStep (acc : Collected) (l : HeaderLine) : Collected :=
  match l.toStr with
  | none => acc
  | some v =>
    { headers := acc.headers ++ [(l.name, v)]
      userAgent := if l.name = "user-agent" then v else acc.userAgent }

def collectHeaders (lines : List HeaderLine) : Collected := lines.foldl collectStep ⟨[], ""⟩

def RequestHeader.get (r : RequestHeader) (name : String) : Option HeaderLine :=
  r.headers.find? fun l => l.name = name

/-! ## Host -/

def normalizeHost (host : String) : String := toAsciiLowercase host

def stripPort (host : String) : String :=
  if hasPrefix host "[" then
    match splitOnce ']' host with
    | some (inner, _) => inner ++ "]"
    | none => host
  else (splitChar ':' host).headD host

def stripTrailing (c : Char) (s : String) : String :=
  if s.toList.getLast? = some c then String.ofList s.toList.dropLast else s

def getHost (r : RequestHeader) : Option String :=
  (r.uriHost.or ((r.get "host").bind HeaderLine.toStr)).bind fun raw =>
    let host := stripTrailing '.' (stripPort raw)
    if host = "" then none else some (normalizeHost host)

/-! ## Request facts -/

structure ClientFacts where
  clientIp : String
  countryCode : Option String
  tls : Bool

def requestData (r : RequestHeader) (f : ClientFacts) : RequestData where
  method := r.method
  path := r.path
  query := r.query.getD ""
  headers := (collectHeaders r.headers).headers
  body := none
  clientIp := f.clientIp
  countryCode := f.countryCode
  scheme := if f.tls then "https" else "http"

def clearanceCookieName : String := "__pingwaf_clearance"

/-- The clearance cookie of the first `cookie` header. -/
def clearanceCookie (headers : Headers) : Option String :=
  (headers.find? fun h => h.1 = "cookie").bind fun h =>
    (splitChar ';' h.2).findSome? fun pair =>
      (splitOnce '=' (trim pair)).bind fun kv =>
        if eqIgnoreAsciiCase (trim kv.1) clearanceCookieName then some (trim kv.2) else none

/-- An unsigned 64-bit decimal: an optional plus sign, at least one digit, no overflow. -/
def parseU64 (s : String) : Option Nat :=
  let ds := match s.toList with
    | '+' :: ds => ds
    | ds => ds
  (digitsVal ds).filter (· < 2 ^ 64)

/-- The request may carry a body: any method but `GET` and `HEAD`, or one that announces it. -/
def hasBody (r : RequestHeader) : Bool :=
  !(r.method == "GET" || r.method == "HEAD") ||
    (r.get "transfer-encoding").isSome ||
    ((((r.get "content-length").bind HeaderLine.toStr).bind parseU64).any (0 < ·))

/-! ## What the collection loop keeps -/

@[simp] theorem collectStep_none {acc : Collected} {l : HeaderLine} (h : l.toStr = none) :
    collectStep acc l = acc := by
  simp [collectStep, h]

theorem foldl_collectStep_headers (lines : List HeaderLine) (acc : Collected) :
    (lines.foldl collectStep acc).headers =
      acc.headers ++ lines.filterMap fun l => l.toStr.map (l.name, ·) := by
  induction lines generalizing acc with
  | nil => simp
  | cons l _ ih =>
    rw [List.foldl_cons, ih]
    cases h : l.toStr with
    | none => simp [h]
    | some _ => simp [collectStep, h]

theorem collectHeaders_headers (lines : List HeaderLine) :
    (collectHeaders lines).headers = lines.filterMap fun l => l.toStr.map (l.name, ·) := by
  simpa [collectHeaders] using foldl_collectStep_headers lines ⟨[], ""⟩

theorem collectHeaders_skip {l : HeaderLine} (h : l.toStr = none) (pre post : List HeaderLine) :
    collectHeaders (pre ++ l :: post) = collectHeaders (pre ++ post) := by
  simp [collectHeaders, h]

end PingWaf.Plugin
