import PingWaf.Plugin.Rewrite
import PingWaf.Auth.Access

/-!
# Claims in headers

What the OIDC gate tells the upstream of a user. The configured names are taken from the client
first, the claims put in, and the names taken out of what the client's `Connection` header
nominates: nominated headers are not sent to the upstream.
-/

namespace PingWaf.Auth

open Text
open Plugin (HeaderLine RequestHeader insertLine)

/-! ## Names and values -/

def foldName (name : String) : String :=
  String.ofList (name.toList.map fun c => if c = '_' then '-' else c)

def foldsTo (own : List String) (name : String) : Bool := (own.map foldName).contains (foldName name)

/-- `HeaderValue::from_bytes`. -/
def headerValue (text : String) : Option (List UInt8) :=
  if (utf8Encode text).all fun b => (32 ≤ b && b != 127) || b == 9 then some (utf8Encode text)
  else none

def claimHeaderValue (value : Waf.Json) : Option (List UInt8) :=
  let text := match value with
    | .array items => (items.mapM claimText).map (",".intercalate ·)
    | other => claimText other
  text.bind headerValue

/-! ## Edits of the request -/

def stripClaimHeaders (own : List String) (r : RequestHeader) : RequestHeader :=
  if own.isEmpty then r
  else { r with headers := r.headers.filter fun l => !foldsTo own l.name }

def connectionLines (lines : List HeaderLine) : List HeaderLine :=
  lines.filter fun l => l.name = "connection"

def nominates (names : List String) (token : String) : Bool :=
  names.any fun name => eqIgnoreAsciiCase name token

/-- The tokens of the `Connection` lines that are text; the others are passed over. -/
def connectionTokens (lines : List HeaderLine) : List String :=
  ((connectionLines lines).filterMap HeaderLine.toStr).flatMap listedEntries

def protectFromConnectionHeader (names : List String) (r : RequestHeader) : RequestHeader :=
  if names.isEmpty || !r.hasHeader "connection" then r
  else if !(connectionTokens r.headers).any (nominates names) then r
  else
    let kept := ", ".intercalate ((connectionTokens r.headers).filter fun t => !nominates names t)
    let r := r.removeHeader "connection"
    if kept = "" then r else r.insertHeader "connection" kept

def Oidc.ownHeaders (o : Oidc) : List String := o.claimsToHeaders.map (·.2)

/-- One turn of the loop over `claims_to_headers`. -/
def insertClaim (data : SessionData) (lines : List HeaderLine) (pair : String × String) :
    List HeaderLine :=
  match (claimOf data.claims pair.1).bind claimHeaderValue with
  | some value => insertLine pair.2 value lines
  | none => lines

def Oidc.putClaims (o : Oidc) (data : SessionData) (lines : List HeaderLine) : List HeaderLine :=
  o.claimsToHeaders.foldl (insertClaim data) lines

def Oidc.setClaimHeaders (o : Oidc) (data : SessionData) (r : RequestHeader) : RequestHeader :=
  let r := stripClaimHeaders o.ownHeaders r
  let r := { r with headers := o.putClaims data r.headers }
  protectFromConnectionHeader o.ownHeaders r

/-- The request header when `handle_request` is done with it. -/
def Oidc.headerAfter (f : Foreign) (o : Oidc) (q : Visit) : RequestHeader :=
  let path := q.requestUri.path
  if q.step ≠ o.pluginStep then q.header
  else if path = o.redirectPath then q.header
  else if o.logoutPath = some path then q.header
  else
    match o.session f q.header q.now with
    | some data =>
      if o.access.admits data.claims then o.setClaimHeaders data q.header else q.header
    | none => stripClaimHeaders o.ownHeaders q.header

/-! ## What the upstream is told of the user -/

/-- The lines that pass for a configured header to an upstream. -/
def Oidc.identityLines (o : Oidc) (lines : List HeaderLine) : List HeaderLine :=
  lines.filter fun l => foldsTo o.ownHeaders l.name

/-- The lines that the claims of a session make by themselves. -/
def Oidc.claimLines (o : Oidc) (data : SessionData) : List HeaderLine := o.putClaims data []

section

/-! The request policy of an upstream is the proxy library's. `leavesOut` are the lines of a request
handed over to it that it does not send because of what `Connection` nominates. -/

variable (leavesOut : RequestHeader → HeaderLine → Bool)

/-- A header is left out only when a `Connection` line that is text has its name as an entry. -/
def LeavesOutNominated : Prop := ∀ r l, leavesOut r l = true →
  ∃ token ∈ connectionTokens r.headers, eqIgnoreAsciiCase l.name token = true

def sentUpstream (r : RequestHeader) : List HeaderLine :=
  r.headers.filter fun l => !leavesOut r l

end

end PingWaf.Auth
