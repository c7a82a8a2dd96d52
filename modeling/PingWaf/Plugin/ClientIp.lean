import PingWaf.Plugin.Request

/-!
# The client address

Which address a request is accounted to. The process-wide resolver believes the forwarded headers
of a trusted or internal peer. A site with proxy trust has a resolver of its own, which believes
one configured header of the proxies in its ranges and is asked first. The answer is cached in the
request context.
-/

namespace PingWaf.Plugin

open Text Net Waf

/-- A downstream session: the address of the TCP peer, if the socket has one, and the header. -/
structure Session where
  peer : Option IpAddr
  header : RequestHeader

def xForwardedFor : String := "x-forwarded-for"

def xRealIp : String := "x-real-ip"

/-! ## The process-wide resolver -/

structure TrustedProxies where
  nets : List IpNet
  ips : List IpAddr

def TrustedProxies.contains (t : TrustedProxies) (peer : IpAddr) : Bool :=
  t.ips.contains peer || t.nets.any (·.contains peer)

/-- Addresses a load balancer on the same host or in a private network connects from. -/
def isPlausibleInternalProxy : IpAddr → Bool
  | .v4 ip => isLoopbackV4 ip || isPrivateV4 ip
  | .v6 ip =>
    isLoopbackV6 ip || isUniqueLocalV6 ip ||
      (toV4Mapped ip).any fun ip => isLoopbackV4 ip || isPrivateV4 ip

def honoursForwarded (proxies : Option TrustedProxies) (peer : IpAddr) : Bool :=
  match proxies with
  | some trusted => trusted.contains peer
  | none => isPlausibleInternalProxy peer

/-- The first entry of the first `X-Forwarded-For` line, if it is text and not blank. -/
def forwardedFirst (r : RequestHeader) : Option String :=
  ((r.get xForwardedFor).bind HeaderLine.toStr).bind fun value =>
    let ip := trim ((splitChar ',' value).headD "")
    if ip = "" then none else some ip

def forwardedClientIp (s : Session) : String :=
  match forwardedFirst s.header with
  | some ip => ip
  | none =>
    match s.header.get xRealIp with
    | some value => value.toStr.getD ""
    | none => (s.peer.map IpAddr.display).getD ""

def getClientIp (proxies : Option TrustedProxies) (s : Session) : String :=
  match s.peer with
  | none => forwardedClientIp s
  | some peer => if honoursForwarded proxies peer then forwardedClientIp s else peer.display

/-! ## Proxy trust of a site -/

/-- Per-site proxy trust. The header name is in lower case, as `new` leaves it. -/
structure ProxyTrust where
  enabled : Bool
  header : String
  lastHopOnly : Bool
  trustedRanges : List IpNet
  lower : toAsciiLowercase header = header

def parseTrustedRange (c : Crates) (range : String) : Option IpNet :=
  let raw := trim range
  ((c.ipNetFromStr raw).map IpNet.trunc).or ((IpAddr.fromStr raw).map IpNet.ofAddr)

def ProxyTrust.new (c : Crates) (enabled : Bool) (header : String) (lastHopOnly : Bool)
    (trustedRanges : List String) : ProxyTrust where
  enabled := enabled
  header := toAsciiLowercase (trim header)
  lastHopOnly := lastHopOnly
  trustedRanges := trustedRanges.filterMap (parseTrustedRange c)
  lower := toAsciiLowercase_idem _

def ProxyTrust.peerIsTrusted (t : ProxyTrust) (peer : IpAddr) : Bool :=
  t.trustedRanges.any (·.contains peer)

def ProxyTrust.rawAddress (t : ProxyTrust) (value : String) : String :=
  if t.header = xForwardedFor then
    if t.lastHopOnly then (splitChar ',' value).getLastD "" else (splitChar ',' value).headD ""
  else value

def resolveClientIpWithTrust (s : Session) (t : ProxyTrust) : Option String :=
  if !t.enabled || t.header = "" then none
  else
    s.peer.bind fun peer =>
      if t.peerIsTrusted peer then
        ((s.header.get t.header).bind HeaderLine.toStr).map fun value =>
          match IpAddr.fromStr (trim (t.rawAddress value)) with
          | some ip => ip.display
          -- a trusted proxy sent something unusable
          | none => peer.display
      else some peer.display

/-! ## The site's configuration -/

structure ProxyTrustConfig where
  enabled : Bool
  header : String
  lastHopOnly : Bool
  trustedRanges : List String
  deriving DecidableEq

def ProxyTrustConfig.effectiveHeader (cfg : ProxyTrustConfig) : String :=
  if cfg.header = "" then xForwardedFor else cfg.header

def siteProxyTrust (c : Crates) (cfg : ProxyTrustConfig) : Option ProxyTrust :=
  if cfg.enabled then
    some (.new c cfg.enabled cfg.effectiveHeader cfg.lastHopOnly cfg.trustedRanges)
  else none

/-! ## The cached answer -/

/-- `ensure_client_ip`: the cached address, else the process-wide answer. -/
def ensureClientIp (proxies : Option TrustedProxies) (s : Session) (cached : Option String) :
    String :=
  cached.getD (getClientIp proxies s)

/-- What the plugins of a site do first: the site's resolver overrides the cached address. -/
def siteClientIp (proxies : Option TrustedProxies) (trust : Option ProxyTrust) (s : Session)
    (cached : Option String) : String :=
  ensureClientIp proxies s ((trust.bind (resolveClientIpWithTrust s)).or cached)

/-- Who asks for the client address on the way of a request: the server or a plugin without
proxy trust, or a plugin of the site. -/
inductive Visitor where
  | plain
  | site

def Visitor.visit (proxies : Option TrustedProxies) (trust : Option ProxyTrust) (s : Session)
    (cached : Option String) : Visitor → Option String
  | .plain => some (ensureClientIp proxies s cached)
  | .site => some (siteClientIp proxies trust s cached)

/-- The client address a plugin of the site works with, after the visitors before it. -/
def clientIp (proxies : Option TrustedProxies) (trust : Option ProxyTrust) (s : Session)
    (earlier : List Visitor) : String :=
  siteClientIp proxies trust s (earlier.foldl (Visitor.visit proxies trust s) none)

end PingWaf.Plugin
