import PingWaf.Lib.Net
import PingWaf.Lib.Table
import PingWaf.Lib.Ranked

/-!
# Locations

A location of the proxy: the host, path and client address it serves, the weight that ranks it,
and the choice of one location for a request, the first match in descending weight.
-/

namespace PingWaf.Routing

open Text Net

/-- The foreign parsers of a location: `regex` and `ipnet`. -/
structure Patterns where
  /-- `regex::Regex::new` accepts the pattern. -/
  compiles : String → Bool
  regexIsMatch : String → String → Bool
  ipNetFromStr : String → Option IpNet

def Patterns.inert : Patterns := ⟨fun _ => false, fun _ _ => false, fun _ => none⟩

inductive Error where
  | invalid (message : String)
  | regex (value : String)

/-- What follows a text's leading `pre`, if it has one. -/
def stripPrefix (s pre : String) : Option String :=
  if hasPrefix s pre then some (String.ofList (s.toList.drop pre.toList.length)) else none

/-! ## Selectors -/

inductive PathSelector where
  | regex (pattern : String)
  | startsWith (value : String)
  | equal (value : String)
  | any

def PathSelector.new (c : Patterns) (path : String) : Except Error PathSelector :=
  let path := trim path
  if path = "" then .ok .any
  else match stripPrefix path "~" with
    | some re => if c.compiles (trim re) then .ok (.regex (trim re)) else .error (.regex (trim re))
    | none =>
      match stripPrefix path "=" with
      | some eqPath => .ok (.equal (trim eqPath))
      | none => .ok (.startsWith path)

def PathSelector.isMatch (c : Patterns) (path : String) : PathSelector → Bool
  | .equal value => value == path
  | .regex re => c.regexIsMatch re path
  | .startsWith value => hasPrefix path value
  | .any => true

/-- A suffix selector holds the domain without its leading `*.`. -/
inductive HostSelector where
  | regex (pattern : String)
  | equal (value : String) (lower : toAsciiLowercase value = value)
  | suffix (domain : String)

def HostSelector.new (c : Patterns) (host : String) : Except Error HostSelector :=
  let host := trim host
  match stripPrefix host "~" with
  | some re => if c.compiles (trim re) then .ok (.regex (trim re)) else .error (.regex (trim re))
  | none =>
    match stripPrefix host "*." with
    | some domain =>
      let domain := trim domain
      if domain = "" ∨ '*' ∈ domain.toList then
        .error (.invalid ("invalid host wildcard pattern: " ++ host))
      else .ok (.suffix (toAsciiLowercase domain))
    | none => .ok (.equal (toAsciiLowercase host) (toAsciiLowercase_idem host))

def hostMatchesSuffix (host domain : String) : Bool :=
  let h := host.toList.map asciiLowerChar
  let d := domain.toList.map asciiLowerChar
  ('.' :: d).isSuffixOf h && decide (d.length + 1 < h.length)

def HostSelector.isMatch (c : Patterns) (host : String) : HostSelector → Bool
  | .equal value _ => eqIgnoreAsciiCase value host
  | .suffix domain => hostMatchesSuffix host domain
  | .regex re => c.regexIsMatch re host

/-! ## Configuration -/

/-- The part of a location's configuration that routing reads. `site` records the site whose
translation wrote the location; no function of the proxy reads it. -/
structure LocationConf where
  upstream : Option String
  host : Option String
  path : Option String
  weight : Option Nat
  matchIpRanges : Option (List String)
  upstreamHost : Option String
  site : Option String

/-- The manual weight, or one computed from the path's kind and length and from the host, in
sixteen bits. -/
def LocationConf.getWeight (conf : LocationConf) : Nat :=
  match conf.weight with
  | some weight => weight
  | none =>
    let path := conf.path.getD ""
    let weight :=
      if 1 < byteLen path then
        (if hasPrefix path "=" then 1024 else if hasPrefix path "~" then 256 else 512) +
          min (byteLen path) 64
      else 0
    match conf.host with
    | none => weight
    | some host =>
      let existRegex := (splitChar ',' host).any (hasPrefix · "~")
      (weight + if !existRegex && host ≠ "" then 128 else byteLen host) % 2 ^ 16

def parseIpCondition (c : Patterns) (item : String) : Except Error IpNet :=
  match c.ipNetFromStr item with
  | some net => .ok net
  | none =>
    match IpAddr.fromStr item with
    | some (.v4 ip) => .ok (.v4 ip 32)
    | some (.v6 ip) => .ok (.v6 ip 128)
    | none => .error (.invalid ("ip or cidr: " ++ item))

def parseIpConditions (c : Patterns) (list : Option (List String)) : Except Error (List IpNet) :=
  (((list.getD []).map trim).filter (· ≠ "")).mapM (parseIpCondition c)

/-- `HeaderValue::from_str`: no control octet but the tab. -/
def isHeaderValue (s : String) : Bool :=
  (utf8Encode s).all fun b => (32 ≤ b && b != 127) || b == 9

structure Location where
  name : String
  pathSelector : PathSelector
  hosts : List HostSelector
  ipConditions : List IpNet
  site : Option String

def Location.new (c : Patterns) (name : String) (conf : LocationConf) : Except Error Location := do
  if name = "" then throw (.invalid "Name is required")
  let items := ((splitChar ',' (conf.host.getD "")).map trim).filter (· ≠ "")
  let hosts ← items.mapM (HostSelector.new c)
  let ipConditions ← parseIpConditions c conf.matchIpRanges
  let pathSelector ← PathSelector.new c (conf.path.getD "")
  match conf.upstreamHost with
  | some value =>
    if trim value ≠ "" ∧ isHeaderValue (trim value) = false then
      throw (.invalid ("invalid upstream_host '" ++ value ++ "': failed to parse header value"))
  | none => pure ()
  return ⟨name, pathSelector, hosts, ipConditions, conf.site⟩

/-! ## Matching -/

def normalizeClientIp : IpAddr → IpAddr
  | .v6 ip => if ip >>> 32 == 0xFFFF#128 then .v4 (ip.truncate 32) else .v6 ip
  | .v4 ip => .v4 ip

def Location.matchHostPath (c : Patterns) (l : Location) (host path : String) : Bool :=
  l.pathSelector.isMatch c path && (l.hosts.isEmpty || l.hosts.any (·.isMatch c host))

def Location.matchConditions (l : Location) (clientIp : Option IpAddr) : Bool :=
  l.ipConditions.isEmpty ||
    (clientIp.map normalizeClientIp).any fun ip => l.ipConditions.any (·.contains ip)

structure Target where
  host : String
  path : String
  clientIp : Option IpAddr

def Location.accepts (c : Patterns) (t : Target) (l : Location) : Bool :=
  l.matchHostPath c t.host t.path && l.matchConditions t.clientIp

/-! ## Host buckets -/

inductive HostIndexEntry where
  | exact (host : String)
  | suffix (domain : String)
  | regex
  | any

def HostSelector.indexEntry : HostSelector → HostIndexEntry
  | .equal value _ => .exact value
  | .suffix domain => .suffix domain
  | .regex _ => .regex

def Location.hostIndexEntries (l : Location) : List HostIndexEntry :=
  if l.hosts.isEmpty then [.any] else l.hosts.map HostSelector.indexEntry

/-- The indices of locations, in the order of their weights, by what their host patterns are. -/
structure LocationHostIndex where
  exact : Table String (List Nat)
  suffixes : Table String (List Nat)
  regex : List Nat
  any : List Nat

namespace LocationHostIndex

def push (b : LocationHostIndex) (idx : Nat) : HostIndexEntry → LocationHostIndex
  | .exact host =>
    { b with exact := b.exact.insert host ((b.exact.lookup host).getD [] ++ [idx]) }
  | .suffix domain =>
    { b with suffixes := b.suffixes.insert domain ((b.suffixes.lookup domain).getD [] ++ [idx]) }
  | .regex => if idx ∈ b.regex then b else { b with regex := b.regex ++ [idx] }
  | .any => if idx ∈ b.any then b else { b with any := b.any ++ [idx] }

/-- An index has sixteen bits. -/
def build (ordered : List String) (resolve : String → Option Location) : LocationHostIndex :=
  (ordered.zipIdx.flatMap fun (name, i) =>
    ((resolve name).elim [] (·.hostIndexEntries)).map fun entry => (i % 2 ^ 16, entry)).foldl
    (fun b e => b.push e.1 e.2) ⟨∅, ∅, [], []⟩

/-- What the buckets hold for the host, sorted and each index once. -/
def candidateIndices (b : LocationHostIndex) (host : String) : List Nat :=
  ((b.exact.lookup (toAsciiLowercase host)).getD [] ++
    (b.suffixes.entries.filter fun e => hostMatchesSuffix host e.1).flatMap (·.2) ++
    b.regex ++ b.any).toFinset.sort

end LocationHostIndex

/-! ## A server's locations -/

/-- The generated configuration of a server: its locations by name, and the names in the order in
which the server lists them. -/
structure ServerConfig where
  locations : Table String LocationConf
  names : List String

def ServerConfig.location (c : Patterns) (conf : ServerConfig) (name : String) : Option Location :=
  (conf.locations.lookup name).bind fun l => (Location.new c name l).toOption

/-- `try_init_locations`: one location that does not build refuses the whole configuration. -/
def ServerConfig.builds (c : Patterns) (conf : ServerConfig) : Bool :=
  conf.locations.entries.all fun e => (Location.new c e.1 e.2).isOk

def ServerConfig.weightOf (conf : ServerConfig) (name : String) : Nat :=
  ((conf.locations.lookup name).map LocationConf.getWeight).getD 0

/-- `try_init_server_locations`: the names by descending weight. -/
def ServerConfig.ordered (conf : ServerConfig) : List String :=
  Ranked.order conf.weightOf conf.names

/-- The first location, in descending weight, that accepts the request. A configuration that does not
build is never served. -/
def ServerConfig.findLocation (c : Patterns) (conf : ServerConfig) (t : Target) :
    Option Location :=
  if conf.builds c then
    conf.ordered.findSome? fun name => (conf.location c name).filter (·.accepts c t)
  else none

/-- `find_and_apply_location`: only the locations that the buckets give for the host are tried. -/
def ServerConfig.findAndApplyLocation (c : Patterns) (conf : ServerConfig) (t : Target) :
    Option Location :=
  if conf.builds c then
    ((LocationHostIndex.build conf.ordered (conf.location c)).candidateIndices t.host).findSome?
      fun i => conf.ordered[i]?.bind fun name => (conf.location c name).filter (·.accepts c t)
  else none

end PingWaf.Routing
