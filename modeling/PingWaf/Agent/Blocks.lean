import PingWaf.Plugin.Site

/-!
# Dynamic blocks

The agent's map of blocked addresses and ranges, keyed by site and address, and the index of the
ranges by site that is kept beside it. Instants and durations are nanoseconds.
-/

namespace PingWaf.Agent

open Text Net
open Waf (Crates)

structure BlockedIpEntry where
  ip : String
  siteId : String
  reason : String
  blockedAt : Nat
  /-- A permanent block has none. -/
  expiresAt : Option Nat
  deriving DecidableEq

def expiredAt (now : Nat) (expiresAt : Option Nat) : Bool :=
  match expiresAt with
  | some exp => exp ≤ now
  | none => false

def BlockedIpEntry.isExpired (now : Nat) (e : BlockedIpEntry) : Bool := expiredAt now e.expiresAt

/-- A range of the index: the key of its block, its network and the block's expiry. -/
structure CidrEntry where
  key : String
  net : IpNet
  expiresAt : Option Nat
  deriving DecidableEq

structure BlockTables where
  blockedIps : Table String BlockedIpEntry
  cidrIndex : Table String (List CidrEntry)

def BlockTables.empty : BlockTables := ⟨∅, ∅⟩

/-! ## Addresses and ranges -/

def normalizeMapped : IpAddr → IpAddr
  | .v6 ip => ((toV4Mapped ip).map .v4).getD (.v6 ip)
  | addr => addr

def subU8 (a b : Nat) : Nat := if b ≤ a then a - b else a + 256 - b

/-- A range that starts from an embedded IPv4 address becomes an IPv4 range, unless its length is
none for IPv4. -/
def collapseNet : IpNet → Option IpNet
  | .v6 addr len =>
    match toV4Mapped addr with
    | some v4 => if subU8 len 96 ≤ 32 then some (.v4 v4 (subU8 len 96)) else none
    | none => some (.v6 addr len)
  | net => some net

def parseEntryNet (c : Crates) (ip : String) : Option IpNet :=
  (c.ipNetFromStr ip).bind collapseNet

def blockKey (siteId ip : String) : String := siteId ++ ":" ++ ip

/-! ## The index -/

def BlockTables.index (t : BlockTables) (siteId : String) : List CidrEntry :=
  (t.cidrIndex.lookup siteId).getD []

section

variable (c : Crates) (t : BlockTables)

def BlockTables.indexInsert (siteId key : String) (entry : BlockedIpEntry) : BlockTables :=
  match parseEntryNet c entry.ip with
  | none => t
  | some net =>
    let entries := Table.upsertBy CidrEntry.key ⟨key, net, entry.expiresAt⟩ (t.index siteId)
    { t with cidrIndex := t.cidrIndex.insert siteId entries }

def BlockTables.indexRemoveKey (key : String) : BlockTables :=
  match splitOnce ':' key with
  | none => t
  | some (siteId, _) =>
    match t.cidrIndex.lookup siteId with
    | none => t
    | some entries =>
      { t with cidrIndex := t.cidrIndex.insert siteId (entries.filter fun e => e.key ≠ key) }

def BlockTables.indexRemoveSite (siteId : String) : BlockTables :=
  { t with cidrIndex := t.cidrIndex.erase siteId }

def BlockTables.removeKey (key : String) : BlockTables :=
  BlockTables.indexRemoveKey { t with blockedIps := t.blockedIps.erase key } key

def BlockTables.removeKeys (keys : List String) : BlockTables :=
  keys.foldl BlockTables.removeKey t

def BlockTables.keysWhere (p : String → BlockedIpEntry → Bool) : List String :=
  (t.blockedIps.entries.filter fun e => p e.1 e.2).map (·.1)

/-! ## Lookup -/

def BlockTables.probe (now : Nat) (key : String) : Option BlockedIpEntry × BlockTables :=
  match t.blockedIps.lookup key with
  | none => (none, t)
  | some entry => if entry.isExpired now then (none, t.removeKey key) else (some entry, t)

def BlockTables.coveringEntry (now : Nat) (siteId : String) (addr : IpAddr) :
    Option BlockedIpEntry :=
  ((t.index siteId).find? fun e => !expiredAt now e.expiresAt && e.net.contains addr).bind fun e =>
    t.blockedIps.lookup e.key

def normalizedIp (ip : String) : Option String :=
  (IpAddr.fromStr ip).bind fun addr =>
    let normalized := (normalizeMapped addr).display
    if normalized ≠ ip then some normalized else none

def BlockTables.probeNormalized (now : Nat) (siteId ip : String) :
    Option BlockedIpEntry × BlockTables :=
  match normalizedIp ip with
  | some normalized => t.probe now (blockKey siteId normalized)
  | none => (none, t)

def BlockTables.blockedLookup (now : Nat) (siteId ip : String) :
    Option BlockedIpEntry × BlockTables :=
  match t.probe now (blockKey siteId ip) with
  | (some entry, t) => (some entry, t)
  | (none, t) =>
    match t.probeNormalized now siteId ip with
    | (some entry, t) => (some entry, t)
    | (none, t) =>
      ((IpAddr.fromStr ip).bind fun addr => t.coveringEntry now siteId (normalizeMapped addr), t)

def BlockTables.isIpBlocked (now : Nat) (siteId ip : String) : Bool :=
  (t.blockedLookup now siteId ip).1.isSome

/-! ## Changes -/

def maxBlockedIpEntries : Nat := 100000

def blockedCapacityHeadroom : Nat := 10000

def BlockTables.enforceBlockedCapacityInner (now limit headroom : Nat) : BlockTables :=
  let swept := t.removeKeys (t.keysWhere fun _ e => e.isExpired now)
  let target := max (limit - headroom) 1
  let remaining := swept.blockedIps.size
  if remaining ≤ target then swept
  else
    let byAge := (swept.blockedIps.entries.map fun e => (e.1, e.2.blockedAt)).mergeSort
      fun a b => a.2 ≤ b.2
    swept.removeKeys ((byAge.take (remaining - target)).map (·.1))

/-- `chrono::Duration::from_std`: at most the 64-bit number of milliseconds. -/
def fromStd (duration : Nat) : Option Nat :=
  if duration ≤ (2 ^ 63 - 1) * 1000000 then some duration else none

def oneHour : Nat := 3600 * 10 ^ 9

def blockedEntry (now : Nat) (siteId ip : String) (duration : Option Nat) (reason : String) :
    BlockedIpEntry where
  ip := ip
  siteId := siteId
  reason := reason
  blockedAt := now
  expiresAt := duration.map fun d => now + (fromStd d).getD oneHour

def BlockTables.store (siteId : String) (entry : BlockedIpEntry) : BlockTables :=
  BlockTables.indexInsert c
    { t with blockedIps := t.blockedIps.insert (blockKey siteId entry.ip) entry }
    siteId (blockKey siteId entry.ip) entry

def BlockTables.blockIp (now : Nat) (siteId ip : String) (duration : Option Nat)
    (reason : String) : BlockTables :=
  let t := if maxBlockedIpEntries ≤ t.blockedIps.size then
    t.enforceBlockedCapacityInner now maxBlockedIpEntries blockedCapacityHeadroom else t
  t.store c siteId (blockedEntry now siteId ip duration reason)

def BlockTables.unblockIp (siteId ip : String) : BlockTables :=
  t.removeKey (blockKey siteId ip)

def BlockTables.clearWafAutoBlocks (now : Nat) (siteId : String) : BlockTables :=
  t.removeKeys (t.keysWhere fun key e =>
    hasPrefix key (siteId ++ ":") && !e.isExpired now && hasPrefix e.reason "waf: ")

def BlockTables.clearSiteBlocks (siteId : String) : BlockTables :=
  let stale := t.keysWhere fun key _ => hasPrefix key (siteId ++ ":")
  BlockTables.indexRemoveSite
    { t with blockedIps := stale.foldl (fun m key => m.erase key) t.blockedIps } siteId

def BlockTables.cleanupExpiredBlocks (now : Nat) : BlockTables :=
  t.removeKeys (t.keysWhere fun _ e => e.isExpired now)

def BlockTables.loadBlockedIps (now : Nat) (entries : List BlockedIpEntry) : BlockTables :=
  entries.foldl (fun t e => if e.isExpired now then t else t.store c e.siteId e) t

/-- `persist_blocked_ips_inner`: the entries written to `blocked_ips.json`. -/
def BlockTables.persisted (now : Nat) : List BlockedIpEntry :=
  (t.blockedIps.entries.filter fun e => !e.2.isExpired now).map (·.2)

/-! ## Runs -/

inductive BlockOp where
  | block (now : Nat) (siteId ip : String) (duration : Option Nat) (reason : String)
  | unblock (siteId ip : String)
  | clearWaf (now : Nat) (siteId : String)
  | clearSite (siteId : String)
  | cleanup (now : Nat)
  | enforceCapacity (now limit headroom : Nat)
  | lookup (now : Nat) (siteId ip : String)
  | load (now : Nat) (entries : List BlockedIpEntry)

def BlockTables.apply : BlockOp → BlockTables
  | .block now siteId ip duration reason => t.blockIp c now siteId ip duration reason
  | .unblock siteId ip => t.unblockIp siteId ip
  | .clearWaf now siteId => t.clearWafAutoBlocks now siteId
  | .clearSite siteId => t.clearSiteBlocks siteId
  | .cleanup now => t.cleanupExpiredBlocks now
  | .enforceCapacity now limit headroom => t.enforceBlockedCapacityInner now limit headroom
  | .lookup now siteId ip => (t.blockedLookup now siteId ip).2
  | .load now entries => t.loadBlockedIps c now entries

def BlockTables.run (ops : List BlockOp) : BlockTables :=
  ops.foldl (fun t op => t.apply c op) t

end

/-! ## Callers -/

inductive Issuer where
  | operator (duration : Option Nat) (reason : String)
  | rateLimit (retryAfter : Nat) (ruleName : String)
  | waf (ruleName : String)

def Issuer.duration : Issuer → Option Nat
  | .operator duration _ => duration
  | .rateLimit retryAfter _ => some (retryAfter * 10 ^ 9)
  | .waf _ => some (Plugin.wafAutoBlockSecs * 10 ^ 9)

def Issuer.reason : Issuer → String
  | .operator _ reason => reason
  | .rateLimit _ ruleName => "rate limit: " ++ ruleName
  | .waf ruleName => "waf: " ++ ruleName

structure IssuedBlock where
  now : Nat
  issuer : Issuer

def IssuedBlock.entry (site ip : String) (b : IssuedBlock) : BlockedIpEntry :=
  blockedEntry b.now site ip b.issuer.duration b.issuer.reason

def IssuedBlock.until (b : IssuedBlock) : Option Nat :=
  b.issuer.duration.map fun d => b.now + (fromStd d).getD oneHour

section

variable (c : Crates) (site ip : String)

def BlockTables.issue (t : BlockTables) (b : IssuedBlock) : BlockTables :=
  t.blockIp c b.now site ip b.issuer.duration b.issuer.reason

def BlockTables.issueAll (t : BlockTables) (calls : List IssuedBlock) : BlockTables :=
  calls.foldl (BlockTables.issue c site ip) t

end

end PingWaf.Agent
