import PingWaf.Lib.Pool
import PingWaf.Agent.Blocks

/-!
# Block operations as tasks

The map of blocks and the index of ranges are two concurrent maps. An operation on one of them is
atomic and nothing else is: a lookup that meets an expired entry lets go of it, then removes its key
from the map, then from the index.
-/

namespace PingWaf.Agent

open Text Net
open Waf (Crates)

structure Shared where
  now : Nat
  tables : BlockTables

/-! ## Lookup -/

inductive Probe where
  | exact
  | normalized
  deriving DecidableEq

def Probe.key (siteId ip : String) : Probe → Option String
  | .exact => some (blockKey siteId ip)
  | .normalized => (normalizedIp ip).map (blockKey siteId)

inductive LookupPc where
  | probe (p : Probe)
  | evict (p : Probe) (key : String)
  | unindex (p : Probe) (key : String)
  | index
  | scan (addr : IpAddr) (entries : List CidrEntry)
  | fetch (row : CidrEntry)
  | done (found : Option BlockedIpEntry)
  deriving DecidableEq

def Probe.next : Probe → LookupPc
  | .exact => .probe .normalized
  | .normalized => .index

/-- The expiry of an entry is tested while the entry is held; the removals come after. -/
def lookupStep (s : Shared) (siteId ip : String) : LookupPc → BlockTables × LookupPc
  | .probe p =>
    match p.key siteId ip with
    | none => (s.tables, p.next)
    | some key =>
      match s.tables.blockedIps.lookup key with
      | none => (s.tables, p.next)
      | some entry =>
        if entry.isExpired s.now then (s.tables, .evict p key) else (s.tables, .done (some entry))
  | .evict p key =>
    ({ s.tables with blockedIps := s.tables.blockedIps.erase key }, .unindex p key)
  | .unindex p key => (s.tables.indexRemoveKey key, p.next)
  | .index =>
    match IpAddr.fromStr ip with
    | none => (s.tables, .done none)
    | some addr => (s.tables, .scan (normalizeMapped addr) (s.tables.index siteId))
  | .scan _ [] => (s.tables, .done none)
  | .scan addr (e :: entries) =>
    if !expiredAt s.now e.expiresAt && e.net.contains addr then (s.tables, .fetch e)
    else (s.tables, .scan addr entries)
  | .fetch row => (s.tables, .done (s.tables.blockedIps.lookup row.key))
  | .done found => (s.tables, .done found)

/-! ## Cleanup -/

inductive CleanupPc where
  | collect (expired : List String)
  | evict (keys : List String)
  | unindex (key : String) (keys : List String)
  | done
  deriving DecidableEq

/-- The iteration over the map visits keys in an order of its own; `none` is its end. -/
def cleanupStep (s : Shared) (visit : Option String) : CleanupPc → BlockTables × CleanupPc
  | .collect expired =>
    match visit with
    | none => (s.tables, .evict expired)
    | some key =>
      match s.tables.blockedIps.lookup key with
      | none => (s.tables, .collect expired)
      | some entry =>
        (s.tables, .collect (if entry.isExpired s.now then expired ++ [key] else expired))
  | .evict [] => (s.tables, .done)
  | .evict (key :: keys) =>
    ({ s.tables with blockedIps := s.tables.blockedIps.erase key }, .unindex key keys)
  | .unindex key keys => (s.tables.indexRemoveKey key, .evict keys)
  | .done => (s.tables, .done)

/-! ## Block -/

inductive BlockPc where
  | room
  | insert
  | index
  | returned
  deriving DecidableEq

def blockStep (c : Crates) (s : Shared) (siteId : String) (entry : BlockedIpEntry) :
    BlockPc → BlockTables × BlockPc
  | .room =>
    if maxBlockedIpEntries ≤ s.tables.blockedIps.size then
      (s.tables.enforceBlockedCapacityInner s.now maxBlockedIpEntries blockedCapacityHeadroom,
        .insert)
    else (s.tables, .insert)
  | .insert =>
    ({ s.tables with
        blockedIps := s.tables.blockedIps.insert (blockKey siteId entry.ip) entry }, .index)
  | .index => (s.tables.indexInsert c siteId (blockKey siteId entry.ip) entry, .returned)
  | .returned => (s.tables, .returned)

/-! ## Tasks -/

inductive Task where
  | lookup (siteId ip : String) (pc : LookupPc)
  | cleanup (pc : CleanupPc)
  | block (siteId : String) (entry : BlockedIpEntry) (pc : BlockPc)
  deriving DecidableEq

inductive Call where
  | lookup (siteId ip : String)
  | cleanup
  | block (siteId ip : String) (duration : Option Nat) (reason : String)

def Call.task (s : Shared) : Call → Task
  | .lookup siteId ip => .lookup siteId ip (.probe .exact)
  | .cleanup => .cleanup (.collect [])
  | .block siteId ip duration reason =>
    .block siteId (blockedEntry s.now siteId ip duration reason) .room

def Task.step (c : Crates) (visit : Option String) (s : Shared) : Task → Shared × Task
  | .lookup siteId ip pc =>
    ({ s with tables := (lookupStep s siteId ip pc).1 },
      .lookup siteId ip (lookupStep s siteId ip pc).2)
  | .cleanup pc =>
    ({ s with tables := (cleanupStep s visit pc).1 }, .cleanup (cleanupStep s visit pc).2)
  | .block siteId entry pc =>
    ({ s with tables := (blockStep c s siteId entry pc).1 },
      .block siteId entry (blockStep c s siteId entry pc).2)

def blockTasks (c : Crates) : Pool.System Shared Task Nat Call (Option String) where
  env d s := { s with now := s.now + d }
  start call s := call.task s
  step := Task.step c

end PingWaf.Agent
