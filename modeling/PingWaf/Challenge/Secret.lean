import PingWaf.Plugin.Cookies
import PingWaf.Challenge.Engine

/-!
# The signing secret

The challenge plugin and the WAF each resolve the secret of the clearance cookies on their own. A
configured secret is taken as it is; without one, the two meet in the agent's cache directory or in
a key of the process.
-/

namespace PingWaf.Challenge

open Text

structure Uuid where
  octets : List UInt8
  length_eq : octets.length = 16

def Uuid.simple (u : Uuid) : String := hexEncode u.octets

structure Secrets where
  /-- The agent's cache directory, when there is an agent. -/
  cacheDir : Option String
  /-- The text of the secret file, when it can be read. -/
  file : Option String
  /-- The directory can be created and the file written. -/
  writable : Bool
  /-- The two keys of the process, each drawn once. -/
  fallback : Uuid
  unpersisted : Uuid
  /-- The WAF's clearance manager, with the path its secret was resolved from. -/
  manager : Option (String × CookieManager)

def Secrets.secretPath (s : Secrets) : Option String :=
  s.cacheDir.map (· ++ "/challenge_cookie_secret")

def namesSecret (configured : String) : Bool := configured ≠ "" && configured ≠ "change-me"

def Secrets.persisted (s : Secrets) : Option String :=
  (s.file.map trim).filter (· ≠ "")

/-- `fresh` is the UUID a call draws when it finds no secret. -/
def resolveCookieSecret (configured : String) (fresh : Uuid) (s : Secrets) : String × Secrets :=
  if namesSecret configured then (configured, s)
  else match s.cacheDir with
    | none => (s.fallback.simple, s)
    | some _ =>
      match s.persisted with
      | some secret => (secret, s)
      | none =>
        if s.writable then (fresh.simple, { s with file := some fresh.simple })
        else (s.unpersisted.simple, s)

section

variable (c : Primitives)

def CookieManager.clears (m : CookieManager) (value siteKey : String) (now : Int) : Bool :=
  match m.validateClearance c value now with
  | .ok payload => payload.siteId = siteKey
  | .error _ => false

def Secrets.cached (s : Secrets) : Option CookieManager :=
  s.secretPath.bind fun path =>
    (s.manager.filter fun cached => cached.1 = path).map (·.2)

/-- `waf::clearance_valid`: the secret is resolved once per path and kept. -/
def clearanceValid (value : Option String) (siteKey : String) (now : Int) (fresh : Uuid)
    (s : Secrets) : Bool × Secrets :=
  match value with
  | none => (false, s)
  | some value =>
    match s.cached with
    | some manager => (manager.clears c value siteKey now, s)
    | none =>
      let (secret, s) := resolveCookieSecret "" fresh s
      let manager := CookieManager.new (utf8Encode secret) 3600
      (manager.clears c value siteKey now,
        match s.secretPath with
        | some path => { s with manager := some (path, manager) }
        | none => s)

end

end PingWaf.Challenge
