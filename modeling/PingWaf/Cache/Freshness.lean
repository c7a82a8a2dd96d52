import PingWaf.Cache.Plugin

/-!
# Which responses are stored, and for how long

`response_cache_filter` and the cache-control policy it delegates to. What `pingora` makes of a
`Cache-Control`, of an `Expires` and of the result of the policy is a parameter (`Pingora`), with
what the filter relies on as its laws.
-/

namespace PingWaf.Cache

open Text Plugin

/-! ## Headers -/

inductive DirectiveKey where
  | public_ | private_ | noCache | noStore | maxAge | sMaxAge | mustRevalidate
  | other (name : String)
  deriving DecidableEq

structure CacheControl where
  directives : Table DirectiveKey (Option (List UInt8))

structure ResponseHeader where
  headers : List HeaderLine

namespace ResponseHeader

variable (r : ResponseHeader)

def getAll (name : String) : List HeaderLine := r.headers.filter (·.name = name)

def containsKey (name : String) : Bool := r.headers.any (·.name = name)

end ResponseHeader

/-- `contains_key` of a request's header map. -/
def carries (q : RequestHeader) (name : String) : Bool := q.headers.any (·.name = name)

def hasExpiresHeader (r : ResponseHeader) : Bool := r.containsKey "expires"

inductive NoCacheReason where
  | originNotCache
  | custom (reason : String)
  deriving DecidableEq

structure CacheMeta where
  freshUntil : Int
  created : Int
  deriving DecidableEq

def CacheMeta.lifetime (m : CacheMeta) : Int := m.freshUntil - m.created

inductive RespCacheable where
  | cacheable (entry : CacheMeta)
  | uncacheable (reason : NoCacheReason)
  deriving DecidableEq

/-! ## `pingora` -/

/-- What the filter calls. -/
structure Pingora where
  /-- `CacheControl::from_resp_headers`. -/
  fromRespHeaders : ResponseHeader → Option CacheControl
  isPublic : CacheControl → Bool
  isPrivate : CacheControl → Bool
  noCache : CacheControl → Bool
  noStore : CacheControl → Bool
  mustRevalidate : CacheControl → Bool
  hasDirective : CacheControl → DirectiveKey → Bool
  /-- In nanoseconds. -/
  freshDuration : CacheControl → Option Nat
  /-- The time that the `Expires` of a response is read as, where it is. -/
  expiresTime : ResponseHeader → Option Int
  /-- `resp_cacheable` at a time, for a request with or without `Authorization`. -/
  respCacheable : Int → Option CacheControl → ResponseHeader → Bool → RespCacheable

def second : Nat := 1000000000

/-- `Duration::as_secs`. -/
def asSecs (d : Nat) : Nat := d / second

def setSMaxage (c : CacheControl) (d : Nat) : CacheControl :=
  ⟨c.directives.insert .sMaxAge (some (utf8Encode (toString (asSecs d))))⟩

section

variable (P : Pingora)

def setCookieIsShareable (cc : Option CacheControl) : Bool :=
  cc.any fun c => P.isPublic c || P.hasDirective c .sMaxAge

def originAllowsAuthorizedCaching (cc : Option CacheControl) : Bool :=
  cc.any fun c => P.isPublic c || P.hasDirective c .sMaxAge || P.mustRevalidate c

/-- Until when a response is fresh: by its directives (a lifetime of zero has ended a second ago),
then by its `Expires`, then by the default of a second. -/
def freshUntilOf (now : Int) (duration : Option Nat) (expires : Option Int) : Int :=
  match duration with
  | some d => if d = 0 then now - second else now + d
  | none => expires.getD (now + second)

def Pingora.freshUntil (now : Int) (cc : Option CacheControl) (r : ResponseHeader) : Int :=
  freshUntilOf now (cc.bind P.freshDuration) (P.expiresTime r)

/-- What is relied on. An `s-maxage` that is put in is read before `max-age`, in whole seconds
(beyond `2 ^ 31` it may be cut down, but no further), and touches no other directive; a response is
stored unless its directives forbid it or the request was authorized without their consent. -/
structure Pingora.Lawful : Prop where
  empty : P.noCache ⟨∅⟩ = false ∧ P.noStore ⟨∅⟩ = false ∧ P.isPrivate ⟨∅⟩ = false
  set_frame : ∀ c d, P.noCache (setSMaxage c d) = P.noCache c ∧
    P.noStore (setSMaxage c d) = P.noStore c ∧ P.isPrivate (setSMaxage c d) = P.isPrivate c
  set_present : ∀ c d, P.hasDirective (setSMaxage c d) .sMaxAge = true
  set_fresh : ∀ c d, P.noCache c = false → ∃ s : Nat,
    P.freshDuration (setSMaxage c d) = some (s * second) ∧ s ≤ asSecs d ∧
      min (asSecs d) (2 ^ 31) ≤ s
  stores : ∀ now cc r auth, (auth = true → originAllowsAuthorizedCaching P cc = true) →
    cc.any (fun c => P.noStore c || P.isPrivate c) = false →
    P.respCacheable now cc r auth = .cacheable ⟨P.freshUntil now cc r, now⟩

/-! ## The proxy's policy -/

def processCacheControl (c : CacheControl) (maxTtl : Option Nat) (hasExpires : Bool) :
    Except NoCacheReason CacheControl :=
  if P.noCache c || P.noStore c || P.isPrivate c then .error .originNotCache
  else if P.freshDuration c = some 0 then .error .originNotCache
  else if (P.freshDuration c).isNone && !hasExpires then
    match maxTtl with
    | none => .error .originNotCache
    | some d => .ok (setSMaxage c d)
  else match maxTtl with
    | some d => if (P.freshDuration c).getD 0 > d then .ok (setSMaxage c d) else .ok c
    | none => .ok c

end

def floorCacheControl (maxTtl : Nat) : CacheControl := setSMaxage ⟨∅⟩ maxTtl

/-! ## The filter -/

/-- The entries of all `Vary` lines that are text. -/
def varyEntries (r : ResponseHeader) : List String :=
  ((r.getAll "vary").filterMap HeaderLine.toStr).flatMap (splitChar ',')

def hasVaryStar (r : ResponseHeader) : Bool := (varyEntries r).any (trim · = "*")

def varyHeaderNames (r : ResponseHeader) : List String :=
  ((varyEntries r).map fun name => toAsciiLowercase (trim name)).filter (· ≠ "")

def storeScreened (P : Pingora) (now : Int) (q : RequestHeader) (cache : Option CacheInfo)
    (r : ResponseHeader) : RespCacheable :=
  let maxTtl := cache.bind (·.maxTtl)
  let hasExpires := hasExpiresHeader r
  let authorizationPresent := carries q "authorization"
  match P.fromRespHeaders r with
  | some c =>
    match processCacheControl P c maxTtl hasExpires with
    | .error reason => .uncacheable reason
    | .ok c => P.respCacheable now (some c) r authorizationPresent
  | none =>
    if cache.any (·.checkCacheControl) then .uncacheable .originNotCache
    else match maxTtl with
      | none => P.respCacheable now none r authorizationPresent
      | some d =>
        if hasExpires then P.respCacheable now none r authorizationPresent
        else if carries q "cookie" then .uncacheable (.custom "cookie-without-freshness")
        else P.respCacheable now (some (floorCacheControl d)) r authorizationPresent

def responseCacheFilter (P : Pingora) (now : Int) (q : RequestHeader) (cache : Option CacheInfo)
    (r : ResponseHeader) : RespCacheable :=
  if hasVaryStar r then .uncacheable (.custom "vary *")
  else if (cache.bind (·.varyHeaders)).any fun allowed =>
      (varyHeaderNames r).any fun name => !allowed.contains name then
    .uncacheable (.custom "vary not allowed")
  else if r.containsKey "set-cookie" && !setCookieIsShareable P (P.fromRespHeaders r) then
    .uncacheable (.custom "set-cookie")
  -- Asked of the origin's own directives, before the policy adds any.
  else if carries q "authorization" && !originAllowsAuthorizedCaching P (P.fromRespHeaders r) then
    .uncacheable (.custom "authorization")
  else storeScreened P now q cache r

end PingWaf.Cache
