import PingWaf.Routing.Rewrite

/-!
# Path rewriting and the host of a request

A new target in origin form has no authority, so a request keeps its host through a rewrite exactly
if the `Host` header alone gives it (`getHost_setTarget_iff`). A request that has its host in the
URI only, as with HTTP/2, loses it.
-/

namespace PingWaf.Routing

open Text Plugin

/-- The host that a raw value names, as `get_host` reads it. -/
def hostOf (raw : Option String) : Option String :=
  raw.bind fun raw =>
    let host := stripTrailing '.' (stripPort raw)
    if host = "" then none else some (normalizeHost host)

/-- The value of the `Host` header. -/
def hostHeader (r : RequestHeader) : Option String := (r.get "host").bind HeaderLine.toStr

/-- The request has the same host under a new target: the target is no URI, or it starts with a
slash and the `Host` header alone names the host, or it is in another form and its authority, or
else the `Host` header, names the host. -/
def HostStands (c : RewriteParsers) (r : RequestHeader) (target : String) : Prop :=
  ∀ uri, c.parseUri target = some uri →
    if hasPrefix target "/" then hostOf (hostHeader r) = getHost r
    else hostOf (uri.host.or (hostHeader r)) = getHost r

variable {c : RewriteParsers} {r : RequestHeader} {l : PathRewrite}

theorem getHost_setUri (r : RequestHeader) (uri : Uri) :
    getHost (r.setUri uri) = hostOf (uri.host.or (hostHeader r)) :=
  rfl

theorem getHost_setTarget_iff (hlaw : ReadsOrigin c.parseUri) (r : RequestHeader)
    (target : String) :
    getHost (setTarget c r target).1 = getHost r ↔ HostStands c r target := by
  unfold setTarget HostStands
  cases huri : c.parseUri target with
  | none => simp
  | some uri =>
    rw [getHost_setUri]
    by_cases hslash : hasPrefix target "/" = true
    · have horigin := hlaw target uri hslash huri
      simp [hslash, horigin, Uri.origin]
    · simp [hslash]

/-! ## Targets for the upstream -/

theorem hasPrefix_of_isRewritePath {value : String} (h : IsRewritePath value) :
    hasPrefix value "/" = true := by
  obtain ⟨hne, hvalid⟩ := h
  unfold validateRewritePath at hvalid
  rw [if_neg hne] at hvalid
  split at hvalid
  · cases hvalid
  split at hvalid
  · cases hvalid
  split at hvalid
  · cases hvalid
  split at hvalid
  · assumption
  · cases hvalid

theorem hasPrefix_withQuery {path : String} (h : hasPrefix path "/" = true)
    (query : Option String) : hasPrefix (withQuery path query) "/" = true := by
  cases query with
  | none => exact h
  | some query => exact hasPrefix_append (hasPrefix_append h "?") query

theorem hasPrefix_upstreamPath {path newPath : String}
    (h : l.upstreamPath path = some newPath) : hasPrefix newPath "/" = true := by
  unfold PathRewrite.upstreamPath at h
  split at h
  · cases h
  split at h
  · unfold strippedPath at h
    rw [Option.filter_eq_some_iff] at h
    cases hrewrite : l.rewritePath with
    | some value =>
      simp only [hrewrite, Option.map_some, Option.some.injEq] at h
      exact h.1 ▸ hasPrefix_of_isRewritePath value.2
    | none =>
      simp only [hrewrite, Option.map_none, Option.map_eq_some_iff] at h
      obtain ⟨⟨rest, -, rfl⟩, -⟩ := h
      split
      · decide
      split
      · assumption
      · exact hasPrefix_append (by decide) rest
  · cases h

theorem hostStands_slash_iff {target : String} (hslash : hasPrefix target "/" = true) :
    HostStands c r target ↔
      ((c.parseUri target).isSome = true → hostOf (hostHeader r) = getHost r) := by
  unfold HostStands
  cases c.parseUri target <;> simp [hslash]

/-! ## The four functions -/

theorem getHost_rewrite_iff (hlaw : ReadsOrigin c.parseUri) (l : PathRewrite)
    (vars : Option Variables) (r : RequestHeader) :
    getHost (l.rewrite c r vars).1 = getHost r ↔
      ∀ new ∈ l.rewritten c vars r.path, HostStands c r (withQuery new.2.1 r.query) := by
  unfold PathRewrite.rewrite
  cases hnew : l.rewritten c vars r.path with
  | none => simp
  | some new => simpa using getHost_setTarget_iff hlaw r (withQuery new.2.1 r.query)

theorem getHost_rewriteUpstreamPath_iff (hlaw : ReadsOrigin c.parseUri) (l : PathRewrite)
    (r : RequestHeader) :
    getHost (l.rewriteUpstreamPath c r) = getHost r ↔
      ∀ path ∈ l.upstreamPath r.path, (c.parseUri (withQuery path r.query)).isSome = true →
        hostOf (hostHeader r) = getHost r := by
  unfold PathRewrite.rewriteUpstreamPath
  cases hnew : l.upstreamPath r.path with
  | none => simp
  | some path =>
    have hslash := hasPrefix_withQuery (hasPrefix_upstreamPath hnew) r.query
    have hset := getHost_setTarget_iff hlaw r (withQuery path r.query)
    rw [hostStands_slash_iff hslash] at hset
    simpa [setRequestPath] using hset

theorem getHost_removeQueryFromHeader_iff (hlaw : ReadsOrigin c.parseUri) (r : RequestHeader)
    (name : String) :
    getHost (removeQueryFromHeader c r name).1 = getHost r ↔
      ∀ query ∈ r.query, HostStands c r (joinTarget r.path (withoutParam query name)) := by
  unfold removeQueryFromHeader
  cases hquery : r.query with
  | none => simp
  | some query =>
    simpa using getHost_setTarget_iff hlaw r (joinTarget r.path (withoutParam query name))

/-- A request keeps its host through path rewriting exactly if, for each new target that reads as a
URI, the `Host` header alone names the host; a target that does not start with a slash may name it
instead. The targets for an upstream all start with one. -/
theorem rewriting_keeps_host_iff (c : RewriteParsers) (hlaw : ReadsOrigin c.parseUri)
    (l : PathRewrite) (vars : Option Variables) (r : RequestHeader) (newPath name : String) :
    (getHost (l.rewrite c r vars).1 = getHost r ↔
      ∀ new ∈ l.rewritten c vars r.path, HostStands c r (withQuery new.2.1 r.query)) ∧
    (getHost (l.rewriteUpstreamPath c r) = getHost r ↔
      ∀ path ∈ l.upstreamPath r.path, (c.parseUri (withQuery path r.query)).isSome = true →
        hostOf (hostHeader r) = getHost r) ∧
    (getHost (setRequestPath c r newPath).1 = getHost r ↔
      HostStands c r (withQuery newPath r.query)) ∧
    (getHost (removeQueryFromHeader c r name).1 = getHost r ↔
      ∀ query ∈ r.query, HostStands c r (joinTarget r.path (withoutParam query name))) :=
  ⟨getHost_rewrite_iff hlaw l vars r, getHost_rewriteUpstreamPath_iff hlaw l r,
    getHost_setTarget_iff hlaw r _, getHost_removeQueryFromHeader_iff hlaw r name⟩

/-! ## A host in the URI alone -/

def originParsers : RewriteParsers where
  captures _ _ := none
  captureNames _ := []
  parseUri := originUri

/-- Everything under `/api` is served without it upstream, and the pattern rewrites every path. -/
def apiLocation : PathRewrite := ⟨.startsWith "/api", some ⟨".*", "/v2"⟩, true, none⟩

def usersRequest (uriHost : Option String) (headers : List HeaderLine) : RequestHeader :=
  ⟨"GET", uriHost, "/api/users", some "key=1&page=2", headers⟩

/-- With a `Host` header the host stays through the rewrite for the upstream. -/
theorem host_header_stays :
    let r := usersRequest none [⟨"host", utf8Encode "shop.example"⟩]
    apiLocation.upstreamPath r.path = some "/users" ∧
      getHost (apiLocation.rewriteUpstreamPath originParsers r) = getHost r := by
  refine ⟨by decide +kernel, ?_⟩
  refine (rewriting_keeps_host_iff originParsers readsOrigin_originUri apiLocation none
    (usersRequest none [⟨"host", utf8Encode "shop.example"⟩]) "" "").2.1.mpr fun _ _ _ => ?_
  decide +kernel

/-- With the host in the URI alone, each of the four functions leaves the request without one. -/
theorem uri_host_is_lost :
    let r := usersRequest (some "shop.example") []
    getHost r = some "shop.example" ∧
      getHost (apiLocation.rewrite originParsers r none).1 = none ∧
      getHost (apiLocation.rewriteUpstreamPath originParsers r) = none ∧
      getHost (setRequestPath originParsers r "/users").1 = none ∧
      getHost (removeQueryFromHeader originParsers r "key").1 = none := by
  decide +kernel

end PingWaf.Routing
