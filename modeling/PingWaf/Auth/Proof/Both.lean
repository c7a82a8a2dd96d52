import PingWaf.Challenge.Plain
import PingWaf.Auth.Site

/-!
# Sites with two ways in

A site in the mode `both` has the visitor gate in front of the OIDC gate. The visitor gate lets a
request through on a session of its own, or steps aside for an OIDC cookie; the OIDC gate then asks
for a session again.
-/

namespace PingWaf.Auth

open Text VisitorAuth
open Plugin (InvalidPlugin getHost getCookieValue getStepConf)

variable {f : Foreign} {control : ControlPlane} {q : Visit} {live : LiveSessions}
  {v : VisitorAuth} {o : Oidc} {cfg : SiteOidc}

/-! ## The two kinds of session -/

/-- The request carries a live session of the visitor gate for its host. -/
def VisitorAuth.admits (v : VisitorAuth) (f : Foreign) (control : ControlPlane) (q : Visit)
    (live : LiveSessions) : Bool :=
  match getHost q.header with
  | none => false
  | some siteHost =>
    match v.session f q.header siteHost q.now with
    | none => false
    | some data => (sessionIsLive control data q.now live).1

/-- The request carries an OIDC session that holds and that the access policy admits. -/
def Oidc.admits (o : Oidc) (f : Foreign) (q : Visit) : Bool :=
  (o.session f q.header q.now).any fun data => o.access.admits data.claims

/-! ## The gates one by one -/

/-- A path that neither gate serves itself or delegates. -/
structure SitePath (v : VisitorAuth) (o : Oidc) (path : String) : Prop where
  not_owned : ownsPath path = false
  not_delegated : isDelegated path v.delegatedPaths = false
  not_callback : path ≠ o.redirectPath
  not_logout : o.logoutPath ≠ some path

@[simp] theorem goesOn_continue : Answer.goesOn .continue_ = true := rfl

@[simp] theorem goesOn_refuse (f : Foreign) (q : Visit) :
    (VisitorAuth.refuse f q).goesOn = false := by
  unfold refuse
  split <;> rfl

theorem gate_goesOn (siteHost : String) :
    (v.gate f control q siteHost live).1.goesOn =
      ((match v.session f q.header siteHost q.now with
        | none => false
        | some data => (sessionIsLive control data q.now live).1) ||
      v.oidcSessionPresent q.header) := by
  unfold gate
  dsimp only
  cases v.session f q.header siteHost q.now with
  | none => cases v.oidcSessionPresent q.header <;> simp
  | some data =>
    dsimp only
    rcases sessionIsLive control data q.now live with ⟨verdict, live'⟩
    cases verdict <;> cases v.oidcSessionPresent q.header <;> simp

theorem visitor_goesOn_iff (hstep : q.step = v.pluginStep)
    (hpath : SitePath v o q.requestUri.path) :
    (v.handleRequest f control q live).1.goesOn = true ↔
      (getHost q.header).isSome = true ∧
        (v.admits f control q live = true ∨ v.oidcSessionPresent q.header = true) := by
  unfold handleRequest admits
  rw [if_neg (not_not.mpr hstep)]
  cases hhost : getHost q.header with
  | none => simp [Answer.goesOn]
  | some _ =>
    dsimp only
    rw [hpath.not_delegated, hpath.not_owned]
    simp only [Bool.false_eq_true, if_false, Option.isSome_some, true_and, gate_goesOn,
      Bool.or_eq_true]

theorem oidc_goesOn_iff (hstep : q.step = o.pluginStep)
    (hpath : SitePath v o q.requestUri.path) :
    (o.handleRequest f q).goesOn = true ↔ o.admits f q = true := by
  unfold Oidc.handleRequest Oidc.admits
  dsimp only
  rw [if_neg (not_not.mpr hstep), if_neg hpath.not_callback, if_neg hpath.not_logout]
  cases o.session f q.header q.now with
  | none =>
    simp only [Option.any_none, Bool.false_eq_true, iff_false, Bool.not_eq_true]
    split
    · split <;> rfl
    · split
      · rfl
      · split <;> rfl
  | some data => cases h : o.access.admits data.claims <;> simp [h, Answer.goesOn]

theorem chain_continues_iff :
    (handleRequestPlugin f control q [.visitor v, .oidc o] live).1 = none ↔
      (v.handleRequest f control q live).1.goesOn = true ∧ (o.handleRequest f q).goesOn = true := by
  unfold handleRequestPlugin AuthPlugin.handleRequest
  dsimp only
  cases hv : (v.handleRequest f control q live).1.goesOn with
  | false => simp
  | true =>
    unfold handleRequestPlugin AuthPlugin.handleRequest
    dsimp only
    cases ho : (o.handleRequest f q).goesOn <;> simp [handleRequestPlugin]

/-! ## The generated chain -/

theorem visitor_tryFrom_ok (h : VisitorAuth.tryFrom f (cfg.visitorConf true) = .ok v) :
    v.pluginStep = .request ∧ v.oidcCookieName = (some cfg.cookieName).filter (· ≠ "") := by
  unfold tryFrom at h
  dsimp only at h
  split at h
  · cases h
  · split at h
    · cases h
    · obtain rfl := Except.ok.inj h
      exact ⟨rfl, rfl⟩

theorem confCookieName_ok {value name : String} (h : confCookieName f value = .ok name) :
    name = if value = "" then defaultCookieName else value := by
  unfold confCookieName at h
  generalize (if value = "" then defaultCookieName else value) = name' at h
  dsimp only at h
  split at h
  · cases h
  · split at h
    · cases h
    · exact (Except.ok.inj h).symm

structure BuiltFrom (f : Foreign) (conf : OidcConf) (o : Oidc) : Prop where
  pluginStep : o.pluginStep = .request
  cookieName : o.cookieName = if conf.cookieName = "" then defaultCookieName else conf.cookieName
  claimsToHeaders : conf.claimsToHeaders.mapM (parseClaimToHeader f) = .ok o.claimsToHeaders

theorem oidc_tryFrom_ok {conf : OidcConf} (h : Oidc.tryFrom f conf = .ok o) :
    BuiltFrom f conf o := by
  unfold Oidc.tryFrom at h
  simp only [oidcInvalid, bind, Except.bind, pure, Except.pure] at h
  -- every check that fails ends in an error; what is left is the plugin
  split at h
  · cases h
  next hstep =>
  iterate 10
    split at h
    · cases h
  next hname =>
  iterate 2
    split at h
    · cases h
  next hclaims =>
  split at h
  · cases h
  obtain rfl := Except.ok.inj h
  exact ⟨not_not.mp hstep, confCookieName_ok hname, hclaims⟩

/-- In the mode `both`, the chain is the visitor gate and then the OIDC gate. -/
theorem buildChain_both {siteId : String} (henabled : cfg.enabled = true)
    (hmode : trim cfg.authMode = "both")
    (h : buildChain f (siteOidcPlugin siteId (some cfg)) = .ok [.visitor v, .oidc o]) :
    VisitorAuth.tryFrom f (cfg.visitorConf true) = .ok v ∧ Oidc.tryFrom f cfg.oidcConf = .ok o := by
  have hsite : siteOidcPlugin siteId (some cfg) =
      [(siteId ++ "_visitor_auth", .visitorAuth (cfg.visitorConf true)),
        (siteId ++ "_oidc", .oidc cfg.oidcConf)] := by
    unfold siteOidcPlugin
    rw [Option.filter_some_pos henabled]
    simp [hmode]
  rw [hsite] at h
  unfold buildChain AuthPlugin.tryFrom at h
  cases hv : tryFrom f (cfg.visitorConf true) with
  | error _ => simp [hv, Except.map, bind, Except.bind] at h
  | ok _ =>
    cases ho : Oidc.tryFrom f cfg.oidcConf with
    | error _ => simp [hv, ho, Except.map, bind, Except.bind] at h
    | ok _ =>
      simp [hv, ho, Except.map, bind, Except.bind, pure, Except.pure] at h
      exact ⟨by rw [h.1], by rw [h.2]⟩

theorem present_of_admits (hv : VisitorAuth.tryFrom f (cfg.visitorConf true) = .ok v)
    (ho : Oidc.tryFrom f cfg.oidcConf = .ok o) (hadmits : o.admits f q = true) :
    v.oidcSessionPresent q.header = true ↔ cfg.cookieName ≠ "" := by
  have hcookie : (getCookieValue q.header o.cookieName).isSome = true := by
    unfold Oidc.admits Oidc.session at hadmits
    cases hget : getCookieValue q.header o.cookieName with
    | some _ => rfl
    | none =>
      rw [hget] at hadmits
      cases hadmits
  rw [(oidc_tryFrom_ok ho).cookieName] at hcookie
  unfold oidcSessionPresent
  rw [(visitor_tryFrom_ok hv).2]
  by_cases hname : cfg.cookieName = ""
  · simp [hname]
  · have hsame : cfg.oidcConf.cookieName = cfg.cookieName := rfl
    rw [hsame, if_neg hname] at hcookie
    simp [hname, hcookie]

/-- The chain of a site in the mode `both` opens to exactly the two kinds of session when no request
comes with a live local session alone, and none with an admitted OIDC session alone where the site
does not name its cookie or the request no host. -/
theorem both_opens_iff (f : Foreign) (control : ControlPlane) (siteId : String) (cfg : SiteOidc)
    (v : VisitorAuth) (o : Oidc) (q : Visit) (live : LiveSessions)
    (henabled : cfg.enabled = true) (hmode : trim cfg.authMode = "both")
    (hchain : buildChain f (siteOidcPlugin siteId (some cfg)) = .ok [.visitor v, .oidc o])
    (hstep : q.step = .request) (hpath : SitePath v o q.requestUri.path) :
    ((handleRequestPlugin f control q [.visitor v, .oidc o] live).1 = none ↔
        v.admits f control q live = true ∨ o.admits f q = true) ↔
      (v.admits f control q live = true → o.admits f q = true) ∧
        (o.admits f q = true → v.admits f control q live = true ∨
          (getHost q.header).isSome = true ∧ cfg.cookieName ≠ "") := by
  obtain ⟨hv, ho⟩ := buildChain_both henabled hmode hchain
  have hvstep : q.step = v.pluginStep := hstep.trans (visitor_tryFrom_ok hv).1.symm
  have hostep : q.step = o.pluginStep := hstep.trans (oidc_tryFrom_ok ho).pluginStep.symm
  have hhost : v.admits f control q live = true → (getHost q.header).isSome = true := by
    intro h
    unfold VisitorAuth.admits at h
    cases hget : getHost q.header with
    | none =>
      rw [hget] at h
      cases h
    | some _ => rfl
  rw [chain_continues_iff, visitor_goesOn_iff hvstep hpath, oidc_goesOn_iff hostep hpath]
  cases hO : o.admits f q with
  | false => simp
  | true =>
    rw [present_of_admits hv ho hO]
    cases hL : v.admits f control q live with
    | false => simp
    | true => simp [hhost hL]

/-! ## A site with both ways in -/

/-- Sessions of one octet each, under ciphers that show their text and keys of one octet. -/
def plainForeign : Foreign where
  prims := { Challenge.Primitives.plain with sha256 := fun _ => [7] }
  visitorFromJson bs := if bs = [1] then some ⟨"u1", "shop.example.com", 0, 5000⟩ else none
  sessionFromJson bs := if bs = [2] then some ⟨5000, []⟩ else none
  aesOpen _ _ cipher := some cipher
  urlEncode s := s
  debug s := "\"" ++ s ++ "\""
  isHttpUrl s := hasPrefix s "https://"
  urlPath _ := none
  headerName s := some s

def bothSite : SiteOidc where
  enabled := true
  issuer := "https://idp.example.com"
  clientId := "app"
  cookieSecret := "0123456789abcdef"
  redirectPath := "/cb"
  logoutPath := ""
  redirectUrl := ""
  scopes := []
  cookieName := "sid"
  sessionTtlSeconds := 3600
  claimsToHeaders := []
  accessMode := ""
  authMode := "both"
  accessRules := []

def bothVisitor : VisitorAuth := ⟨.request, [7], ["/cb"], some "sid"⟩

def bothOidc : Oidc :=
  ⟨.request, "/cb", none, "sid", [7], [], .allowAll, .both⟩

theorem bothSite_chain :
    buildChain plainForeign (siteOidcPlugin "s1" (some bothSite)) =
      .ok [.visitor bothVisitor, .oidc bothOidc] := by
  rfl

/-- A browser on its way to the front page, with these cookies. -/
def pageVisit (cookies : String) : Visit where
  step := .request
  header := ⟨"GET", some "shop.example.com", "/", none,
    [.ofText "accept" "text/html", .ofText "cookie" cookies]⟩
  originalUri := none
  now := 1000
  providerReady := true

def localCookie : String :=
  let encoded := Challenge.hexEncode [1]
  "pingwaf_visitor=" ++ encoded ++ "." ++ sign plainForeign bothVisitor.key encoded

def oidcCookie : String := "sid=" ++ Challenge.hexEncode (List.replicate 12 0 ++ [2])

theorem frontPage_path : SitePath bothVisitor bothOidc "/" where
  not_owned := by decide +kernel
  not_delegated := by decide +kernel
  not_callback := by decide
  not_logout := by decide

/-- With an OIDC session, the site opens. -/
theorem both_opens_to_oidc_session :
    (handleRequestPlugin plainForeign none (pageVisit oidcCookie)
        [.visitor bothVisitor, .oidc bothOidc] ∅).1 = none ↔
      bothVisitor.admits plainForeign none (pageVisit oidcCookie) ∅ = true ∨
        bothOidc.admits plainForeign (pageVisit oidcCookie) = true :=
  (both_opens_iff plainForeign none "s1" bothSite bothVisitor bothOidc (pageVisit oidcCookie) ∅ rfl
    (by decide +kernel) bothSite_chain rfl frontPage_path).mpr
    ⟨by decide +kernel, by decide +kernel⟩

/-- With a live local session alone, the OIDC gate sends the visitor back to the login page. -/
theorem local_session_sent_back :
    buildChain plainForeign (siteOidcPlugin "s1" (some bothSite)) =
        .ok [.visitor bothVisitor, .oidc bothOidc] ∧
      bothVisitor.admits plainForeign none (pageVisit localCookie) ∅ = true ∧
      (handleRequestPlugin plainForeign none (pageVisit localCookie)
        [.visitor bothVisitor, .oidc bothOidc] ∅).1 =
          some (.redirect "/_pingwaf/login?next=/") :=
  ⟨bothSite_chain, by decide +kernel, by decide +kernel⟩

end PingWaf.Auth
