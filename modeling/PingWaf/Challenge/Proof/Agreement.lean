import PingWaf.Challenge.Proof.Solved

/-!
# The WAF and the challenge plugin on clearance

The challenge plugin signs with the secret it resolved when it was built and sets the cookie under
its configured name. The WAF looks for the default name and verifies with the secret it resolves on
its own. Once resolved, the shared secret stays (`resolve_settles`), and the WAF's manager is built
from it (`ManagerTold`).
-/

namespace PingWaf.Challenge

open Text List Option
open Plugin (RequestHeader isCookieChar)

variable {c : Primitives} {s s' : Secrets} {secret configured : String} {fresh : Uuid}

/-! ## The shared secret -/

theorem Uuid.simple_ne_empty (u : Uuid) : u.simple ≠ "" := by
  intro h
  have hlen : (hexEncode u.octets).toList.length = 0 := by
    have : hexEncode u.octets = "" := h
    rw [this]
    rfl
  rw [hexEncode, String.toList_ofList] at hlen
  cases hu : u.octets with
  | nil =>
    have := u.length_eq
    rw [hu] at this
    cases this
  | cons _ _ =>
    rw [hu] at hlen
    simp at hlen

theorem Uuid.trim_simple (u : Uuid) : trim u.simple = u.simple :=
  trim_eq_self fun ch hch =>
    Plugin.isWhitespace_of_cookieChar (isCookieChar_of_base64 (hexEncode_alphabet _ ch hch))

/-- The secret that calls without a configured one share, once there is one. -/
def Secrets.shared (s : Secrets) : Option String :=
  match s.cacheDir with
  | none => some s.fallback.simple
  | some _ => s.persisted.or (if s.writable then none else some s.unpersisted.simple)

theorem resolve_default (h : namesSecret configured = false) :
    resolveCookieSecret configured fresh s =
      match s.shared with
      | some secret => (secret, s)
      | none => (fresh.simple, { s with file := some fresh.simple }) := by
  unfold resolveCookieSecret Secrets.shared
  rw [h]
  cases s.cacheDir with
  | none => rfl
  | some _ =>
    cases s.persisted with
    | some _ => rfl
    | none => cases s.writable <;> rfl

theorem resolve_named (h : namesSecret configured = true) :
    resolveCookieSecret configured fresh s = (configured, s) := by
  unfold resolveCookieSecret
  rw [if_pos h]

theorem resolve_of_shared (hd : namesSecret configured = false) (h : s.shared = some secret) :
    resolveCookieSecret configured fresh s = (secret, s) := by
  rw [resolve_default hd, h]

theorem shared_written (h : s.shared = none) :
    Secrets.shared { s with file := some fresh.simple } = some fresh.simple := by
  have hback : Secrets.persisted { s with file := some fresh.simple } = some fresh.simple := by
    unfold Secrets.persisted
    rw [map_some, Uuid.trim_simple, filter_some_pos]
    exact decide_eq_true fresh.simple_ne_empty
  unfold Secrets.shared at h ⊢
  rw [hback]
  cases hdir : s.cacheDir with
  | none =>
    rw [hdir] at h
    cases h
  | some _ => rfl

theorem resolve_settles (hd : namesSecret configured = false) :
    (resolveCookieSecret configured fresh s).2.shared =
      some (resolveCookieSecret configured fresh s).1 := by
  rw [resolve_default hd]
  cases h : s.shared with
  | some _ => exact h
  | none => exact shared_written h

theorem resolve_ne_empty : (resolveCookieSecret configured fresh s).1 ≠ "" := by
  unfold resolveCookieSecret
  split
  · next h =>
    rintro rfl
    revert h
    decide
  · split
    · exact Uuid.simple_ne_empty _
    · split
      · next hp =>
        have := (filter_eq_some_iff.mp hp).2
        simpa using this
      · split
        · exact Uuid.simple_ne_empty _
        · exact Uuid.simple_ne_empty _

/-! ## The secrets of a process over time -/

/-- The calls that may touch the secrets: another resolution, or a check of the WAF. -/
inductive SecretStep (c : Primitives) (s : Secrets) : Secrets → Prop where
  | resolve (configured : String) (fresh : Uuid) :
      SecretStep c s (resolveCookieSecret configured fresh s).2
  | check (value : Option String) (siteKey : String) (now : Int) (fresh : Uuid) :
      SecretStep c s (clearanceValid c value siteKey now fresh s).2

/-- The process goes from one state of its secrets to another. -/
def Secrets.Reaches (c : Primitives) : Secrets → Secrets → Prop :=
  Relation.ReflTransGen (SecretStep c)

/-- The manager that the WAF keeps was built from the shared secret. -/
def ManagerTold (s : Secrets) : Prop :=
  ∀ m, s.cached = some m → ∃ secret, s.shared = some secret ∧ m.secret = utf8Encode secret

theorem managerTold_start (h : s.manager = none) : ManagerTold s := by
  intro m hm
  unfold Secrets.cached at hm
  rw [h] at hm
  cases hpath : s.secretPath <;> simp [hpath] at hm

theorem resolve_shared (h : s.shared = some secret) :
    (resolveCookieSecret configured fresh s).2 = s := by
  cases hd : namesSecret configured with
  | true => rw [resolve_named hd]
  | false => rw [resolve_of_shared hd h]

theorem ManagerTold.resolve (h : ManagerTold s) :
    ManagerTold (resolveCookieSecret configured fresh s).2 := by
  cases hd : namesSecret configured with
  | true =>
    rw [resolve_named hd]
    exact h
  | false =>
    cases hs : s.shared with
    | some _ =>
      rw [resolve_of_shared hd hs]
      exact h
    | none =>
      -- no manager is kept yet: it would have a shared secret
      rw [resolve_default hd, hs]
      intro m hm
      obtain ⟨secret, hsome, -⟩ := h m hm
      rw [hs] at hsome
      cases hsome

variable {m : CookieManager} {now : Int} {r : RequestHeader}

theorem ManagerTold.keep {path : String} (h : s.shared = some secret)
    (hm : m.secret = utf8Encode secret) : ManagerTold { s with manager := some (path, m) } := by
  intro m' hm'
  obtain ⟨path', -, hcached⟩ := bind_eq_some_iff.mp hm'
  obtain ⟨entry, hentry, rfl⟩ := map_eq_some_iff.mp hcached
  obtain rfl := some.inj (filter_eq_some_iff.mp hentry).1
  exact ⟨secret, h, hm⟩

theorem ManagerTold.check (h : ManagerTold s) (value : Option String) (siteKey : String) (now : Int)
    (fresh : Uuid) :
    ManagerTold (clearanceValid c value siteKey now fresh s).2 ∧
      ∀ secret, s.shared = some secret →
        (clearanceValid c value siteKey now fresh s).2.shared = some secret := by
  unfold clearanceValid
  cases value with
  | none => exact ⟨h, fun _ hs => hs⟩
  | some _ =>
    cases hcached : s.cached with
    | some _ => exact ⟨h, fun _ hs => hs⟩
    | none =>
      have htold : ManagerTold (resolveCookieSecret "" fresh s).2 := h.resolve
      have hsettled : (resolveCookieSecret "" fresh s).2.shared =
          some (resolveCookieSecret "" fresh s).1 := resolve_settles (by decide)
      have hkept : ∀ secret, s.shared = some secret →
          (resolveCookieSecret "" fresh s).2.shared = some secret := by
        intro secret hs
        rw [resolve_shared hs]
        exact hs
      dsimp only
      cases hpath : (resolveCookieSecret "" fresh s).2.secretPath with
      | none => exact ⟨htold, hkept⟩
      | some _ => exact ⟨.keep hsettled rfl, hkept⟩

theorem SecretStep.keeps (h : SecretStep c s s') (hm : ManagerTold s) :
    ManagerTold s' ∧ ∀ secret, s.shared = some secret → s'.shared = some secret := by
  cases h with
  | resolve _ _ =>
    refine ⟨hm.resolve, fun secret hs => ?_⟩
    rw [resolve_shared hs]
    exact hs
  | check value siteKey now fresh => exact hm.check value siteKey now fresh

theorem Secrets.Reaches.keeps (h : Secrets.Reaches c s s') (hm : ManagerTold s) :
    ManagerTold s' ∧ ∀ secret, s.shared = some secret → s'.shared = some secret := by
  induction h with
  | refl => exact ⟨hm, fun _ hs => hs⟩
  | tail _ hstep ih =>
    obtain ⟨htold, hkept⟩ := hstep.keeps ih.1
    exact ⟨htold, fun secret hs => hkept secret (ih.2 secret hs)⟩

/-! ## The WAF's check -/

theorem clears_congr {m m' : CookieManager} (h : m.secret = m'.secret) (value siteKey : String)
    (now : Int) : m.clears c value siteKey now = m'.clears c value siteKey now := by
  unfold CookieManager.clears CookieManager.validateClearance
  rw [h]

theorem clearanceValid_eq (h : ManagerTold s) (value siteKey : String) (now : Int) (fresh : Uuid) :
    (clearanceValid c (some value) siteKey now fresh s).1 =
      (CookieManager.new (utf8Encode (resolveCookieSecret "" fresh s).1) 3600).clears c value siteKey
        now := by
  unfold clearanceValid
  cases hcached : s.cached with
  | none => rfl
  | some m =>
    obtain ⟨secret, hs, hm⟩ := h m hcached
    rw [resolve_of_shared (by decide) hs]
    exact clears_congr hm value siteKey now

/-- An HMAC under one key passes for one under another only if the keys sign alike: what
unforgeability leaves of two secrets. -/
def Primitives.KeysTold (c : Primitives) : Prop :=
  ∀ key key' msg, c.hmacSha256 key msg = c.hmacSha256 key' msg →
    ∀ msg', c.hmacSha256 key msg' = c.hmacSha256 key' msg'

/-- The two secrets sign alike. -/
def Primitives.sameKey (c : Primitives) (a b : String) : Prop :=
  ∀ msg, c.hmacSha256 (utf8Encode a) msg = c.hmacSha256 (utf8Encode b) msg

theorem clears_encodePayload (hl : c.Lawful) (hk : c.KeysTold) {signer checker siteKey : String}
    {m m' : CookieManager} (hm : m.secret = utf8Encode signer)
    (hm' : m'.secret = utf8Encode checker) {payload : ClearancePayload}
    (hnow : now < payload.expiresAt) (hsite : payload.siteId = siteKey) :
    m'.clears c (m.encodePayload c payload) siteKey now = true ↔ c.sameKey signer checker := by
  unfold CookieManager.clears
  rw [validate_encodePayload hl, hm, hm']
  constructor
  · intro h
    split at h
    · next hok =>
      split at hok
      · cases hok
      · next heq => exact hk _ _ _ (not_not.mp heq).symm
    · cases h
  · intro h
    have hvalid : isValid payload now = true := decide_eq_true hnow
    rw [if_neg (not_not.mpr (h _).symm), if_pos hvalid]
    exact decide_eq_true hsite

/-! ## The cookie that comes back -/

/-- What the WAF reads of one item of a `Cookie` line. -/
def clearanceItem (item : String) : Option String :=
  (splitOnce '=' (trim item)).bind fun kv =>
    if eqIgnoreAsciiCase (trim kv.1) Plugin.clearanceCookieName then some (trim kv.2) else none

/-- The request carries the cookie, and no other one that the WAF would take for a clearance. -/
structure SentBack (r : RequestHeader) (k : SetCookie) (text item : String)
    (before after : List String) : Prop where
  line : (r.get "cookie").bind Plugin.HeaderLine.toStr = some text
  items : splitChar ';' text = before ++ item :: after
  pair : trim item = trim (k.name ++ "=" ++ k.value)
  others : ∀ other ∈ before ++ after, clearanceItem other = none

theorem find_collected {name text : String}
    (h : (r.get name).bind Plugin.HeaderLine.toStr = some text) :
    (Plugin.collectHeaders r.headers).headers.find? (fun p => p.1 = name) = some (name, text) := by
  obtain ⟨line, hget, htext⟩ := bind_eq_some_iff.mp h
  rw [Plugin.collectHeaders_headers]
  unfold Plugin.RequestHeader.get at hget
  generalize r.headers = lines at hget
  induction lines with
  | nil => cases hget
  | cons l _ ih =>
    rw [find?_cons] at hget
    split at hget
    · next hname =>
      obtain rfl := some.inj hget
      rw [filterMap_cons, htext, map_some, find?_cons]
      simp only [hname]
      rw [of_decide_eq_true hname]
    · next hname =>
      rw [filterMap_cons]
      cases hl : l.toStr with
      | none => exact ih hget
      | some _ =>
        rw [map_some, find?_cons]
        simp only [hname]
        exact ih hget

theorem SentBack.clearanceCookie {k : SetCookie} {text item : String} {before after : List String}
    (h : SentBack r k text item before after) :
    Plugin.clearanceCookie (Plugin.collectHeaders r.headers).headers = clearanceItem item := by
  have hnone : ∀ l : List String, (∀ other ∈ l, clearanceItem other = none) →
      l.findSome? clearanceItem = none := fun l hl => findSome?_eq_none_iff.mpr hl
  have hbefore := hnone before fun o ho => h.others o (mem_append_left _ ho)
  have hafter := hnone after fun o ho => h.others o (mem_append_right _ ho)
  unfold Plugin.clearanceCookie
  rw [find_collected h.line, bind_some]
  show (splitChar ';' text).findSome? clearanceItem = _
  rw [h.items, findSome?_append, hbefore, none_or, findSome?_cons]
  cases clearanceItem item with
  | some _ => rfl
  | none => exact hafter

section

variable {name value item : String} (hvalue : ∀ ch ∈ value.toList, isCookieChar ch = true)
  (hitem : trim item = trim (name ++ "=" ++ value))

include hvalue hitem

theorem toList_trim_item :
    (trim item).toList = trimStartList isWhitespace name.toList ++ '=' :: value.toList := by
  have htext : name ++ "=" ++ value = String.ofList (name.toList ++ '=' :: value.toList) := by
    apply String.toList_inj.mp
    simp
  rw [hitem, htext]
  exact toList_trim_pair (by decide) _ fun ch hch =>
    Plugin.isWhitespace_of_cookieChar (hvalue ch hch)

theorem clearanceItem_plain (hname : '=' ∉ name.toList) :
    clearanceItem item =
      if eqIgnoreAsciiCase (trim name) Plugin.clearanceCookieName then some value else none := by
  have hsub : '=' ∉ trimStartList isWhitespace name.toList := fun h =>
    hname ((dropWhile_sublist _).mem h)
  have hblank := trim_eq_self fun ch hch => Plugin.isWhitespace_of_cookieChar (hvalue ch hch)
  unfold clearanceItem splitOnce
  rw [toList_trim_item hvalue hitem, splitOnceList_append hsub]
  simp only [map_some, bind_some, String.ofList_toList, trim_trimStart, hblank]

theorem clearanceItem_equals (hname : '=' ∈ name.toList) {found : String}
    (h : clearanceItem item = some found) : '=' ∈ found.toList := by
  have hfront : '=' ∈ trimStartList isWhitespace name.toList := by
    obtain ⟨l, r, hlr⟩ := append_of_mem hname
    rw [hlr, trimStartList_append_cons (by decide)]
    simp
  obtain ⟨kv, hsplit, hkv⟩ := bind_eq_some_iff.mp h
  obtain ⟨⟨a, b⟩, hlist, rfl⟩ := map_eq_some_iff.mp hsplit
  obtain ⟨hab, ha⟩ := splitOnceList_eq_some hlist
  split at hkv
  · obtain rfl := some.inj hkv
    -- the item has two equals signs, and the first part of the cut has none
    have hcount := congrArg (count '=') ((toList_trim_item hvalue hitem).symm.trans hab)
    have hpos := count_pos_iff.mpr hfront
    rw [count_append, count_append, count_cons_self, count_cons_self,
      count_eq_zero.mpr ha] at hcount
    have hb : '=' ∈ b := count_pos_iff.mp (by omega)
    exact mem_trim (by decide) (by rwa [String.toList_ofList])
  · cases hkv

end

theorem clears_equals (hl : c.Lawful) {value siteKey : String} (h : '=' ∈ value.toList) :
    m.clears c value siteKey now = false := by
  have hno : ∀ text bs, c.b64Decode text = some bs → '=' ∉ text.toList := fun text bs hd hmem =>
    absurd (hl.b64_decode_alphabet text bs hd '=' hmem) (by decide)
  unfold CookieManager.clears CookieManager.validateClearance
  split
  · next payload hok =>
    exfalso
    split at hok
    · cases hok
    · next payloadB64 signatureB64 hsplit =>
      obtain ⟨⟨a, b⟩, hlist, hparts⟩ := map_eq_some_iff.mp hsplit
      obtain ⟨rfl, rfl⟩ := Prod.mk.inj hparts
      split at hok
      · cases hok
      · next signature hsig =>
        split at hok
        · cases hok
        · split at hok
          · cases hok
          · next json hjson =>
            have hna := hno _ _ hjson
            have hnb := hno _ _ hsig
            rw [String.toList_ofList] at hna hnb
            rw [(splitOnceList_eq_some hlist).1, mem_append, mem_cons] at h
            rcases h with h | h | h
            · exact hna h
            · revert h
              decide
            · exact hnb h
  · rfl

/-! ## Agreement -/

/-- The WAF's check of the cookie that a request carries. -/
def wafCleared (c : Primitives) (r : RequestHeader) (host : String) (now : Int) (fresh : Uuid)
    (s : Secrets) : Bool :=
  (clearanceValid c (Plugin.clearanceCookie (Plugin.collectHeaders r.headers).headers) host now
    fresh s).1

/-- The configured name is the one that the WAF looks for. -/
def namesDefault (cookieName : String) : Bool :=
  cookieName = "" || eqIgnoreAsciiCase (trim cookieName) clearanceCookieName

theorem wafCleared_iff (hl : c.Lawful) (hk : c.KeysTold) {k : SetCookie}
    {text item host signer : String} {before after : List String} {payload : ClearancePayload}
    (hsent : SentBack r k text item before after) (htold : ManagerTold s)
    (hvalue : k.value = m.encodePayload c payload) (hm : m.secret = utf8Encode signer)
    (hnow : now < payload.expiresAt) (hsite : payload.siteId = host) :
    wafCleared c r host now fresh s = true ↔
      eqIgnoreAsciiCase (trim k.name) clearanceCookieName = true ∧
        c.sameKey signer (resolveCookieSecret "" fresh s).1 := by
  have hchars : ∀ ch ∈ k.value.toList, isCookieChar ch = true := by
    rw [hvalue]
    exact encodePayload_cookieChars hl m payload
  have hnameEq : Plugin.clearanceCookieName = clearanceCookieName := rfl
  unfold wafCleared
  rw [hsent.clearanceCookie]
  by_cases heq : '=' ∈ k.name.toList
  · -- the WAF cuts the name, and what it finds is no cookie value
    have hleft : (clearanceValid c (clearanceItem item) host now fresh s).1 = false := by
      cases hfound : clearanceItem item with
      | none => rfl
      | some _ =>
        rw [clearanceValid_eq htold]
        exact clears_equals hl (clearanceItem_equals hchars hsent.pair heq hfound)
    have hright : eqIgnoreAsciiCase (trim k.name) clearanceCookieName = false := by
      rw [Bool.eq_false_iff]
      intro hmatch
      have hmem := mem_map_of_mem (f := asciiLowerChar) (mem_trim (by decide) heq)
      rw [eq_of_beq hmatch] at hmem
      revert hmem
      decide +kernel
    rw [hleft, hright]
    simp
  · rw [clearanceItem_plain hchars hsent.pair heq, hnameEq]
    cases hname : eqIgnoreAsciiCase (trim k.name) clearanceCookieName with
    | false => simp [clearanceValid]
    | true =>
      rw [if_pos rfl, clearanceValid_eq htold, hvalue, clears_encodePayload hl hk hm rfl hnow hsite]
      simp

theorem tryFrom_ok {params : ChallengeParams} {p : ChallengePlugin}
    (h : (ChallengePlugin.tryFrom params fresh s).1 = .ok p) :
    p.cookieName = (if params.cookieName = "" then clearanceCookieName else params.cookieName) ∧
      p.cookieSecret = (resolveCookieSecret params.cookieSecret fresh s).1 := by
  unfold ChallengePlugin.tryFrom at h
  dsimp only at h
  split at h
  · cases h
  · obtain rfl := Except.ok.inj h
    exact ⟨rfl, if_neg resolve_ne_empty⟩

theorem tryFrom_secrets (params : ChallengeParams) (fresh : Uuid) (s : Secrets) :
    (ChallengePlugin.tryFrom params fresh s).2 =
      (resolveCookieSecret params.cookieSecret fresh s).2 := by
  unfold ChallengePlugin.tryFrom
  dsimp only
  split <;> rfl

theorem namesDefault_iff (cookieName : String) :
    namesDefault cookieName = true ↔
      eqIgnoreAsciiCase (trim (if cookieName = "" then clearanceCookieName else cookieName))
        clearanceCookieName = true := by
  unfold namesDefault
  split
  · next h =>
    simp only [h, decide_true, Bool.true_or, true_iff]
    decide +kernel
  · next h => simp [h]

/-- A cookie that the plugin set for a challenge of this host, sent back before it expires, passes
the WAF's check exactly when the plugin's cookie name is the one the WAF reads, and the plugin has
no secret of its own or one that signs as the shared secret does. -/
theorem waf_agrees_iff (c : Primitives) (hl : c.Lawful) (hk : c.KeysTold) (params : ChallengeParams)
    (fresh fresh' : Uuid) (start built later : Secrets) (p : ChallengePlugin) (v : Visit)
    (st : ChallengeState) (redirect host : String) (k : SetCookie) (r : RequestHeader)
    (text item : String) (before after : List String) (now : Int)
    (hstart : start.manager = none) (hbefore : Secrets.Reaches c start built)
    (hplugin : (ChallengePlugin.tryFrom params fresh built).1 = .ok p)
    (hafter : Secrets.Reaches c (ChallengePlugin.tryFrom params fresh built).2 later)
    (hset : (p.handleVerify c v st).1 = .verified redirect (some k))
    (hpage : v.solvedSite c st = some host)
    (hsent : SentBack r k text item before after)
    (hnow : now < p.engine.cookieManager.expiry v.moment.unix) :
    wafCleared c r host now fresh' later = true ↔
      namesDefault params.cookieName = true ∧
        (namesSecret params.cookieSecret = false ∨
          c.sameKey params.cookieSecret (resolveCookieSecret "" fresh' later).1) := by
  obtain ⟨payload, hi⟩ := handleVerify_issues hset
  obtain ⟨hname, hsecret⟩ := tryFrom_ok hplugin
  have hbuilt := (hbefore.keeps (managerTold_start hstart)).1
  rw [tryFrom_secrets] at hafter
  obtain ⟨htold, hkept⟩ := hafter.keeps hbuilt.resolve
  have hsite : payload.siteId = host := some.inj (hi.site_eq.symm.trans hpage)
  have hsigner : p.engine.cookieManager.secret = utf8Encode p.cookieSecret := by
    rw [← p.secret_eq]
    rfl
  rw [wafCleared_iff hl hk hsent htold hi.value_eq hsigner (by rw [hi.expires_eq]; exact hnow) hsite,
    hi.name_eq, hname, ← namesDefault_iff, hsecret]
  refine and_congr_right fun _ => ?_
  cases hd : namesSecret params.cookieSecret with
  | true =>
    rw [resolve_named hd]
    simp
  | false =>
    -- both sides resolved the shared secret
    have hshared := hkept _ (resolve_settles hd)
    rw [resolve_of_shared (by decide) hshared]
    simp [Primitives.sameKey]

/-! ## The shop's cookie at the WAF -/

theorem Primitives.plain_keysTold : Primitives.plain.KeysTold := by
  intro key key' msg h msg'
  have hkey : key = key' := append_cancel_right h
  rw [hkey]

def zeroUuid : Uuid := ⟨List.replicate 16 0, rfl⟩

def agentSecrets : Secrets := ⟨some "/var/cache/pingwaf", some "k", true, zeroUuid, zeroUuid, none⟩

def standaloneSecrets : Secrets := ⟨none, none, false, zeroUuid, zeroUuid, none⟩

def shopParams (cookieSecret : String) : ChallengeParams :=
  ⟨none, none, none, none, some 0, cookieSecret, "", [], [], none, none, none⟩

theorem solveVisit_verified : (shopPlugin.handleVerify .plain solveVisit shopState).1 =
    .verified "/" (some solvedCookie) := by
  decide +kernel

theorem returnVisit_sentBack :
    SentBack (returnVisit 1100).header solvedCookie
      (clearanceCookieName ++ "=" ++ solvedCookie.value)
      (clearanceCookieName ++ "=" ++ solvedCookie.value) [] [] :=
  ⟨by decide +kernel, by decide +kernel, rfl, nofun⟩

/-- Without a secret of its own, the plugin signs with the one the WAF finds. -/
theorem waf_agrees_on_shared_secret :
    wafCleared Primitives.plain (returnVisit 1100).header "shop.example.com" 1100 zeroUuid
      agentSecrets = true :=
  (waf_agrees_iff Primitives.plain Primitives.plain_lawful Primitives.plain_keysTold (shopParams "")
    zeroUuid zeroUuid agentSecrets agentSecrets agentSecrets shopPlugin solveVisit shopState "/"
    "shop.example.com" solvedCookie (returnVisit 1100).header _ _ [] [] 1100 rfl .refl rfl .refl
    solveVisit_verified (by decide +kernel) returnVisit_sentBack (by decide)).mpr
    ⟨by decide +kernel, .inl (by decide)⟩

/-- A plugin with a configured secret, in a process without an agent: the WAF refuses the cookie that
the plugin has set a moment ago. -/
theorem waf_refuses_configured_secret :
    (ChallengePlugin.tryFrom (shopParams "k") zeroUuid standaloneSecrets).1 = .ok shopPlugin ∧
      (shopPlugin.handleVerify .plain solveVisit shopState).1 =
        .verified "/" (some solvedCookie) ∧
      SentBack (returnVisit 1100).header solvedCookie
        (clearanceCookieName ++ "=" ++ solvedCookie.value)
        (clearanceCookieName ++ "=" ++ solvedCookie.value) [] [] ∧
      wafCleared Primitives.plain (returnVisit 1100).header "shop.example.com" 1100 zeroUuid
        standaloneSecrets = false :=
  ⟨rfl, solveVisit_verified, returnVisit_sentBack, by decide +kernel⟩

end PingWaf.Challenge
