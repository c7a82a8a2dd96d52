import PingWaf.Plugin.ClientIp

/-!
# What the client address depends on

The cached address is the site's answer, else the process-wide one (`clientIp_eq`). Non-interference
fails exactly where the site's resolver has no answer for a peer that the process-wide one believes,
and where the last hop of the first line of a header is not the last hop of the header.
-/

namespace PingWaf.Plugin

open Text Net Waf List RequestHeader HeaderLine HeaderLine

/-! ## Lines of one name -/

def RequestHeader.lines (r : RequestHeader) (name : String) : List HeaderLine :=
  r.headers.filter fun l => l.name = name

theorem RequestHeader.get_eq_head? (r : RequestHeader) (name : String) :
    r.get name = (r.lines name).head? := by
  rw [RequestHeader.lines, head?_filter, RequestHeader.get]

variable {name : String} {text : String}

theorem RequestHeader.get_congr {r r' : RequestHeader} (h : r'.lines name = r.lines name) :
    r'.get name = r.get name := by
  rw [get_eq_head?, get_eq_head?, h]

/-- The complete value of a header: its lines joined by commas. -/
def RequestHeader.joined (r : RequestHeader) (name : String) : Option HeaderLine :=
  match r.lines name with
  | [] => none
  | ls => some ⟨name, [44].intercalate (ls.map value)⟩

/-- The address behind the last comma. -/
def HeaderLine.lastHop (l : HeaderLine) : Option IpAddr :=
  l.toStr.bind fun value => IpAddr.fromStr (trim ((splitChar ',' value).getLastD ""))

/-! ## The last hop of a joined value -/

theorem latin1_toList (bs : List UInt8) :
    (latin1 bs).toList = bs.map fun b => Char.ofNat b.toNat := by
  simp [latin1]

theorem intercalate_cons_cons {α : Type*} (sep : List α) (x y : List α) (ls : List (List α)) :
    sep.intercalate (x :: y :: ls) = x ++ (sep ++ sep.intercalate (y :: ls)) := by
  simp [intercalate, intersperse]

theorem getLastD_splitChar_joined (x : List UInt8) (ls : List (List UInt8)) :
    (splitChar ',' (latin1 ([44].intercalate (x :: ls)))).getLastD "" =
      (splitChar ',' (latin1 ((x :: ls).getLast (List.cons_ne_nil x ls)))).getLastD "" := by
  induction ls generalizing x with
  | nil => simp [intercalate]
  | cons y ls ih =>
    have hsplit : splitChar ',' (latin1 ([44].intercalate (x :: y :: ls))) =
        splitChar ',' (latin1 x) ++ splitChar ',' (latin1 ([44].intercalate (y :: ls))) := by
      rw [intercalate_cons_cons]
      simp only [splitChar, latin1_toList, map_append, map_cons,
        singleton_append]
      have hcomma : Char.ofNat (44 : UInt8).toNat = ',' := by decide
      rw [hcomma, splitOn_append_cons_self, map_append]
    have hne : splitChar ',' (latin1 ([44].intercalate (y :: ls))) ≠ [] := by
      simp [splitChar, splitOn_ne_nil]
    rw [hsplit, getLastD_eq_getLast?, getLast?_append_of_ne_nil _ hne,
      ← getLastD_eq_getLast?, ih y]
    rfl

theorem all_intercalate (x : List UInt8) (ls : List (List UInt8)) :
    ([44].intercalate (x :: ls)).all isVisibleAscii =
      (x :: ls).all fun v => v.all isVisibleAscii := by
  induction ls generalizing x with
  | nil => simp [intercalate]
  | cons y _ ih =>
    rw [intercalate_cons_cons, all_append, all_append, ih y, all_cons]
    rfl

/-- A line with an octet that is not visible leaves the whole value unreadable; otherwise the last
hop of the header is that of its last line. -/
theorem joined_lastHop (r : RequestHeader) (name : String) :
    (r.joined name).bind lastHop =
      if (r.lines name).all fun l => l.toStr.isSome then
        (r.lines name).getLast?.bind lastHop
      else none := by
  unfold joined
  cases hls : r.lines name with
  | nil => rfl
  | cons l ls =>
    have hall : ((l :: ls).all fun l => l.toStr.isSome) =
        ([44].intercalate ((l :: ls).map value)).all isVisibleAscii := by
      rw [map_cons, all_intercalate, ← map_cons, all_map]
      congr 1
      funext l
      unfold toStr
      by_cases h : l.value.all isVisibleAscii = true <;> simp [h]
    rw [hall]
    by_cases hv : ([44].intercalate ((l :: ls).map value)).all isVisibleAscii = true
    · have hlast : ((l :: ls).getLast (cons_ne_nil l ls)).toStr =
          some (latin1 ((l :: ls).getLast (cons_ne_nil l ls)).value) := by
        have hmem := getLast_mem (cons_ne_nil l ls)
        rw [← hall, all_eq_true] at hv
        have hsome := hv _ hmem
        unfold toStr at hsome ⊢
        split at hsome
        · next h => rw [if_pos h]
        · cases hsome
      rw [if_pos hv, getLast?_eq_getLast_of_ne_nil (cons_ne_nil l ls), Option.bind_some,
        Option.bind_some, lastHop, lastHop, hlast, toStr, if_pos hv,
        Option.bind_some, Option.bind_some, map_cons, getLastD_splitChar_joined]
      congr 5
      exact getLast_map (f := value) (l := l :: ls) (by simp)
    · rw [if_neg hv, Option.bind_some, lastHop, toStr, if_neg hv]
      rfl

/-! ## The two resolvers -/

variable {proxies : Option TrustedProxies} {t : ProxyTrust} {p : IpAddr} {r : RequestHeader}

theorem visit_cached (trust : Option ProxyTrust) (s : Session) (v : Visitor)
    {cached : Option String} (hno : trust.bind (resolveClientIpWithTrust s) = none)
    (hc : cached.getD (getClientIp proxies s) = getClientIp proxies s) :
    (v.visit proxies trust s cached).getD (getClientIp proxies s) = getClientIp proxies s := by
  cases v with
  | plain => exact hc
  | site =>
    show siteClientIp proxies trust s cached = _
    rw [siteClientIp, hno, Option.none_or]
    exact hc

theorem visits_cached (trust : Option ProxyTrust) (s : Session) (earlier : List Visitor)
    {cached : Option String} (hno : trust.bind (resolveClientIpWithTrust s) = none)
    (hc : cached.getD (getClientIp proxies s) = getClientIp proxies s) :
    (earlier.foldl (Visitor.visit proxies trust s) cached).getD (getClientIp proxies s) =
      getClientIp proxies s := by
  induction earlier generalizing cached with
  | nil => exact hc
  | cons v _ ih => exact ih (visit_cached trust s v hno hc)

theorem clientIp_eq (trust : Option ProxyTrust) (s : Session) (earlier : List Visitor) :
    clientIp proxies trust s earlier =
      (trust.bind (resolveClientIpWithTrust s)).getD (getClientIp proxies s) := by
  unfold clientIp siteClientIp ensureClientIp
  cases hs : trust.bind (resolveClientIpWithTrust s) with
  | some _ => rfl
  | none =>
    rw [Option.none_or]
    exact visits_cached trust s earlier hs rfl

theorem resolve_eq (he : t.enabled = true) (hh : t.header ≠ "") :
    resolveClientIpWithTrust ⟨some p, r⟩ t =
      if t.peerIsTrusted p then
        ((r.get t.header).bind toStr).map fun value =>
          ((IpAddr.fromStr (trim (t.rawAddress value))).getD p).display
      else some p.display := by
  unfold resolveClientIpWithTrust
  rw [if_neg (by simp [he, hh]), Option.bind_some]
  split
  · refine congrFun (congrArg Option.map (funext fun value => ?_)) _
    cases IpAddr.fromStr (trim (t.rawAddress value)) with
    | some _ => rw [Option.getD_some]
    | none => rw [Option.getD_none]
  · rfl

theorem resolve_blank (hh : t.header = "") (s : Session) : resolveClientIpWithTrust s t = none := by
  simp [resolveClientIpWithTrust, hh]

theorem getClientIp_peer (r : RequestHeader) :
    getClientIp proxies ⟨some p, r⟩ =
      if honoursForwarded proxies p then forwardedClientIp ⟨some p, r⟩ else p.display := rfl

/-- The site's resolver has no answer for this header: no name is configured, or the trusted line
is missing or not text. -/
def Unanswered (t : ProxyTrust) (p : IpAddr) (r : RequestHeader) : Prop :=
  t.header = "" ∨
    (t.peerIsTrusted p = true ∧ (r.get t.header).bind toStr = none)

theorem clientIp_unanswered (h : Unanswered t p r) (he : t.enabled = true)
    (earlier : List Visitor) :
    clientIp proxies (some t) ⟨some p, r⟩ earlier = getClientIp proxies ⟨some p, r⟩ := by
  rw [clientIp_eq, Option.bind_some]
  by_cases hh : t.header = ""
  · rw [resolve_blank hh]
    rfl
  · rcases h with hb | ⟨ht, hv⟩
    · exact absurd hb hh
    · rw [resolve_eq he hh, if_pos ht, hv, Option.map_none, Option.getD_none]

theorem clientIp_untrusted (he : t.enabled = true) (hh : t.header ≠ "")
    (ht : t.peerIsTrusted p = false) (earlier : List Visitor) :
    clientIp proxies (some t) ⟨some p, r⟩ earlier = p.display := by
  rw [clientIp_eq, Option.bind_some, resolve_eq he hh, if_neg (by simp [ht]), Option.getD_some]

theorem clientIp_trusted (he : t.enabled = true) (hh : t.header ≠ "")
    (ht : t.peerIsTrusted p = true) {value : String}
    (hv : (r.get t.header).bind toStr = some value) (earlier : List Visitor) :
    clientIp proxies (some t) ⟨some p, r⟩ earlier =
      ((IpAddr.fromStr (trim (t.rawAddress value))).getD p).display := by
  rw [clientIp_eq, Option.bind_some, resolve_eq he hh, if_pos ht, hv, Option.map_some,
    Option.getD_some]

/-! ## Forwarded headers of one's own -/

/-- A request that keeps the lines of one name and brings one forwarded line of another. -/
def spoofed (r : RequestHeader) (name : String) (value : List UInt8) : RequestHeader :=
  { r with
    headers := r.lines name ++ [⟨if name = xForwardedFor then xRealIp else xForwardedFor, value⟩] }

theorem lines_spoofed (r : RequestHeader) (name : String) (value : List UInt8) :
    (spoofed r name value).lines name = r.lines name := by
  have hname : (if name = xForwardedFor then xRealIp else xForwardedFor) ≠ name := by
    split
    · next h => rw [h]; decide
    · next h => exact fun he => h he.symm
  simp [spoofed, RequestHeader.lines, hname]

theorem get_spoofed (r : RequestHeader) (name : String) (value : List UInt8) :
    (spoofed r name value).get name = r.get name :=
  get_congr (lines_spoofed r name value)

theorem get_spoofed_added (r : RequestHeader) {name added : String} (value : List UInt8)
    (hadd : (if name = xForwardedFor then xRealIp else xForwardedFor) = added)
    (hne : name ≠ added) : (spoofed r name value).get added = some ⟨added, value⟩ := by
  have hkept : (r.lines name).find? (fun l => l.name = added) = none := by
    rw [find?_eq_none]
    intro l hl
    have hln : l.name = name := by simpa using (mem_filter.mp hl).2
    simp [hln, hne]
  rw [RequestHeader.get, spoofed, find?_append, hkept, hadd]
  simp

theorem forwarded_spoofed (r : RequestHeader) {value : List UInt8}
    (htext : toStr ⟨xRealIp, value⟩ = some text)
    (hone : trim ((splitChar ',' text).headD "") = text) (hne : text ≠ "")
    (hx : name = xForwardedFor → (r.get xForwardedFor).bind toStr = none)
    (peer : Option IpAddr) : forwardedClientIp ⟨peer, spoofed r name value⟩ = text := by
  by_cases hname : name = xForwardedFor
  · subst hname
    have hreal : (spoofed r xForwardedFor value).get xRealIp = some ⟨xRealIp, value⟩ :=
      get_spoofed_added r value (if_pos rfl) (by decide)
    simp only [forwardedClientIp, forwardedFirst, get_spoofed, hx rfl, Option.bind_none, hreal,
      htext, Option.getD_some]
  · have hfwd : (spoofed r name value).get xForwardedFor = some ⟨xForwardedFor, value⟩ :=
      get_spoofed_added r value (if_neg hname) hname
    have htext' : toStr ⟨xForwardedFor, value⟩ = some text := htext
    simp only [forwardedClientIp, forwardedFirst, hfwd, Option.bind_some, htext', hone, if_neg hne]

theorem forwarded_spoofed_digit (r : RequestHeader) {d : UInt8}
    (hd : (d, text) = (49, "1") ∨ (d, text) = (50, "2"))
    (hx : name = xForwardedFor → (r.get xForwardedFor).bind toStr = none)
    (peer : Option IpAddr) : forwardedClientIp ⟨peer, spoofed r name [d]⟩ = text := by
  rcases hd with hd | hd <;> obtain ⟨rfl, rfl⟩ := Prod.mk.inj hd <;>
    exact forwarded_spoofed r (by decide) (by decide) (by decide) hx peer

/-! ## Non-interference -/

/-- What proxy trust promises for a request from a TCP peer, whoever asked for the address before:
an untrusted peer resolves without any header, a trusted one by the lines of the trusted header
alone, with the last hop of its complete value where only the last hop counts, and with the peer
itself where there is nothing to read. -/
structure AddressKept (proxies : Option TrustedProxies) (t : ProxyTrust) (p : IpAddr)
    (r : RequestHeader) : Prop where
  untrusted : t.peerIsTrusted p = false → ∀ (r' : RequestHeader) (earlier earlier' : List Visitor),
    clientIp proxies (some t) ⟨some p, r'⟩ earlier' = clientIp proxies (some t) ⟨some p, r⟩ earlier
  trusted : t.peerIsTrusted p = true → ∀ r' : RequestHeader, r'.lines t.header = r.lines t.header →
    ∀ earlier earlier' : List Visitor,
      clientIp proxies (some t) ⟨some p, r'⟩ earlier' =
        clientIp proxies (some t) ⟨some p, r⟩ earlier
  lastHop : t.peerIsTrusted p = true → t.header = xForwardedFor → t.lastHopOnly = true →
    ∀ earlier : List Visitor, clientIp proxies (some t) ⟨some p, r⟩ earlier =
      (((r.joined xForwardedFor).bind lastHop).getD p).display
  unreadable : t.peerIsTrusted p = true → (r.get t.header).bind toStr = none →
    ∀ earlier : List Visitor, clientIp proxies (some t) ⟨some p, r⟩ earlier = p.display

/-- The process-wide resolver is not asked about a peer it believes, and where only the last hop
counts, that of the first line resolves like that of the last one (like the peer, if some line is
not text). -/
structure AddressSettled (proxies : Option TrustedProxies) (t : ProxyTrust) (p : IpAddr)
    (r : RequestHeader) : Prop where
  answered : Unanswered t p r → honoursForwarded proxies p = false
  oneHop : t.peerIsTrusted p = true → t.header = xForwardedFor → t.lastHopOnly = true →
    ∀ first : HeaderLine, r.get xForwardedFor = some first → first.toStr.isSome →
      (first.lastHop.getD p).display =
        ((if (r.lines xForwardedFor).all fun l => l.toStr.isSome then
            (r.lines xForwardedFor).getLast?.bind lastHop
          else none).getD p).display

theorem Unanswered.congr {r' : RequestHeader} (h : Unanswered t p r)
    (hl : r'.lines t.header = r.lines t.header) : Unanswered t p r' := by
  rcases h with hb | ⟨ht, hv⟩
  · exact .inl hb
  · exact .inr ⟨ht, by rw [get_congr hl]; exact hv⟩

theorem AddressSettled.peer (hs : AddressSettled proxies t p r) (he : t.enabled = true)
    (hu : Unanswered t p r) {r' : RequestHeader} (hu' : Unanswered t p r')
    (earlier : List Visitor) : clientIp proxies (some t) ⟨some p, r'⟩ earlier = p.display := by
  rw [clientIp_unanswered hu' he, getClientIp_peer, if_neg]
  rw [hs.answered hu]
  decide

theorem exists_value (hu : ¬ Unanswered t p r) (ht : t.peerIsTrusted p = true) :
    t.header ≠ "" ∧ ∃ first value, r.get t.header = some first ∧ first.toStr = some value := by
  refine ⟨fun hb => hu (.inl hb), ?_⟩
  cases hg : r.get t.header with
  | none => exact absurd (.inr ⟨ht, by rw [hg]; rfl⟩) hu
  | some first =>
    cases hv : first.toStr with
    | none => exact absurd (.inr ⟨ht, by rw [hg]; exact hv⟩) hu
    | some value => exact ⟨first, value, rfl, hv⟩

theorem clientIp_spoofed (he : t.enabled = true) (hu : Unanswered t p r)
    (hh : honoursForwarded proxies p = true) {d : UInt8}
    (hd : (d, text) = (49, "1") ∨ (d, text) = (50, "2")) :
    clientIp proxies (some t) ⟨some p, spoofed r t.header [d]⟩ [] = text := by
  rw [clientIp_unanswered (hu.congr (lines_spoofed r _ _)) he, getClientIp_peer, if_pos hh]
  apply forwarded_spoofed_digit r hd
  intro hx
  rcases hu with hb | ⟨-, hv⟩
  · rw [hb] at hx
    exact absurd hx (by decide)
  · rwa [hx] at hv

theorem AddressKept.answered (hk : AddressKept proxies t p r) (he : t.enabled = true)
    (hu : Unanswered t p r) : honoursForwarded proxies p = false := by
  by_contra hne
  have hh : honoursForwarded proxies p = true := by simpa using hne
  have hone := clientIp_spoofed he hu hh (.inl rfl)
  have htwo := clientIp_spoofed he hu hh (.inr rfl)
  have hsame : ∀ d : UInt8, clientIp proxies (some t) ⟨some p, spoofed r t.header [d]⟩ [] =
      clientIp proxies (some t) ⟨some p, r⟩ [] := by
    intro d
    cases ht : t.peerIsTrusted p with
    | false => exact hk.untrusted ht _ [] []
    | true => exact hk.trusted ht _ (lines_spoofed r _ _) [] []
  rw [hsame 49] at hone
  rw [hsame 50, hone] at htwo
  exact absurd htwo (by decide)

theorem clientIp_lastHop (he : t.enabled = true) (ht : t.peerIsTrusted p = true)
    (hx : t.header = xForwardedFor) (hl : t.lastHopOnly = true) {first : HeaderLine}
    (hg : r.get xForwardedFor = some first) (hf : first.toStr.isSome = true)
    (earlier : List Visitor) : clientIp proxies (some t) ⟨some p, r⟩ earlier =
      (first.lastHop.getD p).display := by
  obtain ⟨value, hv⟩ := Option.isSome_iff_exists.mp hf
  have hget : (r.get t.header).bind toStr = some value := by
    rw [hx, hg]
    exact hv
  have hh : t.header ≠ "" := by
    rw [hx]
    decide
  rw [clientIp_trusted he hh ht hget, ProxyTrust.rawAddress, if_pos hx, if_pos hl,
    lastHop, hv, Option.bind_some]

/-- Proxy trust keeps its promise for a request exactly where the address is settled. -/
theorem client_address_kept_iff (proxies : Option TrustedProxies) (t : ProxyTrust) (p : IpAddr)
    (r : RequestHeader) (he : t.enabled = true) :
    AddressKept proxies t p r ↔ AddressSettled proxies t p r := by
  constructor
  · intro hk
    refine ⟨hk.answered he, fun ht hx hl first hg hf => ?_⟩
    rw [← clientIp_lastHop he ht hx hl hg hf [], hk.lastHop ht hx hl [], joined_lastHop]
  · intro hs
    refine ⟨fun ht r' earlier earlier' => ?_, fun ht r' hl earlier earlier' => ?_,
      fun ht hx hl earlier => ?_, fun ht hv earlier => hs.peer he (.inr ⟨ht, hv⟩) (.inr ⟨ht, hv⟩) _⟩
    · by_cases hb : t.header = ""
      · rw [hs.peer he (.inl hb) (.inl hb), hs.peer he (.inl hb) (.inl hb)]
      · rw [clientIp_untrusted he hb ht, clientIp_untrusted he hb ht]
    · by_cases hu : Unanswered t p r
      · rw [hs.peer he hu (hu.congr hl), hs.peer he hu hu]
      · obtain ⟨hb, first, value, hg, hv⟩ := exists_value hu ht
        have hget : (r.get t.header).bind toStr = some value := by rw [hg]; exact hv
        have hget' : (r'.get t.header).bind toStr = some value := by
          rw [RequestHeader.get_congr hl]; exact hget
        rw [clientIp_trusted he hb ht hget, clientIp_trusted he hb ht hget']
    · rw [joined_lastHop]
      by_cases hu : Unanswered t p r
      · -- the header is missing, or its first line already spoils the joined value
        have hv : (r.get xForwardedFor).bind toStr = none := by
          rcases hu with hb | ⟨-, hv⟩
          · rw [hx] at hb
            exact absurd hb (by decide)
          · rwa [hx] at hv
        rw [hs.peer he hu hu]
        rw [RequestHeader.get_eq_head?] at hv
        cases hls : r.lines xForwardedFor with
        | nil => simp
        | cons l _ =>
          have hl' : l.toStr = none := by simpa [hls] using hv
          simp [hl']
      · obtain ⟨-, first, value, hg, hv⟩ := exists_value hu ht
        rw [hx] at hg
        have hf : first.toStr.isSome = true := by rw [hv]; rfl
        rw [clientIp_lastHop he ht hx hl hg hf, hs.oneHop ht hx hl first hg hf]

/-- A site behind the proxy `10.0.0.1` that trusts `CF-Connecting-IP`. -/
def cdnTrust : ProxyTrust := .new Crates.inert true "CF-Connecting-IP" true ["10.0.0.1"]

/-- The proxy names the client `6.6.6.6` in the trusted header. -/
theorem client_address_kept_named : cdnTrust.enabled = true ∧
    AddressKept none cdnTrust (.v4 0x0A000001)
      ⟨"GET", none, "/", none, [⟨"cf-connecting-ip", utf8Encode "6.6.6.6"⟩]⟩ := by
  refine ⟨rfl, (client_address_kept_iff none cdnTrust _ _ rfl).mpr ⟨?_, ?_⟩⟩
  · rintro (hb | ⟨-, hv⟩)
    · exact absurd hb (by decide +kernel)
    · exact absurd hv (by decide +kernel)
  · intro _ hx
    exact absurd hx (by decide +kernel)

/-- Without the trusted header, the address is whatever `X-Forwarded-For` says. -/
theorem missing_header_believes_client : ¬ AddressKept none cdnTrust (.v4 0x0A000001)
    ⟨"GET", none, "/", none, [⟨"x-forwarded-for", utf8Encode "6.6.6.6"⟩]⟩ := by
  intro hk
  have hpeer := hk.unreadable (by decide +kernel) (by decide +kernel) []
  exact absurd hpeer (by decide +kernel)

end PingWaf.Plugin
