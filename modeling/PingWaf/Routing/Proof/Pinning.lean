import PingWaf.Routing.Mtls
import PingWaf.Plugin.Proof.Gate

/-!
# Client certificates and the site they were issued for

The site's own policy looks at a certificate's fingerprint and organization, never at its issuer,
and the listener trusts the CAs of all sites.
-/

namespace PingWaf.Routing

open Text Plugin

/-! ## What the site's policy sees -/

/-- The site's list of revoked fingerprints names the certificate. -/
def SslConfig.revokes (ssl : SslConfig) (cert : PeerCert) : Prop :=
  ∃ f ∈ ssl.mtlsRevokedFingerprints,
    toAsciiLowercase (trim f) ≠ "" ∧ toAsciiLowercase (trim f) = toAsciiLowercase cert.digest

/-- The site pins an organization that the certificate does not carry. -/
def SslConfig.otherOrganization (ssl : SslConfig) (cert : PeerCert) : Prop :=
  trim ssl.mtlsOrganization ≠ "" ∧ cert.organization ≠ some (trim ssl.mtlsOrganization)

theorem build_denial_none_iff {ssl : SslConfig} {p : MtlsPolicy}
    (hp : MtlsPolicy.build (some ssl) = some p) (hreq : ssl.mtlsRequiresCert = true)
    (peer : Option PeerCert) :
    p.denial peer = none ↔
      ∃ cert, peer = some cert ∧ ¬ ssl.revokes cert ∧ ¬ ssl.otherOrganization cert := by
  have hon : ssl.mtlsEnabled = true := by
    by_contra hoff
    simp [MtlsPolicy.build, Option.filter, hoff] at hp
  obtain rfl := (by simpa [MtlsPolicy.build, Option.filter, hon] using hp :
    ({ requireClientCert := ssl.mtlsRequiresCert
       organization := trim ssl.mtlsOrganization
       revoked := (ssl.mtlsRevokedFingerprints.map fun f => toAsciiLowercase (trim f)).filter
          (· ≠ "") } : MtlsPolicy) = p)
  cases peer with
  | none => simp [MtlsPolicy.denial, hreq]
  | some _ =>
    simp only [MtlsPolicy.denial, Option.some.injEq, exists_eq_left', SslConfig.otherOrganization,
      SslConfig.revokes]
    split_ifs with hr ho
    · simp only [List.contains_iff_mem, List.mem_filter, List.mem_map] at hr
      obtain ⟨⟨f, hf, he⟩, hne⟩ := hr
      simp only [false_iff, not_and, not_not]
      intro hno
      exact absurd ⟨f, hf, by simpa [he] using hne, he⟩ hno
    · simp [ho]
    · simp only [true_iff]
      refine ⟨?_, ho⟩
      rintro ⟨f, hf, hne, he⟩
      apply hr
      simp only [List.contains_iff_mem, List.mem_filter, List.mem_map]
      exact ⟨⟨f, hf, he⟩, by simpa [← he] using hne⟩

/-! ## Getting past the layer -/

section

variable (pki : Pki) (cached : CachedRules) (e : Edge) (site : ResolvedSite) (q : Incoming)

/-- The connection stands and the mTLS layer lets the request on. -/
def PastMtls (v : Vars) : Prop :=
  pki.handshake (cachedRulesToPingapConfig cached) q.peer = true ∧
    (mtlsLayer e site q v).answer = none

/-- The client presents a certificate that chains to the site's own CA. -/
def OwnCert (ssl : SslConfig) : Prop :=
  ∃ cert, q.peer = some cert ∧ pki.trusts ssl.mtlsClientCa cert = true

/-- Nobody gets past with a foreign certificate, or with none: the certificate is of the site's
own CA, or of no CA of the listener, or the layer is in force and the site has revoked the
certificate or pins an organization it does not carry. -/
def PinKept (ssl : SslConfig) : Prop :=
  match q.peer with
  | none => bypasses e site q .mtls = false
  | some cert =>
    pki.trusts ssl.mtlsClientCa cert = true ∨
      pki.handshake (cachedRulesToPingapConfig cached) (some cert) = false ∨
      (bypasses e site q .mtls = false ∧ (ssl.revokes cert ∨ ssl.otherOrganization cert))

theorem mtlsLayer_passes_iff (v : Vars) :
    (mtlsLayer e site q v).answer = none ↔ mtlsDenial e site q = none := by
  unfold mtlsLayer
  split <;> simp_all [answer, next]

variable {site}

/-- The layer lets a request on when a path exception skips it, or when the certificate is there,
not revoked and of the pinned organization. -/
theorem mtlsDenial_none_iff {s : SiteContext} {ssl : SslConfig} (hctx : site.context = some s)
    (hmtls : s.mtls = MtlsPolicy.build (some ssl)) (hon : ssl.mtlsEnabled = true)
    (hreq : ssl.mtlsRequiresCert = true) :
    mtlsDenial e site q = none ↔
      bypasses e site q .mtls = true ∨
        ∃ cert, q.peer = some cert ∧ ¬ ssl.revokes cert ∧ ¬ ssl.otherOrganization cert := by
  obtain ⟨p, hp⟩ : ∃ p, MtlsPolicy.build (some ssl) = some p := by
    simp [MtlsPolicy.build, Option.filter, hon]
  have hdenial := build_denial_none_iff hp hreq q.peer
  unfold mtlsDenial
  split_ifs with hb
  · simp [hb]
  · simp [hb, hctx, hmtls, hp, hdenial]

variable (site)

/-- **When a client certificate is pinned to its site.** A request to a site that requires a client
certificate gets past the mTLS layer only with a certificate of the site's own CA, exactly when
`PinKept` holds: the issuer is not part of what the site checks. -/
theorem client_cert_pinned_iff (v : Vars) {s : SiteContext} {ssl : SslConfig}
    (hctx : site.context = some s) (hmtls : s.mtls = MtlsPolicy.build (some ssl))
    (hon : ssl.mtlsEnabled = true) (hreq : ssl.mtlsRequiresCert = true) :
    (PastMtls pki cached e site q v → OwnCert pki q ssl) ↔ PinKept pki cached e site q ssl := by
  rw [PastMtls, mtlsLayer_passes_iff, mtlsDenial_none_iff e q hctx hmtls hon hreq, OwnCert, PinKept]
  cases hpeer : q.peer with
  | none => simp [Pki.handshake]
  | some cert =>
    simp only [Option.some.injEq, exists_eq_left']
    cases hown : pki.trusts ssl.mtlsClientCa cert with
    | true => simp
    | false =>
      cases hshake : pki.handshake (cachedRulesToPingapConfig cached) (some cert) with
      | false => simp
      | true =>
        cases hb : bypasses e site q .mtls with
        | true => simp
        | false =>
          simp only [true_and, Bool.false_eq_true, false_or, reduceCtorEq, imp_false]
          tauto

end

/-! ## Two sites on one listener -/

def caPem (name : String) : String :=
  "-----BEGIN CERTIFICATE-----" ++ name ++ "-----END CERTIFICATE-----"

/-- A certificate chains to the CA whose name is its fingerprint. -/
def namedPki : Pki where
  parses _ := true
  chains anchors cert := anchors.contains (caPem cert.digest)

def mtlsPosture (ca organization : String) : SslConfig where
  mtlsEnabled := true
  mtlsClientCa := ca
  mtlsRevokedFingerprints := []
  mtlsOrganization := organization
  mtlsRequireClientCert := none

def mtlsSite (id domain : String) (ssl : SslConfig) : Site where
  id := id
  domain := domain
  alternateDomains := []
  status := 0
  rules := some ⟨id, none, [], some ssl, [], [], false⟩
  trustProxyHeaders := false
  trustedHeader := ""
  trustLastHop := true
  trustedProxyRanges := []
  downstreamTimeoutSecs := 0

def twoCas (organization : String) : CachedRules :=
  CachedRules.empty.updateFromSiteConfig
    ⟨[mtlsSite "a" "a.example" (mtlsPosture (caPem "ca-a") ""),
      mtlsSite "b" "b.example" (mtlsPosture (caPem "ca-b") organization)]⟩

def siteB (organization : String) : ResolvedSite where
  choice := .base
  siteId := "b"
  context := some { bareContext with
    mtls := MtlsPolicy.build (some (mtlsPosture (caPem "ca-b") organization)) }
  servesLogin := false

/-- A request over a connection with a certificate of the first site's CA. -/
def getWithCertOfA : Incoming :=
  { getWith [] with
    header := ⟨"GET", some "b.example", "/", none, []⟩, peer := some ⟨"ca-a", some "A Inc"⟩ }

theorem certOfA_not_own (organization : String) :
    ¬ OwnCert namedPki getWithCertOfA (mtlsPosture (caPem "ca-b") organization) := by
  rintro ⟨cert, hpeer, htrust⟩
  obtain rfl : (⟨"ca-a", some "A Inc"⟩ : PeerCert) = cert := by simpa [getWithCertOfA] using hpeer
  have hno : namedPki.trusts (caPem "ca-b") ⟨"ca-a", some "A Inc"⟩ = false := by decide +kernel
  exact absurd (hno.symm.trans htrust) (by decide)

/-- A certificate of the other site's CA opens the site, up to the origin. -/
theorem foreign_cert_passes :
    PastMtls namedPki (twoCas "") quietEdge (siteB "") getWithCertOfA (startVars quietState) ∧
      (handleRequest quietEdge (siteB "") getWithCertOfA quietState).1 = .continue_ ∧
      ¬ OwnCert namedPki getWithCertOfA (mtlsPosture (caPem "ca-b") "") :=
  ⟨⟨by decide +kernel, by decide +kernel⟩, by decide +kernel, certOfA_not_own ""⟩

/-- A pinned organization keeps the same certificate out, although the listener takes it. -/
theorem foreign_cert_refused_by_organization :
    namedPki.handshake (cachedRulesToPingapConfig (twoCas "B Inc")) getWithCertOfA.peer = true ∧
      ¬ PastMtls namedPki (twoCas "B Inc") quietEdge (siteB "B Inc") getWithCertOfA
        (startVars quietState) := by
  refine ⟨by decide +kernel, fun hpast => certOfA_not_own "B Inc" ?_⟩
  have hpin : (mtlsPosture (caPem "ca-b") "B Inc").otherOrganization ⟨"ca-a", some "A Inc"⟩ :=
    ⟨by decide +kernel, by decide +kernel⟩
  exact (client_cert_pinned_iff namedPki (twoCas "B Inc") quietEdge (siteB "B Inc") getWithCertOfA
    (startVars quietState) rfl rfl rfl rfl).mpr (.inr (.inr ⟨by decide +kernel, .inr hpin⟩)) hpast

end PingWaf.Routing
