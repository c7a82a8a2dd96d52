import PingWaf.Lib.Delimited
import PingWaf.Routing.Sync
import PingWaf.Plugin.Handle

/-!
# Client certificates: the listener and the site

The TLS listener is shared by every site, so it verifies a client certificate against the union of
all client CAs (`apply_client_ca` over the generated bundle). What is left to the site is
`MtlsPolicy`, built from its own TLS posture.
-/

namespace PingWaf.Plugin

open Text Routing

/-- None when the site does not use mTLS. Fingerprints are hexadecimal, so lower-casing them is the
ASCII one. -/
def MtlsPolicy.build (ssl : Option SslConfig) : Option MtlsPolicy :=
  (ssl.filter (·.mtlsEnabled)).map fun ssl =>
    { requireClientCert := ssl.mtlsRequiresCert
      organization := trim ssl.mtlsOrganization
      revoked := (ssl.mtlsRevokedFingerprints.map fun f => toAsciiLowercase (trim f)).filter
        (· ≠ "") }

end PingWaf.Plugin

namespace PingWaf.Routing

open Text Plugin

def pemBegin : List Char := "-----BEGIN CERTIFICATE-----".toList

def pemEnd : List Char := "-----END CERTIFICATE-----".toList

def pemBlocks (pem : String) : List String :=
  (blocks pemBegin pemEnd pem.toList).map String.ofList

structure Pki where
  /-- The block holds a certificate. -/
  parses : String → Bool
  /-- The certificate has a valid chain to one of these anchors. -/
  chains : List String → PeerCert → Bool

def Pki.anchors (pki : Pki) (pem : String) : List String := (pemBlocks pem).filter pki.parses

/-- Verification against a bundle. Without a single certificate in it the listener is not built. -/
def Pki.trusts (pki : Pki) (pem : String) (cert : PeerCert) : Bool :=
  !(pki.anchors pem).isEmpty && pki.chains (pki.anchors pem) cert

/-- A client without a certificate completes the handshake; a certificate has to verify. A
listener without client CAs asks for none. -/
def Pki.handshake (pki : Pki) (conf : PingapConfig) : Option PeerCert → Bool
  | none => true
  | some cert => conf.clientCaPem.any fun pem => trim pem ≠ "" && pki.trusts pem cert

end PingWaf.Routing
