import LoadBalancer.Core.ListenerConfig
import LoadBalancer.Lib.Fallible

/-!
# Loading a certificate

`load_certificate` reads the file of the chain and the file of the key, one after the other, and
then checks what it read.  The crates that parse PEM texts, certificates and keys are parameters.
-/

namespace LoadBalancer.Tls

open LoadBalancer.Core

abbrev Bytes := List UInt8

inductive TlsError
  | io (path : String)
  | pem (text : String)
  | keyMismatch (text : String)
  | noKey (path : String)
  | expiry (text : String)

/-- The parsers and the check of `rustls` and `x509-parser`; `K` is the type of signing keys. -/
structure TlsCrates (K : Type) where
  certs : Bytes → Except String (List Bytes)
  privateKey : Bytes → Except String (Option Bytes)
  anySupportedType : Bytes → Except String K
  notAfter : Bytes → Except String ℤ
  keysMatch : List Bytes → K → Except String Unit

structure LoadedCert (K : Type) where
  name : String
  hostnames : List String
  chain : List Bytes
  key : K
  notAfterUnix : ℤ

variable {K : Type} (W : TlsCrates K)

/-- `load_certificate`, with what was read from the two files. -/
def loadPair (cfg : CertificateConfig) (certBytes keyBytes : Bytes) :
    Except TlsError (LoadedCert K) := do
  let chain ← (W.certs certBytes).mapError fun e => .pem (cfg.certFile ++ ": " ++ e)
  let leaf ← chain.head?.elim (.error (.pem (cfg.certFile ++ ": no certificates found"))) .ok
  let found ← (W.privateKey keyBytes).mapError fun e => .pem (cfg.keyFile ++ ": " ++ e)
  let der ← found.elim (.error (.noKey cfg.keyFile)) .ok
  let key ← (W.anySupportedType der).mapError fun e => .pem (cfg.keyFile ++ ": " ++ e)
  let notAfterUnix ← (W.notAfter leaf).mapError .expiry
  (W.keysMatch chain key).mapError fun e =>
    .keyMismatch ("certificate '" ++ cfg.name ++ "': " ++ e)
  return ⟨cfg.name, cfg.hostnames.map fun h => h.map Char.toLower, chain, key, notAfterUnix⟩

def read (files : String → Option Bytes) (path : String) : Except TlsError Bytes :=
  (files path).elim (.error (.io path)) .ok

def loadCertificate (files : String → Option Bytes) (cfg : CertificateConfig) :
    Except TlsError (LoadedCert K) := do
  let certBytes ← read files cfg.certFile
  let keyBytes ← read files cfg.keyFile
  loadPair W cfg certBytes keyBytes

variable {W} {cfg : CertificateConfig} {certBytes keyBytes : Bytes} {c : LoadedCert K}

lemma keysMatch_of_loadPair (h : loadPair W cfg certBytes keyBytes = .ok c) :
    W.keysMatch c.chain c.key = .ok () := by
  simp only [loadPair, Except.bind_eq_ok_iff, Except.mapError_eq_ok_iff] at h
  obtain ⟨chain, -, leaf, -, found, -, der, -, key, -, notAfterUnix, -, ⟨⟩, hm, hc⟩ := h
  cases hc
  exact hm

lemma read_eq_ok_iff {files : String → Option Bytes} {path : String} {bytes : Bytes} :
    read files path = .ok bytes ↔ files path = some bytes := by
  rw [read]
  cases files path <;> simp

lemma loadCertificate_eq_ok_iff {files : String → Option Bytes} :
    loadCertificate W files cfg = .ok c ↔ ∃ certBytes keyBytes,
      files cfg.certFile = some certBytes ∧ files cfg.keyFile = some keyBytes ∧
        loadPair W cfg certBytes keyBytes = .ok c := by
  simp only [loadCertificate, Except.bind_eq_ok_iff, read_eq_ok_iff, exists_and_left]

def sameText : TlsCrates Bytes where
  certs bytes := .ok [bytes]
  privateKey bytes := .ok (some bytes)
  anySupportedType := .ok
  notAfter _ := .ok 0
  keysMatch chain key := if chain = [key] then .ok () else .error "mismatch"

end LoadBalancer.Tls
