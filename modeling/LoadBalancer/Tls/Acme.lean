import LoadBalancer.Tls.Certs
import Mathlib.Logic.Function.Basic

/-!
# ACME certificates on disk

`ensure_bootstrap_certificate` and `renew_once` write the key file and then the certificate file,
each through `write_atomic`: the contents go to a temporary file, which is then renamed.  A crash
leaves the files as a number of renames have made them, and so does a write that fails.  The
temporary file, which nothing reads, is not modelled.

On the next start `build_tls_acceptor` first repairs certificates of which a file is missing and
then loads all of them, so that a certificate with both files has to match its key.  The pair that
`rcgen` generates, and the pair and the credentials that the certificate authority has returned,
are parameters.
-/

namespace LoadBalancer.Tls

open LoadBalancer.Core Function List

abbrev Disk := String → Option Bytes

def writeAtomic (disk : Disk) (file : String × Bytes) : Disk := update disk file.1 (some file.2)

def tlsFiles (cfg : CertificateConfig) : List String := [cfg.certFile, cfg.keyFile]

/-- A pair of a certificate and its key, in the order in which the files are written. -/
def pairFiles (cfg : CertificateConfig) (pair : Bytes × Bytes) : List (String × Bytes) :=
  [(cfg.keyFile, pair.2), (cfg.certFile, pair.1)]

/-- What `ensure_bootstrap_certificate` writes. -/
def ensureBootstrapCertificate (generated : Bytes × Bytes) (disk : Disk)
    (cfg : CertificateConfig) : List (String × Bytes) :=
  if (disk cfg.certFile).isSome && (disk cfg.keyFile).isSome then []
  else pairFiles cfg generated

/-- What `renew_once` writes; the credentials are those of a new account. -/
def renewOnceFiles (acme : AcmeCertConfig) (credentials : Option Bytes) (obtained : Bytes × Bytes)
    (cfg : CertificateConfig) : List (String × Bytes) :=
  (credentials.map (acme.accountKeyFile, ·)).toList ++ pairFiles cfg obtained

/-- The disk after the first `n` renames of a list of writes. -/
def crash (disk : Disk) (files : List (String × Bytes)) (n : ℕ) : Disk :=
  (files.take n).foldl writeAtomic disk

section

variable {K : Type} (W : TlsCrates K) (generated : CertificateConfig → Bytes × Bytes)

def bootstrapCertificate (disk : Disk) (cfg : CertificateConfig) : Disk :=
  if cfg.acme.isSome then
    (ensureBootstrapCertificate (generated cfg) disk cfg).foldl writeAtomic disk
  else disk

def buildTlsAcceptor (disk : Disk) (certs : List CertificateConfig) :
    Except TlsError (List (LoadedCert K)) :=
  certs.mapM (loadCertificate W (certs.foldl (bootstrapCertificate generated) disk))

/-- The files of the listener's certificates and of their accounts are different files. -/
structure Separate (certs : List CertificateConfig) : Prop where
  nodup : (certs.flatMap tlsFiles).Nodup
  account : ∀ cfg ∈ certs, ∀ acme ∈ cfg.acme, acme.accountKeyFile ∉ certs.flatMap tlsFiles

/-- What a certificate needs at the start: both files, that match, or a file that is missing and
will be repaired. -/
def Starts (disk : Disk) (cfg : CertificateConfig) : Prop :=
  (∃ c, loadCertificate W disk cfg = .ok c) ∨
    cfg.acme.isSome ∧ (disk cfg.certFile = none ∨ disk cfg.keyFile = none)

/-- What the generated pairs are for: every one of them loads. -/
def Usable (certs : List CertificateConfig) : Prop :=
  ∀ cfg ∈ certs, ∃ c, loadPair W cfg (generated cfg).1 (generated cfg).2 = .ok c

/-- How far the files of a pair are written: not at all, the key only, or both. -/
def Written (cfg : CertificateConfig) (pair : Bytes × Bytes) (disk disk' : Disk) : Prop :=
  disk' cfg.certFile = disk cfg.certFile ∧ disk' cfg.keyFile = disk cfg.keyFile ∨
    disk' cfg.certFile = disk cfg.certFile ∧ disk' cfg.keyFile = some pair.2 ∨
    disk' cfg.certFile = some pair.1 ∧ disk' cfg.keyFile = some pair.2

variable {W generated} {certs : List CertificateConfig} {disk disk' : Disk}
  {cfg : CertificateConfig} {files : List (String × Bytes)} {path : String} {pair : Bytes × Bytes}

lemma foldl_writeAtomic_of_ne (hp : ∀ file ∈ files, file.1 ≠ path) :
    files.foldl writeAtomic disk path = disk path := by
  refine List.foldlRecOn (motive := fun disk' : Disk => disk' path = disk path) _ _ rfl
    fun disk' hd' file hf => ?_
  rw [writeAtomic, update_of_ne (hp file hf).symm, hd']

lemma mem_tlsFiles {file : String × Bytes} (h : file ∈ pairFiles cfg pair) :
    file.1 ∈ tlsFiles cfg := by
  grind [pairFiles, tlsFiles]

lemma mem_pairFiles {file : String × Bytes} (h : file ∈ ensureBootstrapCertificate pair disk cfg) :
    file ∈ pairFiles cfg pair := by
  rw [ensureBootstrapCertificate] at h
  split at h
  · cases h
  · exact h

lemma bootstrapCertificate_of_ne (hp : path ∉ tlsFiles cfg) :
    bootstrapCertificate generated disk cfg path = disk path := by
  rw [bootstrapCertificate]
  split
  · exact foldl_writeAtomic_of_ne fun _ hf heq =>
      hp (heq ▸ mem_tlsFiles (mem_pairFiles hf))
  · rfl

lemma loadCertificate_congr (h : ∀ path ∈ tlsFiles cfg, disk' path = disk path) :
    loadCertificate W disk' cfg = loadCertificate W disk cfg := by
  simp only [tlsFiles, forall_mem_cons] at h
  simp only [loadCertificate, read, h]

lemma starts_congr (h : ∀ path ∈ tlsFiles cfg, disk' path = disk path) :
    Starts W disk' cfg ↔ Starts W disk cfg := by
  rw [Starts, Starts, loadCertificate_congr h]
  simp only [tlsFiles, forall_mem_cons] at h
  simp only [h]

lemma exists_load_iff_starts (hn : (tlsFiles cfg).Nodup)
    (hg : ∃ c, loadPair W cfg (generated cfg).1 (generated cfg).2 = .ok c) :
    (∃ c, loadCertificate W (bootstrapCertificate generated disk cfg) cfg = .ok c) ↔
      Starts W disk cfg := by
  rw [Starts, bootstrapCertificate]
  by_cases hacme : cfg.acme.isSome = true
  · by_cases hb : ((disk cfg.certFile).isSome && (disk cfg.keyFile).isSome) = true
    · rw [if_pos hacme, ensureBootstrapCertificate, if_pos hb]
      simp only [Bool.and_eq_true, Option.isSome_iff_ne_none] at hb
      simp [hb]
    · obtain ⟨c, hc⟩ := hg
      have hne : cfg.certFile ≠ cfg.keyFile := by simpa [tlsFiles] using hn
      rw [if_pos hacme, ensureBootstrapCertificate, if_neg hb]
      refine iff_of_true ⟨c, loadCertificate_eq_ok_iff.mpr ⟨_, _, ?_, ?_, hc⟩⟩ (.inr ⟨hacme, ?_⟩)
      · simp [pairFiles, writeAtomic]
      · simp [pairFiles, writeAtomic, hne.symm]
      · simpa only [Bool.and_eq_true, not_and_or, Option.not_isSome_iff_eq_none] using hb
  · simp [hacme]

lemma exists_buildTlsAcceptor_iff (hn : (certs.flatMap tlsFiles).Nodup)
    (hg : Usable W generated certs) :
    (∃ served, buildTlsAcceptor W generated disk certs = .ok served) ↔
      ∀ cfg ∈ certs, Starts W disk cfg := by
  have hl : (∃ served, buildTlsAcceptor W generated disk certs = .ok served) ↔
      ∀ cfg ∈ certs, ∃ c, loadCertificate W
        (certs.foldl (bootstrapCertificate generated) disk) cfg = .ok c :=
    ⟨fun ⟨_, h⟩ cfg hcfg => ((Except.mem_of_mapM_eq_ok h).1 cfg hcfg).imp fun _ => And.right,
      Except.exists_mapM_eq_ok⟩
  rw [hl]
  clear hl
  induction certs generalizing disk with
  | nil => simp
  | cons cfg certs ih =>
    rw [flatMap_cons, nodup_append'] at hn
    obtain ⟨hn₀, hn, ha⟩ := hn
    obtain ⟨hg₀, hg⟩ := forall_mem_cons.mp hg
    have hr : ∀ disk, ∀ path ∈ tlsFiles cfg,
        certs.foldl (bootstrapCertificate generated) disk path = disk path := by
      intro disk path hp
      refine List.foldlRecOn (motive := fun disk' : Disk => disk' path = disk path) _ _ rfl
        fun disk' hd' cfg' hc' => ?_
      rw [bootstrapCertificate_of_ne, hd']
      exact fun hp' => ha hp (mem_flatMap_of_mem hc' hp')
    rw [forall_mem_cons, forall_mem_cons, foldl_cons,
      loadCertificate_congr (hr _), exists_load_iff_starts hn₀ hg₀]
    refine and_congr_right fun _ => (ih hn hg).trans ?_
    refine forall₂_congr fun cfg' hc' => starts_congr fun path hp => ?_
    exact bootstrapCertificate_of_ne fun hp' =>
      ha hp' (mem_flatMap_of_mem hc' hp)

lemma written_crash (hn : (tlsFiles cfg).Nodup) (n : ℕ) :
    Written cfg pair disk (crash disk (pairFiles cfg pair) n) := by
  have hne : cfg.certFile ≠ cfg.keyFile := by simpa [tlsFiles] using hn
  rcases n with - | - | n <;> simp [Written, crash, pairFiles, writeAtomic, hne, hne.symm]

variable {acme : AcmeCertConfig} {credentials : Option Bytes}

section

variable (hsep : Separate certs) (hcfg : cfg ∈ certs) (hacme : cfg.acme = some acme)
  (hfiles : files ∈ [ensureBootstrapCertificate pair disk cfg,
    renewOnceFiles acme credentials pair cfg]) (n : ℕ)

include hsep hcfg hacme hfiles

lemma crash_of_ne {cfg' : CertificateConfig} (hc' : cfg' ∈ certs) (hne : cfg ≠ cfg')
    (hp : path ∈ tlsFiles cfg') : crash disk files n path = disk path := by
  have : Std.Symm (List.Disjoint on tlsFiles) := ⟨fun _ _ => List.Disjoint.symm⟩
  have ho : path ∉ tlsFiles cfg := fun hp' =>
    (nodup_flatMap.mp hsep.nodup).2.forall hcfg hc' hne hp' hp
  refine foldl_writeAtomic_of_ne fun file hf heq => ho (heq ▸ ?_)
  simp only [mem_cons, not_mem_nil, or_false] at hfiles
  rcases hfiles with rfl | rfl
  · exact mem_tlsFiles (mem_pairFiles (mem_of_mem_take hf))
  · rcases mem_append.mp (mem_of_mem_take hf) with hf | hf
    · obtain ⟨_, -, rfl⟩ : ∃ c ∈ credentials, (acme.accountKeyFile, c) = file := by
        simpa using hf
      subst heq
      exact absurd (mem_flatMap_of_mem hc' hp) (hsep.account cfg hcfg acme hacme)
    · exact mem_tlsFiles hf

lemma written_of_crash : Written cfg pair disk (crash disk files n) := by
  have hn := (nodup_flatMap.mp hsep.nodup).1 cfg hcfg
  simp only [mem_cons, not_mem_nil, or_false] at hfiles
  rcases hfiles with rfl | rfl
  · rw [ensureBootstrapCertificate]
    split
    · exact .inl (by simp [crash])
    · exact written_crash hn n
  · rcases credentials, n with ⟨- | credentials, - | n⟩
    · exact written_crash hn 0
    · exact written_crash hn (n + 1)
    · exact .inl ⟨rfl, rfl⟩
    · have hw : Written cfg pair (writeAtomic disk (acme.accountKeyFile, credentials)) _ :=
        written_crash hn n
      have ha : ∀ path ∈ tlsFiles cfg, path ≠ acme.accountKeyFile := fun path hp heq =>
        hsep.account cfg hcfg acme hacme (heq ▸ mem_flatMap_of_mem hcfg hp)
      simp only [tlsFiles, forall_mem_cons] at ha
      rwa [Written, writeAtomic, update_of_ne ha.1, update_of_ne ha.2.1] at hw

end

/-- A listener that could start before a crash can start after it, unless the crash came after the
rename of the new key and before the rename of the new certificate, the old certificate is there,
and it does not load with the new key. -/
theorem restart_after_crash_iff (hsep : Separate certs) (hgen : Usable W generated certs)
    (hold : ∃ served, buildTlsAcceptor W generated disk certs = .ok served)
    (hcfg : cfg ∈ certs) (hacme : cfg.acme = some acme)
    (hpair : ∃ c, loadPair W cfg pair.1 pair.2 = .ok c)
    (hfiles : files ∈ [ensureBootstrapCertificate pair disk cfg,
      renewOnceFiles acme credentials pair cfg]) (n : ℕ) :
    (∃ served, buildTlsAcceptor W generated (crash disk files n) certs = .ok served) ↔
      ¬∃ old, disk cfg.certFile = some old ∧ crash disk files n cfg.certFile = some old ∧
        crash disk files n cfg.keyFile = some pair.2 ∧ ∀ c, loadPair W cfg old pair.2 ≠ .ok c := by
  rw [exists_buildTlsAcceptor_iff hsep.nodup hgen] at hold ⊢
  constructor
  · rintro hs ⟨old, -, hc, hk, hb⟩
    rcases hs cfg hcfg with ⟨c, hl⟩ | ⟨-, hn⟩
    · obtain ⟨certBytes, keyBytes, hc', hk', hl⟩ := loadCertificate_eq_ok_iff.mp hl
      rw [hc, Option.some_inj] at hc'
      rw [hk, Option.some_inj] at hk'
      exact hb c (by rw [hc', hk', hl])
    · simp [hc, hk] at hn
  · intro hf cfg' hcf'
    rcases ne_or_eq cfg cfg' with hne | rfl
    · exact (starts_congr fun _ => crash_of_ne hsep hcfg hacme hfiles n hcf' hne).mpr
        (hold cfg' hcf')
    rcases written_of_crash hsep hcfg hacme hfiles n with h | ⟨hc, hk⟩ | ⟨hc, hk⟩
    · exact (starts_congr (by simpa [tlsFiles] using h)).mpr (hold cfg hcfg)
    · cases hd : disk cfg.certFile with
      | none => exact .inr ⟨by rw [hacme]; rfl, .inl (hc.trans hd)⟩
      | some old =>
        by_contra hs
        refine hf ⟨old, hd, hc.trans hd, hk, fun c hl => hs (.inl ⟨c, ?_⟩)⟩
        exact loadCertificate_eq_ok_iff.mpr ⟨old, pair.2, hc.trans hd, hk, hl⟩
    · obtain ⟨c, hl⟩ := hpair
      exact .inl ⟨c, loadCertificate_eq_ok_iff.mpr ⟨_, _, hc, hk, hl⟩⟩

end

def siteAcme : AcmeCertConfig :=
  ⟨"https://ca.example", "ops@example.com", "account.json", 30, 43200, none, none, none⟩

def acmeCert : CertificateConfig :=
  ⟨"site", "cert.pem", "key.pem", ["example.com"], some siteAcme⟩

def pairOnDisk : Disk := fun path => if path ∈ ["cert.pem", "key.pem"] then some [1] else none

/-- What a renewal writes that obtains another pair. -/
def newPair : List (String × Bytes) := renewOnceFiles siteAcme none ([2], [2]) acmeCert

/-- A renewal has stored the credentials of a new account and crashes before the rename of the key:
the old pair is served. -/
theorem restart_after_crash_before_key :
    let files := renewOnceFiles siteAcme (some [9]) ([2], [2]) acmeCert
    crash pairOnDisk files 1 "account.json" = some [9] ∧
    ∃ served, buildTlsAcceptor sameText (fun _ => ([3], [3])) (crash pairOnDisk files 1)
      [acmeCert] = .ok served := by
  refine ⟨by decide, (restart_after_crash_iff ⟨by decide, by simp [acmeCert, siteAcme, tlsFiles]⟩
    (fun _ _ => ⟨_, rfl⟩) ⟨_, rfl⟩ mem_cons_self rfl ⟨_, rfl⟩
    (mem_cons_of_mem _ mem_cons_self) 1).mpr ?_⟩
  rintro ⟨old, -, -, hk, -⟩
  revert hk
  decide

/-- A crash between the renames leaves a key that does not match.  Both files are there, nothing is
repaired, and the listener does not start. -/
theorem no_restart_between_renames :
    (∃ served, buildTlsAcceptor sameText (fun _ => ([3], [3])) pairOnDisk [acmeCert] =
      .ok served) ∧
    buildTlsAcceptor sameText (fun _ => ([3], [3])) (crash pairOnDisk newPair 1) [acmeCert] =
      .error (.keyMismatch "certificate 'site': mismatch") :=
  ⟨⟨_, rfl⟩, rfl⟩

end LoadBalancer.Tls
