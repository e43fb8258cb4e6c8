import LoadBalancer.Lib.Run
import LoadBalancer.Tls.Certs

/-!
# Reloading certificates

`reload_once` reads the stamps of all files, compares them with the recorded ones, loads and checks
every certificate, swaps the resolver and records the stamps.  Each access to a file has an instant
of its own, in the order of the code, and files are replaced between any two of them.

A recorded stamp was read before the contents that are served (`Holds`).  Stamps do not come back,
so as long as a file has its recorded stamp it has the contents that are served.
-/

namespace LoadBalancer.Tls

open LoadBalancer.Core List

structure FileStamp where
  modified : ℕ
  len : ℕ
  deriving DecidableEq

/-- The files over time.  At each instant a file stays, or is replaced and gets a stamp it never
had. -/
structure History where
  file : ℕ → String → Option (FileStamp × Bytes)
  replaced : ∀ t path, file (t + 1) path = file t path ∨ ∃ stamp bytes,
    file (t + 1) path = some (stamp, bytes) ∧ ∀ u ≤ t, (file u path).map Prod.fst ≠ some stamp

namespace History

variable (H : History)

def stamp (t : ℕ) (path : String) : Option FileStamp := (H.file t path).map Prod.fst

def contents (t : ℕ) (path : String) : Option Bytes := (H.file t path).map Prod.snd

variable {H}

/-- A file that has a stamp again has had it all the time. -/
lemma file_eq {path : String} {σ : FileStamp} {t v u : ℕ} (htv : t ≤ v) (hvu : v ≤ u)
    (ht : H.stamp t path = some σ) (hu : H.stamp u path = some σ) :
    H.file v path = H.file u path := by
  induction u, hvu using Nat.le_induction with
  | base => rfl
  | succ u hvu ih =>
    rcases H.replaced u path with hs | ⟨σ', bytes, hn, hf⟩
    · rw [hs]
      rw [stamp, hs] at hu
      exact ih hu
    · rw [stamp, hn] at hu
      exact absurd (ht.trans hu.symm) (hf t (htv.trans hvu))

end History

abbrev Stamps := Option FileStamp × Option FileStamp

structure ReloadReport where
  applied : Bool
  rejected : Option (String × TlsError)

/-- What the resolver serves, and the stamps that the reloader has recorded. -/
structure Reloader (K : Type) where
  served : List (LoadedCert K)
  stamps : List Stamps

section

variable {K : Type} (W : TlsCrates K) (H : History) (certs : List CertificateConfig)

/-- The stamps of all files, from the access with the number `k` on. -/
def currentStamps (time : ℕ → ℕ) : ℕ → List CertificateConfig → List Stamps
  | _, [] => []
  | k, cfg :: certs => (H.stamp (time k) cfg.certFile, H.stamp (time (k + 1)) cfg.keyFile) ::
    currentStamps time (k + 2) certs

/-- The loop over the certificates; an error is returned with the name of its certificate. -/
def loadAll (time : ℕ → ℕ) : ℕ → List CertificateConfig →
    Except (String × TlsError) (List (LoadedCert K))
  | _, [] => .ok []
  | k, cfg :: certs => do
    let c ← (do
      let certBytes ← read (H.contents (time k)) cfg.certFile
      let keyBytes ← read (H.contents (time (k + 1))) cfg.keyFile
      loadPair W cfg certBytes keyBytes : Except _ _).mapError fun err => (cfg.name, err)
    let loaded ← loadAll time (k + 2) certs
    return c :: loaded

def resize (n : ℕ) (stamps : List Stamps) : List Stamps :=
  (stamps ++ List.replicate n (none, none)).take n

def reloadOnce (time : ℕ → ℕ) (s : Reloader K) : Reloader K × ReloadReport :=
  let stamps := resize certs.length s.stamps
  let current := currentStamps H time 0 certs
  if current = stamps then (⟨s.served, stamps⟩, ⟨false, none⟩)
  else match loadAll W H time (2 * certs.length) certs with
    | .error err => (⟨s.served, stamps⟩, ⟨false, some err⟩)
    | .ok loaded => (⟨loaded, current⟩, ⟨true, none⟩)

/-- One call after another; `time` has the instants of the accesses of this one. -/
def ReloadStep (s : ℕ × Reloader K) (time : ℕ → ℕ) (s' : ℕ × Reloader K) : Prop :=
  Monotone time ∧ s.1 ≤ time 0 ∧ s' = (time (4 * certs.length), (reloadOnce W H certs time s.2).1)

/-- The contents were there at an instant up to `now`, when the stamp, if there is one, had been
read. -/
def Holds (now : ℕ) (path : String) (stamp : Option FileStamp) (bytes : Bytes) : Prop :=
  ∀ σ ∈ stamp, ∃ t u, t ≤ u ∧ u ≤ now ∧ H.stamp t path = some σ ∧ H.contents u path = some bytes

/-- The certificate was loaded after its stamps were read. -/
def LoadedSince (now : ℕ) (cert : CertificateConfig × Stamps) (c : LoadedCert K) : Prop :=
  ∃ certBytes keyBytes, loadPair W cert.1 certBytes keyBytes = .ok c ∧
    Holds H now cert.1.certFile cert.2.1 certBytes ∧ Holds H now cert.1.keyFile cert.2.2 keyBytes

def Backed (now : ℕ) (stamps : List Stamps) (loaded : List (LoadedCert K)) : Prop :=
  List.Forall₂ (LoadedSince W H now) (certs.zip stamps) loaded

variable {W H certs} {time : ℕ → ℕ} {now : ℕ}

lemma resize_of_length {n : ℕ} {stamps : List Stamps} (h : stamps.length = n) :
    resize n stamps = stamps := by
  rw [resize, take_left' h]

lemma length_currentStamps (k : ℕ) : (currentStamps H time k certs).length = certs.length := by
  induction certs generalizing k with
  | nil => rfl
  | cons cfg certs ih => simp [currentStamps, ih]

lemma holds_of_read (ht : Monotone time) {k j : ℕ} (hkj : k ≤ j) (hj : time j ≤ now)
    {path : String} {bytes : Bytes} (hr : read (H.contents (time j)) path = .ok bytes) :
    Holds H now path (H.stamp (time k) path) bytes :=
  fun _ hσ => ⟨time k, time j, ht hkj, hj, hσ, read_eq_ok_iff.mp hr⟩

lemma backed_loadAll (ht : Monotone time) {k j : ℕ} (hkj : k ≤ j)
    (hn : time (j + 2 * certs.length) ≤ now) {loaded : List (LoadedCert K)}
    (h : loadAll W H time j certs = .ok loaded) :
    Backed W H certs now (currentStamps H time k certs) loaded := by
  induction certs generalizing k j loaded with
  | nil =>
    cases h
    exact .nil
  | cons cfg certs ih =>
    rw [length_cons] at hn
    simp only [loadAll, Except.bind_eq_ok_iff, Except.mapError_eq_ok_iff] at h
    obtain ⟨c, ⟨certBytes, hc, keyBytes, hk, hlo⟩, rest, hr, hl⟩ := h
    cases hl
    have hle : ∀ i ≤ j + 2 * (certs.length + 1), time i ≤ now := fun i hi => (ht hi).trans hn
    exact .cons ⟨certBytes, keyBytes, hlo, holds_of_read ht hkj (hle _ (by omega)) hc,
      holds_of_read ht (by omega) (hle _ (by omega)) hk⟩
      (ih (by omega) (hle _ (by omega)) hr)

lemma Holds.mono {now' : ℕ} (hle : now ≤ now') {path : String} {stamp : Option FileStamp}
    {bytes : Bytes} (h : Holds H now path stamp bytes) : Holds H now' path stamp bytes :=
  fun σ hσ => (h σ hσ).imp fun _ => Exists.imp fun _ h => ⟨h.1, h.2.1.trans hle, h.2.2⟩

lemma Backed.keysMatch {stamps : List Stamps} {loaded : List (LoadedCert K)}
    (h : Backed W H certs now stamps loaded) :
    ∀ c ∈ loaded, W.keysMatch c.chain c.key = .ok () := by
  unfold Backed at h
  generalize certs.zip stamps = certs at h
  induction h with
  | nil => simp
  | cons h _ ih =>
    obtain ⟨_, _, hl, -⟩ := h
    exact forall_mem_cons.mpr ⟨keysMatch_of_loadPair hl, ih⟩

/-- Contents that were there with the stamp that the file has now are there now. -/
lemma Holds.eq_contents {path : String} {bytes bytes' : Bytes} {v : ℕ} (hv : now ≤ v)
    (h : Holds H now path (H.stamp v path) bytes) (hn : H.contents v path = some bytes') :
    bytes = bytes' := by
  obtain ⟨⟨σ, _⟩, hf, rfl⟩ := Option.map_eq_some_iff.mp hn
  have hσ : H.stamp v path = some σ := by rw [History.stamp, hf, Option.map_some]
  obtain ⟨t, u, htu, hu, ht, hb⟩ := h σ hσ
  rw [History.contents, History.file_eq htu (hu.trans hv) ht hσ, hf] at hb
  exact (Option.some.inj hb).symm

section

variable {v : ℕ} (hquiet : ∀ k, H.file (time k) = H.file v) {served : List (LoadedCert K)}
  (hserved : List.Forall₂ (fun cfg c => loadCertificate W (H.contents v) cfg = .ok c) certs served)

include hquiet hserved

lemma loadAll_eq_ok (k : ℕ) : loadAll W H time k certs = .ok served := by
  induction hserved generalizing k with
  | nil => rfl
  | cons hl _ ih =>
    have hc : ∀ k, H.contents (time k) = H.contents v := fun k => by
      funext path
      rw [History.contents, History.contents, hquiet]
    simp only [loadCertificate] at hl
    simp only [loadAll, hc, hl, ih]
    rfl

/-- As long as the stamps are the recorded ones, the contents are those that are served. -/
lemma Backed.eq_served (hv : now ≤ v) (k : ℕ) {loaded : List (LoadedCert K)}
    (h : Backed W H certs now (currentStamps H time k certs) loaded) : loaded = served := by
  have hs : ∀ k, H.stamp (time k) = H.stamp v := fun k => by
    funext path
    rw [History.stamp, History.stamp, hquiet]
  induction hserved generalizing k loaded with
  | nil => exact forall₂_nil_left_iff.mp h
  | cons hl _ ih =>
    obtain ⟨certBytes, keyBytes, hc, hk, hp⟩ := loadCertificate_eq_ok_iff.mp hl
    obtain ⟨c, rest, ⟨certBytes', keyBytes', hp', hc', hk'⟩, hr, rfl⟩ :=
      forall₂_cons_left_iff.mp h
    simp only [hs] at hc' hk'
    rw [hc'.eq_contents hv hc, hk'.eq_contents hv hk] at hp'
    rw [Except.ok.inj (hp'.symm.trans hp), ih _ hr]

end

/-- What is served was loaded after the recorded stamps were read. -/
structure Sound (W : TlsCrates K) (H : History) (certs : List CertificateConfig)
    (s : ℕ × Reloader K) : Prop where
  length_le : s.2.stamps.length ≤ certs.length
  backed : Backed W H certs s.1 (resize certs.length s.2.stamps) s.2.served

lemma Sound.step {s s' : ℕ × Reloader K} (h : Sound W H certs s)
    (hs : ReloadStep W H certs s time s') : Sound W H certs s' := by
  obtain ⟨ht, hle, rfl⟩ := hs
  have hl : (resize certs.length s.2.stamps).length = certs.length := by simp [resize]
  have hk : Sound W H certs
      (time (4 * certs.length), ⟨s.2.served, resize certs.length s.2.stamps⟩) := by
    refine ⟨hl.le, ?_⟩
    rw [resize_of_length hl]
    have hle' := hle.trans (ht (Nat.zero_le (4 * certs.length)))
    exact h.backed.imp fun _ _ ⟨_, _, hlo, hc, hke⟩ =>
      ⟨_, _, hlo, hc.mono hle', hke.mono hle'⟩
  rw [reloadOnce]
  split
  · exact hk
  · split
    next => exact hk
    next loaded hlo =>
      refine ⟨(length_currentStamps 0).le, ?_⟩
      rw [resize_of_length (length_currentStamps 0)]
      exact backed_loadAll ht (Nat.zero_le _) (ht (by omega)) hlo

lemma sound_start {served : List (LoadedCert K)} (hserved : List.Forall₂ (fun cfg c =>
      ∃ certBytes keyBytes, loadPair W cfg certBytes keyBytes = .ok c) certs served) :
    Sound W H certs (0, ⟨served, []⟩) := by
  refine ⟨Nat.zero_le _, ?_⟩
  rw [resize, nil_append, take_of_length_le (by simp)]
  induction hserved with
  | nil => exact .nil
  | cons hl _ ih =>
    obtain ⟨certBytes, keyBytes, hl⟩ := hl
    exact .cons ⟨certBytes, keyBytes, hl, by simp [Holds], by simp [Holds]⟩ ih

lemma getD_resize {n : ℕ} {stamps : List Stamps} (h : stamps.length ≤ n) (j : ℕ) :
    (resize n stamps).getD j (none, none) = stamps.getD j (none, none) := by
  simp only [resize, getD_eq_getElem?_getD, List.getElem?_take, List.getElem?_append,
    List.getElem?_replicate]
  grind

/-- The reloader of a listener, from its start on.  Every certificate that it serves has its key.  A
rejected load changes nothing.  A call during which the files no longer change, all of them valid,
leaves exactly their contents served. -/
theorem reload_never_bad_nor_stuck {served₀ : List (LoadedCert K)} {calls : List (ℕ → ℕ)} {t : ℕ}
    {s : Reloader K} (hnew : List.Forall₂ (fun cfg c => ∃ certBytes keyBytes,
      loadPair W cfg certBytes keyBytes = .ok c) certs served₀)
    (hrun : Run (ReloadStep W H certs) (0, ⟨served₀, []⟩) calls (t, s)) :
    (∀ c ∈ s.served, W.keysMatch c.chain c.key = .ok ()) ∧
      (∀ time, (reloadOnce W H certs time s).2.rejected ≠ none →
        (reloadOnce W H certs time s).1.served = s.served ∧ ∀ j,
          (reloadOnce W H certs time s).1.stamps.getD j (none, none) =
            s.stamps.getD j (none, none)) ∧
      ∀ time served, Monotone time → t ≤ time 0 → (∀ k, H.file (time k) = H.file (time 0)) →
        List.Forall₂ (fun cfg c => loadCertificate W (H.contents (time 0)) cfg = .ok c)
          certs served → (reloadOnce W H certs time s).1.served = served := by
  have hs : Sound W H certs (t, s) :=
    hrun.invariant (fun _ _ _ hst h => h.step hst) (sound_start hnew)
  refine ⟨hs.backed.keysMatch, fun time hr => ?_,
    fun time served _ ht hquiet hserved => ?_⟩
  · rw [reloadOnce] at hr ⊢
    split at hr
    · exact absurd rfl hr
    · rename_i hc
      rw [if_neg hc]
      split at hr
      next => exact ⟨rfl, getD_resize hs.length_le⟩
      next => exact absurd rfl hr
  · rw [reloadOnce]
    split
    next hsa =>
      have hb := hs.backed
      rw [← hsa] at hb
      exact hb.eq_served hquiet hserved ht 0
    next => rw [loadAll_eq_ok hquiet hserved]

end

/-- The key is replaced at instant 1 and the certificate at instant 3. -/
def keyThenCert : History where
  file t path :=
    some (if t < if path = "key.pem" then 1 else 3 then (⟨0, 1⟩, [1]) else (⟨1, 1⟩, [2]))
  replaced t path := by
    generalize (if path = "key.pem" then 1 else 3) = r
    by_cases hr : t + 1 = r
    · refine .inr ⟨⟨1, 1⟩, [2], by simp [hr], fun u hu => ?_⟩
      simp [show u < r by omega]
    · exact .inl (by simp [show t + 1 < r ↔ t < r by omega])

def pairCert : CertificateConfig := ⟨"site", "cert.pem", "key.pem", [], none⟩

/-- The first call reads the old certificate and the new key and is rejected; the second one, after
the replacements, serves the new pair. -/
theorem reload_never_bad_nor_stuck_keyThenCert : ∃ s,
    Run (ReloadStep sameText keyThenCert [pairCert])
      (0, ⟨[⟨"site", [], [[1]], [1], 0⟩], []⟩) [id] (4, s) ∧
    (reloadOnce sameText keyThenCert [pairCert] id ⟨[⟨"site", [], [[1]], [1], 0⟩], []⟩).2.rejected ≠
      none ∧
    (reloadOnce sameText keyThenCert [pairCert] (· + 4) s).1.served =
      [⟨"site", [], [[2]], [2], 0⟩] := by
  have hr : Run (ReloadStep sameText keyThenCert [pairCert])
      (0, ⟨[⟨"site", [], [[1]], [1], 0⟩], []⟩) ([] ++ [id]) _ :=
    .next .start ⟨monotone_id, le_rfl, rfl⟩
  have ho := reload_never_bad_nor_stuck (.cons ⟨[1], [1], rfl⟩ .nil) hr
  exact ⟨_, hr, by decide, ho.2.2 (· + 4) _ (fun a b hab => by simpa using hab) le_rfl
    (fun k => by funext path; simp only [keyThenCert]; grind) (.cons rfl .nil)⟩

end LoadBalancer.Tls
