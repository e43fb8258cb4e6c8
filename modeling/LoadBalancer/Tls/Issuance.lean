import LoadBalancer.Lib.Fallible
import Mathlib.Data.Nat.Notation
import Mathlib.Tactic.ByContra

/-!
# Issuing certificates

`retry_issuance` makes its attempts in a fixed order: the primary directory twice, the fallback
directory, and then one directory again and again until it gives up.  An attempt is `renew_once`
for the URL of a directory.  It takes the account whose credentials are stored, at whatever
directory that account was created, and creates one at the URL only if it has none that works.

What the certificate authorities, the disk and the clock answer is a list, one entry for each
attempt.  When the list ends, the renewer is still waiting.
-/

namespace LoadBalancer.Tls

open List

inductive AcmeError
  | protocol
  | io
  | serde
  | challengeUnavailable
  | authorizationFailed (status : String)
  | orderNotReady (status : String)
  | gaveUp

/-- What an attempt meets: whether the stored credentials still work, the results of creating an
account, of storing its credentials, of the order and of the two writes, and the time that has
passed since the backoff began. -/
structure Answer where
  usable : Bool
  created : Except AcmeError Unit
  stored : Except AcmeError Unit
  issued : Except AcmeError Unit
  keyWritten : Except AcmeError Unit
  certWritten : Except AcmeError Unit
  elapsed : ℕ

structure AcmeRetryPolicy where
  fallbackDirectoryUrl : Option String
  stagingDirectoryUrl : Option String
  giveUpAfter : ℕ

/-- The directory of the stored account; the orders placed and the certificates installed, each with
the URL of its attempt and the directory of the account. -/
structure Renewer where
  account : Option String
  orders : List (String × String)
  installed : List (String × String)

def accountFor (url : String) (answer : Answer) (s : Renewer) : Except AcmeError String :=
  match s.account.filter fun _ => answer.usable with
  | some directory => .ok directory
  | none => do
    answer.created
    answer.stored
    return url

def renewOnce (url : String) (answer : Answer) (s : Renewer) : Renewer × Except AcmeError Unit :=
  match accountFor url answer s with
  | .error err => (s, .error err)
  | .ok directory =>
    let s := { s with account := some directory, orders := s.orders ++ [(url, directory)] }
    match (do answer.issued; answer.keyWritten; answer.certWritten) with
    | .error err => (s, .error err)
    | .ok () => ({ s with installed := s.installed ++ [(url, directory)] }, .ok ())

/-- The attempts: first one for each of the `urls`, then the backoff loop with `retryUrl`. -/
def attempts (giveUpAfter : ℕ) (retryUrl : String) : List String → List Answer → Renewer →
    Renewer × Option (Except AcmeError Unit)
  | _, [], s => (s, none)
  | url :: urls, answer :: answers, s =>
    let r := renewOnce url answer s
    if r.2.isOk then (r.1, some (.ok ())) else attempts giveUpAfter retryUrl urls answers r.1
  | [], answer :: answers, s =>
    if giveUpAfter ≤ answer.elapsed then (s, some (.error .gaveUp))
    else
      let r := renewOnce retryUrl answer s
      if r.2.isOk then (r.1, some (.ok ())) else attempts giveUpAfter retryUrl [] answers r.1

def retryIssuance (policy : AcmeRetryPolicy) (primary : String) :
    List Answer → Renewer → Renewer × Option (Except AcmeError Unit) :=
  attempts policy.giveUpAfter (policy.stagingDirectoryUrl.getD primary)
    (primary :: primary :: policy.fallbackDirectoryUrl.toList)

/-- The renewer calls `retry_issuance` whenever the certificate needs it. -/
def acmeRenewer (policy : AcmeRetryPolicy) (primary : String) (rounds : List (List Answer))
    (s : Renewer) : Renewer :=
  rounds.foldl (fun s answers => (retryIssuance policy primary answers s).1) s

lemma accountFor_eq_ok {url : String} {answer : Answer} {s : Renewer} {directory : String}
    (h : accountFor url answer s = .ok directory) : directory ∈ s.account ∨ directory = url := by
  rw [accountFor] at h
  split at h
  next hs =>
    cases h
    exact .inl (Option.mem_filter_iff.mp hs).1
  next =>
    simp only [Except.bind_eq_ok_iff] at h
    obtain ⟨-, -, -, -, h⟩ := h
    cases h
    exact .inr rfl

/-- What an attempt does: it gets no account, or it places an order with one, and a success installs
the certificate. -/
lemma renewOnce_cases (url : String) (answer : Answer) (s : Renewer) :
    (∃ err, renewOnce url answer s = (s, .error err)) ∨
    ∃ directory installed result, (directory ∈ s.account ∨ directory = url) ∧
      renewOnce url answer s =
        (⟨some directory, s.orders ++ [(url, directory)], installed⟩, result) ∧
      installed = if result.isOk then s.installed ++ [(url, directory)] else s.installed := by
  rw [renewOnce]
  split
  next err _ => exact .inl ⟨err, rfl⟩
  next directory hd =>
    refine .inr ⟨directory, ?_⟩
    dsimp only
    split
    · exact ⟨_, _, accountFor_eq_ok hd, rfl, rfl⟩
    · exact ⟨_, _, accountFor_eq_ok hd, rfl, rfl⟩

/-- What every attempt for an allowed URL keeps holds after all of them, and a success is that of
such an attempt. -/
lemma attempts_rule {A : String → Prop} {P : Renewer → Prop}
    (hs : ∀ url answer s, A url → P s → P (renewOnce url answer s).1)
    {giveUpAfter : ℕ} {retryUrl : String} (hr : giveUpAfter = 0 ∨ A retryUrl)
    {urls : List String} (hu : ∀ url ∈ urls, A url) (answers : List Answer) {s : Renewer}
    (h : P s) :
    P (attempts giveUpAfter retryUrl urls answers s).1 ∧
      ((attempts giveUpAfter retryUrl urls answers s).2 = some (.ok ()) →
        ∃ url answer s', A url ∧ P s' ∧ (renewOnce url answer s').2.isOk ∧
          (attempts giveUpAfter retryUrl urls answers s).1 = (renewOnce url answer s').1) := by
  fun_induction attempts giveUpAfter retryUrl urls answers s with
  | case1 => exact ⟨h, nofun⟩
  | case2 url urls answer answers s r hok =>
    have hur := hu url mem_cons_self
    exact ⟨hs url answer s hur h, fun _ => ⟨url, answer, s, hur, h, hok, rfl⟩⟩
  | case3 url urls answer answers s r _ ih =>
    obtain ⟨hur, hu⟩ := forall_mem_cons.mp hu
    exact ih hu (hs url answer s hur h)
  | case4 => exact ⟨h, nofun⟩
  | case5 answer answers s hw r hok =>
    have hur := hr.resolve_left (by omega)
    exact ⟨hs _ answer s hur h, fun _ => ⟨_, answer, s, hur, h, hok, rfl⟩⟩
  | case6 answer answers s hw r _ ih =>
    exact ih hu (hs _ answer s (hr.resolve_left (by omega)) h)

def production (policy : AcmeRetryPolicy) (primary : String) : List String :=
  primary :: policy.fallbackDirectoryUrl.toList

/-- A certificate that a production directory was asked for and has issued. -/
def OfProduction (policy : AcmeRetryPolicy) (primary : String) (cert : String × String) : Prop :=
  cert.1 ∈ production policy primary ∧ cert.2 ∈ production policy primary

/-- If there was a success, the certificate installed last is one of production. -/
def Delivers (policy : AcmeRetryPolicy) (primary : String) (success : Prop) (s : Renewer) : Prop :=
  success → ∃ cert ∈ s.installed.getLast?, OfProduction policy primary cert

section

variable {policy : AcmeRetryPolicy} {primary : String} {s : Renewer}

/-- The account and the installed certificates are those of production directories. -/
structure Trusted (policy : AcmeRetryPolicy) (primary : String) (s : Renewer) : Prop where
  account : ∀ directory ∈ s.account, directory ∈ production policy primary
  installed : ∀ cert ∈ s.installed, OfProduction policy primary cert

lemma Trusted.renewOnce {url : String} {answer : Answer} (h : Trusted policy primary s)
    (hu : url ∈ production policy primary) :
    Trusted policy primary (renewOnce url answer s).1 ∧
      Delivers policy primary ((renewOnce url answer s).2.isOk) (renewOnce url answer s).1 := by
  obtain ⟨err, heq⟩ | ⟨directory, installed, result, hd, heq, hins⟩ := renewOnce_cases url answer s
  · rw [heq]
    exact ⟨h, fun hok => by simp [Except.isOk, Except.toBool] at hok⟩
  · have hm : directory ∈ production policy primary :=
      hd.elim (h.account directory) fun hn => hn ▸ hu
    rw [heq]
    refine ⟨⟨by simpa using hm, ?_⟩, fun hok => ⟨(url, directory), ?_, hu, hm⟩⟩
    · rw [hins]
      split_ifs
      · exact forall_mem_append.mpr ⟨h.installed, forall_mem_singleton.mpr ⟨hu, hm⟩⟩
      · exact h.installed
    · simp [hins, hok]

/-- A directory that is asked for certificates: the account is created there, and the certificate is
issued. -/
def accepting : Answer := ⟨false, .ok (), .ok (), .ok (), .ok (), .ok (), 0⟩

def refusing : Answer := ⟨false, .error .protocol, .ok (), .ok (), .ok (), .ok (), 0⟩

lemma retryIssuance_staging (primary : String) {staging : String}
    (hs : policy.stagingDirectoryUrl = some staging) (hg : policy.giveUpAfter ≠ 0) :
    ∃ answers,
      retryIssuance policy primary answers ⟨none, [], []⟩ =
        (⟨some staging, [(staging, staging)], [(staging, staging)]⟩, some (.ok ())) := by
  have hw : ¬policy.giveUpAfter ≤ accepting.elapsed := by simpa [accepting] using hg
  rw [retryIssuance, hs]
  cases policy.fallbackDirectoryUrl with
  | none =>
    refine ⟨[refusing, refusing, accepting], ?_⟩
    simp only [Option.toList, attempts, if_neg hw]
    rfl
  | some fallback =>
    refine ⟨[refusing, refusing, refusing, accepting], ?_⟩
    simp only [Option.toList, attempts, if_neg hw]
    rfl

/-- The renewer installs and reports only certificates of production directories, whatever the
authorities answer, exactly if it has no staging directory or gives up at once. -/
theorem installs_only_production_iff
    (hstaging : ∀ url ∈ policy.stagingDirectoryUrl, url ∉ production policy primary) :
    (∀ account, (∀ directory ∈ account, directory ∈ production policy primary) →
      ∀ rounds answers,
        let s := acmeRenewer policy primary rounds ⟨account, [], []⟩
        (∀ cert ∈ s.installed, OfProduction policy primary cert) ∧
          Delivers policy primary ((retryIssuance policy primary answers s).2 = some (.ok ()))
            (retryIssuance policy primary answers s).1) ↔
      policy.stagingDirectoryUrl = none ∨ policy.giveUpAfter = 0 := by
  constructor
  · intro hgo
    by_contra hco
    obtain ⟨hs, hg⟩ := not_or.mp hco
    obtain ⟨staging, hs⟩ := Option.ne_none_iff_exists'.mp hs
    obtain ⟨answers, ha⟩ := retryIssuance_staging primary hs hg
    obtain ⟨cert, hc, hp⟩ := (hgo none (by simp) [] answers).2 (by simp [acmeRenewer, ha])
    simp only [acmeRenewer, foldl_nil, ha] at hc
    cases hc
    exact hstaging staging hs hp.1
  · intro hsa account hac rounds answers
    have hre : policy.giveUpAfter = 0 ∨
        policy.stagingDirectoryUrl.getD primary ∈ production policy primary :=
      hsa.symm.imp_right fun h => by simp [h, production]
    have hu : ∀ url ∈ primary :: primary :: policy.fallbackDirectoryUrl.toList,
        url ∈ production policy primary := by simp [production]
    have hr (answers : List Answer) {s : Renewer} (h : Trusted policy primary s) :=
      attempts_rule (A := (· ∈ production policy primary)) (P := Trusted policy primary)
        (fun _ _ _ hur h => (h.renewOnce hur).1) hre
        hu answers h
    have ht : Trusted policy primary (acmeRenewer policy primary rounds ⟨account, [], []⟩) :=
      List.foldlRecOn _ _ ⟨hac, by simp⟩ fun s h answers _ => (hr answers h).1
    refine ⟨ht.installed, fun hok => ?_⟩
    obtain ⟨url, answer, s', hur, h, his, heq⟩ := (hr answers ht).2 hok
    rw [retryIssuance, heq]
    exact (h.renewOnce hur).2 his

end

/-- Without a staging directory a later answer of the primary directory is installed. -/
theorem installs_only_production_without_staging :
    (acmeRenewer ⟨none, none, 5⟩ "primary" [[refusing, accepting]] ⟨none, [], []⟩).installed =
      [("primary", "primary")] ∧
    ∀ cert ∈ (acmeRenewer ⟨none, none, 5⟩ "primary" [[refusing, accepting]]
      ⟨none, [], []⟩).installed,
      OfProduction ⟨none, none, 5⟩ "primary" cert :=
  ⟨rfl, ((installs_only_production_iff (by simp)).mpr (.inl rfl) none (by simp)
    [[refusing, accepting]] []).1⟩

/-- The primary directory refuses twice, the staging directory issues, and this is a success. -/
theorem staging_certificate_installed :
    retryIssuance ⟨none, some "staging", 1⟩ "primary" [refusing, refusing, accepting]
      ⟨none, [], []⟩ =
    (⟨some "staging", [("staging", "staging")], [("staging", "staging")]⟩, some (.ok ())) :=
  rfl

/-! ## The directory of an order -/

/-- Every order was placed with an account of the directory it is for. -/
def Addressed (s : Renewer) : Prop := ∀ order ∈ s.orders, order.2 = order.1

def declining : Answer := ⟨true, .ok (), .ok (), .error .protocol, .ok (), .ok (), 0⟩

lemma renewOnce_declining (url : String) (s : Renewer) :
    renewOnce url declining s =
      ({ s with
        account := some (s.account.getD url)
        orders := s.orders ++ [(url, s.account.getD url)] }, .error .protocol) := by
  obtain ⟨account, orders, installed⟩ := s
  cases account <;> rfl

def AddressedAt (primary : String) (s : Renewer) : Prop :=
  Addressed s ∧ ∀ directory ∈ s.account, directory = primary

lemma AddressedAt.renewOnce {primary : String} {answer : Answer} {s : Renewer}
    (h : AddressedAt primary s) : AddressedAt primary (renewOnce primary answer s).1 := by
  obtain ⟨err, heq⟩ | ⟨directory, installed, result, hd, heq, -⟩ := renewOnce_cases primary answer s
  · rwa [heq]
  · have hs : directory = primary := hd.elim (h.2 directory) id
    rw [heq]
    exact ⟨forall_mem_append.mpr ⟨h.1, forall_mem_singleton.mpr hs⟩,
      by simpa using hs⟩

/-- Every order goes to the directory it is for exactly if the attempts never ask a second one: an
account stored at the primary directory is used for the fallback and for staging too. -/
theorem orders_addressed_iff (policy : AcmeRetryPolicy) (primary : String) :
    (∀ rounds, Addressed (acmeRenewer policy primary rounds ⟨none, [], []⟩)) ↔
      (∀ url ∈ policy.fallbackDirectoryUrl, url = primary) ∧
        (policy.giveUpAfter = 0 ∨ ∀ url ∈ policy.stagingDirectoryUrl, url = primary) := by
  constructor
  · intro hgo
    have h := hgo [[declining, declining, declining, declining]]
    have hw : policy.giveUpAfter ≤ declining.elapsed ↔ policy.giveUpAfter = 0 := by
      simp [declining]
    rw [acmeRenewer, foldl_cons, foldl_nil, retryIssuance] at h
    cases hf : policy.fallbackDirectoryUrl <;>
      cases hs : policy.stagingDirectoryUrl <;>
      by_cases hg : policy.giveUpAfter = 0 <;>
      simp [attempts, renewOnce_declining, Except.isOk, Except.toBool, Addressed, hf,
        hs, hw, hg, eq_comm] at h ⊢ <;>
      exact h
  · rintro ⟨hf, hs⟩ rounds
    have hr : policy.giveUpAfter = 0 ∨ policy.stagingDirectoryUrl.getD primary = primary := by
      refine hs.imp_right fun h => ?_
      cases hur : policy.stagingDirectoryUrl with
      | none => rfl
      | some url => exact h url hur
    have hu : ∀ url ∈ primary :: primary :: policy.fallbackDirectoryUrl.toList,
        url = primary := by
      simpa using hf
    have hro (answers : List Answer) {s : Renewer} (h : AddressedAt primary s) :=
      attempts_rule (A := (· = primary)) (P := AddressedAt primary)
        (fun _ _ _ hur h => hur ▸ h.renewOnce) hr hu answers h
    have ha : AddressedAt primary (acmeRenewer policy primary rounds ⟨none, [], []⟩) :=
      List.foldlRecOn _ _ ⟨by simp [Addressed], by simp⟩ fun s h answers _ => (hro answers h).1
    exact ha.1

/-- Two orders at the primary directory fail, and the order for the fallback directory is placed
with the account of the primary one. -/
theorem fallback_order_at_primary :
    (retryIssuance ⟨some "fallback", none, 0⟩ "primary" [declining, declining, declining]
      ⟨none, [], []⟩).1.orders =
    [("primary", "primary"), ("primary", "primary"), ("fallback", "primary")] :=
  rfl

end LoadBalancer.Tls
