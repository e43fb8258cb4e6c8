import LoadBalancer.Lib.Interleaving
import LoadBalancer.Server.Wiring

/-!
# Admission to a backend

Before a request is forwarded it passes the gate of its backend (`crates/lb-proxy/src/gate.rs`), a
semaphore with a bounded queue, and its adaptive limit (`crates/lb-proxy/src/adaptive.rs`), a count
that is raised by compare and exchange.  Neither has a lock, so a call is several steps.

In which order a semaphore serves its queue is left open, and so is the estimate from which a limit
is published.
-/

namespace LoadBalancer.Server

open LoadBalancer.Core Interleaving

/-! ## The gate -/

/-- Where a call of `enter` is. -/
inductive GatePoint
  | trying
  /-- No permit was free; before the `fetch_add`. -/
  | counting
  /-- The queue was full; before the `fetch_sub`. -/
  | refused
  | queued
  /-- With a permit from the queue; before `Waiting` is dropped. -/
  | granted
  /-- After the timeout, or when the request is given up; before `Waiting` is dropped. -/
  | timedOut
  /-- With a permit, until that is dropped. -/
  | entered
  deriving DecidableEq

namespace GatePoint

def hasPermit : GatePoint → Bool
  | granted | entered => true
  | _ => false

def inQueue : GatePoint → Bool
  | queued | granted | timedOut => true
  | _ => false

variable (maxPending : ℕ) (s : BackendGate)

/-- One step of a call of `enter`, or the drop of the permit it returned. -/
inductive Next : GatePoint → BackendGate → Option GatePoint → Prop
  | enter (h : 0 < s.permits) : Next trying { s with permits := s.permits - 1 } (some entered)
  | miss (h : s.permits = 0) : Next trying s (some counting)
  | enqueue (h : s.waiting < maxPending) :
    Next counting { s with waiting := s.waiting + 1 } (some queued)
  | overflow (h : maxPending ≤ s.waiting) :
    Next counting { s with waiting := s.waiting + 1 } (some refused)
  | refuse : Next refused { s with waiting := s.waiting - 1 } none
  | grant (h : 0 < s.permits) : Next queued { s with permits := s.permits - 1 } (some granted)
  | timeout : Next queued s (some timedOut)
  | abandon : Next granted { s with permits := s.permits + 1 } (some timedOut)
  | proceed : Next granted { s with waiting := s.waiting - 1 } (some entered)
  | giveUp : Next timedOut { s with waiting := s.waiting - 1 } none
  | leave : Next entered { s with permits := s.permits + 1 } none

def Step : Config BackendGate GatePoint → Event GatePoint → Config BackendGate GatePoint → Prop :=
  Interleaving.Step (· = trying) (Next maxPending)

variable {maxPending s} {s' : BackendGate} {p : GatePoint} {p' : Option GatePoint}

/-- **One step** keeps the permits, the count, and what the count has over the queue. -/
lemma Next.accounts (h : Next maxPending s p s' p') (maxActive rest : ℕ) :
    (s.permits + (rest + if p.hasPermit then 1 else 0) = maxActive →
      s'.permits + (rest + p'.elim 0 fun q => if q.hasPermit then 1 else 0) = maxActive) ∧
    (s.waiting = (rest + if p.inQueue ∨ p = refused then 1 else 0) →
      s'.waiting = rest + p'.elim 0 fun q => if q.inQueue ∨ q = refused then 1 else 0) ∧
    (s.waiting ≤ maxPending + (rest + if p = refused then 1 else 0) →
      s'.waiting ≤ maxPending + (rest + p'.elim 0 fun q => if q = refused then 1 else 0)) := by
  cases h <;> simp [hasPermit, inQueue] <;> omega

end GatePoint

/-- What a gate keeps to.  No `fetch_sub` finds a zero, since its call is counted. -/
structure GateExact (maxActive maxPending : ℕ) (c : Config BackendGate GatePoint) : Prop where
  permits_add : c.shared.permits + population (·.hasPermit) c.threads = maxActive
  waiting_eq : c.shared.waiting =
    population (·.inQueue) c.threads + population (· = .refused) c.threads
  queue_le : population (·.inQueue) c.threads ≤ maxPending
  /-- A refusal is right, unless another one has not been taken off the count yet. -/
  of_refused : ∀ s', GatePoint.Next maxPending c.shared .counting s' (some .refused) →
    (∀ i, c.threads i ≠ some .refused) → population (·.inQueue) c.threads = maxPending

/-- **The gate of a backend is exact** in every interleaving of calls that enter, wait, are refused,
time out and leave. -/
theorem gate_exact {maxActive maxPending : ℕ} {events : List (Event GatePoint)}
    {c : Config BackendGate GatePoint}
    (hrun : Run (GatePoint.Step maxPending) (idle (.new maxActive)) events c) :
    GateExact maxActive maxPending c := by
  obtain ⟨S, hS, hpe⟩ := ledger (J := fun s n => s.permits + n = maxActive) rfl
    (fun p hp => by rw [hp]; rfl) (fun _ _ _ _ _ hJ h => (h.accounts _ _).1 hJ) hrun
  obtain ⟨T, hT, hw⟩ := ledger (J := fun s n => s.waiting = n) rfl
    (fun p hp => by rw [hp]; rfl) (fun _ _ _ _ _ hJ h => (h.accounts 0 _).2.1 hJ) hrun
  obtain ⟨U, hU, ho⟩ := ledger (J := fun s n => s.waiting ≤ maxPending + n) (Nat.zero_le _)
    (fun p hp => by rw [hp]; rfl) (fun _ _ _ _ _ hJ h => (h.accounts 0 _).2.2 hJ) hrun
  rw [← population_eq_held hS] at hpe
  rw [← population_eq_held hT, population_or hT fun p hp hr => by
    simp [hr, GatePoint.inQueue] at hp] at hw
  rw [← population_eq_held hU] at ho
  refine ⟨hpe, hw, by omega, fun s' hs' hn => ?_⟩
  have hz : population (· = GatePoint.refused) c.threads = 0 :=
    (population_eq_zero_iff hU).mpr fun i p hp hr => hn i (hr ▸ hp)
  cases hs'
  omega

/-- One permit and a queue for one: the first call has entered, the second one waits and the third
one is refused, with both of them counted. -/
theorem gate_exact_full : ∃ events c, Run (GatePoint.Step 1) (idle (.new 1)) events c ∧
    c.threads 0 = some .entered ∧ c.threads 1 = some .queued ∧ c.threads 2 = some .refused ∧
    c.shared.permits = 0 ∧ c.shared.waiting = 2 ∧ population (·.hasPermit) c.threads = 1 ∧
    population (·.inQueue) c.threads + population (· = .refused) c.threads = 2 := by
  have hsp : ∀ c i, c.threads i = none → GatePoint.Step 1 c (.spawn i .trying)
      ⟨c.shared, Function.update c.threads i (some .trying)⟩ := fun _ _ h => ⟨h, rfl, rfl⟩
  have hs : ∀ c i p s' q, c.threads i = some p → GatePoint.Next 1 c.shared p s' (some q) →
      GatePoint.Step 1 c (.step i) ⟨s', Function.update c.threads i (some q)⟩ :=
    fun _ _ p s' q hi h => ⟨p, s', some q, hi, h, rfl⟩
  have hf := (Run.start.next (hsp (idle (.new 1)) 0 rfl)).next
    (hs _ 0 _ _ _ rfl (.enter one_pos))
  have hse := ((hf.next (hsp _ 1 rfl)).next (hs _ 1 _ _ _ rfl (.miss rfl))).next
    (hs _ 1 _ _ _ rfl (.enqueue one_pos))
  have hr := ((hse.next (hsp _ 2 rfl)).next (hs _ 2 _ _ _ rfl (.miss rfl))).next
    (hs _ 2 _ _ _ rfl (.overflow le_rfl))
  have he := gate_exact hr
  exact ⟨_, _, hr, rfl, rfl, rfl, rfl, rfl, (zero_add _).symm.trans he.permits_add,
    he.waiting_eq.symm⟩

/-! ## The adaptive limit -/

/-- Where a request is that has an adaptive limit. -/
inductive AdaptivePoint
  | acquiring
  /-- The limit has been loaded. -/
  | loaded (limit : ℕ)
  /-- In the loop of `try_acquire`. -/
  | attempting (limit current : ℕ)
  | guarded (inFlightAtStart : ℕ)

def AdaptiveLimit.Within (cfg : AdaptiveConcurrencyConfig) (s : AdaptiveLimit) : Prop :=
  s.inFlight ≤ cfg.maxLimit ∧ cfg.minLimit ≤ s.limit ∧ s.limit ≤ cfg.maxLimit

namespace AdaptivePoint

def isGuarded : AdaptivePoint → Bool
  | guarded _ => true
  | _ => false

variable (cfg : AdaptiveConcurrencyConfig) (s : AdaptiveLimit)

/-- The limit a call has loaded was within the bounds. -/
def Within : AdaptivePoint → Prop
  | loaded limit | attempting limit _ => cfg.minLimit ≤ limit ∧ limit ≤ cfg.maxLimit
  | _ => True

/-- One step of `try_acquire`, or of what is done with a guard. -/
inductive Next : AdaptivePoint → AdaptiveLimit → Option AdaptivePoint → Prop
  | loadLimit : Next acquiring s (some (loaded s.limit))
  | loadInFlight (limit : ℕ) : Next (loaded limit) s (some (attempting limit s.inFlight))
  | full {limit current : ℕ} (h : limit ≤ current) : Next (attempting limit current) s none
  | exchange {limit : ℕ} (h : s.inFlight < limit) :
    Next (attempting limit s.inFlight) { s with inFlight := s.inFlight + 1 }
      (some (guarded (s.inFlight + 1)))
  /-- A weak exchange may fail without a reason. -/
  | retry {limit current : ℕ} (h : current < limit) :
    Next (attempting limit current) s (some (attempting limit s.inFlight))
  | publish (rounded inFlightAtStart : ℕ) :
    Next (guarded inFlightAtStart)
      { s with limit := max cfg.minLimit (min rounded cfg.maxLimit) }
      (some (guarded inFlightAtStart))
  | drop (inFlightAtStart : ℕ) :
    Next (guarded inFlightAtStart) { s with inFlight := s.inFlight - 1 } none

def Step : Config AdaptiveLimit AdaptivePoint → Event AdaptivePoint →
    Config AdaptiveLimit AdaptivePoint → Prop :=
  Interleaving.Step (· = acquiring) (Next cfg)

variable {cfg s}

/-- **One step** keeps the account and the bounds. -/
lemma Next.account (hc : cfg.minLimit ≤ cfg.maxLimit) {s' : AdaptiveLimit} {p : AdaptivePoint}
    {p' : Option AdaptivePoint} (h : Next cfg s p s' p') {rest : ℕ}
    (hs : s.inFlight = (rest + if p.isGuarded then 1 else 0) ∧ s.Within cfg) (hp : p.Within cfg) :
    (s'.inFlight = (rest + p'.elim 0 fun q => if q.isGuarded then 1 else 0) ∧ s'.Within cfg) ∧
      ∀ q ∈ p', q.Within cfg := by
  cases h <;> simp_all [isGuarded, Within, AdaptiveLimit.Within] <;> omega

end AdaptivePoint

/-- What an adaptive limit keeps to, whatever the estimates are. -/
structure AdaptiveExact (cfg : AdaptiveConcurrencyConfig) (c : Config AdaptiveLimit AdaptivePoint) :
    Prop where
  inFlight_eq : c.shared.inFlight = population (·.isGuarded) c.threads
  within : c.shared.Within cfg
  /-- A call is refused only if it has seen so many requests in flight. -/
  of_full : ∀ i limit current, c.threads i = some (.attempting limit current) → limit ≤ current →
    cfg.minLimit ≤ current

/-- **An adaptive limit is exact** in every interleaving of calls, guards and published limits. -/
theorem adaptive_exact {cfg : AdaptiveConcurrencyConfig} (hcfg : cfg.validate = .ok ())
    {events : List (Event AdaptivePoint)} {c : Config AdaptiveLimit AdaptivePoint}
    (hrun : Run (AdaptivePoint.Step cfg) (idle (.new cfg)) events c) : AdaptiveExact cfg c := by
  have hle : cfg.minLimit ≤ cfg.maxLimit := by
    have hl := (Except.seq_eq_ok_iff.mp hcfg).1
    simp only [refuseIf_eq_ok_iff, Bool.not_eq_false', Bool.and_eq_true, decide_eq_true_eq]
      at hl
    omega
  obtain ⟨⟨S, hS, heq, hw⟩, hpo⟩ := ledger_with (I := (·.Within cfg))
    (J := fun s n => s.inFlight = n ∧ s.Within cfg)
    ⟨rfl, Nat.zero_le _, le_max_left _ _, max_le hle (min_le_right _ _)⟩
    (fun p hp => by rw [hp]; exact ⟨rfl, trivial⟩)
    (fun _ _ _ _ _ hJ hI h => h.account hle hJ hI) hrun
  refine ⟨heq.trans (population_eq_held hS).symm, hw, fun i limit current hi hf => ?_⟩
  exact (hpo i _ hi).1.trans hf

/-- A request is in flight, and a large estimate has been published. -/
theorem adaptive_exact_published : ∃ cfg events c,
    Run (AdaptivePoint.Step cfg) (idle (.new cfg)) events c ∧ c.shared = ⟨cfg, 200, 1⟩ ∧
      population (·.isGuarded) c.threads = 1 := by
  let cfg : AdaptiveConcurrencyConfig := ⟨10, 2, 200, .finite 1, .finite 1⟩
  have hs : AdaptivePoint.Step cfg (idle (.new cfg)) _ _ := spawn_only rfl
  have hr := ((((Run.start.next hs).next (step_only .loadLimit)).next
    (step_only (.loadInFlight 10))).next (step_only (.exchange (by decide)))).next
      (step_only (.publish 1000 1))
  exact ⟨cfg, _, _, hr, rfl, (adaptive_exact (by decide +kernel) hr).inFlight_eq.symm⟩

end LoadBalancer.Server
