import LoadBalancer.Balancer.Strategies

/-!
# Two choices by measured latency

`PeakEwmaP2c` samples two eligible backends and takes the cheaper one.  The cost of a backend is
its latency estimate times its load and a penalty for errors; a backend without a sample wins over
one that has some.

Times are nanoseconds since the balancer was created, read by the caller.  The arithmetic of the
estimates is that of `Float`; no result depends on it, because either of two backends may win.
-/

namespace LoadBalancer.Balancer

open LoadBalancer.Core

structure EwmaEntry where
  estimateNanos : ℕ
  lastUpdateNanos : ℕ
  errorRate : Float
  lastOutcomeNanos : ℕ
  generation : ℕ

namespace EwmaEntry

def noSample : ℕ := 2 ^ 64 - 1

def errorDecayNanos : ℕ := 10_000_000_000

def new : EwmaEntry where
  estimateNanos := noSample
  lastUpdateNanos := 0
  errorRate := 0
  lastOutcomeNanos := 0
  generation := 0

def errorRateAt (entry : EwmaEntry) (nowNanos : ℕ) : Float :=
  let elapsed := nowNanos - entry.lastOutcomeNanos
  entry.errorRate * Float.exp (-Float.ofNat elapsed / Float.ofNat errorDecayNanos)

/-- A sample above the estimate replaces it; one below pulls it down with the time passed. -/
def storeSample (entry : EwmaEntry) (sampleNanos nowNanos decayNanos : ℕ) : EwmaEntry :=
  let prev := entry.estimateNanos
  let newEstimate :=
    if prev = noSample ∨ prev ≤ sampleNanos then sampleNanos
    else
      let dtNanos := Float.ofNat (nowNanos - entry.lastUpdateNanos)
      let weight :=
        if 0 < decayNanos then Float.exp (-dtNanos / Float.ofNat decayNanos) else 0
      (Float.ofNat prev * weight + Float.ofNat sampleNanos * (1 - weight)).toUInt64.toNat
  { entry with estimateNanos := newEstimate, lastUpdateNanos := nowNanos }

def storeOutcome (entry : EwmaEntry) (success : Bool) (nowNanos : ℕ) : EwmaEntry :=
  let failure : Float := if success then 0 else 1
  { entry with
    errorRate := entry.errorRateAt nowNanos * (1 - 0.1) + failure * 0.1
    lastOutcomeNanos := nowNanos }

end EwmaEntry

structure PeakEwmaP2c where
  decayNanos : ℕ
  entries : Table BackendId EwmaEntry
  prunedForVersion : ℕ
  rng : Rng

namespace PeakEwmaP2c

def defaultEstimateNanos : ℕ := 1_000_000_000

variable (self : PeakEwmaP2c)

def estimateNanos (id : BackendId) : ℕ :=
  match self.entries.get id with
  | some entry =>
    if entry.estimateNanos = EwmaEntry.noSample then defaultEstimateNanos else entry.estimateNanos
  | none => defaultEstimateNanos

def hasSample (id : BackendId) : Bool :=
  (self.entries.get id).any fun entry => entry.estimateNanos ≠ EwmaEntry.noSample

def forgetRemovedBackends (pool : BackendPool) : PeakEwmaP2c :=
  let version := (pool.version + 1) % 2 ^ 64
  if self.prunedForVersion = version then self
  else
    { self with
      prunedForVersion := version
      entries := self.entries.retain fun id _ => pool.allBackendIds.contains id }

def errorRate (id : BackendId) (nowNanos : ℕ) : Float :=
  (self.entries.get id).elim 0 fun entry => entry.errorRateAt nowNanos

def forgetHistoryIfItBecameEligibleAgain (pool : BackendPool) (id : BackendId) : PeakEwmaP2c :=
  let generation := pool.eligibilityGeneration id
  match self.entries.get id with
  | none => self
  | some entry =>
    if entry.generation = generation then self
    else
      { self with
        entries := self.entries.insert id { entry with
          generation := generation
          estimateNanos := EwmaEntry.noSample
          errorRate := 0 } }

def cost (pool : BackendPool) (id : BackendId) (nowNanos : ℕ) : Float :=
  let estimate := Float.ofNat (self.estimateNanos id)
  let pending := Float.ofNat (pool.activeCount id)
  estimate * (pending + 1) * (1 + 10 * self.errorRate id nowNanos)

/-- Which of two backends wins; each cost is computed at its own reading of the clock. -/
def winner (pool : BackendPool) (nowA nowB : ℕ) (a b : BackendId) : BackendId :=
  match self.hasSample a, self.hasSample b with
  | false, true => a
  | true, false => b
  | _, _ => if self.cost pool a nowA ≤ self.cost pool b nowB * (1 + 0.1) then a else b

def pickExcluding (pool : BackendPool) (excluded : List BackendId) (nowA nowB : ℕ) :
    Option BackendId × PeakEwmaP2c :=
  let self := self.forgetRemovedBackends pool
  let eligible := remaining pool excluded
  match eligible.length with
  | 0 => (none, self)
  | 1 => (eligible[0]?, self)
  | n + 2 =>
    let (i, rng) := self.rng.below (n + 2)
    let (j, rng) := rng.below (n + 2)
    let j := if j = i then (j + 1) % (n + 2) else j
    let self := { self with rng := rng }
    match eligible[i]?, eligible[j]? with
    | some a, some b =>
      let self := self.forgetHistoryIfItBecameEligibleAgain pool a
      let self := self.forgetHistoryIfItBecameEligibleAgain pool b
      (some (self.winner pool nowA nowB a b), self)
    | _, _ => (none, self)

def withEntry (id : BackendId) (update : EwmaEntry → EwmaEntry) : PeakEwmaP2c :=
  { self with entries := self.entries.insert id (update ((self.entries.get id).getD .new)) }

def recordLatency (id : BackendId) (latencyNanos nowNanos : ℕ) : PeakEwmaP2c :=
  self.withEntry id fun entry =>
    entry.storeSample (min latencyNanos (EwmaEntry.noSample - 1)) nowNanos self.decayNanos

def recordOutcome (id : BackendId) (success : Bool) (nowNanos : ℕ) : PeakEwmaP2c :=
  self.withEntry id fun entry => entry.storeOutcome success nowNanos

lemma winner_eq_or_eq (pool : BackendPool) (nowA nowB : ℕ) (a b : BackendId) :
    self.winner pool nowA nowB a b = a ∨ self.winner pool nowA nowB a b = b := by
  unfold winner
  split
  · exact .inl rfl
  · exact .inr rfl
  · exact ite_eq_or_eq _ a b

lemma chooses {pool : BackendPool} (hp : pool.Consistent) (excluded : List BackendId)
    (nowA nowB : ℕ) :
    Chooses (Usable pool false excluded) (self.pickExcluding pool excluded nowA nowB).1 := by
  refine Chooses.congr ?_ (mem_remaining_iff hp excluded)
  unfold pickExcluding
  dsimp only
  split
  next hl => exact .none fun id => List.eq_nil_of_length_eq_zero hl ▸ List.not_mem_nil
  next hl => exact .getElem?_of_lt fun _ => hl.symm ▸ Nat.one_pos
  next n hl =>
    generalize (self.forgetRemovedBackends pool).rng = rng
    have hi : (rng.below (n + 2)).1 < n + 2 := rng.below_lt (n + 1).succ_pos
    have hj : (if ((rng.below (n + 2)).2.below (n + 2)).1 = (rng.below (n + 2)).1
        then (((rng.below (n + 2)).2.below (n + 2)).1 + 1) % (n + 2)
        else ((rng.below (n + 2)).2.below (n + 2)).1) < n + 2 := by
      split_ifs
      · exact Nat.mod_lt _ (n + 1).succ_pos
      · exact (rng.below (n + 2)).2.below_lt (n + 1).succ_pos
    rw [List.getElem?_eq_getElem (hi.trans_eq hl.symm),
      List.getElem?_eq_getElem (hj.trans_eq hl.symm)]
    refine .some ?_
    rcases winner_eq_or_eq _ pool nowA nowB _ _ with h | h <;> rw [h]
    · exact List.getElem_mem _
    · exact List.getElem_mem _

end PeakEwmaP2c

end LoadBalancer.Balancer
