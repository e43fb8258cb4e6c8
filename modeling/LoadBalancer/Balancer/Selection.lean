import LoadBalancer.Balancer.Maglev
import LoadBalancer.Balancer.PeakEwma
import LoadBalancer.Core.ListenerConfig

/-!
# Picking a backend

The ten strategies behind one interface, next to the pool they pick from: which backend a pick may
return and when it may return none, and, for the three hashing strategies, which keys move when
backends become eligible or stop being so.

Rings and tables are cached between picks.  A cache is never mistaken for another membership's, as
long as the pool's 64-bit version has not come round.
-/

namespace LoadBalancer.Balancer

open LoadBalancer.Core List

def readsWeights : LoadBalancingStrategy → Bool
  | .weightedRoundRobin | .consistentHash | .maglev | .rendezvousHash | .weightedRandom => true
  | _ => false

def isHashing : LoadBalancingStrategy → Bool
  | .consistentHash | .maglev | .rendezvousHash => true
  | _ => false

/-- An `Arc<dyn LoadBalancer>`. -/
inductive Strategy
  | roundRobin (state : RoundRobin)
  | leastConnections
  | weightedRoundRobin (state : WeightedRoundRobin)
  | consistentHash (state : ConsistentHash)
  | peakEwmaP2c (state : PeakEwmaP2c)
  | maglev (state : Maglev)
  | rendezvousHash
  | random (state : Random)
  | weightedRandom (state : WeightedRandom)
  | leastRequest (state : LeastRequest)

namespace Strategy

def kind : Strategy → LoadBalancingStrategy
  | roundRobin _ => .roundRobin
  | leastConnections => .leastConnections
  | weightedRoundRobin _ => .weightedRoundRobin
  | consistentHash _ => .consistentHash
  | peakEwmaP2c _ => .peakEwmaP2c
  | maglev _ => .maglev
  | rendezvousHash => .rendezvousHash
  | random _ => .random
  | weightedRandom _ => .weightedRandom
  | leastRequest _ => .leastRequest

section

variable {S : Type} [LinearOrder S] (hash : Hash) (score : String → BackendId → ℕ → S)
  (poolPtr : ℕ)

/-- `nowA` and `nowB` are the clock readings of the strategy that measures latencies. -/
def pickExcluding (self : Strategy) (pool : BackendPool) (key : String)
    (excluded : List BackendId) (nowA nowB : ℕ) : Option BackendId × Strategy :=
  match self with
  | roundRobin state => (state.pickExcluding pool excluded).map id roundRobin
  | leastConnections => (LeastConnections.pickExcluding pool excluded, leastConnections)
  | weightedRoundRobin state => (state.pickExcluding pool excluded).map id weightedRoundRobin
  | consistentHash state =>
    (state.pickExcluding hash poolPtr pool key excluded).map id consistentHash
  | peakEwmaP2c state => (state.pickExcluding pool excluded nowA nowB).map id peakEwmaP2c
  | maglev state => (state.pickExcluding hash poolPtr pool key excluded).map id maglev
  | rendezvousHash => (RendezvousHash.pickExcluding score pool key excluded, rendezvousHash)
  | random state => (state.pickExcluding pool excluded).map id random
  | weightedRandom state => (state.pickExcluding pool excluded).map id weightedRandom
  | leastRequest state => (state.pickExcluding pool excluded).map id leastRequest

def recordLatency (self : Strategy) (id : BackendId) (latencyNanos nowNanos : ℕ) : Strategy :=
  match self with
  | peakEwmaP2c state => peakEwmaP2c (state.recordLatency id latencyNanos nowNanos)
  | other => other

def recordOutcome (self : Strategy) (id : BackendId) (success : Bool) (nowNanos : ℕ) : Strategy :=
  match self with
  | peakEwmaP2c state => peakEwmaP2c (state.recordOutcome id success nowNanos)
  | other => other

/-- A cached ring or table that will be taken for the pool's was built from its membership. -/
def Fresh (pool : BackendPool) : Strategy → Prop
  | consistentHash state => state.Fresh hash poolPtr pool
  | maglev state => state.Fresh hash poolPtr pool
  | _ => True

/-- The version of the cached ring or table, if it is one for this pool. -/
def cachedFor : Strategy → Option ℕ
  | consistentHash state =>
    if state.cached.poolPtr = poolPtr then some state.cached.version else none
  | maglev state => if state.cached.poolPtr = poolPtr then some state.cached.version else none
  | _ => none

/-- The strategy with nothing cached. -/
def uncached : Strategy → Strategy
  | consistentHash _ => consistentHash .new
  | maglev _ => maglev .new
  | other => other

/-- The backends a strategy can find: under Maglev, those with a slot in the table. -/
def Reaches (self : Strategy) (pool : BackendPool) (id : BackendId) : Prop :=
  self.kind = .maglev → Maglev.precedingWeight pool id < Maglev.tableSize

/-- **Every strategy** chooses among the usable backends it can find. -/
lemma chooses {self : Strategy} {pool : BackendPool} (hp : pool.Consistent)
    (hf : self.Fresh hash poolPtr pool) (key : String) (excluded : List BackendId)
    (nowA nowB : ℕ) :
    Chooses (fun id => Usable pool (readsWeights self.kind) excluded id ∧ self.Reaches pool id)
      (self.pickExcluding hash score poolPtr pool key excluded nowA nowB).1 := by
  -- all but Maglev reach every backend
  have ha : ∀ {weighted : Bool} {r : Option BackendId}, self.kind ≠ .maglev →
      Chooses (Usable pool weighted excluded) r →
      Chooses (fun id => Usable pool weighted excluded id ∧ self.Reaches pool id) r :=
    fun hne h => h.congr fun id => (and_iff_left fun hk => absurd hk hne).symm
  cases self with
  | roundRobin state => exact ha nofun (state.chooses hp excluded)
  | leastConnections => exact ha nofun (LeastConnections.chooses hp excluded)
  | weightedRoundRobin state => exact ha nofun (state.chooses hp excluded)
  | consistentHash state => exact ha nofun (state.chooses hp hf key excluded)
  | peakEwmaP2c state => exact ha nofun (state.chooses hp excluded nowA nowB)
  | maglev state =>
    exact (Maglev.chooses hp hf key excluded).congr fun id =>
      and_congr_right fun _ => ⟨fun h _ => h, fun h => h rfl⟩
  | rendezvousHash => exact ha nofun (RendezvousHash.chooses hp excluded score key)
  | random state => exact ha nofun (state.chooses hp excluded)
  | weightedRandom state => exact ha nofun (state.chooses hp excluded)
  | leastRequest state => exact ha nofun (state.chooses hp excluded)

/-! ### The cache -/

variable {hash poolPtr} {self : Strategy} {pool pool' : BackendPool}

lemma Fresh.of_sameMembership (h : self.Fresh hash poolPtr pool)
    (hs : SameMembership pool pool') (hv : pool'.version = pool.version) :
    self.Fresh hash poolPtr pool' := by
  cases self with
  | consistentHash state =>
    intro hp hc
    rw [ConsistentHash.ringPoints_eq hs]
    exact h hp (hc.trans hv)
  | maglev state =>
    intro hp hc hne
    rw [Maglev.build, Maglev.claimants_eq hs, Maglev.fill_eq hs, ← Maglev.build, hv]
    exact h hp (hc.trans hv) hne
  | _ => trivial

lemma cachedFor_uncached (self : Strategy) (hp : poolPtr ≠ 0) :
    self.uncached.cachedFor poolPtr = none := by
  cases self with
  | consistentHash | maglev => exact if_neg hp.symm
  | _ => rfl

lemma Fresh.of_cachedFor_lt
    (h : ∀ version, self.cachedFor poolPtr = some version → version < pool.version) :
    self.Fresh hash poolPtr pool := by
  cases self with
  | consistentHash | maglev =>
    intro hp hc
    exact absurd hc (h _ (if_pos hp)).ne
  | _ => trivial

/-- After a pick the cache is what it was, or one for the pool as it is now. -/
lemma cache_pickExcluding (self : Strategy) (pool : BackendPool) (key : String)
    (excluded : List BackendId) (nowA nowB : ℕ) :
    let after := (self.pickExcluding hash score poolPtr pool key excluded nowA nowB).2
    (after.cachedFor poolPtr = self.cachedFor poolPtr ∧
      (self.Fresh hash poolPtr pool → after.Fresh hash poolPtr pool)) ∨
    after.cachedFor poolPtr = some pool.version ∧ after.Fresh hash poolPtr pool := by
  cases self with
  | consistentHash state =>
    have hs := state.pickExcluding_snd hash poolPtr pool key excluded
    rw [mem_pair] at hs
    rcases hs with h | h <;> simp only [pickExcluding, Prod.map_snd, h]
    · exact .inl ⟨trivial, id⟩
    · exact .inr ⟨if_pos rfl, fun _ _ => rfl⟩
  | maglev state =>
    have hs := state.pickExcluding_snd hash poolPtr pool key excluded
    rw [mem_pair] at hs
    rcases hs with h | h <;> simp only [pickExcluding, Prod.map_snd, h]
    · exact .inl ⟨trivial, id⟩
    · obtain ⟨hp, hv⟩ := Maglev.label_build hash pool poolPtr pool.version
      exact .inr ⟨by rw [cachedFor, hp, hv, if_pos rfl], fun _ _ _ => rfl⟩
  | _ => exact .inl ⟨rfl, fun _ => trivial⟩

end

end Strategy

/-! ## A pool and its balancer over time -/

structure System where
  pool : BackendPool
  balancer : Strategy

inductive SystemEvent
  | pool (e : PoolEvent)
  | trackActive (id : BackendId)
  | releaseActive (guard : Option StateRef)
  | pick (key : String) (excluded : List BackendId) (nowA nowB : ℕ)
  | recordLatency (id : BackendId) (latencyNanos nowNanos : ℕ)
  | recordOutcome (id : BackendId) (success : Bool) (nowNanos : ℕ)

namespace SystemEvent

def Distinct : SystemEvent → Prop
  | pool e => e.Distinct
  | _ => True

instance (e : SystemEvent) : Decidable e.Distinct := by
  cases e <;> unfold Distinct <;> infer_instance

def isRefresh : SystemEvent → Bool
  | pool e => e.isRefresh
  | _ => false

end SystemEvent

section

variable {S : Type} [LinearOrder S] (hash : Hash) (score : String → BackendId → ℕ → S)
  (poolPtr : ℕ)

def System.apply (s : System) : SystemEvent → System
  | .pool e => { s with pool := e.apply s.pool }
  | .trackActive id => { s with pool := (s.pool.trackActive id).1 }
  | .releaseActive guard => { s with pool := s.pool.releaseActive guard }
  | .pick key excluded nowA nowB =>
    { s with
      balancer := (s.balancer.pickExcluding hash score poolPtr s.pool key excluded nowA nowB).2 }
  | .recordLatency id latencyNanos nowNanos =>
    { s with balancer := s.balancer.recordLatency id latencyNanos nowNanos }
  | .recordOutcome id success nowNanos =>
    { s with balancer := s.balancer.recordOutcome id success nowNanos }

def System.Step (s : System) (e : SystemEvent) (s' : System) : Prop :=
  s.apply hash score poolPtr e = s'

/-- The pool and the balancer after `refreshes` refreshes: a cache for the pool is of an earlier
version, or of this one and right. -/
structure System.InStep (refreshes : ℕ) (s : System) : Prop where
  version_le : s.pool.version ≤ refreshes
  cached_le : ∀ version, s.balancer.cachedFor poolPtr = some version → version ≤ s.pool.version
  fresh : s.balancer.Fresh hash poolPtr s.pool

variable {hash score poolPtr}

variable {refreshes : ℕ} {s : System} {balancer : Strategy} {fraction : Option ℚ}
  {events : List SystemEvent} {backends : List Backend} (h : s.InStep hash poolPtr refreshes)

include h

lemma System.InStep.of_flagWrite {pool : BackendPool} (hw : BackendPool.FlagWrite s.pool pool)
    (hv : pool.version = s.pool.version) :
    System.InStep hash poolPtr refreshes { s with pool := pool } where
  version_le := hv.trans_le h.version_le
  cached_le version hc := (h.cached_le version hc).trans_eq hv.symm
  fresh := h.fresh.of_sameMembership (.of_flagWrite hw) hv

/-- **A refresh** raises the version past the cache's. -/
lemma System.InStep.applyResolved (hr : refreshes + 1 < 2 ^ 64) (backends : List Backend) :
    System.InStep hash poolPtr (refreshes + 1)
      { s with pool := s.pool.applyResolved backends } := by
  by_cases hu : s.pool.resolvedSetUnchanged backends = true
  · have hs : s.pool.applyResolved backends = s.pool := if_pos hu
    rw [hs]
    exact ⟨h.version_le.trans (Nat.le_succ _), h.cached_le, h.fresh⟩
  · have hv : (s.pool.applyResolved backends).version = s.pool.version + 1 := by
      rw [BackendPool.applyResolved, if_neg hu]
      exact Nat.mod_eq_of_lt (lt_of_le_of_lt (Nat.succ_le_succ h.version_le) hr)
    have hlt : ∀ version, s.balancer.cachedFor poolPtr = some version →
        version < (s.pool.applyResolved backends).version := by
      intro version hc
      rw [hv]
      exact Nat.lt_succ_of_le (h.cached_le version hc)
    exact ⟨hv.trans_le (Nat.succ_le_succ h.version_le),
      fun version hc => (hlt version hc).le, .of_cachedFor_lt hlt⟩

lemma System.InStep.pick (key : String) (excluded : List BackendId) (nowA nowB : ℕ) :
    System.InStep hash poolPtr refreshes
      (s.apply hash score poolPtr (.pick key excluded nowA nowB)) := by
  rcases s.balancer.cache_pickExcluding score s.pool key excluded nowA nowB with
    ⟨hc, hf⟩ | ⟨hc, hf⟩
  · exact ⟨h.version_le, fun version hv => h.cached_le version (hc ▸ hv), hf h.fresh⟩
  · exact ⟨h.version_le, fun version hv => by cases hc.symm.trans hv; rfl, hf⟩

lemma System.InStep.of_feedback
    (hc : balancer.cachedFor poolPtr = s.balancer.cachedFor poolPtr)
    (hf : balancer.Fresh hash poolPtr s.pool ↔ s.balancer.Fresh hash poolPtr s.pool) :
    System.InStep hash poolPtr refreshes { s with balancer := balancer } where
  version_le := h.version_le
  cached_le version hv := h.cached_le version (hc ▸ hv)
  fresh := hf.mpr h.fresh

lemma System.InStep.apply {e : SystemEvent} (hro : refreshes + e.isRefresh.toNat < 2 ^ 64) :
    System.InStep hash poolPtr (refreshes + e.isRefresh.toNat) (s.apply hash score poolPtr e) := by
  cases e with
  | pool e =>
    cases hr : e.isRefresh with
    | false =>
      rw [SystemEvent.isRefresh, hr]
      exact h.of_flagWrite (.apply hr) (BackendPool.FlagCall.apply hr).version_eq
    | true =>
      cases e with
      | applyResolved backends => exact h.applyResolved hro backends
      | _ => cases hr
  | trackActive id =>
    refine h.of_flagWrite (.trackActive s.pool id) ?_
    unfold BackendPool.trackActive
    split <;> rfl
  | releaseActive guard =>
    refine h.of_flagWrite (.releaseActive s.pool guard) ?_
    unfold BackendPool.releaseActive
    split <;> rfl
  | pick key excluded nowA nowB => exact h.pick key excluded nowA nowB
  | recordLatency | recordOutcome =>
    refine h.of_feedback ?_ ?_ <;> cases s.balancer <;> rfl

omit h

lemma System.InStep.start (backends : List Backend) (fraction : Option ℚ)
    (hc : balancer.cachedFor poolPtr = none) :
    System.InStep hash poolPtr 0 ⟨.withMaxEjectedFraction backends fraction, balancer⟩ where
  version_le := le_rfl
  cached_le version hv := by
    rw [hc] at hv
    cases hv
  fresh := .of_cachedFor_lt fun version hv => by
    rw [hc] at hv
    cases hv

/-- **The cache over a run** whose refreshes do not exhaust the version counter. -/
lemma fresh_of_run (hc : balancer.cachedFor poolPtr = none)
    (hr : events.countP SystemEvent.isRefresh < 2 ^ 64)
    (h : Run (System.Step hash score poolPtr) ⟨.withMaxEjectedFraction backends fraction,
      balancer⟩ events s) :
    s.balancer.Fresh hash poolPtr s.pool := by
  suffices hs : s.InStep hash poolPtr (events.countP SystemEvent.isRefresh) from hs.fresh
  induction h with
  | start => exact .start backends fraction hc
  | @next events s s' e _ hs ih =>
    have hco : (events ++ [e]).countP SystemEvent.isRefresh =
        events.countP SystemEvent.isRefresh + e.isRefresh.toNat := by
      rw [countP_append, countP_singleton]
      cases e.isRefresh <;> rfl
    rw [hco] at hr ⊢
    exact hs ▸ (ih (by omega)).apply hr

/-- **Caches are invisible.**  Along every run, with as many refreshes as the version can count, a
pick returns what it returns with nothing cached. -/
theorem cached_pick_eq (hptr : poolPtr ≠ 0) (hroom : events.countP SystemEvent.isRefresh < 2 ^ 64)
    (h : Run (System.Step hash score poolPtr) ⟨.withMaxEjectedFraction backends fraction,
      balancer.uncached⟩ events s) (key : String) (excluded : List BackendId) (nowA nowB : ℕ) :
    (s.balancer.pickExcluding hash score poolPtr s.pool key excluded nowA nowB).1 =
      (s.balancer.uncached.pickExcluding hash score poolPtr s.pool key excluded nowA nowB).1 := by
  have hf := fresh_of_run (balancer.cachedFor_uncached hptr) hroom h
  have hn : s.balancer.uncached.Fresh hash poolPtr s.pool := .of_cachedFor_lt fun _ hv => by
    simp [Strategy.cachedFor_uncached _ hptr] at hv
  obtain ⟨pool, self⟩ := s
  cases self with
  | consistentHash state =>
    exact (ConsistentHash.pickExcluding_fst hf key excluded).trans
      (ConsistentHash.pickExcluding_fst hn key excluded).symm
  | maglev state =>
    exact (Maglev.pickExcluding_fst hf key excluded).trans
      (Maglev.pickExcluding_fst hn key excluded).symm
  | _ => rfl

/-- A ring is cached, and then a backend enters the pool. -/
theorem cached_pick_eq_refreshed :
    let score : String → BackendId → ℕ → ℕ := fun _ _ weight => weight
    let start : System := ⟨.withMaxEjectedFraction [] none, (Strategy.consistentHash .new).uncached⟩
    ∃ events s, Run (System.Step hashParts score 1) start events s ∧ s.pool.version = 1 ∧
      (s.balancer.pickExcluding hashParts score 1 s.pool "k" [] 0 0).1 =
        (s.balancer.uncached.pickExcluding hashParts score 1 s.pool "k" [] 0 0).1 := by
  intro score start
  have hr : Run (System.Step hashParts score 1) start ([] ++ [.pick "k" [] 0 0] ++
      [.pool (.applyResolved [⟨"a", "10.0.0.1:80", 1, none, 0⟩])]) _ :=
    (Run.start.next rfl).next rfl
  exact ⟨_, _, hr, rfl, cached_pick_eq one_ne_zero (by decide) hr "k" [] 0 0⟩

/-- **The pool over a run** whose refreshes list no id twice. -/
lemma consistent_of_run (hn : (backends.map fun b => b.id).Nodup)
    (he : ∀ e ∈ events, e.Distinct)
    (h : Run (System.Step hash score poolPtr) ⟨.withMaxEjectedFraction backends fraction,
      balancer⟩ events s) :
    s.pool.Consistent := by
  induction h with
  | start => exact (BackendPool.lists_withMaxEjectedFraction hn fraction).1
  | @next events s s' e _ hs ih =>
    rw [forall_mem_append, forall_mem_singleton] at he
    have hp := ih he.1
    rw [← hs]
    cases e with
    | pool e =>
      have hl : s.pool.Lists (s.pool.members.map fun s => s.backend) := ⟨hp, .refl _⟩
      exact (hl.apply he.2).1
    | trackActive id => exact (BackendPool.FlagWrite.trackActive s.pool id).consistent hp
    | releaseActive guard => exact (BackendPool.FlagWrite.releaseActive s.pool guard).consistent hp
    | pick | recordLatency | recordOutcome => exact hp

/-! ## Which backend a pick returns -/

/-- **A usable backend is found.**  In every reachable pool and whatever a strategy's cursor,
random numbers or measurements, a pick returns a usable backend, and none only if there is none;
under Maglev this needs a usable backend that has a turn before the table is full. -/
theorem usable_backend_found_iff {backends : List Backend}
    (hnodup : (backends.map fun b => b.id).Nodup) {fraction : Option ℚ} {balancer : Strategy}
    {events : List SystemEvent} {s : System} (hevents : ∀ e ∈ events, e.Distinct)
    (hrun : Run (System.Step hash score poolPtr)
      ⟨.withMaxEjectedFraction backends fraction, balancer⟩ events s)
    {self : Strategy} (hfresh : self.Fresh hash poolPtr s.pool) (key : String)
    (excluded : List BackendId) (nowA nowB : ℕ) :
    ((∀ id, (self.pickExcluding hash score poolPtr s.pool key excluded nowA nowB).1 = some id →
        Usable s.pool (readsWeights self.kind) excluded id) ∧
      ((self.pickExcluding hash score poolPtr s.pool key excluded nowA nowB).1 = none ↔
        ∀ id, ¬ Usable s.pool (readsWeights self.kind) excluded id)) ↔
    ((∃ id, Usable s.pool (readsWeights self.kind) excluded id) →
      ∃ id, Usable s.pool (readsWeights self.kind) excluded id ∧
        (self.kind = .maglev → Maglev.precedingWeight s.pool id < Maglev.tableSize)) := by
  have hc := Strategy.chooses hash score poolPtr (consistent_of_run hnodup hevents hrun)
    hfresh key excluded nowA nowB
  refine Iff.trans ?_ (hc.wider_iff fun _ h => h.1)
  exact ⟨fun h => ⟨h.1, h.2⟩, fun h => ⟨h.sound, h.none_iff⟩⟩

/-- A circuit opens and the standby takes over. -/
theorem usable_backend_found_standby :
    let primary : Backend := ⟨"primary", "10.0.0.1:80", 3, none, 0⟩
    let standby : Backend := ⟨"standby", "10.0.0.2:80", 1, none, 0⟩
    let score : String → BackendId → ℕ → ℕ := fun _ _ weight => weight
    ∃ s, Run (System.Step hashParts score 1)
        ⟨.withMaxEjectedFraction [primary, standby] none, .maglev .new⟩
        [.trackActive "primary", .pool (.setCircuitOpen "primary" true 7)] s ∧
      ((Strategy.maglev .new).pickExcluding hashParts score 1 s.pool "client" [] 0 0).1 =
        some "standby" := by
  intro primary standby score
  have hr : Run (System.Step hashParts score 1)
      ⟨.withMaxEjectedFraction [primary, standby] none, .maglev .new⟩
      ([] ++ [.trackActive "primary"] ++ [.pool (.setCircuitOpen "primary" true 7)]) _ :=
    (Run.start.next rfl).next rfl
  refine ⟨_, hr, ?_⟩
  generalize hs : System.apply hashParts score 1 _ (.pool (.setCircuitOpen "primary" true 7)) = s
    at hr ⊢
  have he : s.pool.eligibleWithWeights = [("standby", 1)] := by
    subst hs
    decide +kernel
  have hb : Maglev.precedingWeight s.pool "standby" < Maglev.tableSize := by
    subst hs
    decide +kernel
  have hp := consistent_of_run (by decide) (by decide) hr
  have hu : ∀ id, Usable s.pool true [] id ↔ id = "standby" := by
    intro id
    rw [← exists_mem_weights_iff hp, he]
    simp
  have hf : (Strategy.maglev .new).Fresh hashParts 1 s.pool :=
    .of_cachedFor_lt fun version h => by cases h
  obtain ⟨hso, hn⟩ := (usable_backend_found_iff (by decide) (by decide) hr hf "client"
    [] 0 0).mpr fun _ => ⟨"standby", (hu _).mpr rfl, fun _ => hb⟩
  obtain ⟨id, hid⟩ := Option.ne_none_iff_exists'.mp fun h =>
    hn.mp h "standby" ((hu _).mpr rfl)
  rw [hid, (hu id).mp (hso id hid)]

/-- Backends of different ids and of the greatest weight that counts. -/
def heavyBackend (i : ℕ) : Backend :=
  ⟨String.ofList (List.replicate (i + 1) 'b'), "10.0.0.1:80", 100, none, 0⟩

lemma heavyBackend_id_injective : Function.Injective fun i => (heavyBackend i).id := by
  intro i j h
  have hl := congrArg List.length (String.ofList_injective h)
  rw [length_replicate, length_replicate] at hl
  exact Nat.succ_injective hl

def heavyPool (n : ℕ) : BackendPool :=
  .withMaxEjectedFraction ((List.range n).map heavyBackend) none

lemma heavyPool_nodup (n : ℕ) : (((List.range n).map heavyBackend).map fun b => b.id).Nodup := by
  rw [map_map]
  exact nodup_range.map heavyBackend_id_injective

lemma allBackendIds_heavyPool (n : ℕ) :
    (heavyPool n).allBackendIds = (List.range n).map fun i => (heavyBackend i).id := by
  rw [← Function.comp_def (fun b : Backend => b.id), ← map_map]
  rfl

lemma cappedWeight_heavyPool {n i : ℕ} (hi : i < n) :
    cappedWeight Maglev.maxWeight (heavyPool n) (heavyBackend i).id = 100 := by
  have hm : BackendState.fresh false (heavyBackend i) ∈ (heavyPool n).members := by
    rw [heavyPool, BackendPool.members_withMaxEjectedFraction]
    exact mem_map_of_mem (mem_map_of_mem (mem_range.mpr hi))
  have hp := (BackendPool.lists_withMaxEjectedFraction (heavyPool_nodup n) none).1
  have hb : (heavyPool n).backend (heavyBackend i).id = some (heavyBackend i) :=
    hp.backend_of_mem hm
  rw [cappedWeight, hb]
  rfl

lemma precedingWeight_heavyPool (n : ℕ) :
    Maglev.precedingWeight (heavyPool (n + 1)) (heavyBackend n).id = n * 100 := by
  have hb : ∀ id ∈ (List.range n).map fun i => (heavyBackend i).id,
      decide (id ≠ (heavyBackend n).id) = true := by
    intro id hid
    obtain ⟨i, hi, rfl⟩ := mem_map.mp hid
    rw [decide_eq_true_iff, ne_eq, heavyBackend_id_injective.eq_iff]
    exact (mem_range.mp hi).ne
  rw [Maglev.precedingWeight, allBackendIds_heavyPool, range_succ, map_append,
    takeWhile_append_of_pos hb, map_singleton, takeWhile_cons_of_neg (by simp),
    append_nil, map_map, map_congr_left (g := fun _ => 100), map_const',
    length_range, sum_replicate, smul_eq_mul]
  intro i hi
  exact cappedWeight_heavyPool ((mem_range.mp hi).trans (Nat.lt_succ_self n))

/-- Of 657 backends of weight 100, the first 656 fill the table.  When they have been tried, a
pick finds nothing, although the last backend is eligible. -/
theorem maglev_misses_last_backend :
    let excluded := (List.range 656).map fun i => (heavyBackend i).id
    let score : String → BackendId → ℕ → ℕ := fun _ _ weight => weight
    Usable (heavyPool 657) true excluded (heavyBackend 656).id ∧
      ((Strategy.maglev .new).pickExcluding hashParts score 1 (heavyPool 657) "client" excluded
        0 0).1 = none := by
  intro excluded score
  have hp : (heavyPool 657).Consistent :=
    (BackendPool.lists_withMaxEjectedFraction (heavyPool_nodup 657) none).1
  have he : (heavyPool 657).isEligible (heavyBackend 656).id = true :=
    BackendPool.isEligible_withMaxEjectedFraction (heavyPool_nodup 657) none 0
      (by simp [heavyBackend]) (mem_map_of_mem (mem_range.mpr (by decide)))
  have hw : 0 < cappedWeight Maglev.maxWeight (heavyPool 657) (heavyBackend 656).id := by
    rw [cappedWeight_heavyPool (by decide)]
    decide
  have hm : (heavyBackend 656).id ∈ (heavyPool 657).allBackendIds := by
    rw [allBackendIds_heavyPool]
    exact mem_map_of_mem (mem_range.mpr (by decide))
  have hex : (heavyBackend 656).id ∉ excluded := by
    intro h
    obtain ⟨i, hi, heq⟩ := mem_map.mp h
    exact (mem_range.mp hi).ne (heavyBackend_id_injective heq)
  refine ⟨(usable_iff hp Maglev.maxWeight (by decide) _ _).mpr
    ⟨⟨hm, hw⟩, allowed_iff.mpr ⟨he, hex⟩⟩, ?_⟩
  have hf : (Strategy.maglev .new).Fresh hashParts 1 (heavyPool 657) :=
    .of_cachedFor_lt fun version h => by cases h
  refine (Strategy.chooses hashParts score 1 hp hf "client" excluded 0 0).none_iff.mpr ?_
  rintro id ⟨hu, hr⟩
  -- only the last backend is left, and it has no slot
  have hid : id = (heavyBackend 656).id := by
    obtain ⟨⟨hids, -⟩, -⟩ := (usable_iff hp Maglev.maxWeight (by decide) _ _).mp hu
    rw [allBackendIds_heavyPool] at hids
    obtain ⟨i, hi, rfl⟩ := mem_map.mp hids
    by_contra hne
    have hlt : i < 656 := by
      have := mem_range.mp hi
      rcases Nat.lt_succ_iff_lt_or_eq.mp this with h | rfl
      · exact h
      · exact absurd rfl hne
    exact hu.not_excluded (mem_map_of_mem (mem_range.mpr hlt))
  have hlt := hr rfl
  rw [hid, precedingWeight_heavyPool] at hlt
  exact absurd hlt (by decide)

/-! ## Which keys move -/


variable (hash score) in
/-- **A hashing strategy is one stable rule** for each membership and key, whatever is cached. -/
lemma exists_stableChoice (pool : BackendPool) {kind : LoadBalancingStrategy}
    (hk : isHashing kind = true) (key : String) :
    ∃ choose : (BackendId → Bool) → Option BackendId, StableChoice choose ∧
      ∀ (pool' : BackendPool) (poolPtr : ℕ) (self : Strategy) (excluded : List BackendId)
        (nowA nowB : ℕ), pool'.Consistent → SameMembership pool pool' →
        self.kind = kind → self.Fresh hash poolPtr pool' →
        (self.pickExcluding hash score poolPtr pool' key excluded nowA nowB).1 =
          choose (allowed pool' excluded) := by
  cases kind with
  | consistentHash =>
    refine ⟨_, (StableChoice.find? (ConsistentHash.walk hash pool key)).comap fun x => x.2, ?_⟩
    intro pool' poolPtr self excluded nowA nowB _ hs hse hf
    cases self with
    | consistentHash state =>
      rw [← ConsistentHash.walk_eq hs]
      exact ConsistentHash.pickExcluding_fst hf key excluded
    | _ => cases hse
  | maglev =>
    refine ⟨_, StableChoice.find? (Maglev.walk hash pool key), ?_⟩
    intro pool' poolPtr self excluded nowA nowB _ hs hse hf
    cases self with
    | maglev state =>
      rw [← Maglev.walk_eq hs]
      exact Maglev.pickExcluding_fst hf key excluded
    | _ => cases hse
  | rendezvousHash =>
    refine ⟨_, (StableChoice.argmax (fun x => x.1)
      (RendezvousHash.ranking score pool key)).comap fun x => x.2, ?_⟩
    intro pool' poolPtr self excluded nowA nowB hp hs hse _
    cases self with
    | rendezvousHash =>
      rw [RendezvousHash.ranking, ← hs.ids_eq, ← funext hs.backend_eq]
      exact RendezvousHash.pickExcluding_eq hp excluded score key
    | _ => cases hse
  | _ => cases hk

/-- **Only the keys that must move do.**  Two pools of the same backends, of which the second has
fewer eligible ones: a key keeps its backend while that one may be used, so the picks differ
exactly for the keys whose backend was lost. -/
theorem only_lost_keys_move {pool pool' : BackendPool} (hp : pool.Consistent)
    (hp' : pool'.Consistent) (hsame : SameMembership pool pool') {self self' : Strategy}
    (hhashing : isHashing self.kind = true) (hkind : self'.kind = self.kind) {poolPtr' : ℕ}
    (hfresh : self.Fresh hash poolPtr pool) (hfresh' : self'.Fresh hash poolPtr' pool')
    (key : String) {excluded excluded' : List BackendId}
    (hsub : ∀ id, pool'.isEligible id = true ∧ id ∉ excluded' →
      pool.isEligible id = true ∧ id ∉ excluded) (nowA nowB nowA' nowB' : ℕ) :
    let pick := (self.pickExcluding hash score poolPtr pool key excluded nowA nowB).1
    let pick' := (self'.pickExcluding hash score poolPtr' pool' key excluded' nowA' nowB').1
    (∀ id, pick = some id → pool'.isEligible id = true ∧ id ∉ excluded' → pick' = some id) ∧
      (pick' ≠ pick ↔ ∃ id, pick = some id ∧ ¬ (pool'.isEligible id = true ∧ id ∉ excluded')) := by
  obtain ⟨choose, hs, hpi⟩ := exists_stableChoice hash score pool hhashing key
  have ha : ∀ id, allowed pool' excluded' id = true → allowed pool excluded id = true :=
    fun id h => allowed_iff.mpr (hsub id (allowed_iff.mp h))
  intro pick pick'
  have hs' : SameMembership pool pool := ⟨rfl, fun _ => rfl⟩
  rw [show pick = _ from hpi pool poolPtr self excluded nowA nowB hp hs' rfl hfresh,
    show pick' = _ from hpi pool' poolPtr' self' excluded' nowA' nowB' hp' hsame hkind hfresh']
  refine ⟨fun id h hid => hs.contract ha h (allowed_iff.mpr hid), ?_⟩
  rw [hs.ne_iff ha]
  simp only [← allowed_iff, Bool.not_eq_true]

/-- Draining one of three backends leaves a key where it was, if it was at another one. -/
theorem only_lost_keys_move_drain :
    let a : Backend := ⟨"a", "10.0.0.1:80", 2, none, 0⟩
    let b : Backend := ⟨"b", "10.0.0.2:80", 5, none, 0⟩
    let c : Backend := ⟨"c", "10.0.0.3:80", 1, none, 0⟩
    let pool := BackendPool.withMaxEjectedFraction [a, b, c] none
    let score : String → BackendId → ℕ → ℕ := fun _ _ weight => weight
    (Strategy.rendezvousHash.pickExcluding hashParts score 1 pool "client" [] 0 0).1 = some "b" ∧
      (Strategy.rendezvousHash.pickExcluding hashParts score 1
        (pool.setManuallyDrained "a" true 9) "client" ["c"] 0 0).1 = some "b" := by
  intro a b c pool score
  have hp : pool.Consistent := (BackendPool.lists_withMaxEjectedFraction (by decide) none).1
  have hw := (BackendPool.FlagCall.setManuallyDrained pool "a" true 9).flagWrite
  have hpi : (Strategy.rendezvousHash.pickExcluding hashParts score 1 pool "client" [] 0 0).1 =
      some "b" := by decide +kernel
  have hs := SameMembership.of_flagWrite hw
  have hsu : ∀ id, (pool.setManuallyDrained "a" true 9).isEligible id = true ∧ id ∉ ["c"] →
      pool.isEligible id = true ∧ id ∉ [] := by
    intro id h
    have hm := (hw.consistent hp).mem_allBackendIds h.1
    rw [hs.ids_eq] at hm
    have he : ∀ id ∈ ["a", "b", "c"], pool.isEligible id = true := by decide +kernel
    exact ⟨he id hm, not_mem_nil⟩
  have hf : ∀ pool, Strategy.rendezvousHash.Fresh hashParts 1 pool := fun _ => trivial
  exact ⟨hpi, (only_lost_keys_move hp (hw.consistent hp) hs rfl rfl (hf _) (hf _)
    "client" hsu 0 0 0 0).1 "b" hpi (by decide +kernel)⟩

end

end LoadBalancer.Balancer
