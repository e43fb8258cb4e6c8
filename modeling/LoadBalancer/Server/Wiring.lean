import LoadBalancer.Core.ListenerConfig
import LoadBalancer.Core.Membership
import LoadBalancer.Health.CircuitBreaker
import LoadBalancer.Health.Outlier

/-!
# Building a listener

`build_listener_core` (`crates/lb-server/src/wiring.rs`) makes what an HTTP listener runs with: a
pool for its own backends and one for each route and canary section, and the tables shared by all
of them — circuit breakers, counters, gates and adaptive limits by backend id, and the pinned
addresses by server name.  The tables are flat: what keeps the pools apart in them is that ids are
unique.

On a reload the state of the previous listener is carried over: drains and health flags, the
breakers' states, and the backends that DNS had found.  The cooldown of a breaker after a streak
of trips is computed in floating point and is a parameter.
-/

namespace LoadBalancer.Server

open LoadBalancer.Core LoadBalancer.Health List

/-! ## What belongs to a backend -/

structure Breaker where
  settings : BreakerSettings
  state : CircuitBreaker
  deriving Inhabited

/-- The counters of a backend are found by two labels. -/
structure BackendMetrics where
  listener : String
  backend : String
  deriving DecidableEq, Inhabited

structure BackendGate where
  /-- The permits that the semaphore was made with. -/
  capacity : ℕ
  permits : ℕ
  waiting : ℕ
  deriving DecidableEq, Inhabited

def BackendGate.new (maxActive : ℕ) : BackendGate := ⟨maxActive, maxActive, 0⟩

/-- An adaptive limit, without the estimates it is adapted by. -/
structure AdaptiveLimit where
  cfg : AdaptiveConcurrencyConfig
  limit : ℕ
  inFlight : ℕ
  deriving Inhabited

def AdaptiveLimit.new (cfg : AdaptiveConcurrencyConfig) : AdaptiveLimit :=
  ⟨cfg, max cfg.minLimit (min cfg.initialLimit cfg.maxLimit), 0⟩

/-! ## The state of the previous listener -/

structure PreviousHealth where
  activeHealthy : Bool
  awaitingFirstProbe : Bool
  deriving DecidableEq

structure PreviousListenerState where
  manuallyDrained : List BackendId
  health : Table BackendId PreviousHealth
  circuitBreakers : Table BackendId CircuitBreaker
  dnsBackends : Option (List Backend)

def seedBackend (previous : PreviousListenerState) (nanos : ℕ) (pool : BackendPool)
    (b : Backend) : BackendPool :=
  let pool := if b.id ∈ previous.manuallyDrained then
    pool.setManuallyDrained b.id true nanos else pool
  match previous.health.get b.id with
  | some health =>
    let pool := pool.setActiveHealthy b.id health.activeHealthy nanos
    if health.awaitingFirstProbe then pool.markAwaitingFirstProbe b.id else pool
  | none => pool.markAwaitingFirstProbe b.id

def seedFromPrevious (pool : BackendPool) (backends : List Backend)
    (previous : Option PreviousListenerState) (nanos : ℕ) : BackendPool :=
  match previous with
  | none => pool
  | some previous => backends.foldl (seedBackend previous nanos) pool

section

variable (scaled : HealthCheckConfig → ℕ → ℕ)

def breakerFor (hc : HealthCheckConfig) (snapshot : Option CircuitBreaker) : Breaker where
  settings :=
    { failureThreshold := hc.failureThreshold.toNat
      failureThreshold_lt := hc.failureThreshold.toNat_lt
      cooldown := hc.cooldownMs * 1000000
      halfOpenSuccessesRequired := hc.halfOpenSuccessesRequired.toNat
      halfOpenSuccessesRequired_lt := hc.halfOpenSuccessesRequired.toNat_lt
      scaledCooldown := scaled hc
      flapStreakReset := hc.flapStreakResetMs * 1000000
      unhealthyLatency := hc.unhealthyLatencyMs.map (· * 1000000)
      unhealthyRequestCount := hc.unhealthyRequestCount }
  state := snapshot.getD .new

def newOrMigratedBreaker (previous : Option PreviousListenerState) (id : BackendId)
    (hc : HealthCheckConfig) : Breaker :=
  breakerFor scaled hc (previous.bind fun p => p.circuitBreakers.get id)

def buildOutlierDetector (backends : List Backend) (hc : HealthCheckConfig) :
    Option OutlierDetector :=
  hc.outlierDetection.map fun od =>
    let interval := max hc.intervalMs 1
    .new (backends.map fun b => b.id)
      { minVolume := od.minVolume
        minHosts := od.minHosts
        stddevFactor := od.stddevFactor
        ejectTicks := max ((hc.cooldownMs + interval - 1) / interval) 1 % 2 ^ 32 }

def toBackend (localZone : Option String) (b : BackendConfig) : Backend where
  id := b.id
  address := b.address
  weight := b.weight
  serverName := b.serverName
  priority := b.effectivePriority localZone

/-! ## The listener -/

/-- A pool with its backends: the listener's own, a route's, or a canary section's. -/
structure PoolCore where
  backends : List Backend
  pool : BackendPool
  outlier : Option OutlierDetector
  healthCheck : HealthCheckConfig

/-- A pool as it is built; the validated fraction is a number. -/
def buildPool (backends : List Backend) (hc : HealthCheckConfig)
    (previous : Option PreviousListenerState) (nanos : ℕ) : PoolCore where
  backends := backends
  pool := seedFromPrevious
    (.withMaxEjectedFraction backends (hc.maxEjectedFraction.bind Float64.toRat)) backends previous
    nanos
  outlier := buildOutlierDetector backends hc
  healthCheck := hc

structure ListenerCore where
  name : String
  main : PoolCore
  routes : List PoolCore
  canary : List PoolCore
  serverNameAddresses : Table String SocketAddr
  circuitBreakers : BackendMap Breaker
  backendMetrics : BackendMap BackendMetrics
  upstreamLimits : Option UpstreamLimitsConfig
  backendGates : BackendMap BackendGate
  adaptive : Option AdaptiveConcurrencyConfig
  adaptiveLimits : BackendMap AdaptiveLimit

namespace ListenerCore

variable (c : ListenerCore)

def pools : List PoolCore := c.main :: (c.routes ++ c.canary)

def allBackends : List Backend := c.pools.flatMap fun pool => pool.backends

end ListenerCore

def poolBackends (s : ListenerSettings) (previous : Option PreviousListenerState) :
    List Backend :=
  match previous.bind fun p => p.dnsBackends, s.dnsDiscovery with
  | some carried, some _ => carried
  | _, _ => s.backends.map (toBackend s.localZone)

def staticBackends (s : ListenerSettings) : List BackendConfig :=
  (s.routes.flatMap fun r => r.backends) ++ s.canary.flatMap fun p => p.backends

/-- The breakers of a pool's backends follow the pool's own health check. -/
def breakerEntries (previous : Option PreviousListenerState) (pool : PoolCore) :
    List (BackendId × Breaker) :=
  pool.backends.map fun b =>
    (b.id, newOrMigratedBreaker scaled previous b.id pool.healthCheck)

/-- The table that pins a server name to an address; of several backends with one name the last
counts. -/
def pinnedAddresses (backends : List Backend) : Table String SocketAddr :=
  (backends.filterMap fun b => b.serverName.map fun name => (name, b.address)).foldl
    (fun t e => t.insert e.1 e.2) ∅

def buildListenerCore (l : ListenerConfig SocketAddr ListenerSettings)
    (previous : Option PreviousListenerState) (nanos : ℕ) : ListenerCore :=
  let s := l.settings
  let main := buildPool (poolBackends s previous) s.healthCheck previous nanos
  let routes := s.routes.map fun r =>
    buildPool (r.backends.map (toBackend s.localZone)) r.healthCheck previous nanos
  let canary := s.canary.map fun c =>
    buildPool (c.backends.map (toBackend s.localZone)) c.healthCheck previous nanos
  let pools := main :: (routes ++ canary)
  let allBackends := pools.flatMap fun pool => pool.backends
  { name := l.name
    main := main
    routes := routes
    canary := canary
    serverNameAddresses := pinnedAddresses allBackends
    circuitBreakers := .collect (pools.flatMap (breakerEntries scaled previous))
    backendMetrics := .collect (allBackends.map fun b => (b.id, ⟨l.name, b.id⟩))
    upstreamLimits := s.upstreamLimits
    backendGates := .collectIf s.upstreamLimits (allBackends.map fun b => b.id) fun u =>
      .new u.maxActivePerBackend
    adaptive := s.adaptiveConcurrency
    adaptiveLimits := .collectIf s.adaptiveConcurrency (allBackends.map fun b => b.id) .new }

end

/-! ## What is built -/

variable {P : BackendPool → Prop}

lemma seedBackend_induction (previous : PreviousListenerState) (nanos : ℕ) {b : Backend}
    (hd : ∀ p, P p → b.id ∈ previous.manuallyDrained →
      P (p.setManuallyDrained b.id true nanos))
    (hh : ∀ p healthy, P p → P (p.setActiveHealthy b.id healthy nanos))
    (hw : ∀ p, P p → P (p.markAwaitingFirstProbe b.id)) {pool : BackendPool} (h : P pool) :
    P (seedBackend previous nanos pool b) := by
  have hs : P (if b.id ∈ previous.manuallyDrained then
      pool.setManuallyDrained b.id true nanos else pool) := by
    split_ifs with hm
    · exact hd pool h hm
    · exact h
  unfold seedBackend
  cases previous.health.get b.id with
  | none => exact hw _ hs
  | some health =>
    have hse := hh _ health.activeHealthy hs
    dsimp only
    by_cases ha : health.awaitingFirstProbe = true
    · rw [if_pos ha]
      exact hw _ hse
    · rw [if_neg ha]
      exact hse

lemma seedFromPrevious_induction {pool : BackendPool} (backends : List Backend)
    (previous : Option PreviousListenerState) (nanos : ℕ)
    (hd : ∀ p b, P p → b ∈ backends → (∃ st ∈ previous, b.id ∈ st.manuallyDrained) →
      P (p.setManuallyDrained b.id true nanos))
    (hh : ∀ p id healthy, P p → P (p.setActiveHealthy id healthy nanos))
    (hw : ∀ p id, P p → P (p.markAwaitingFirstProbe id)) (h : P pool) :
    P (seedFromPrevious pool backends previous nanos) := by
  cases previous with
  | none => exact h
  | some previous =>
    unfold seedFromPrevious
    induction backends generalizing pool with
    | nil => exact h
    | cons b backends ih =>
      refine ih ?_ fun p b' hp hb' => hd p b' hp (mem_cons_of_mem _ hb')
      exact seedBackend_induction previous nanos
        (fun p hp hm => hd p b hp mem_cons_self ⟨previous, rfl, hm⟩)
        (fun p => hh p b.id) (fun p => hw p b.id) h

lemma flagWrite_seedFromPrevious (pool : BackendPool) (backends : List Backend)
    (previous : Option PreviousListenerState) (nanos : ℕ) :
    BackendPool.FlagWrite pool (seedFromPrevious pool backends previous nanos) :=
  seedFromPrevious_induction backends previous nanos
    (fun _ _ hp _ _ => hp.trans (BackendPool.FlagCall.setManuallyDrained ..).flagWrite)
    (fun _ _ _ hp => hp.trans (BackendPool.FlagCall.setActiveHealthy ..).flagWrite)
    (fun p id hp => hp.trans (BackendPool.FlagCall.markAwaitingFirstProbe p id 0).flagWrite)
    (.refl pool)

section

variable (backends : List Backend) (hc : HealthCheckConfig)
  (previous : Option PreviousListenerState) (nanos : ℕ)

lemma indexed_buildPool : (buildPool backends hc previous nanos).pool.Indexed :=
  (flagWrite_seedFromPrevious _ backends previous nanos).indexed
    (BackendPool.indexed_withMaxEjectedFraction backends _)

lemma maxEjectedFraction_buildPool :
    (buildPool backends hc previous nanos).pool.maxEjectedFraction
      = hc.maxEjectedFraction.bind Float64.toRat :=
  seedFromPrevious_induction
    (P := fun p => p.maxEjectedFraction = hc.maxEjectedFraction.bind Float64.toRat)
    backends previous nanos
    (fun _ _ hp _ _ => (BackendPool.FlagCall.setManuallyDrained ..).maxEjectedFraction_eq.trans hp)
    (fun _ _ _ hp => (BackendPool.FlagCall.setActiveHealthy ..).maxEjectedFraction_eq.trans hp)
    (fun p id hp =>
      (BackendPool.FlagCall.markAwaitingFirstProbe p id 0).maxEjectedFraction_eq.trans hp) rfl

lemma backend_buildPool (id : BackendId) :
    (buildPool backends hc previous nanos).pool.backend id
      = (BackendPool.withMaxEjectedFraction backends none).backend id :=
  (flagWrite_seedFromPrevious _ backends previous nanos).backend id

lemma order_buildPool : (buildPool backends hc previous nanos).pool.inner.order
    = backends.map fun b => b.id := by
  have h := flagWrite_seedFromPrevious
    (.withMaxEjectedFraction backends (hc.maxEjectedFraction.bind Float64.toRat)) backends previous
    nanos
  exact congrArg PoolState.order h.inner_eq

end

/-- Every pool of a listener is built by `buildPool`. -/
lemma exists_buildPool_of_mem_pools {scaled : HealthCheckConfig → ℕ → ℕ}
    {l : ListenerConfig SocketAddr ListenerSettings} {previous : Option PreviousListenerState}
    {nanos : ℕ} {pool : PoolCore} (h : pool ∈ (buildListenerCore scaled l previous nanos).pools) :
    ∃ backends hc, pool = buildPool backends hc previous nanos := by
  rcases mem_cons.mp h with rfl | h
  · exact ⟨_, _, rfl⟩
  · rcases mem_append.mp h with h | h
    · obtain ⟨r, -, rfl⟩ := mem_map.mp h
      exact ⟨_, _, rfl⟩
    · obtain ⟨c, -, rfl⟩ := mem_map.mp h
      exact ⟨_, _, rfl⟩

lemma exists_of_get_pinnedAddresses {backends : List Backend} {name : String} {a : SocketAddr}
    (h : (pinnedAddresses backends).get name = some a) :
    ∃ b ∈ backends, b.serverName = some name ∧ b.address = a := by
  rcases AList.mem_of_get_foldl_insert h with hm | hno
  · obtain ⟨b, hb, he⟩ := mem_filterMap.mp hm
    obtain ⟨name', hn, heq⟩ := Option.map_eq_some_iff.mp he
    cases heq
    exact ⟨b, hb, hn, rfl⟩
  · cases hno

lemma exists_get_pinnedAddresses {backends : List Backend} {b : Backend} (hb : b ∈ backends)
    {name : String} (hn : b.serverName = some name) :
    ∃ a, (pinnedAddresses backends).get name = some a := by
  refine AList.exists_get_of_mem (AList.mem_foldl_insert_iff.mpr (Or.inl ?_))
  refine mem_map.mpr ⟨(name, b.address), mem_filterMap.mpr ⟨b, hb, ?_⟩, rfl⟩
  rw [hn]
  rfl

lemma poolBackends_of_static {s : ListenerSettings} (hd : s.dnsDiscovery = none)
    (previous : Option PreviousListenerState) :
    poolBackends s previous = s.backends.map (toBackend s.localZone) := by
  rw [poolBackends, hd]
  cases previous.bind fun p => p.dnsBackends <;> rfl

lemma allBackends_buildListenerCore (scaled : HealthCheckConfig → ℕ → ℕ)
    {l : ListenerConfig SocketAddr ListenerSettings} (hd : l.settings.dnsDiscovery = none)
    (previous : Option PreviousListenerState) (nanos : ℕ) :
    (buildListenerCore scaled l previous nanos).allBackends
      = (l.settings.backends ++ staticBackends l.settings).map
        (toBackend l.settings.localZone) := by
  unfold buildListenerCore ListenerCore.allBackends ListenerCore.pools
  dsimp only
  rw [flatMap_cons, flatMap_append, flatMap_map, flatMap_map, staticBackends,
    map_append, map_append, map_flatMap, map_flatMap]
  exact congrArg (· ++ _) (poolBackends_of_static hd previous)

end LoadBalancer.Server
