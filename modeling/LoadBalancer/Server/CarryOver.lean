import LoadBalancer.Health.Migration
import LoadBalancer.Server.Drains

/-!
# What a reload carries over

A reload builds a listener anew and seeds it with what it captured of the running one: three flags
of each backend, the breakers, and the backends that DNS had found.  Flags and breakers are carried
over by id, from any pool to any pool.

The tables of a `ListenerCore` hold breakers without the instants they were created at; a
`RunningListener` has them as well, and `rebuiltBreakers` is the table as `build_listener_core`
makes it.  `map_forget_rebuiltBreakers` says that it is the table of the new core.
-/

namespace LoadBalancer.Server

open LoadBalancer.Core LoadBalancer.Health List

/-! ## A running listener -/

/-- A breaker as the tables have it. -/
def forgetCreation (b : ClockedBreaker) : Breaker := ⟨b.settings, b.atomics⟩

structure RunningListener where
  context : ListenerContext
  breakers : BackendMap ClockedBreaker
  reached : ∀ pool ∈ context.pools, pool.pool.Reached
  breakers_eq : ∀ id, (breakers.find id).map forgetCreation = context.core.circuitBreakers.find id

/-- No id is in two of the pools. -/
def DistinctAcross (pools : List PoolCore) : Prop :=
  pools.Pairwise fun p q => List.Disjoint p.pool.allBackendIds q.pool.allBackendIds

lemma DistinctAcross.eq {pools : List PoolCore} (h : DistinctAcross pools) {p q : PoolCore}
    (hp : p ∈ pools) (hq : q ∈ pools) {id : BackendId} (hid : id ∈ p.pool.allBackendIds)
    (hidq : id ∈ q.pool.allBackendIds) : p = q := by
  by_contra hne
  have : Std.Symm fun p q : PoolCore =>
      List.Disjoint p.pool.allBackendIds q.pool.allBackendIds :=
    ⟨fun _ _ hd => hd.symm⟩
  exact h.forall hp hq hne hid hidq

/-! ## Breakers -/

section

variable (scaled : HealthCheckConfig → ℕ → ℕ)

def breakerSettings (hc : HealthCheckConfig) : BreakerSettings :=
  (breakerFor scaled hc none).settings

/-- `breaker_for`: with a snapshot the breaker is migrated, without one it is created `now`. -/
def clockedBreakerFor (hc : HealthCheckConfig) (now : ℕ)
    (snapshot : Option CircuitBreakerSnapshot) : ClockedBreaker :=
  match snapshot with
  | some snapshot => .fromSnapshot (breakerSettings scaled hc) snapshot
  | none => .new (breakerSettings scaled hc) now

def breakerSnapshots (breakers : BackendMap ClockedBreaker) :
    Table BackendId CircuitBreakerSnapshot :=
  breakers.inner.mapValues fun r => (breakers.arena.read r).snapshot

def clockedEntries (now : ℕ) (snapshots : Table BackendId CircuitBreakerSnapshot)
    (pool : PoolCore) : List (BackendId × ClockedBreaker) :=
  pool.backends.map fun b =>
    (b.id, clockedBreakerFor scaled pool.healthCheck now (snapshots.get b.id))

/-- The breakers of a core that is built while `breakers` are running. -/
def rebuiltBreakers (breakers : BackendMap ClockedBreaker) (now : ℕ) (c : ListenerCore) :
    BackendMap ClockedBreaker :=
  .collect (c.pools.flatMap (clockedEntries scaled now (breakerSnapshots breakers)))

variable {scaled}

lemma get_breakerSnapshots (breakers : BackendMap ClockedBreaker) (id : BackendId) :
    (breakerSnapshots breakers).get id = (breakers.find id).map ClockedBreaker.snapshot := by
  rw [breakerSnapshots, AList.get_mapValues, BackendMap.find, BackendMap.get, Option.map_map]
  rfl

lemma forgetCreation_clockedBreakerFor (hc : HealthCheckConfig) (now : ℕ)
    (snapshot : Option CircuitBreakerSnapshot) :
    forgetCreation (clockedBreakerFor scaled hc now snapshot)
      = breakerFor scaled hc (snapshot.map CircuitBreakerSnapshot.atomics) := by
  cases snapshot <;> rfl

variable {breakers : BackendMap ClockedBreaker}

lemma map_forget_rebuiltBreakers {previous : PreviousListenerState}
    (hp : ∀ id, previous.circuitBreakers.get id =
      (breakers.find id).map ClockedBreaker.atomics)
    (now nanos : ℕ) (l : ListenerEntry) (id : BackendId) :
    ((rebuiltBreakers scaled breakers now
        (buildListenerCore scaled l (some previous) nanos)).find id).map
          forgetCreation
      = (buildListenerCore scaled l (some previous) nanos).circuitBreakers.find
          id := by
  have he : ∀ pool : PoolCore,
      (clockedEntries scaled now (breakerSnapshots breakers) pool).map
          (fun e => (e.1, forgetCreation e.2))
        = breakerEntries scaled (some previous) pool := by
    intro pool
    rw [clockedEntries, breakerEntries, map_map]
    refine map_congr_left fun b _ => congrArg (Prod.mk b.id) ?_
    rw [forgetCreation_clockedBreakerFor, get_breakerSnapshots, Option.map_map,
      newOrMigratedBreaker, Option.bind_some, hp]
    rfl
  rw [rebuiltBreakers, BackendMap.map_find_collect, map_flatMap]
  exact congrArg (fun entries => (BackendMap.collect (List.flatMap entries _)).find id)
    (funext he)

lemma find_rebuiltBreakers {c : ListenerCore}
    (hpo : ∀ pool ∈ c.pools, pool.pool.allBackendIds = pool.backends.map fun b => b.id)
    (hd : DistinctAcross c.pools) {pool : PoolCore} (hp : pool ∈ c.pools) {id : BackendId}
    (hid : id ∈ pool.pool.allBackendIds) {b : ClockedBreaker} (hb : breakers.find id = some b)
    (now : ℕ) :
    (rebuiltBreakers scaled breakers now c).find id
      = some (b.withSettings (breakerSettings scaled pool.healthCheck)) := by
  refine BackendMap.find_collect_of_forall ?_ fun e he hei => ?_
  · have hl := hid
    rw [hpo pool hp] at hl
    obtain ⟨backend, hba, rfl⟩ := mem_map.mp hl
    exact mem_map.mpr ⟨_, mem_flatMap.mpr ⟨pool, hp, mem_map.mpr ⟨backend, hba, rfl⟩⟩, rfl⟩
  · obtain ⟨pool', hp', he⟩ := mem_flatMap.mp he
    obtain ⟨backend, hba, rfl⟩ := mem_map.mp he
    dsimp only at hei ⊢
    subst hei
    have hid' : backend.id ∈ pool'.pool.allBackendIds := by
      rw [hpo pool' hp']
      exact mem_map_of_mem hba
    obtain rfl := hd.eq hp' hp hid' hid
    rw [get_breakerSnapshots, hb, Option.map_some]
    rfl

end

/-! ## Flags -/

namespace PreviousListenerState

lemma health_collectPool (st : PreviousListenerState) (pool : PoolCore) (id : BackendId) :
    (st.collectPool pool).health.get id
      = if id ∈ pool.pool.allBackendIds then
          some ⟨pool.pool.isActiveHealthy id, pool.pool.isAwaitingFirstProbe id⟩
        else st.health.get id := by
  unfold collectPool
  induction pool.pool.allBackendIds generalizing st with
  | nil => simp
  | cons id' ids ih =>
    rw [foldl_cons, ih, collectBackend, AList.get_insert]
    by_cases hid : id = id'
    · simp [hid]
    · simp [hid]

variable {id : BackendId} (ctx : ListenerContext) (carryDnsBackends : Bool)

lemma health_foldl_collectPool {pools : List PoolCore} (hd : DistinctAcross pools)
    {pool : PoolCore} (hp : pool ∈ pools) (hid : id ∈ pool.pool.allBackendIds)
    (st : PreviousListenerState) :
    (pools.foldl collectPool st).health.get id
      = some ⟨pool.pool.isActiveHealthy id, pool.pool.isAwaitingFirstProbe id⟩ := by
  -- from the last pool: it has the backend, or the pools before it have
  induction pools using List.reverseRecOn with
  | nil => cases hp
  | append_singleton pools last ih =>
    rw [foldl_append, foldl_cons, foldl_nil, health_collectPool]
    split_ifs with hl
    · have hs := hd.eq hp (mem_append_right _ mem_cons_self) hid hl
      rw [hs]
    · refine ih (pairwise_append.mp hd).1 ?_
      refine (mem_append.mp hp).resolve_right fun h => hl ?_
      rwa [← mem_singleton.mp h]

lemma health_foldl_collectPool_of_forall : ∀ (pools : List PoolCore)
    (st : PreviousListenerState), (∀ pool ∈ pools, id ∉ pool.pool.allBackendIds) →
      (pools.foldl collectPool st).health.get id = st.health.get id
  | [], _, _ => rfl
  | pool :: pools, st, hn => by
    obtain ⟨hp, hn⟩ := forall_mem_cons.mp hn
    rw [foldl_cons, health_foldl_collectPool_of_forall pools _ hn, health_collectPool, if_neg hp]

lemma health_ofContext :
    (ofContext ctx carryDnsBackends).health
      = (ctx.pools.foldl collectPool (empty ctx.core.circuitBreakers)).health := by
  cases carryDnsBackends <;> rfl

lemma circuitBreakers_collectPool (st : PreviousListenerState) (pool : PoolCore) :
    (st.collectPool pool).circuitBreakers = st.circuitBreakers := by
  unfold collectPool
  induction pool.pool.allBackendIds generalizing st with
  | nil => rfl
  | cons id ids ih => exact ih _

lemma get_circuitBreakers_ofContext (id : BackendId) :
    (ofContext ctx carryDnsBackends).circuitBreakers.get id
      = (ctx.core.circuitBreakers.find id).map Breaker.state := by
  have hfo : ∀ (pools : List PoolCore) (st : PreviousListenerState),
      (pools.foldl collectPool st).circuitBreakers = st.circuitBreakers := by
    intro pools
    induction pools with
    | nil => exact fun st => rfl
    | cons pool pools ih => exact fun st => (ih _).trans (circuitBreakers_collectPool st pool)
  have hf : (ofContext ctx carryDnsBackends).circuitBreakers
      = (ctx.pools.foldl collectPool (empty ctx.core.circuitBreakers)).circuitBreakers := by
    cases carryDnsBackends <;> rfl
  rw [hf, hfo, empty, AList.get_mapValues, BackendMap.find, BackendMap.get, Option.map_map]
  rfl

/-- **The flags of a backend** in one of the pools are those it is given again. -/
lemma seedFlags_ofContext {ctx : ListenerContext} (hd : DistinctAcross ctx.pools)
    {pool : PoolCore} (hp : pool ∈ ctx.pools) (hid : id ∈ pool.pool.allBackendIds)
    (carryDnsBackends : Bool) :
    (ofContext ctx carryDnsBackends).seedFlags id ⟨false, true, false⟩
      = ⟨pool.pool.isManuallyDrained id, pool.pool.isActiveHealthy id,
          pool.pool.isAwaitingFirstProbe id⟩ := by
  have hh : (ofContext ctx carryDnsBackends).health.get id = _ :=
    (congrArg (AList.get · id) (health_ofContext ctx carryDnsBackends)).trans
      (health_foldl_collectPool hd hp hid _)
  have hdr : decide (id ∈ (ofContext ctx carryDnsBackends).manuallyDrained)
      = pool.pool.isManuallyDrained id := by
    rw [Bool.eq_iff_iff, decide_eq_true_eq, mem_manuallyDrained_ofContext]
    constructor
    · rintro ⟨other, ho, hid', ho'⟩
      rwa [hd.eq hp ho hid hid']
    · exact fun h => ⟨pool, hp, hid, h⟩
  rw [seedFlags_of_known hh, hdr]
  rfl

lemma awaitingFirstProbe_seedFlags_ofContext {ctx : ListenerContext}
    (hn : ∀ pool ∈ ctx.pools, id ∉ pool.pool.allBackendIds) (carryDnsBackends : Bool)
    (flags : CarriedFlags) :
    ((ofContext ctx carryDnsBackends).seedFlags id flags).awaitingFirstProbe = true := by
  have hh : (ofContext ctx carryDnsBackends).health.get id = _ :=
    (congrArg (AList.get · id) (health_ofContext ctx carryDnsBackends)).trans
      (health_foldl_collectPool_of_forall ctx.pools _ hn)
  rw [seedFlags_of_new hh]

end PreviousListenerState

/-! ## What DNS had found -/

lemma backend_withMaxEjectedFraction_poolBackends {p : BackendPool} (hp : p.Listing)
    (fraction : Option ℚ) (id : BackendId) :
    (BackendPool.withMaxEjectedFraction (PreviousListenerState.poolBackends p) fraction).backend id
      = p.backend id := by
  set carried := PreviousListenerState.poolBackends p with hc
  have hl := BackendPool.listing_withMaxEjectedFraction carried fraction
  have ho : (BackendPool.withMaxEjectedFraction carried fraction).inner.order
      = p.inner.order := hp.indexed.map_id_backends hp.indexed.listed
  by_cases hid : id ∈ p.inner.order
  · obtain ⟨r, hg⟩ := AList.exists_get_of_mem (hl.indexed.listed id (ho ▸ hid))
    obtain ⟨b, hb, hf⟩ := BackendPool.exists_fresh_of_get hg
    have hbi := (hl.indexed.sound id r hg).2.1
    rw [hf] at hbi
    obtain ⟨id', -, hid'⟩ := mem_filterMap.mp hb
    obtain ⟨r', hg', hr⟩ := Option.map_eq_some_iff.mp hid'
    have hbi' : b.id = id' := hr ▸ (hp.indexed.sound id' r' hg').2.2
    obtain rfl : id' = id := hbi'.symm.trans hbi
    rw [BackendPool.backend, hg, Option.map_some, hf, hid']
    rfl
  · have hn : ∀ q : BackendPool, q.Listing → q.inner.order = p.inner.order →
        q.backend id = none := by
      intro q hq hs
      rw [← Option.isNone_iff_eq_none, ← Option.not_isSome, Bool.not_eq_true',
        ← Bool.not_eq_true, BackendPool.isSome_backend_iff]
      exact fun hm => hid (hs ▸ hq.known id hm)
    rw [hn _ hl ho, hn p hp rfl]

lemma main_buildListenerCore_of_carried {scaled : HealthCheckConfig → ℕ → ℕ}
    {l : ListenerEntry} {ctx : ListenerContext} (hm : ctx.core.main.pool.Listing)
    (hd : l.settings.dnsDiscovery.isSome = true) (nanos : ℕ) :
    let c := buildListenerCore scaled l
      (some (PreviousListenerState.ofContext ctx true)) nanos
    c.main.pool.allBackendIds = ctx.core.main.pool.allBackendIds ∧
      ∀ id, c.main.pool.backend id = ctx.core.main.pool.backend id := by
  intro c
  obtain ⟨dns, hd⟩ := Option.isSome_iff_exists.mp hd
  have hb : poolBackends l.settings (some (PreviousListenerState.ofContext ctx true))
      = PreviousListenerState.poolBackends ctx.core.main.pool := by
    rw [poolBackends, hd]
    rfl
  have hc : c.main = buildPool (PreviousListenerState.poolBackends ctx.core.main.pool)
      l.settings.healthCheck (some (PreviousListenerState.ofContext ctx true)) nanos :=
    congrArg (buildPool · _ _ _) hb
  rw [hc]
  refine ⟨(order_buildPool ..).trans ?_, fun id => (backend_buildPool ..).trans ?_⟩
  · exact hm.indexed.map_id_backends hm.indexed.listed
  · exact backend_withMaxEjectedFraction_poolBackends hm none id

/-! ## Reloading a running listener -/

lemma RunningListener.get_circuitBreakers_ofContext (r : RunningListener)
    (carryDnsBackends : Bool) (id : BackendId) :
    (PreviousListenerState.ofContext r.context carryDnsBackends).circuitBreakers.get id
      = (r.breakers.find id).map ClockedBreaker.atomics := by
  rw [PreviousListenerState.get_circuitBreakers_ofContext, ← r.breakers_eq, Option.map_map]
  rfl

lemma ListenerContext.main_mem_pools (ctx : ListenerContext) : ctx.core.main ∈ ctx.pools := by
  unfold ListenerContext.pools
  cases ctx.settings with
  | http | tcp => exact mem_cons_self

section

variable {scaled : HealthCheckConfig → ℕ → ℕ} {l : ListenerEntry} {nanos : ℕ}
  {pool : PoolCore}

lemma carriedFlags_of_mem_pools {previous : PreviousListenerState}
    (h : pool ∈ (buildListenerCore scaled l (some previous) nanos).pools)
    {id : BackendId} (hid : id ∈ pool.pool.allBackendIds) :
    pool.pool.carriedFlags id = some (previous.seedFlags id ⟨false, true, false⟩) := by
  obtain ⟨backends, hc, rfl⟩ := exists_buildPool_of_mem_pools h
  exact carriedFlags_buildPool (order_buildPool .. ▸ hid)

end

section

variable {ext : Externals} {new current : AppConfig} {nanos : ℕ} {st : ReloadState}
  {l : ListenerEntry} {connector : Option BackendTlsConfig} {p : Prepared}

/-- What is prepared for a listener that runs: it is built with what is captured of the context, and
DNS's backends are carried over if that section has not changed. -/
lemma core_of_prepareListener {ctx : ListenerContext}
    (hl : st.listeners.get l.name = some ctx)
    (h : prepareListener ext new current nanos st l connector = .ok p) :
    p.context.core = buildListenerCore ext.scaledCooldown l
      (some (PreviousListenerState.ofContext ctx
        (l.settings.dnsDiscovery.isSome && current.listeners.any fun old =>
          old.name = l.name && old.settings.dnsDiscovery = l.settings.dnsDiscovery)))
      nanos := by
  obtain ⟨context, hc, h⟩ := Except.bind_eq_ok_iff.mp h
  obtain ⟨tasks, -, h⟩ := Except.bind_eq_ok_iff.mp h
  cases h
  rw [hl, Option.map_some] at hc
  obtain ⟨settings, -, hc⟩ := Except.bind_eq_ok_iff.mp (Except.mapError_eq_ok_iff.mp hc)
  cases hc
  rfl

/-- **A reload keeps what it should.**  A backend that is in a pool before and after has its flags,
and its breaker, if it had one, goes on as the old one would under the new settings.  A backend
that was in no pool has its first probe ahead.  With the same `dns_discovery` section the own pool
has the backends it had. -/
theorem reload_carries_over (r : RunningListener)
    (hlive : st.listeners.get l.name = some r.context) (hold : DistinctAcross r.context.pools)
    (h : prepareListener ext new current nanos st l connector = .ok p)
    (hnew : DistinctAcross p.context.core.pools) (now : ℕ) :
    let breakers := rebuiltBreakers ext.scaledCooldown r.breakers now p.context.core
    (∀ id, (breakers.find id).map forgetCreation = p.context.core.circuitBreakers.find id) ∧
    (∀ pool ∈ r.context.pools, ∀ pool' ∈ p.context.pools, ∀ id ∈ pool.pool.allBackendIds,
      id ∈ pool'.pool.allBackendIds →
        pool'.pool.isManuallyDrained id = pool.pool.isManuallyDrained id ∧
        pool'.pool.isActiveHealthy id = pool.pool.isActiveHealthy id ∧
        pool'.pool.isAwaitingFirstProbe id = pool.pool.isAwaitingFirstProbe id ∧
        ∀ b ∈ r.breakers.find id, ∃ b' ∈ breakers.find id,
          b'.settings = breakerSettings ext.scaledCooldown pool'.healthCheck ∧
          ∀ calls, b'.transitions calls = (b.withSettings b'.settings).transitions calls) ∧
    (∀ pool' ∈ p.context.pools, ∀ id ∈ pool'.pool.allBackendIds,
      (∀ pool ∈ r.context.pools, id ∉ pool.pool.allBackendIds) →
        pool'.pool.isAwaitingFirstProbe id = true) ∧
    (l.settings.dnsDiscovery.isSome = true →
      (∃ old ∈ current.listeners, old.name = l.name ∧
        old.settings.dnsDiscovery = l.settings.dnsDiscovery) →
      p.context.core.main.pool.allBackendIds = r.context.core.main.pool.allBackendIds ∧
        ∀ id, p.context.core.main.pool.backend id = r.context.core.main.pool.backend id) := by
  intro breakers
  set carry := l.settings.dnsDiscovery.isSome && current.listeners.any fun old =>
    old.name = l.name && old.settings.dnsDiscovery = l.settings.dnsDiscovery with hca
  set previous := PreviousListenerState.ofContext r.context carry with hp
  have hco : p.context.core = buildListenerCore ext.scaledCooldown l (some previous)
      nanos := core_of_prepareListener hlive h
  have hpoo : ∀ pool ∈ p.context.core.pools,
      pool.pool.allBackendIds = pool.backends.map fun b => b.id := by
    intro pool hpo
    obtain ⟨backends, hc, rfl⟩ := exists_buildPool_of_mem_pools (hco ▸ hpo)
    exact order_buildPool ..
  have hf : ∀ pool' ∈ p.context.pools, ∀ id ∈ pool'.pool.allBackendIds,
      pool'.pool.carriedFlags id = some (previous.seedFlags id ⟨false, true, false⟩) :=
    fun pool' hp' id hid =>
      carriedFlags_of_mem_pools (hco ▸ p.context.pools_subset hp') hid
  refine ⟨fun id => ?_, fun pool hpo pool' hp' id hid hid' => ?_,
    fun pool' hp' id hid hno => ?_, fun hd hsa => ?_⟩
  · change ((rebuiltBreakers ext.scaledCooldown r.breakers now p.context.core).find id).map _ = _
    rw [hco]
    exact map_forget_rebuiltBreakers (r.get_circuitBreakers_ofContext carry) now nanos l id
  · have hs := hf pool' hp' id hid'
    rw [hp, PreviousListenerState.seedFlags_ofContext hold hpo hid] at hs
    refine ⟨?_, ?_, ?_, fun b hb => ?_⟩
    · rw [BackendPool.isManuallyDrained_eq, hs, Option.any_some]
    · rw [BackendPool.isActiveHealthy_eq, hs, Option.any_some]
    · rw [BackendPool.isAwaitingFirstProbe_eq, hs, Option.any_some]
    · exact ⟨_, find_rebuiltBreakers hpoo hnew (p.context.pools_subset hp') hid' hb now, rfl,
        fun calls => rfl⟩
  · rw [BackendPool.isAwaitingFirstProbe_eq, hf pool' hp' id hid, Option.any_some]
    exact PreviousListenerState.awaitingFirstProbe_seedFlags_ofContext hno carry _
  · have ht : carry = true := by
      obtain ⟨old, hold, hn, hsa⟩ := hsa
      rw [hca, hd, Bool.true_and, any_eq_true]
      exact ⟨old, hold, by simp [hn, hsa]⟩
    rw [hco, hp, ht]
    exact main_buildListenerCore_of_carried
      (r.reached _ r.context.main_mem_pools).listing hd nanos

end

/-! ### A drained backend with an open breaker -/

def drainedCore : ListenerCore :=
  let core := buildListenerCore plainExternals.scaledCooldown (webListener 50) none 0
  { core with
    main := core.main.setDrained "web1" true 0
    circuitBreakers := .collect [("web1", ⟨thirdFailureSettings,
      CircuitBreaker.new.tripped thirdFailureSettings 5⟩)] }

def drainedListener (settings : ContextSettings) : RunningListener where
  context := ⟨settings, none, drainedCore⟩
  breakers := .collect [("web1", ⟨7, thirdFailureSettings,
    CircuitBreaker.new.tripped thirdFailureSettings 5⟩)]
  reached pool hpool := by
    have hpools : (⟨settings, none, drainedCore⟩ : ListenerContext).pools = [drainedCore.main] := by
      cases settings <;> rfl
    rw [hpools, List.mem_singleton] at hpool
    subst hpool
    exact .write
      (reached_buildPool ((webListener 50).settings.backends.map (toBackend none)) _ none)
      (BackendPool.FlagCall.setManuallyDrained _ "web1" true 0).flagWrite
  breakers_eq := BackendMap.map_find_collect forgetCreation _

/-- A new rate leaves the drain and the open breaker. -/
theorem reload_carries_over_drained :
    ∃ (r : RunningListener) (st : ReloadState) (p : Prepared),
      st.listeners.get "web" = some r.context ∧ r.context.core = drainedCore ∧
      prepareListener plainExternals (webConfig 60) (webConfig 50) 0 st (webListener 60) none
        = .ok p ∧
      p.context.core.main.pool.isManuallyDrained "web1" = true ∧
      ∃ b ∈ (rebuiltBreakers plainExternals.scaledCooldown r.breakers 9 p.context.core).find "web1",
        b.transitions [(.recordSuccess, 20), (.state, 30)] = [.opened, .halfOpen] := by
  obtain ⟨settings, -⟩ : ∃ settings, contextSettings plainExternals (webListener 50).settings none
      none (webConfig 50).sections.logging = .ok settings := ⟨_, rfl⟩
  let r := drainedListener settings
  let st : ReloadState := ⟨false, (∅ : Table String ListenerContext).insert "web" r.context, ∅,
    webConfig 50⟩
  have hl : st.listeners.get (webListener 60).name = some r.context := by
    rw [AList.get_insert]
    exact if_pos rfl
  have hpo : r.context.pools = [drainedCore.main] := by
    cases settings <;> rfl
  have ho : DistinctAcross r.context.pools := hpo ▸ pairwise_singleton ..
  obtain ⟨p, hp, -⟩ : ∃ p, prepareListener plainExternals (webConfig 60) (webConfig 50) 0 st
      (webListener 60) (webListener 60).settings.backendTls = .ok p ∧ _ :=
    exists_prepareListener rfl
  have hc := core_of_prepareListener hl hp
  have hne : DistinctAcross p.context.core.pools := by
    rw [hc]
    exact pairwise_singleton ..
  have hid : "web1" ∈ p.context.core.main.pool.allBackendIds := by
    rw [hc]
    change "web1" ∈ (buildPool _ _ _ _).pool.inner.order
    rw [order_buildPool, poolBackends_of_static rfl]
    exact mem_cons_self
  obtain ⟨-, hk, -⟩ := reload_carries_over r hl ho hp hne 9
  obtain ⟨hd, -, -, hbr⟩ := hk drainedCore.main (hpo ▸ mem_cons_self)
    p.context.core.main p.context.main_mem_pools "web1" (by decide +kernel) hid
  obtain ⟨b, hb, hs, ht⟩ := hbr ⟨7, thirdFailureSettings,
    CircuitBreaker.new.tripped thirdFailureSettings 5⟩ rfl
  have hn : b.settings = breakerSettings plainExternals.scaledCooldown
      (webListener 60).settings.healthCheck := by
    rw [hs, hc]
    rfl
  refine ⟨r, st, p, hl, rfl, hp, hd.trans (by decide +kernel), b, hb, ?_⟩
  rw [ht, hn]
  decide +kernel

end LoadBalancer.Server
