import LoadBalancer.Server.Dns
import LoadBalancer.Server.Wiring

/-!
# Answers of DNS and the tables of a listener

With `dns_discovery` the backends of a listener's own pool come and go.  For each answer the poller
(`crates/lb-server/src/dns.rs`) first reconciles the tables by backend id with the ids of the
answer, and then refreshes the pool.

The tables also hold what belongs to the backends of routes and canary pools, whose ids are not in
the answer: the first answer drops their breakers, counters, gates and limits while their pools
still offer them.  `tended_iff` says that this is the only way the tables and the pools disagree.
-/

namespace LoadBalancer.Server

open LoadBalancer.Core LoadBalancer.Health List

inductive DnsRound
  | answer (addrs : List SocketAddr)
  | lookupFailed

def answeredIds (addrs : List SocketAddr) : List BackendId := addrs.map fun addr => "dns:" ++ addr

namespace ListenerCore

variable (scaled : HealthCheckConfig → ℕ → ℕ) (dns : DnsDiscoveryConfig)
  (c : ListenerCore)

/-- `DnsBackendRuntime::reconcile`: the runtime has handles to the listener's tables. -/
def reconcile (live : List BackendId) : ListenerCore :=
  { c with
    circuitBreakers := c.circuitBreakers.reconcile live fun _ =>
      breakerFor scaled c.main.healthCheck none
    backendMetrics := c.backendMetrics.reconcile live fun id => ⟨c.name, id⟩
    main.outlier := c.main.outlier.map fun outlier => outlier.reconcile live
    backendGates := c.backendGates.reconcileIf c.upstreamLimits live fun u =>
      .new u.maxActivePerBackend
    adaptiveLimits := c.adaptiveLimits.reconcileIf c.adaptive live .new }

def poll : DnsRound → ListenerCore
  | .answer addrs =>
    let backends := addrs.map dns.discovered
    let c := c.reconcile scaled (backends.map fun b => b.id)
    { c with main.pool := c.main.pool.applyResolved backends }
  | .lookupFailed => c

def polls (rounds : List DnsRound) : ListenerCore :=
  rounds.foldl (fun c round => c.poll scaled dns round) c

def staticIds : List BackendId := (c.routes ++ c.canary).flatMap fun p => p.pool.inner.order

def poolIds : List BackendId := c.main.pool.inner.order ++ c.staticIds

def Tended : Prop :=
  (∀ id ∈ c.poolIds, c.circuitBreakers.contains id = true ∧ c.backendMetrics.contains id = true ∧
    (c.upstreamLimits.isSome = true → c.backendGates.contains id = true) ∧
    (c.adaptive.isSome = true → c.adaptiveLimits.contains id = true)) ∧
  ∀ id, (c.circuitBreakers.contains id = true ∨ c.backendMetrics.contains id = true ∨
    c.backendGates.contains id = true ∨ c.adaptiveLimits.contains id = true) → id ∈ c.poolIds

variable (c' : ListenerCore)

/-- All tables keep the instances of ids they have before and after. -/
def KeepsInstances : Prop :=
  c.circuitBreakers.KeepsInstance c'.circuitBreakers ∧
    c.backendMetrics.KeepsInstance c'.backendMetrics ∧
    c.backendGates.KeepsInstance c'.backendGates ∧
    c.adaptiveLimits.KeepsInstance c'.adaptiveLimits

variable {scaled dns c}

lemma keepsInstances_poll (round : DnsRound) :
    c.KeepsInstances (c.poll scaled dns round) := by
  cases round with
  | lookupFailed => exact ⟨.refl _, .refl _, .refl _, .refl _⟩
  | answer addrs =>
    exact ⟨BackendMap.keepsInstance_reconcile _ _ _, BackendMap.keepsInstance_reconcile _ _ _,
      BackendMap.keepsInstance_reconcileIf _ _ _, BackendMap.keepsInstance_reconcileIf _ _ _⟩

/-- The pool's states can be found, every backend with a breaker has counters, and tables that are
not in use are empty. -/
structure Wired (c : ListenerCore) : Prop where
  indexed : c.main.pool.Indexed
  counted : ∀ id, c.circuitBreakers.contains id = true → c.backendMetrics.contains id = true
  gates : ∀ id, c.backendGates.contains id = true → c.upstreamLimits.isSome = true
  limits : ∀ id, c.adaptiveLimits.contains id = true → c.adaptive.isSome = true

lemma contains_reconcileIf_iff {T σ : Type} {m : BackendMap T} {setting : Option σ}
    {live : List BackendId} {value : σ → T}
    (hm : ∀ id, m.contains id = true → setting.isSome = true) (id : BackendId) :
    (m.reconcileIf setting live value).contains id = true ↔ setting.isSome = true ∧ id ∈ live := by
  rw [BackendMap.contains_reconcileIf]
  split_ifs with h
  · simp [h]
  · exact ⟨fun hc => absurd (hm id hc) h, fun hc => absurd hc.1 h⟩

lemma Wired.poll (h : c.Wired) (round : DnsRound) : (c.poll scaled dns round).Wired := by
  cases round with
  | lookupFailed => exact h
  | answer addrs =>
    exact ⟨h.indexed.applyResolved _,
      fun id hid => (BackendMap.contains_reconcile _).mpr
        ((BackendMap.contains_reconcile _).mp hid),
      fun id hid => ((contains_reconcileIf_iff h.gates id).mp hid).1,
      fun id hid => ((contains_reconcileIf_iff h.limits id).mp hid).1⟩

lemma map_id_discovered (dns : DnsDiscoveryConfig) (addrs : List SocketAddr) :
    ((addrs.map dns.discovered).map fun b => b.id) = answeredIds addrs := map_map ..

section

variable (scaled dns) (addrs : List SocketAddr) (id : BackendId)

lemma contains_circuitBreakers_answer :
    (c.poll scaled dns (.answer addrs)).circuitBreakers.contains id = true ↔
      id ∈ answeredIds addrs := by
  rw [← map_id_discovered dns]
  exact BackendMap.contains_reconcile _

lemma contains_backendMetrics_answer :
    (c.poll scaled dns (.answer addrs)).backendMetrics.contains id = true ↔
      id ∈ answeredIds addrs := by
  rw [← map_id_discovered dns]
  exact BackendMap.contains_reconcile _

lemma Wired.contains_backendGates_answer (h : c.Wired) :
    (c.poll scaled dns (.answer addrs)).backendGates.contains id = true ↔
      c.upstreamLimits.isSome = true ∧ id ∈ answeredIds addrs := by
  rw [← map_id_discovered dns]
  exact contains_reconcileIf_iff h.gates id

lemma Wired.contains_adaptiveLimits_answer (h : c.Wired) :
    (c.poll scaled dns (.answer addrs)).adaptiveLimits.contains id = true ↔
      c.adaptive.isSome = true ∧ id ∈ answeredIds addrs := by
  rw [← map_id_discovered dns]
  exact contains_reconcileIf_iff h.limits id

lemma Wired.mem_poolIds_answer (h : c.Wired) :
    id ∈ (c.poll scaled dns (.answer addrs)).poolIds ↔
      id ∈ answeredIds addrs ∨ id ∈ c.staticIds := by
  rw [poolIds, mem_append, ← map_id_discovered dns]
  exact or_congr_left (h.indexed.mem_order_applyResolved _ id)

end

/-- **One answer.**  The tables then have the answered ids, which are those of the pools exactly
when the answer lists the ids of the other pools too. -/
lemma Wired.tended_answer_iff (h : c.Wired) (addrs : List SocketAddr) :
    (c.poll scaled dns (.answer addrs)).Tended ↔
      ∀ id ∈ c.staticIds, id ∈ answeredIds addrs := by
  have hp := fun id => h.mem_poolIds_answer scaled dns addrs id
  have hb := fun id => contains_circuitBreakers_answer (c := c) scaled dns addrs id
  have hm := fun id => contains_backendMetrics_answer (c := c) scaled dns addrs id
  have hg := fun id => h.contains_backendGates_answer scaled dns addrs id
  have hl := fun id => h.contains_adaptiveLimits_answer scaled dns addrs id
  constructor
  · intro ht id hid
    exact (hb id).mp (ht.1 id ((hp id).mpr (Or.inr hid))).1
  · intro hs
    refine ⟨fun id hid => ?_, fun id hid => (hp id).mpr (Or.inl ?_)⟩
    · have han : id ∈ answeredIds addrs := by
        rcases (hp id).mp hid with hid | hid
        · exact hid
        · exact hs id hid
      exact ⟨(hb id).mpr han, (hm id).mpr han,
        fun hu => (hg id).mpr ⟨hu, han⟩, fun ha => (hl id).mpr ⟨ha, han⟩⟩
    · rcases hid with hid | hid | hid | hid
      · exact (hb id).mp hid
      · exact (hm id).mp hid
      · exact ((hg id).mp hid).2
      · exact ((hl id).mp hid).2

end ListenerCore

/-! ## From the start on -/

section

variable (scaled : HealthCheckConfig → ℕ → ℕ)
  (l : ListenerConfig SocketAddr ListenerSettings) (previous : Option PreviousListenerState)
  (nanos : ℕ)

lemma flatMap_order_buildPool {σ : Type} (pools : List σ) (backends : σ → List Backend)
    (hc : σ → HealthCheckConfig) :
    ((pools.map fun x => buildPool (backends x) (hc x) previous nanos).flatMap
      fun p => p.pool.inner.order) = (pools.flatMap backends).map fun b => b.id := by
  rw [flatMap_map, map_flatMap]
  exact flatMap_congr fun x _ => order_buildPool _ _ _ _

lemma staticIds_buildListenerCore :
    (buildListenerCore scaled l previous nanos).staticIds
      = (staticBackends l.settings).map fun b => b.id := by
  rw [ListenerCore.staticIds, flatMap_append]
  unfold buildListenerCore
  dsimp only
  rw [flatMap_order_buildPool, flatMap_order_buildPool, staticBackends, map_append,
    map_flatMap, map_flatMap, map_flatMap, map_flatMap]
  simp only [map_map]
  rfl

lemma poolIds_buildListenerCore :
    let c := buildListenerCore scaled l previous nanos
    c.poolIds = c.allBackends.map fun b => b.id := by
  intro c
  have ho : ∀ p ∈ c.pools,
      p.pool.inner.order = p.backends.map fun b => b.id := by
    intro p hp
    obtain ⟨backends, hc, rfl⟩ := exists_buildPool_of_mem_pools hp
    exact order_buildPool _ _ _ _
  rw [ListenerCore.allBackends, map_flatMap]
  exact flatMap_congr ho

lemma tended_buildListenerCore :
    (buildListenerCore scaled l previous nanos).Tended := by
  have hids := poolIds_buildListenerCore scaled l previous nanos
  set c := buildListenerCore scaled l previous nanos with hc
  have hb : ∀ id, c.circuitBreakers.contains id = true ↔ id ∈ c.poolIds := by
    intro id
    have he : (c.pools.flatMap (breakerEntries scaled previous)).map (fun e => e.1)
        = c.poolIds := by
      rw [hids, ListenerCore.allBackends, map_flatMap, map_flatMap]
      exact flatMap_congr fun p _ => map_map ..
    rw [← he]
    exact BackendMap.contains_collect _
  have hm : ∀ id, c.backendMetrics.contains id = true ↔ id ∈ c.poolIds := by
    intro id
    rw [hids]
    refine (BackendMap.contains_collect _).trans ?_
    rw [map_map]
    rfl
  have hg : ∀ id, c.backendGates.contains id = true ↔
      c.upstreamLimits.isSome = true ∧ id ∈ c.poolIds := by
    intro id
    rw [hids]
    exact BackendMap.contains_collectIf _ _ _
  have hl : ∀ id, c.adaptiveLimits.contains id = true ↔
      c.adaptive.isSome = true ∧ id ∈ c.poolIds := by
    intro id
    rw [hids]
    exact BackendMap.contains_collectIf _ _ _
  refine ⟨fun id hid => ⟨(hb id).mpr hid, (hm id).mpr hid,
    fun hu => (hg id).mpr ⟨hu, hid⟩, fun ha => (hl id).mpr ⟨ha, hid⟩⟩, fun id hid => ?_⟩
  rcases hid with hid | hid | hid | hid
  · exact (hb id).mp hid
  · exact (hm id).mp hid
  · exact ((hg id).mp hid).2
  · exact ((hl id).mp hid).2

lemma wired_buildListenerCore :
    (buildListenerCore scaled l previous nanos).Wired where
  indexed := indexed_buildPool _ _ _ _
  counted id hid := by
    have ht := tended_buildListenerCore scaled l previous nanos
    exact (ht.1 id (ht.2 id (.inl hid))).2.1
  gates _ hid := ((BackendMap.contains_collectIf _ _ _).mp hid).1
  limits _ hid := ((BackendMap.contains_collectIf _ _ _).mp hid).1

variable (dns : DnsDiscoveryConfig)

lemma polls_append_singleton (c : ListenerCore) (rounds : List DnsRound) (round : DnsRound) :
    c.polls scaled dns (rounds ++ [round])
      = (c.polls scaled dns rounds).poll scaled dns round := foldl_concat ..

lemma wired_polls {c : ListenerCore} (hc : c.Wired) (rounds : List DnsRound) :
    (c.polls scaled dns rounds).Wired ∧
      (c.polls scaled dns rounds).staticIds = c.staticIds := by
  induction rounds using List.reverseRecOn with
  | nil => exact ⟨hc, rfl⟩
  | append_singleton rounds round ih =>
    rw [polls_append_singleton]
    refine ⟨ih.1.poll round, Eq.trans ?_ ih.2⟩
    cases round <;> rfl

lemma tended_polls {c : ListenerCore} (hc : c.Wired) (ht : c.Tended) (rounds : List DnsRound)
    (h : ∀ addrs, .answer addrs ∈ rounds → ∀ id ∈ c.staticIds, id ∈ answeredIds addrs) :
    (c.polls scaled dns rounds).Tended := by
  induction rounds using List.reverseRecOn with
  | nil => exact ht
  | append_singleton rounds round ih =>
    obtain ⟨hw, hs⟩ := wired_polls scaled dns hc rounds
    have hb := ih fun addrs ha => h addrs (mem_append_left _ ha)
    rw [polls_append_singleton]
    cases round with
    | lookupFailed => exact hb
    | answer addrs =>
      rw [hw.tended_answer_iff, hs]
      exact h addrs (mem_append_right _ (mem_singleton_self _))

/-- **Tables and pools.**  From the start on, for every sequence of rounds: the tables have the
ids of the pools after each round, with instances kept, exactly when every answer lists the ids
of all backends of routes and canary pools. -/
theorem tables_follow_pools_iff (rounds : List DnsRound) :
    let start := buildListenerCore scaled l previous nanos
    ((∀ earlier later, rounds = earlier ++ later →
        (start.polls scaled dns earlier).Tended) ∧
      ∀ earlier round later, rounds = earlier ++ round :: later →
        (start.polls scaled dns earlier).KeepsInstances
          (start.polls scaled dns (earlier ++ [round]))) ↔
    ∀ addrs, .answer addrs ∈ rounds → ∀ b ∈ staticBackends l.settings,
      b.id ∈ answeredIds addrs := by
  intro start
  have hs : start.Wired := wired_buildListenerCore scaled l previous nanos
  have hids : start.staticIds = (staticBackends l.settings).map fun b => b.id :=
    staticIds_buildListenerCore scaled l previous nanos
  constructor
  · rintro ⟨ht, -⟩ addrs ha b hb
    obtain ⟨earlier, later, rfl⟩ := append_of_mem ha
    obtain ⟨hw, hst⟩ := wired_polls scaled dns hs earlier
    have haf := ht (earlier ++ [.answer addrs]) later (by simp)
    rw [polls_append_singleton, hw.tended_answer_iff, hst, hids] at haf
    exact haf b.id (mem_map_of_mem hb)
  · intro h
    constructor
    · rintro earlier later rfl
      refine tended_polls scaled dns hs
        (tended_buildListenerCore scaled l previous nanos) earlier ?_
      intro addrs ha id hid
      rw [hids] at hid
      obtain ⟨b, hb, rfl⟩ := mem_map.mp hid
      exact h addrs (mem_append_left _ ha) b hb
    · rintro earlier round later -
      rw [polls_append_singleton]
      exact ListenerCore.keepsInstances_poll round

end

/-- A listener whose own backends come from DNS, with a route for `/api`. -/
def discoveredWithRoute : ListenerConfig SocketAddr ListenerSettings :=
  let hc := HealthCheckConfig.withDefaults (some "/health") 2000 3 5000
  let s := ListenerSettings.withDefaults .http [] hc ⟨.sourceIp, .finite 50, 100, 100000⟩
  { name := "web"
    listen := "0.0.0.0:8080"
    settings := { s with
      dnsDiscovery := some ⟨"app.internal", 80, none, none⟩
      routes :=
        [⟨some "/api", none, [⟨"api1", "10.1.0.1:80", 1, none, 0, none⟩], hc, .roundRobin⟩] } }

/-- An accepted configuration, and one answer: the route's pool still has its backend, whose
breaker and counters are gone. -/
theorem route_backend_without_breaker :
    (∀ crates, Config.validate (ListenerConfig.validate crates) (fun _ => .ok ())
      (⟨[discoveredWithRoute], none, ()⟩ : Config SocketAddr ListenerSettings Unit) = .ok ()) ∧
    let start := buildListenerCore (fun _ _ => 0) discoveredWithRoute none 0
    let c := start.polls (fun _ _ => 0) ⟨"app.internal", 80, none, none⟩ [.answer ["10.0.0.1:80"]]
    "api1" ∈ c.poolIds ∧ c.circuitBreakers.contains "api1" = false ∧
      c.backendMetrics.contains "api1" = false ∧ ¬ c.Tended := by
  refine ⟨fun crates => rfl, ?_⟩
  intro start c
  have hp : "api1" ∈ c.poolIds := by decide +kernel
  have hb : c.circuitBreakers.contains "api1" = false := by decide +kernel
  have hm : c.backendMetrics.contains "api1" = false := by decide +kernel
  refine ⟨hp, hb, hm, fun ht => ?_⟩
  have hh := (ht.1 "api1" hp).1
  rw [hb] at hh
  cases hh

end LoadBalancer.Server
