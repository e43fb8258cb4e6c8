import LoadBalancer.Core.Eligibility
import LoadBalancer.Core.ListenerConfig

/-!
# Backends found by DNS

The poller of a listener with `dns_discovery` (`crates/lb-server/src/dns.rs`) turns every
resolved address into a backend whose id is made from the address, and hands the list to
`apply_resolved`.  A failed lookup changes nothing.

The poller does not remove repetitions, and a pool whose list names one id twice is no longer
`Consistent`: the list holds two states for the id, the map only the later one.  Flag writes go
through the map, so the earlier state stays healthy and its id is still offered.
-/

namespace LoadBalancer.Core

def DnsDiscoveryConfig.discovered (cfg : DnsDiscoveryConfig) (addr : SocketAddr) : Backend where
  id := "dns:" ++ addr
  address := addr
  weight := 1
  serverName := cfg.serverName
  priority := 0

end LoadBalancer.Core

namespace LoadBalancer.Server

open LoadBalancer.Core List

/-- What happens to the pool of a listener with `dns_discovery`: the answers of the resolver, its
failures, and calls to the setters of the pool. -/
inductive DiscoveryEvent
  | answer (addrs : List SocketAddr)
  | lookupFailed
  | flag (e : PoolEvent) (h : e.isRefresh = false)

namespace DiscoveryEvent

variable (cfg : DnsDiscoveryConfig)

def poolEvents : DiscoveryEvent → List PoolEvent
  | answer addrs => [.applyResolved (addrs.map cfg.discovered)]
  | lookupFailed => []
  | flag e _ => [e]

def Step (p : BackendPool) (e : DiscoveryEvent) (p' : BackendPool) : Prop :=
  (e.poolEvents cfg).foldl PoolEvent.apply p = p'

def Distinct : DiscoveryEvent → Prop
  | answer addrs => addrs.Nodup
  | _ => True

variable {cfg}

lemma Distinct.poolEvents {e : DiscoveryEvent} (he : e.Distinct) :
    ∀ pe ∈ e.poolEvents cfg, pe.Distinct := by
  cases e with
  | answer addrs =>
    have hid : ((addrs.map cfg.discovered).map fun b => b.id).Nodup := by
      rw [map_map]
      exact List.Nodup.map (fun _ _ h => (String.append_right_inj "dns:").mp h) he
    intro pe hpe
    rw [mem_singleton.mp hpe]
    exact hid
  | lookupFailed => simp [DiscoveryEvent.poolEvents]
  | flag e h =>
    intro pe hpe
    rw [mem_singleton.mp hpe]
    cases e with
    | applyResolved backends => cases h
    | _ => trivial

lemma run_poolEvents {p₀ p : BackendPool} {events : List DiscoveryEvent}
    (h : Run (Step cfg) p₀ events p) :
    Run PoolEvent.Step p₀ (events.flatMap (DiscoveryEvent.poolEvents cfg)) p := by
  induction h with
  | start => exact .start
  | @next events s s' e _ hs ih =>
    rw [flatMap_append, flatMap_singleton]
    subst hs
    cases e with
    | lookupFailed =>
      rw [DiscoveryEvent.poolEvents, append_nil]
      exact ih
    | answer | flag => exact ih.next rfl

end DiscoveryEvent

/-- The flags the pool shows for an id exclude it. -/
def Excluded (p : BackendPool) (id : BackendId) : Prop :=
  p.isActiveHealthy id = false ∨ p.isCircuitOpen id = true ∨ p.isManuallyDrained id = true ∨
    p.isOutlierEjected id = true

lemma not_excluded_of_mem_offered {p : BackendPool} (hp : p.Consistent) {s : BackendState}
    (hs : s ∈ p.offered) : ¬ Excluded p s.id := by
  have hm := BackendPool.mem_members_of_mem_offered hs
  have hpa : s.passesFlags = true :=
    (BackendPool.mem_candidates_iff.mp (BackendPool.mem_offered_iff.mp hs).1).2.1
  simp only [BackendState.passesFlags, Bool.and_eq_true, Bool.not_eq_true'] at hpa
  obtain ⟨⟨⟨hh, hc⟩, hd⟩, ho⟩ := hpa
  rw [Excluded, BackendPool.isActiveHealthy, BackendPool.isCircuitOpen,
    BackendPool.isManuallyDrained, BackendPool.isOutlierEjected, hp.shownFlag_of_mem hm,
    hp.shownFlag_of_mem hm, hp.shownFlag_of_mem hm, hp.shownFlag_of_mem hm, hh,
    hc, hd, ho]
  simp

/-- **Whatever DNS answers**, as long as no answer repeats an address, an excluded id is not
offered and no id is offered twice. -/
theorem discovered_excluded_not_offered {cfg : DnsDiscoveryConfig} {backends : List Backend}
    (hnodup : (backends.map fun b => b.id).Nodup) {fraction : Option ℚ}
    {events : List DiscoveryEvent} (hevents : ∀ e ∈ events, e.Distinct) {p : BackendPool}
    (h : Run (DiscoveryEvent.Step cfg) (.withMaxEjectedFraction backends fraction) events p) :
    (∀ id, Excluded p id → id ∉ p.eligibleBackends) ∧ p.eligibleBackends.Nodup := by
  have hd : ∀ e ∈ events.flatMap (DiscoveryEvent.poolEvents cfg), e.Distinct := by
    intro pe hpe
    obtain ⟨e, he, hm⟩ := mem_flatMap.mp hpe
    exact (hevents e he).poolEvents pe hm
  obtain ⟨hp, -⟩ := BackendPool.lists_of_run hnodup hd (DiscoveryEvent.run_poolEvents h)
  refine ⟨fun id hex hid => ?_, hp.nodup_eligibleBackends⟩
  rw [BackendPool.eligibleBackends, hp.eligibleMap_eq] at hid
  obtain ⟨s, hs, rfl⟩ := mem_map.mp hid
  exact not_excluded_of_mem_offered hp hs hex

/-- Two addresses are found and one of them fails its probe. -/
theorem discovered_excluded_not_offered_two :
    let cfg : DnsDiscoveryConfig := ⟨"app.internal", 80, none, none⟩
    ∃ p, Run (DiscoveryEvent.Step cfg) (.withMaxEjectedFraction [] none)
        [.answer ["10.0.0.1:80", "10.0.0.2:80"], .lookupFailed,
          .flag (.setActiveHealthy "dns:10.0.0.1:80" false 5) rfl] p ∧
      "dns:10.0.0.1:80" ∉ p.eligibleBackends := by
  intro cfg
  obtain ⟨p, hr, he⟩ : ∃ p, Run (DiscoveryEvent.Step cfg)
      (.withMaxEjectedFraction [] none)
      ([] ++ [.answer ["10.0.0.1:80", "10.0.0.2:80"]] ++ [.lookupFailed] ++
        [.flag (.setActiveHealthy "dns:10.0.0.1:80" false 5) rfl]) p ∧
      Excluded p "dns:10.0.0.1:80" := by
    refine ⟨_, ((Run.start.next rfl).next rfl).next rfl, ?_⟩
    exact Or.inl (by decide +kernel)
  have hev : ∀ e ∈ [DiscoveryEvent.answer ["10.0.0.1:80", "10.0.0.2:80"], .lookupFailed,
      .flag (.setActiveHealthy "dns:10.0.0.1:80" false 5) rfl], e.Distinct := by
    simp [DiscoveryEvent.Distinct]
  have hn : (([] : List Backend).map fun b => b.id).Nodup := nodup_nil
  exact ⟨p, hr, (discovered_excluded_not_offered hn hev hr).1 _ he⟩

/-- An answer that repeats an address: the id is listed twice, and it is still offered after a
failed probe, through the state that the map does not hold. -/
theorem repeated_address_still_offered :
    let cfg : DnsDiscoveryConfig := ⟨"app.internal", 80, none, none⟩
    ∃ p p', Run (DiscoveryEvent.Step cfg) (.withMaxEjectedFraction [] none)
        [.answer ["10.0.0.1:80", "10.0.0.1:80"]] p ∧
      Run (DiscoveryEvent.Step cfg) p
        [.flag (.setActiveHealthy "dns:10.0.0.1:80" false 5) rfl] p' ∧
      ¬ p.eligibleBackends.Nodup ∧
      Excluded p' "dns:10.0.0.1:80" ∧ "dns:10.0.0.1:80" ∈ p'.eligibleBackends := by
  intro cfg
  have ha : Run (DiscoveryEvent.Step cfg) (.withMaxEjectedFraction [] none)
      ([] ++ [.answer ["10.0.0.1:80", "10.0.0.1:80"]]) _ := Run.start.next rfl
  have hp : ∀ p, Run (DiscoveryEvent.Step cfg) p
      ([] ++ [.flag (.setActiveHealthy "dns:10.0.0.1:80" false 5) rfl]) _ :=
    fun p => Run.start.next rfl
  refine ⟨_, _, ha, hp _, ?_, Or.inl ?_, ?_⟩
  · decide +kernel
  · decide +kernel
  · decide +kernel

end LoadBalancer.Server
