import LoadBalancer.Core.Drained
import LoadBalancer.Core.Sections
import LoadBalancer.Lib.Rotation
import LoadBalancer.Server.Wiring

/-!
# Splitting traffic between a listener's own pool and its canary pools

`resolve_default_or_canary_pool` (`crates/lb-proxy/src/service.rs`) chooses the pool of a request
that matches no route.  A sticky pin that names a backend of one of the pools decides; all other
requests take the next number of one cursor, and the configured percentages divide each hundred of
them.

Between requests the listener's own pool may change in any way, the canary pools only in the flags
of their backends: their membership is the configured one.
-/

namespace LoadBalancer.Proxy

open LoadBalancer.Core LoadBalancer.Server List

/-! ## The choice -/

/-- The pool a request goes to, with its balancer and outlier detector. -/
inductive SplitTarget
  | main
  | canary (i : ℕ)
  deriving DecidableEq

structure CanaryPool where
  pool : BackendPool
  percent : ℕ

/-- What the choice reads of a listener's context. -/
structure SplitContext where
  pool : BackendPool
  canary : List CanaryPool
  canaryCursor : UInt64

namespace SplitContext

/-- The pool with the backend that the pin names: the listener's own before the canary pools. -/
def pinnedPool (ctx : SplitContext) (stickyPin : Option BackendId) : Option SplitTarget := do
  let id ← stickyPin
  if (ctx.pool.backend id).isSome then return .main
  let c ← ctx.canary.zipIdx.find? fun c => (c.1.pool.backend id).isSome
  return .canary c.2

/-- The first canary pool whose cumulative percentage is above the bucket. -/
def roll (bucket : ℕ) : ℕ → List (CanaryPool × ℕ) → SplitTarget
  | _, [] => .main
  | cumulative, (c, i) :: rest =>
    let cumulative := cumulative + c.percent
    if bucket < cumulative then .canary i else roll bucket cumulative rest

def resolveDefaultOrCanaryPool (ctx : SplitContext) (stickyPin : Option BackendId) :
    SplitTarget × SplitContext :=
  if ctx.canary.isEmpty then (.main, ctx)
  else
    match ctx.pinnedPool stickyPin with
    | some target => (target, ctx)
    | none =>
      (roll (ctx.canaryCursor.toNat % 100) 0 ctx.canary.zipIdx,
        { ctx with canaryCursor := ctx.canaryCursor + 1 })

def ofListener (s : ListenerSettings) (core : ListenerCore) (canaryCursor : UInt64) :
    SplitContext where
  pool := core.main.pool
  canary := (s.canary.zip core.canary).map fun c => ⟨c.2.pool, c.1.percent⟩
  canaryCursor := canaryCursor

end SplitContext

/-! ## Runs of requests -/

inductive SplitEvent
  /-- A request, the pool its pin named, and the pool it went to. -/
  | request (stickyPin : Option BackendId) (named : Option SplitTarget) (target : SplitTarget)
  | mainPool (pool : BackendPool)
  | canaryFlags (i : ℕ) (pool : BackendPool)

namespace SplitEvent

inductive Step : SplitContext → SplitEvent → SplitContext → Prop
  | request {ctx : SplitContext} (stickyPin : Option BackendId) :
      Step ctx (.request stickyPin (ctx.pinnedPool stickyPin)
        (ctx.resolveDefaultOrCanaryPool stickyPin).1) (ctx.resolveDefaultOrCanaryPool stickyPin).2
  | mainPool {ctx : SplitContext} (pool : BackendPool) :
      Step ctx (.mainPool pool) { ctx with pool := pool }
  | canaryFlags {ctx : SplitContext} {i : ℕ} {c : CanaryPool} {pool : BackendPool}
      (hc : ctx.canary[i]? = some c) (hwrite : BackendPool.FlagWrite c.pool pool) :
      Step ctx (.canaryFlags i pool)
        { ctx with canary := ctx.canary.set i { c with pool := pool } }

/-- Where the requests went whose pin named no backend, or that had none. -/
def unpinned (events : List SplitEvent) : List SplitTarget :=
  events.filterMap fun
    | .request _ none target => some target
    | _ => none

end SplitEvent

/-! ## The roll as a draw by weights -/

def shares (percents : List ℕ) : List (SplitTarget × ℕ) :=
  percents.zipIdx.map fun p => (.canary p.2, p.1)

def drawn (percents : List ℕ) (k : ℕ) : SplitTarget :=
  (pickByWeight (shares percents) k).getD .main

lemma SplitContext.roll_eq (bucket : ℕ) : ∀ {cumulative : ℕ} (l : List (CanaryPool × ℕ)),
    cumulative ≤ bucket →
    roll bucket cumulative l
      = (pickByWeight (l.map fun c => (SplitTarget.canary c.2, c.1.percent))
          (bucket - cumulative)).getD .main
  | _, [], _ => rfl
  | cumulative, (c, i) :: rest, h => by
    rw [roll, map_cons, pickByWeight]
    by_cases hlt : bucket < cumulative + c.percent
    · have hlt' : bucket - cumulative < c.percent := by omega
      rw [if_pos hlt, if_pos hlt', Option.getD_some]
    · have hlt' : ¬ bucket - cumulative < c.percent := by omega
      rw [if_neg hlt, if_neg hlt', Nat.sub_sub]
      exact roll_eq bucket rest (not_lt.mp hlt)

lemma SplitContext.roll_eq_drawn (ctx : SplitContext) (bucket : ℕ) :
    roll bucket 0 ctx.canary.zipIdx = drawn (ctx.canary.map fun c => c.percent) bucket := by
  rw [roll_eq bucket _ (Nat.zero_le bucket), drawn, shares, zipIdx_map, map_map]
  rfl

section

variable (percents : List ℕ)

lemma sum_shares : ((shares percents).map fun y => y.2).sum = percents.sum := by
  rw [shares, map_map]
  exact congrArg List.sum (zipIdx_map_fst 0 percents)

lemma nodup_shares : ((shares percents).map fun y => y.1).Nodup := by
  have hk : (shares percents).map (fun y => y.1)
      = (percents.zipIdx.map Prod.snd).map SplitTarget.canary := by
    rw [shares, map_map, map_map]
    rfl
  rw [hk, zipIdx_map_snd]
  exact List.Nodup.map (fun _ _ h => SplitTarget.canary.inj h) nodup_range'

lemma drawn_eq_main_iff (k : ℕ) :
    drawn percents k = .main ↔ pickByWeight (shares percents) k = none := by
  unfold drawn
  cases hp : pickByWeight (shares percents) k with
  | none => exact iff_of_true rfl rfl
  | some target =>
    obtain ⟨weight, hm, -⟩ := mem_of_pickByWeight hp
    obtain ⟨p, -, heq⟩ := mem_map.mp hm
    cases heq
    simp

lemma drawn_eq_canary_iff (k i : ℕ) :
    drawn percents k = .canary i ↔ pickByWeight (shares percents) k = some (.canary i) := by
  unfold drawn
  cases pickByWeight (shares percents) k <;> simp

lemma count_split (hs : percents.sum ≤ 100) (start : ℕ) :
    (∀ i percent, percents[i]? = some percent →
      (Rotation.window (drawn percents) 100 start).count (.canary i) = percent) ∧
    (Rotation.window (drawn percents) 100 start).count .main = 100 - percents.sum := by
  constructor
  · intro i percent hi
    have hm : (SplitTarget.canary i, percent) ∈ shares percents :=
      mem_map.mpr ⟨(percent, i), mem_zipIdx_iff_getElem?.mpr hi, rfl⟩
    rw [Rotation.count_window]
    simp only [drawn_eq_canary_iff]
    rw [Rotation.count_pickByWeight _ _ (by rwa [sum_shares]),
      Rotation.weightOf_eq (nodup_shares percents) hm]
  · rw [Rotation.count_window]
    simp only [drawn_eq_main_iff]
    rw [Rotation.count_pickByWeight_none, sum_shares]

end

/-! ## The canary pools of an accepted listener -/

/-- The canary pools have the configured percentages, and no backends but the configured ones. -/
structure Configured (s : ListenerSettings) (canary : List CanaryPool) : Prop where
  percents : (canary.map fun c => c.percent) = s.canary.map fun c => c.percent
  known : ∀ (i : ℕ) (c : CanaryPool), canary[i]? = some c →
    ∀ id, (c.pool.backend id).isSome = true →
      ∃ cfg : CanaryPoolConfig, s.canary[i]? = some cfg ∧ id ∈ cfg.backends.map fun b => b.id

lemma configured_ofListener (scaled : HealthCheckConfig → ℕ → ℕ)
    (l : ListenerConfig SocketAddr ListenerSettings) (previous : Option PreviousListenerState)
    (nanos : ℕ) (canaryCursor : UInt64) :
    Configured l.settings (SplitContext.ofListener l.settings
      (buildListenerCore scaled l previous nanos) canaryCursor).canary := by
  have hca : (SplitContext.ofListener l.settings
      (buildListenerCore scaled l previous nanos) canaryCursor).canary
      = l.settings.canary.map fun c => ⟨(buildPool (c.backends.map (toBackend l.settings.localZone))
          c.healthCheck previous nanos).pool, c.percent⟩ := by
    rw [SplitContext.ofListener, buildListenerCore, ← map_prod_left_eq_zip, map_map]
    rfl
  rw [hca]
  refine ⟨by rw [map_map]; rfl, fun i c hc id hid => ?_⟩
  rw [List.getElem?_map, Option.map_eq_some_iff] at hc
  obtain ⟨cfg, hcf, rfl⟩ := hc
  refine ⟨cfg, hcf, ?_⟩
  have hl := (flagWrite_seedFromPrevious
    (.withMaxEjectedFraction (cfg.backends.map (toBackend l.settings.localZone))
      (cfg.healthCheck.maxEjectedFraction.bind Float64.toRat))
    (cfg.backends.map (toBackend l.settings.localZone)) previous nanos).listing
      (BackendPool.listing_withMaxEjectedFraction _ _)
  have hm := hl.known id (BackendPool.isSome_backend_iff.mp hid)
  have ho := order_buildPool (cfg.backends.map (toBackend l.settings.localZone)) cfg.healthCheck
    previous nanos
  rw [map_map] at ho
  exact ho ▸ hm

lemma Configured.set {s : ListenerSettings} {canary : List CanaryPool} (h : Configured s canary)
    {i : ℕ} {c : CanaryPool} {pool : BackendPool} (hc : canary[i]? = some c)
    (hw : BackendPool.FlagWrite c.pool pool) :
    Configured s (canary.set i { c with pool := pool }) where
  percents := by
    rw [← h.percents]
    refine ext_getElem? fun j => ?_
    rw [List.getElem?_map, List.getElem?_map, List.getElem?_set]
    split_ifs with hij hlt
    · rw [← hij, hc]
      rfl
    · rw [← hij, List.getElem?_eq_none (not_lt.mp hlt)]
    · rfl
  known j c' hc' id hid := by
    by_cases hij : i = j
    · subst hij
      have hlt : i < canary.length := (List.getElem?_eq_some_iff.mp hc).1
      rw [List.getElem?_set_self hlt, Option.some_inj] at hc'
      subst hc'
      rw [hw.backend id] at hid
      exact h.known i c hc id hid
    · rw [List.getElem?_set_ne hij] at hc'
      exact h.known j c' hc' id hid

lemma canary_eq_of_mem {crates : ConfigCrates} {s : ListenerSettings}
    (h : s.validate crates = .ok ()) {i j : ℕ} {c c' : CanaryPoolConfig} {id : BackendId}
    (hi : s.canary[i]? = some c) (hj : s.canary[j]? = some c')
    (hid : id ∈ c.backends.map fun b => b.id) (hid' : id ∈ c'.backends.map fun b => b.id) :
    i = j := by
  have hn := ListenerSettings.nodup_ids_of_validate h
  rw [map_append, map_append] at hn
  have hc := hn.of_append_right.of_append_right
  rw [map_flatMap, nodup_flatMap] at hc
  have hd := pairwise_iff_getElem.mp hc.2
  obtain ⟨hi', rfl⟩ := List.getElem?_eq_some_iff.mp hi
  obtain ⟨hj', rfl⟩ := List.getElem?_eq_some_iff.mp hj
  rcases lt_trichotomy i j with hlt | heq | hgt
  · exact absurd hid' (hd i j hi' hj' hlt hid)
  · exact heq
  · exact absurd hid (hd j i hj' hi' hgt hid')

/-! ## Pins -/

namespace SplitContext

variable (ctx : SplitContext) {id : BackendId}

lemma pinnedPool_of_canary {i : ℕ} (hm : ctx.pool.backend id = none) {c : CanaryPool}
    (hc : ctx.canary[i]? = some c) (hid : (c.pool.backend id).isSome = true)
    (ho : ∀ (j : ℕ) (c' : CanaryPool), ctx.canary[j]? = some c' →
      (c'.pool.backend id).isSome = true → j = i) :
    ctx.pinnedPool (some id) = some (.canary i) := by
  have hme : (c, i) ∈ ctx.canary.zipIdx := mem_zipIdx_iff_getElem?.mpr hc
  have hs : (ctx.canary.zipIdx.find? fun c => (c.1.pool.backend id).isSome).isSome = true :=
    List.find?_isSome.mpr ⟨(c, i), hme, hid⟩
  obtain ⟨⟨c', j⟩, hf⟩ := Option.isSome_iff_exists.mp hs
  have hk : (c'.pool.backend id).isSome = true := by simpa using List.find?_some hf
  have hj : j = i := ho j c' (mem_zipIdx_iff_getElem?.mp (mem_of_find?_eq_some hf)) hk
  simp [pinnedPool, hm, hf, hj]

lemma pinnedPool_of_unknown (hm : ctx.pool.backend id = none)
    (hca : ∀ c ∈ ctx.canary, c.pool.backend id = none) : ctx.pinnedPool (some id) = none := by
  have hf : ctx.canary.zipIdx.find? (fun c => (c.1.pool.backend id).isSome) = none := by
    refine List.find?_eq_none.mpr fun c hc => ?_
    have hme := mem_of_getElem? (mem_zipIdx_iff_getElem?.mp hc)
    simp [hca c.1 hme]
  simp [pinnedPool, hm, hf]

variable {stickyPin : Option BackendId}

lemma resolve_of_pinned {target : SplitTarget} (h : ctx.pinnedPool stickyPin = some target) :
    ctx.resolveDefaultOrCanaryPool stickyPin = (target, ctx) := by
  unfold resolveDefaultOrCanaryPool
  split_ifs with he
  · -- without canary pools a pin can only name the listener's own
    rw [List.isEmpty_iff] at he
    obtain ⟨id, -, ht⟩ := Option.bind_eq_some_iff.mp h
    rw [he] at ht
    by_cases hm : (ctx.pool.backend id).isSome = true
    · rw [if_pos hm] at ht
      cases ht
      rfl
    · rw [if_neg hm] at ht
      cases ht
  · rw [h]

lemma target_of_unpinned (h : ctx.pinnedPool stickyPin = none) :
    (ctx.resolveDefaultOrCanaryPool stickyPin).1
      = drawn (ctx.canary.map fun c => c.percent) (ctx.canaryCursor.toNat % 100) := by
  rw [← roll_eq_drawn]
  unfold resolveDefaultOrCanaryPool
  split_ifs with he
  · rw [isEmpty_iff.mp he]
    rfl
  · rw [h]

end SplitContext

/-! ## The split over a run -/

/-- What has been answered to requests without a pin, and what the cursor makes of it. -/
structure Follows (s : ListenerSettings) (first : ℕ) (events : List SplitEvent)
    (ctx : SplitContext) : Prop where
  configured : Configured s ctx.canary
  cursor : ctx.canary ≠ [] →
    ctx.canaryCursor.toNat = (first + (SplitEvent.unpinned events).length) % 2 ^ 64
  targets : first + (SplitEvent.unpinned events).length ≤ 2 ^ 64 →
    SplitEvent.unpinned events
      = (List.range' first (SplitEvent.unpinned events).length).map fun k =>
          drawn (s.canary.map fun c => c.percent) (k % 100)

section

variable {s : ListenerSettings} {first : ℕ} {events : List SplitEvent} {ctx : SplitContext}

lemma Follows.of_pinned {e : SplitEvent} (he : SplitEvent.unpinned [e] = []) {ctx' : SplitContext}
    (h : Follows s first events ctx) (hc : Configured s ctx'.canary)
    (hem : ctx'.canary ≠ [] → ctx.canary ≠ []) (hcu : ctx'.canaryCursor = ctx.canaryCursor) :
    Follows s first (events ++ [e]) ctx' := by
  have hs : SplitEvent.unpinned (events ++ [e]) = SplitEvent.unpinned events := by
    rw [SplitEvent.unpinned, filterMap_append]
    exact (congrArg _ he).trans (append_nil _)
  refine ⟨hc, fun hne => ?_, ?_⟩
  · rw [hs, hcu]
    exact h.cursor (hem hne)
  · rw [hs]
    exact h.targets

variable (h : Follows s first events ctx)

include h

lemma Follows.of_unpinned {stickyPin : Option BackendId} (hp : ctx.pinnedPool stickyPin = none) :
    Follows s first
      (events ++ [.request stickyPin none (ctx.resolveDefaultOrCanaryPool stickyPin).1])
      (ctx.resolveDefaultOrCanaryPool stickyPin).2 := by
  have hn : SplitEvent.unpinned
      (events ++ [.request stickyPin none (ctx.resolveDefaultOrCanaryPool stickyPin).1])
      = SplitEvent.unpinned events ++ [(ctx.resolveDefaultOrCanaryPool stickyPin).1] := by
    rw [SplitEvent.unpinned, filterMap_append]
    rfl
  have hc : (ctx.resolveDefaultOrCanaryPool stickyPin).2.canary = ctx.canary := by
    unfold SplitContext.resolveDefaultOrCanaryPool
    rw [hp]
    split_ifs <;> rfl
  refine ⟨hc ▸ h.configured, fun hne => ?_, fun hw => ?_⟩
  · rw [hc] at hne
    have hcu : (ctx.resolveDefaultOrCanaryPool stickyPin).2.canaryCursor
        = ctx.canaryCursor + 1 := by
      unfold SplitContext.resolveDefaultOrCanaryPool
      rw [if_neg (by simpa using hne), hp]
    rw [hn, hcu, UInt64.toNat_add, h.cursor hne, length_append, ← Nat.add_assoc]
    simp
  · rw [hn, length_append, length_singleton] at hw ⊢
    have ht : (ctx.resolveDefaultOrCanaryPool stickyPin).1
        = drawn (s.canary.map fun c => c.percent)
            ((first + (SplitEvent.unpinned events).length) % 100) := by
      rw [ctx.target_of_unpinned hp, h.configured.percents]
      by_cases he : ctx.canary = []
      · rw [← h.configured.percents, he]
        rfl
      · have hlt : first + (SplitEvent.unpinned events).length < 2 ^ 64 := hw
        rw [h.cursor he, Nat.mod_eq_of_lt hlt]
    rw [List.range'_concat, map_append, ← h.targets (Nat.le_of_succ_le hw), ht]
    simp

lemma Follows.step {e : SplitEvent} {ctx' : SplitContext} (hs : SplitEvent.Step ctx e ctx') :
    Follows s first (events ++ [e]) ctx' := by
  cases hs with
  | request stickyPin =>
    cases hp : ctx.pinnedPool stickyPin with
    | none => exact h.of_unpinned hp
    | some target =>
      rw [ctx.resolve_of_pinned hp]
      exact h.of_pinned rfl h.configured id rfl
  | mainPool pool => exact h.of_pinned rfl h.configured id rfl
  | canaryFlags hc hw =>
    refine h.of_pinned rfl (h.configured.set hc hw) (fun _ he => ?_) rfl
    rw [he] at hc
    cases hc

omit h

lemma follows_of_run {ctx₀ : SplitContext} (hc : Configured s ctx₀.canary)
    (hr : Run SplitEvent.Step ctx₀ events ctx) :
    Follows s ctx₀.canaryCursor.toNat events ctx := by
  induction hr with
  | start =>
    refine ⟨hc, fun _ => ?_, fun _ => rfl⟩
    exact (Nat.mod_eq_of_lt ctx₀.canaryCursor.toNat_lt).symm
  | next _ hs ih => exact ih.step hs

include h

lemma Follows.window (hw : first + (SplitEvent.unpinned events).length ≤ 2 ^ 64)
    {before hundred after : List SplitTarget}
    (hp : SplitEvent.unpinned events = before ++ (hundred ++ after))
    (hl : hundred.length = 100) :
    ∃ start, hundred = Rotation.window (drawn (s.canary.map fun c => c.percent)) 100 start := by
  rw [h.targets hw, map_eq_append_iff] at hp
  obtain ⟨_, _, hr, -, hre⟩ := hp
  obtain ⟨k, -, -, rfl⟩ := List.range'_eq_append_iff.mp hr
  rw [map_eq_append_iff] at hre
  obtain ⟨_, _, hr, rfl, -⟩ := hre
  obtain ⟨n, -, rfl, -⟩ := List.range'_eq_append_iff.mp hr
  rw [length_map, length_range'] at hl
  subst hl
  exact ⟨_, rfl⟩

end

/-- **Splits are exact and sessions stay put.**  Of any hundred requests in a row without a pin that
names a backend, each canary pool gets its percentage and the listener's own pool the rest.  A pin
that names a backend decides and leaves all as it was; one that names none is no pin. -/
theorem canary_split_exact {cfg : AppConfig} {crates : ConfigCrates}
    {validateSections : AppConfig → Except ConfigError Unit}
    (hvalid : cfg.validate (ListenerConfig.validate crates) validateSections = .ok ())
    {l : ListenerConfig SocketAddr ListenerSettings} (hl : l ∈ cfg.listeners)
    (scaled : HealthCheckConfig → ℕ → ℕ) (previous : Option PreviousListenerState)
    (nanos : ℕ) (canaryCursor : UInt64) {events : List SplitEvent} {ctx : SplitContext}
    (hrun : Run SplitEvent.Step (.ofListener l.settings
      (buildListenerCore scaled l previous nanos) canaryCursor) events ctx)
    (hwrap : canaryCursor.toNat + (SplitEvent.unpinned events).length ≤ 2 ^ 64) :
    (∀ before hundred after, SplitEvent.unpinned events = before ++ (hundred ++ after) →
      hundred.length = 100 →
      (∀ (i : ℕ) (c : CanaryPoolConfig), l.settings.canary[i]? = some c →
        hundred.count (.canary i) = c.percent) ∧
      hundred.count .main = 100 - (l.settings.canary.map fun c => c.percent).sum) ∧
    (∀ id, (ctx.pool.backend id).isSome = true →
      ctx.resolveDefaultOrCanaryPool (some id) = (.main, ctx)) ∧
    (∀ id, ctx.pool.backend id = none → ∀ (i : ℕ) (c : CanaryPool), ctx.canary[i]? = some c →
      (c.pool.backend id).isSome = true →
      ctx.resolveDefaultOrCanaryPool (some id) = (.canary i, ctx)) ∧
    ∀ id, ctx.pool.backend id = none → (∀ c ∈ ctx.canary, c.pool.backend id = none) →
      ctx.pinnedPool (some id) = none ∧
      ctx.resolveDefaultOrCanaryPool (some id) = ctx.resolveDefaultOrCanaryPool none := by
  obtain ⟨-, -, -, hli, -⟩ := (Config.validate_eq_ok_iff _ _ cfg).mp hvalid
  have ha := ListenerConfig.validate_eq_ok_iff.mp (hli l hl)
  have hf := follows_of_run
    (configured_ofListener scaled l previous nanos canaryCursor) hrun
  have hsu := ListenerSettings.canary_of_validate ha
  refine ⟨fun before hundred after hp hle => ?_,
    fun id hm => ctx.resolve_of_pinned (by simp [SplitContext.pinnedPool, hm]),
    fun id hm i c hc hid => ctx.resolve_of_pinned ?_, fun id hm hca => ?_⟩
  · obtain ⟨start, rfl⟩ := hf.window hwrap hp hle
    obtain ⟨hs, hr⟩ := count_split _ (hsu.trans (by decide)) start
    refine ⟨fun i c hc => hs i c.percent ?_, hr⟩
    rw [List.getElem?_map, hc]
    rfl
  · refine ctx.pinnedPool_of_canary hm hc hid fun j c' hc' hid' => ?_
    obtain ⟨cfg, hcf, hme⟩ := hf.configured.known i c hc id hid
    obtain ⟨cfg', hcf', hm'⟩ := hf.configured.known j c' hc' id hid'
    exact canary_eq_of_mem ha hcf' hcf hm' hme
  · have hn := ctx.pinnedPool_of_unknown hm hca
    refine ⟨hn, ?_⟩
    unfold SplitContext.resolveDefaultOrCanaryPool
    rw [hn]
    rfl

lemma exists_run_unpinned (ctx : SplitContext) (n : ℕ) :
    ∃ events ctx', Run SplitEvent.Step ctx events ctx' ∧
      (SplitEvent.unpinned events).length = n := by
  induction n with
  | zero => exact ⟨[], ctx, .start, rfl⟩
  | succ n ih =>
    obtain ⟨events, ctx', hr, hl⟩ := ih
    refine ⟨_, _, hr.next (.request none), ?_⟩
    rw [SplitEvent.unpinned, filterMap_append, length_append]
    exact congrArg (· + 1) hl

def tenthListener : ListenerConfig SocketAddr ListenerSettings where
  name := "web"
  listen := "0.0.0.0:8080"
  settings :=
    { ListenerSettings.withDefaults .http [⟨"web1", "127.0.0.1:9001", 1, none, 0, none⟩]
        (.withDefaults (some "/health") 2000 3 5000) ⟨.sourceIp, .finite 50, 100, 100000⟩ with
      canary := [⟨10, [⟨"new1", "127.0.0.1:9002", 1, none, 0, none⟩],
        .withDefaults (some "/health") 2000 3 5000, .roundRobin⟩] }

def tenthConfig : AppConfig where
  listeners := [tenthListener]
  cluster := none
  sections := ⟨⟨10000, none⟩, none, ⟨.json, false, .finite (1 / 100)⟩, none⟩

theorem canary_split_exact_tenth :
    ∃ events ctx, Run SplitEvent.Step (.ofListener tenthListener.settings
        (buildListenerCore (fun _ _ => 0) tenthListener none 0) 95) events ctx ∧
      (SplitEvent.unpinned events).count (.canary 0) = 10 ∧
      (SplitEvent.unpinned events).count .main = 90 := by
  have hv : tenthConfig.validate (ListenerConfig.validate
      ⟨fun _ => true, fun _ => true, fun _ => true, some⟩) (fun _ => .ok ()) = .ok () := by
    decide +kernel
  obtain ⟨events, ctx, hr, hl⟩ := exists_run_unpinned (.ofListener tenthListener.settings
    (buildListenerCore (fun _ _ => 0) tenthListener none 0) 95) 100
  have hw : (95 : UInt64).toNat + (SplitEvent.unpinned events).length ≤ 2 ^ 64 := by
    rw [hl]
    decide
  obtain ⟨hs, -⟩ := canary_split_exact hv mem_cons_self (fun _ _ => 0) none 0 95 hr
    hw
  obtain ⟨hc, hm⟩ := hs [] _ [] (append_nil _).symm hl
  exact ⟨events, ctx, hr, hc 0 _ rfl, hm⟩

end LoadBalancer.Proxy
