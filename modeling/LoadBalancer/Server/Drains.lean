import LoadBalancer.Core.Drained
import LoadBalancer.Server.ReloadRace

/-!
# Drains and reloads

`set_drain` (`crates/lb-server/src/admin_backends.rs`) loads the context of a listener and writes
the flag of a backend in the first of its pools that knows the backend.  A reload carries the flags
over: it captures those of the live context when it prepares the new one, and swaps later.

A request that writes between the two, or that writes to a context that has been swapped out since
it was loaded, is answered and lost.  And a flag is carried over by id, from every pool to every
pool.
-/

namespace LoadBalancer.Server

open LoadBalancer.Core Interleaving List

/-! ## An operator's view -/

def PoolCore.knows (id : BackendId) (pool : PoolCore) : Bool := (pool.pool.backend id).isSome

def PoolCore.setDrained (pool : PoolCore) (id : BackendId) (drain : Bool) (nanos : ℕ) :
    PoolCore :=
  { pool with pool := pool.pool.setManuallyDrained id drain nanos }

def ListenerContext.pools (ctx : ListenerContext) : List PoolCore :=
  match ctx.settings with
  | .http _ => ctx.core.pools
  | .tcp _ => [ctx.core.main]

def ListenerContext.drained (ctx : ListenerContext) (id : BackendId) : Option Bool :=
  (ctx.pools.find? (PoolCore.knows id)).map fun pool => pool.pool.isManuallyDrained id

section

variable (id : BackendId) (drain : Bool) (nanos : ℕ)

/-- The first pool that knows the backend is written. -/
def drainFirst : List PoolCore → List PoolCore
  | [] => []
  | pool :: rest =>
    if pool.knows id then pool.setDrained id drain nanos :: rest
    else pool :: drainFirst rest

def ListenerCore.setDrained (c : ListenerCore) : ListenerCore :=
  if c.main.knows id then { c with main := c.main.setDrained id drain nanos }
  else if c.routes.any (PoolCore.knows id) then
    { c with routes := drainFirst id drain nanos c.routes }
  else { c with canary := drainFirst id drain nanos c.canary }

/-- `set_drain` on a loaded context; `none` is the answer that there is no such backend. -/
def ListenerContext.setDrain (ctx : ListenerContext) : Option ListenerContext :=
  if ctx.pools.any (PoolCore.knows id) then
    some { ctx with core := ctx.core.setDrained id drain nanos }
  else none

end

section

variable {id : BackendId} {drain : Bool} {nanos : ℕ}

@[simp] lemma PoolCore.knows_setDrained (pool : PoolCore) (id' : BackendId) :
    (pool.setDrained id drain nanos).knows id' = pool.knows id' :=
  congrArg Option.isSome ((BackendPool.FlagCall.setManuallyDrained ..).flagWrite.backend id')

lemma drainFirst_append (l l' : List PoolCore) :
    drainFirst id drain nanos (l ++ l')
      = if l.any (PoolCore.knows id) then drainFirst id drain nanos l ++ l'
        else l ++ drainFirst id drain nanos l' := by
  induction l with
  | nil => rfl
  | cons pool l ih =>
    by_cases hk : pool.knows id = true
    · simp [drainFirst, hk]
    · rw [cons_append, drainFirst, if_neg hk, drainFirst, if_neg hk, ih,
        any_cons, Bool.eq_false_of_not_eq_true hk, Bool.false_or]
      split_ifs
      · rfl
      · rfl

lemma find?_drainFirst (l : List PoolCore) :
    (drainFirst id drain nanos l).find? (PoolCore.knows id)
      = (l.find? (PoolCore.knows id)).map fun pool => pool.setDrained id drain nanos := by
  induction l with
  | nil => rfl
  | cons pool l ih =>
    by_cases hk : pool.knows id = true
    · simp [drainFirst, hk]
    · simp [drainFirst, hk, ih]

lemma mem_drainFirst {pool : PoolCore} : ∀ {l : List PoolCore},
    pool ∈ drainFirst id drain nanos l →
      ∃ old ∈ l, pool = old ∨ pool = old.setDrained id drain nanos
  | [], h => by cases h
  | old :: l, h => by
    rw [drainFirst] at h
    split_ifs at h
    · rcases mem_cons.mp h with rfl | h
      · exact ⟨old, mem_cons_self, Or.inr rfl⟩
      · exact ⟨pool, mem_cons_of_mem _ h, Or.inl rfl⟩
    · rcases mem_cons.mp h with rfl | h
      · exact ⟨pool, mem_cons_self, Or.inl rfl⟩
      · obtain ⟨old', ho, hp⟩ := mem_drainFirst h
        exact ⟨old', mem_cons_of_mem _ ho, hp⟩

variable {ctx' : ListenerContext}

lemma ListenerContext.pools_setDrain {ctx : ListenerContext}
    (h : ctx.setDrain id drain nanos = some ctx') :
    ctx'.pools = drainFirst id drain nanos ctx.pools := by
  obtain ⟨ha, h⟩ := (Option.ite_none_right_eq_some).mp h
  cases h
  unfold ListenerContext.pools at ha ⊢
  cases hs : ctx.settings with
  | tcp settings =>
    rw [hs] at ha
    have hm : ctx.core.main.knows id = true := by simpa using ha
    simp [ListenerCore.setDrained, drainFirst, hm]
  | http settings =>
    by_cases hm : ctx.core.main.knows id = true
    · simp [ListenerCore.setDrained, ListenerCore.pools, drainFirst, hm]
    · simp only [ListenerCore.setDrained, ListenerCore.pools, drainFirst, drainFirst_append]
      split_ifs <;> rfl

lemma ListenerContext.drained_setDrain {ctx : ListenerContext}
    (hc : ∀ pool ∈ ctx.pools, pool.pool.Reached)
    (h : ctx.setDrain id drain nanos = some ctx') :
    ctx'.drained id = some drain ∧ ∀ pool ∈ ctx'.pools, pool.pool.Reached := by
  have hp := pools_setDrain h
  constructor
  · obtain ⟨ha, -⟩ := (Option.ite_none_right_eq_some).mp h
    have hs : (ctx.pools.find? (PoolCore.knows id)).isSome = true := by simpa using ha
    obtain ⟨pool, hf⟩ := Option.isSome_iff_exists.mp hs
    have hm := mem_of_find?_eq_some hf
    have hk : pool.knows id = true := List.find?_some hf
    rw [drained, hp, find?_drainFirst, hf]
    have hind := (hc pool hm).listing.indexed
    obtain ⟨r, hg⟩ := AList.exists_get_of_mem (BackendPool.isSome_backend_iff.mp hk)
    have hfl := hind.carriedFlags_setManuallyDrained id drain nanos id
    rw [if_pos rfl, BackendPool.carriedFlags, BackendPool.carriedFlags, hg] at hfl
    refine congrArg some ((BackendPool.isManuallyDrained_eq ..).trans ?_)
    exact congrArg (Option.any CarriedFlags.manuallyDrained) hfl
  · intro pool hpo
    rw [hp] at hpo
    obtain ⟨old, ho, rfl | rfl⟩ := mem_drainFirst hpo
    · exact hc pool ho
    · exact .write (hc old ho) (BackendPool.FlagCall.setManuallyDrained ..).flagWrite

end

/-! ## What a reload captures -/

namespace PreviousListenerState

lemma mem_manuallyDrained_collectPool {st : PreviousListenerState} {pool : PoolCore}
    {id : BackendId} :
    id ∈ (st.collectPool pool).manuallyDrained ↔ id ∈ st.manuallyDrained ∨
      (id ∈ pool.pool.allBackendIds ∧ pool.pool.isManuallyDrained id = true) := by
  unfold collectPool
  induction pool.pool.allBackendIds generalizing st with
  | nil => simp
  | cons id' ids ih =>
    rw [foldl_cons, ih, collectBackend]
    by_cases hd : pool.pool.isManuallyDrained id' = true
    · rw [if_pos hd, mem_cons, mem_cons]
      constructor
      · rintro ((rfl | h) | h)
        · exact Or.inr ⟨Or.inl rfl, hd⟩
        · exact Or.inl h
        · exact Or.inr ⟨Or.inr h.1, h.2⟩
      · rintro (h | ⟨rfl | h, hid⟩)
        · exact Or.inl (Or.inr h)
        · exact Or.inl (Or.inl rfl)
        · exact Or.inr ⟨h, hid⟩
    · rw [if_neg hd, mem_cons]
      constructor
      · rintro (h | h)
        · exact Or.inl h
        · exact Or.inr ⟨Or.inr h.1, h.2⟩
      · rintro (h | ⟨rfl | h, hid⟩)
        · exact Or.inl h
        · exact absurd hid hd
        · exact Or.inr ⟨h, hid⟩

lemma mem_manuallyDrained_ofContext {ctx : ListenerContext} {carryDnsBackends : Bool}
    {id : BackendId} :
    id ∈ (ofContext ctx carryDnsBackends).manuallyDrained ↔
      ∃ pool ∈ ctx.pools, id ∈ pool.pool.allBackendIds ∧
        pool.pool.isManuallyDrained id = true := by
  have hfo : ∀ (pools : List PoolCore) (st : PreviousListenerState),
      id ∈ (pools.foldl collectPool st).manuallyDrained ↔ id ∈ st.manuallyDrained ∨
        ∃ pool ∈ pools, id ∈ pool.pool.allBackendIds ∧
          pool.pool.isManuallyDrained id = true := by
    intro pools
    induction pools with
    | nil => simp
    | cons pool pools ih =>
      intro st
      rw [foldl_cons, ih, mem_manuallyDrained_collectPool, exists_mem_cons_iff, or_assoc]
  have hf : (ofContext ctx carryDnsBackends).manuallyDrained
      = (ctx.pools.foldl collectPool (empty ctx.core.circuitBreakers)).manuallyDrained := by
    cases carryDnsBackends <;> rfl
  rw [hf, hfo]
  exact or_iff_right not_mem_nil

end PreviousListenerState

lemma ListenerContext.mem_manuallyDrained_iff {ctx : ListenerContext} {id : BackendId} {v : Bool}
    (hc : ∀ pool ∈ ctx.pools, pool.pool.Reached)
    (hon : ctx.pools.countP (PoolCore.knows id) ≤ 1) (hv : ctx.drained id = some v)
    (carryDnsBackends : Bool) :
    id ∈ (PreviousListenerState.ofContext ctx carryDnsBackends).manuallyDrained ↔ v = true := by
  obtain ⟨pool, hf, rfl⟩ := Option.map_eq_some_iff.mp hv
  have hm := mem_of_find?_eq_some hf
  have hk : pool.knows id = true := List.find?_some hf
  rw [PreviousListenerState.mem_manuallyDrained_ofContext]
  constructor
  · rintro ⟨other, hot, -, hd⟩
    -- a pool that shows a flag knows the backend
    have hk' : other.knows id = true := by
      by_contra hno
      have hn : other.pool.inner.states.get id = none := by
        rw [AList.get_eq_none_iff, ← BackendPool.isSome_backend_iff]
        exact hno
      rw [BackendPool.isManuallyDrained, BackendPool.shownFlag, hn] at hd
      cases hd
    have ho := mem_filter.mpr ⟨hot, hk'⟩
    rw [← List.head?_filter] at hf
    obtain ⟨rest, hr⟩ := List.head?_eq_some_iff.mp hf
    rw [countP_eq_length_filter, hr, length_cons] at hon
    obtain rfl : rest = [] := eq_nil_of_length_eq_zero (by omega)
    rw [hr, mem_singleton] at ho
    rwa [← ho]
  · intro hd
    exact ⟨pool, hm, (hc pool hm).listing.known id (BackendPool.isSome_backend_iff.mp hk), hd⟩

/-! ## What a reload carries over -/

section

variable {id : BackendId} {previous : PreviousListenerState} {nanos : ℕ}

lemma reached_buildPool (backends : List Backend) (hc : HealthCheckConfig)
    (previous : Option PreviousListenerState) :
    (buildPool backends hc previous nanos).pool.Reached :=
  .write (.built backends (hc.maxEjectedFraction.bind Float64.toRat))
    (flagWrite_seedFromPrevious _ backends previous nanos)

/-- The flags that a backend is given: an operator's drain is added, the rest is what was captured,
and a backend that is new has its first probe ahead. -/
def PreviousListenerState.seedFlags (previous : PreviousListenerState) (id : BackendId)
    (flags : CarriedFlags) : CarriedFlags where
  manuallyDrained := flags.manuallyDrained || decide (id ∈ previous.manuallyDrained)
  activeHealthy := (previous.health.get id).elim flags.activeHealthy PreviousHealth.activeHealthy
  awaitingFirstProbe := (previous.health.get id).elim true PreviousHealth.awaitingFirstProbe

lemma PreviousListenerState.seedFlags_of_known {health : PreviousHealth}
    (h : previous.health.get id = some health) :
    previous.seedFlags id = fun flags =>
      ⟨flags.manuallyDrained || decide (id ∈ previous.manuallyDrained), health.activeHealthy,
        health.awaitingFirstProbe⟩ := by
  unfold seedFlags
  rw [h]
  rfl

lemma PreviousListenerState.seedFlags_of_new (h : previous.health.get id = none) :
    previous.seedFlags id = fun flags =>
      ⟨flags.manuallyDrained || decide (id ∈ previous.manuallyDrained), flags.activeHealthy,
        true⟩ := by
  unfold seedFlags
  rw [h]
  rfl

lemma PreviousListenerState.seedFlags_seedFlags (flags : CarriedFlags) :
    previous.seedFlags id (previous.seedFlags id flags) = previous.seedFlags id flags := by
  unfold seedFlags
  cases previous.health.get id <;> simp

lemma carriedFlags_seedDrained {pool : BackendPool} (hp : pool.Indexed) (b : Backend) :
    (if b.id ∈ previous.manuallyDrained then pool.setManuallyDrained b.id true nanos
      else pool).carriedFlags id
      = if id = b.id then (pool.carriedFlags id).map fun flags => { flags with
            manuallyDrained := flags.manuallyDrained || decide (id ∈ previous.manuallyDrained) }
        else pool.carriedFlags id := by
  by_cases hm : b.id ∈ previous.manuallyDrained
  · rw [if_pos hm, hp.carriedFlags_setManuallyDrained]
    split_ifs with hid
    · simp [hid, hm]
    · rfl
  · rw [if_neg hm]
    split_ifs with hid
    · simp [hid, hm]
    · rfl

lemma carriedFlags_seedBackend {pool : BackendPool} (hp : pool.Indexed) (b : Backend) :
    (seedBackend previous nanos pool b).carriedFlags id
      = if id = b.id then (pool.carriedFlags id).map (previous.seedFlags id)
        else pool.carriedFlags id := by
  unfold seedBackend
  set drained := if b.id ∈ previous.manuallyDrained then
    pool.setManuallyDrained b.id true nanos else pool with hd
  have hind : drained.Indexed := by
    rw [hd]
    split_ifs
    · exact (BackendPool.FlagCall.setManuallyDrained ..).flagWrite.indexed hp
    · exact hp
  have hf : drained.carriedFlags id = _ := carriedFlags_seedDrained hp b
  cases hh : previous.health.get b.id with
  | none =>
    rw [hind.carriedFlags_markAwaitingFirstProbe, hf]
    split_ifs with hid
    · rw [hid, PreviousListenerState.seedFlags_of_new hh, Option.map_map]
      rfl
    · rfl
  | some health =>
    have hs := hind.carriedFlags_setActiveHealthy b.id health.activeHealthy nanos id
    have hw := (BackendPool.FlagCall.setActiveHealthy drained b.id health.activeHealthy
      nanos).flagWrite
    dsimp only
    by_cases ha : health.awaitingFirstProbe = true
    · rw [if_pos ha, (hw.indexed hind).carriedFlags_markAwaitingFirstProbe, hs, hf]
      split_ifs with hid
      · rw [hid, PreviousListenerState.seedFlags_of_known hh, ha, Option.map_map, Option.map_map]
        rfl
      · rfl
    · rw [if_neg ha, hs, hf]
      split_ifs with hid
      · rw [hid, PreviousListenerState.seedFlags_of_known hh,
          Bool.eq_false_of_not_eq_true ha, Option.map_map]
        rfl
      · rfl

/-- **The loop.**  Every listed backend is given its flags, however often it is listed. -/
lemma carriedFlags_seedFromPrevious : ∀ (backends : List Backend) {pool : BackendPool},
    pool.Indexed →
    (seedFromPrevious pool backends (some previous) nanos).carriedFlags id
      = if id ∈ backends.map (fun b => b.id) then
          (pool.carriedFlags id).map (previous.seedFlags id)
        else pool.carriedFlags id
  | [], pool, _ => by simp [seedFromPrevious]
  | b :: backends, pool, hp => by
    have hw := flagWrite_seedFromPrevious pool [b] (some previous) nanos
    have hr := carriedFlags_seedFromPrevious backends (hw.indexed hp)
    have ho : seedFromPrevious pool [b] (some previous) nanos
        = seedBackend previous nanos pool b := rfl
    rw [ho, carriedFlags_seedBackend hp] at hr
    refine hr.trans ?_
    by_cases hid : id = b.id
    · simp only [hid, map_cons, mem_cons, if_true, true_or, Option.map_map,
        Function.comp_def, PreviousListenerState.seedFlags_seedFlags, ite_self]
    · simp only [hid, map_cons, mem_cons, if_false, false_or]

variable {backends : List Backend}

lemma carriedFlags_buildPool {hc : HealthCheckConfig} (hid : id ∈ backends.map fun b => b.id) :
    (buildPool backends hc (some previous) nanos).pool.carriedFlags id
      = some (previous.seedFlags id ⟨false, true, false⟩) := by
  have hind := BackendPool.indexed_withMaxEjectedFraction backends
    (hc.maxEjectedFraction.bind Float64.toRat)
  refine (carriedFlags_seedFromPrevious backends hind).trans ?_
  rw [if_pos hid, BackendPool.carriedFlags_withMaxEjectedFraction hid, Option.map_some]

lemma isManuallyDrained_buildPool {hc : HealthCheckConfig}
    (hk : (buildPool backends hc (some previous) nanos).knows id = true) :
    (buildPool backends hc (some previous) nanos).pool.isManuallyDrained id = true ↔
      id ∈ previous.manuallyDrained := by
  have hr : (buildPool backends hc (some previous) nanos).pool.Reached :=
    reached_buildPool backends hc _
  have hid := hr.listing.known id (BackendPool.isSome_backend_iff.mp hk)
  rw [order_buildPool] at hid
  rw [BackendPool.isManuallyDrained_eq, carriedFlags_buildPool hid]
  simp [PreviousListenerState.seedFlags]

end

section

variable {ext : Externals} {files : TlsFiles} {new current : AppConfig} {nanos : ℕ}
  {st : ReloadState} {name : String} {id : BackendId} {ctx : ListenerContext} {v : Bool}

lemma ListenerContext.pools_subset (ctx : ListenerContext) : ctx.pools ⊆ ctx.core.pools := by
  unfold ListenerContext.pools
  cases ctx.settings with
  | http => exact List.Subset.refl _
  | tcp => exact fun pool hp => mem_cons.mpr (Or.inl (mem_singleton.mp hp))

variable {connector : Option BackendTlsConfig}

lemma exists_buildPool_of_buildContext {l : ListenerEntry} {clusterNode : Bool}
    {cluster : Option (ClusterConfig SocketAddr)} {logging : LoggingConfig}
    {previous : Option PreviousListenerState}
    (h : buildContext ext l connector clusterNode cluster logging previous nanos = .ok ctx)
    {pool : PoolCore} (hp : pool ∈ ctx.pools) :
    ∃ backends hc, pool = buildPool backends hc previous nanos := by
  obtain ⟨settings, -, h⟩ := Except.bind_eq_ok_iff.mp h
  cases h
  exact exists_buildPool_of_mem_pools (ListenerContext.pools_subset _ hp)

/-- What is prepared for a listener shows what its live context showed, if it knows the backend. -/
def ListenerContext.Carries (id : BackendId) (v : Bool) (ctx : ListenerContext) : Prop :=
  (∀ pool ∈ ctx.pools, pool.pool.Reached) ∧ ∀ v', ctx.drained id = some v' → v' = v

lemma carries_of_prepareListener {l : ListenerEntry} {p : Prepared}
    (hl : st.listeners.get l.name = some ctx) (hct : ∀ pool ∈ ctx.pools, pool.pool.Reached)
    (ho : ctx.pools.countP (PoolCore.knows id) ≤ 1) (hv : ctx.drained id = some v)
    (h : prepareListener ext new current nanos st l connector = .ok p) :
    p.context.Carries id v := by
  obtain ⟨context, hco, h⟩ := Except.bind_eq_ok_iff.mp h
  obtain ⟨tasks, -, h⟩ := Except.bind_eq_ok_iff.mp h
  cases h
  rw [hl, Option.map_some] at hco
  have hb := Except.mapError_eq_ok_iff.mp hco
  refine ⟨fun pool hp => ?_, fun v' hv' => ?_⟩
  · obtain ⟨backends, hc, rfl⟩ := exists_buildPool_of_buildContext hb hp
    exact reached_buildPool backends hc _
  · obtain ⟨pool, hf, rfl⟩ := Option.map_eq_some_iff.mp hv'
    have hk : pool.knows id = true := List.find?_some hf
    obtain ⟨backends, hc, rfl⟩ := exists_buildPool_of_buildContext hb (mem_of_find?_eq_some hf)
    rw [Bool.eq_iff_iff, isManuallyDrained_buildPool hk]
    exact ctx.mem_manuallyDrained_iff hct ho hv _

lemma carries_of_prepareReload {changed : List ListenerEntry} {prepared : List Prepared}
    (hl : st.listeners.get name = some ctx) (hc : ∀ pool ∈ ctx.pools, pool.pool.Reached)
    (ho : ctx.pools.countP (PoolCore.knows id) ≤ 1) (hv : ctx.drained id = some v)
    (h : prepareReload ext files new current nanos st changed = .ok prepared) :
    ∀ p ∈ prepared, p.name = name → p.context.Carries id v := by
  intro p hp hn
  obtain ⟨connectors, -, h⟩ := Except.bind_eq_ok_iff.mp h
  obtain ⟨x, -, hx⟩ := (Except.mem_of_mapM_eq_ok h).2 p hp
  have hl' : st.listeners.get x.1.name = some ctx := by
    rw [← name_of_prepareListener hx, hn, hl]
  exact carries_of_prepareListener hl' hc ho hv hx

lemma get_swapContexts (name : String) : ∀ (prepared : List Prepared) (st : ReloadState),
    (swapContexts prepared st).2.listeners.get name = st.listeners.get name ∨
      ∃ p ∈ prepared, p.name = name ∧
        (swapContexts prepared st).2.listeners.get name = some p.context
  | [], _ => Or.inl rfl
  | p :: rest, st => by
    rw [swapContexts]
    split_ifs
    · rcases get_swapContexts name rest { st with
          listeners := st.listeners.insert p.name p.context
          tasks := st.tasks.insert p.name p.tasks } with hs | ⟨q, hq, hn, hg⟩
      · by_cases hn : name = p.name
        · refine Or.inr ⟨p, mem_cons_self, hn.symm, hs.trans ?_⟩
          rw [AList.get_insert, if_pos hn]
        · exact Or.inl (hs.trans (AList.get_insert_of_ne _ _ hn))
      · exact Or.inr ⟨q, mem_cons_of_mem _ hq, hn, hg⟩
    · exact Or.inl rfl

end

/-! ## Requests and reloads -/

/-- Where a request or a reload is.  A request holds the context it has loaded, of those the
listener has had. -/
inductive AdminPoint
  | arrived (drain : Bool) (nanos : ℕ)
  | loaded (generation : ℕ) (drain : Bool) (nanos : ℕ)
  | reload (p : ReloadPoint)

/-- The state of reloads, the contexts of the listener that have been swapped out, and the values of
the requests that have been answered with success. -/
structure AdminState where
  reload : ReloadState
  retired : List ListenerContext
  answers : List Bool

abbrev AdminSystem := Interleaving.Config AdminState AdminPoint

section

variable (ext : Externals) (name : String) (id : BackendId)

namespace AdminState

def context (s : AdminState) (generation : ℕ) : Option ListenerContext :=
  if generation = s.retired.length then s.reload.listeners.get name else s.retired[generation]?

def store (s : AdminState) (generation : ℕ) (ctx : ListenerContext) : AdminState :=
  if generation = s.retired.length then
    { s with reload.listeners := s.reload.listeners.insert name ctx }
  else { s with retired := s.retired.set generation ctx }

/-- The context that a reload replaces, unless it panics before that. -/
def replaced (s : AdminState) : ReloadPoint → List ListenerContext
  | .swapping _ _ prepared =>
    let swapped := prepared.takeWhile fun p =>
      (s.reload.listeners.get p.name).map (fun ctx => ctx.settings.protocol)
        = some p.context.settings.protocol
    if swapped.any fun p => p.name = name then (s.reload.listeners.get name).toList else []
  | _ => []

end AdminState

def adminNext (s : AdminState) : AdminPoint → AdminState × Option AdminPoint
  | .arrived drain nanos =>
    match s.reload.listeners.get name with
    | none => (s, none)
    | some _ => (s, some (.loaded s.retired.length drain nanos))
  | .loaded generation drain nanos =>
    match (s.context name generation).bind fun ctx => ctx.setDrain id drain nanos with
    | none => (s, none)
    | some ctx =>
      ({ s.store name generation ctx with answers := s.answers ++ [drain] }, none)
  | .reload p =>
    let next := reloadNext ext s.reload p
    ({ s with reload := next.1, retired := s.retired ++ s.replaced name p }, next.2.map .reload)

def AdminPoint.Starts : AdminPoint → Prop
  | .arrived _ _ => True
  | .loaded _ _ _ => False
  | .reload (.requested _ _ _) => True
  | .reload _ => False

/-- The backend stays: what is swapped in for the listener knows it. -/
def Stays (c : AdminSystem) : Event AdminPoint → Prop
  | .spawn _ _ => True
  | .step i => ∀ new current prepared,
      c.threads i = some (.reload (.swapping new current prepared)) →
        ∀ p ∈ prepared, p.name = name → (p.context.drained id).isSome = true

/-- A request writes to the live context, while no reload is between its capture and its swap; and a
reload captures when the listener knows the backend in one pool only. -/
def Undisturbed (c : AdminSystem) : Event AdminPoint → Prop
  | .spawn _ _ => True
  | .step i => match c.threads i with
    | some (.loaded generation _ _) => generation = c.shared.retired.length ∧
        ∀ j new current prepared, c.threads j ≠ some (.reload (.swapping new current prepared))
    | some (.reload (.comparing _ _ _ _)) => ∀ ctx, c.shared.reload.listeners.get name = some ctx →
        ctx.pools.countP (PoolCore.knows id) ≤ 1
    | _ => True

def AdminStep (ok : AdminSystem → Event AdminPoint → Prop) :
    AdminSystem → Event AdminPoint → AdminSystem → Prop :=
  Scheduled ok AdminPoint.Starts (stepOf (adminNext ext name id))

end

/-! ## The invariant -/

/-- What the last answer said, or what the flag was at first. -/
def AdminState.lastAnswer (initial : Bool) (s : AdminState) : Bool :=
  s.answers.getLast?.getD initial

def ReloadState.Shows (st : ReloadState) (name : String) (id : BackendId) (v : Bool) : Prop :=
  ∃ ctx, st.listeners.get name = some ctx ∧ (∀ pool ∈ ctx.pools, pool.pool.Reached) ∧
    ctx.drained id = some v

/-- **The live pool shows the last answer**, and so will every context that is about to be swapped
in. -/
structure DrainInvariant (name : String) (id : BackendId) (initial : Bool) (c : AdminSystem) :
    Prop where
  live : c.shared.reload.Shows name id (c.shared.lastAnswer initial)
  prepared : ∀ i new current prepared,
    c.threads i = some (.reload (.swapping new current prepared)) →
      ∀ p ∈ prepared, p.name = name → p.context.Carries id (c.shared.lastAnswer initial)

namespace DrainInvariant

variable {ext : Externals} {name : String} {id : BackendId} {initial : Bool} {c : AdminSystem}
  {i : ℕ}

variable {o : Option AdminPoint} {s' : AdminState} (h : DrainInvariant name id initial c)

include h

lemma update (ha : s'.answers = c.shared.answers)
    (hli : s'.reload.Shows name id (c.shared.lastAnswer initial))
    (how : ∀ new current prepared, o = some (.reload (.swapping new current prepared)) →
      ∀ p ∈ prepared, p.name = name → p.context.Carries id (c.shared.lastAnswer initial)) :
    DrainInvariant name id initial ⟨s', Function.update c.threads i o⟩ := by
  have hl : s'.lastAnswer initial = c.shared.lastAnswer initial := by
    rw [AdminState.lastAnswer, AdminState.lastAnswer, ha]
  refine ⟨?_, fun j new current prepared hj => ?_⟩
  · rw [hl]
    exact hli
  · rw [hl]
    obtain ⟨-, ho⟩ | ⟨-, hol⟩ := mem_update_iff.mp hj
    · exact how new current prepared ho
    · exact h.prepared j new current prepared hol

lemma spawn {p : AdminPoint} (hp : p.Starts) :
    DrainInvariant name id initial
      { c with threads := Function.update c.threads i (some p) } := by
  refine h.update rfl h.live fun new current prepared hp' => ?_
  cases hp'
  exact hp.elim

/-- **A request** that writes to the live context while no reload is about to swap. -/
lemma write {drain : Bool} {nanos : ℕ}
    (hot : ∀ j new current prepared,
      c.threads j ≠ some (.reload (.swapping new current prepared)))
    (hs : adminNext ext name id c.shared (.loaded c.shared.retired.length drain nanos) =
      (s', o)) :
    DrainInvariant name id initial ⟨s', Function.update c.threads i o⟩ := by
  obtain ⟨ctx, hg, hr, hd⟩ := h.live
  have hc : c.shared.context name c.shared.retired.length = some ctx := by
    rw [AdminState.context, if_pos rfl, hg]
  rw [adminNext, hc, Option.bind_some] at hs
  cases hse : ctx.setDrain id drain nanos with
  | none =>
    rw [hse] at hs
    cases hs
    exact h.update rfl h.live fun _ _ _ ho => by cases ho
  | some ctx' =>
    rw [hse] at hs
    cases hs
    obtain ⟨hsh, hr'⟩ := ListenerContext.drained_setDrain hr hse
    refine ⟨⟨ctx', ?_, hr', ?_⟩, fun j new current prepared hj => ?_⟩
    · dsimp only
      rw [AdminState.store, if_pos rfl, AList.get_insert, if_pos rfl]
    · rw [hsh, AdminState.lastAnswer, List.getLast?_append_of_ne_nil _ (by simp)]
      rfl
    · obtain ⟨-, ho⟩ | ⟨-, hol⟩ := mem_update_iff.mp hj
      · cases ho
      · exact absurd hol (hot j new current prepared)

/-- **A reload** that captures a backend of one pool, and swaps in a context that knows it. -/
lemma reload {p : ReloadPoint} (hp : c.threads i = some (.reload p))
    (hst : Stays name id c (.step i)) (hu : Undisturbed name id c (.step i))
    (hste : adminNext ext name id c.shared (.reload p) = (s', o)) :
    DrainInvariant name id initial ⟨s', Function.update c.threads i o⟩ := by
  cases hste
  cases p with
  | requested files new nanos =>
    refine h.update rfl h.live fun _ _ _ ho => ?_
    cases ho
  | comparing files new current nanos =>
    obtain ⟨ctx, hg, hr, hd⟩ := h.live
    have hon : ctx.pools.countP (PoolCore.knows id) ≤ 1 := by
      rw [Undisturbed, hp] at hu
      exact hu ctx hg
    rcases hn : reloadNext ext c.shared.reload (.comparing files new current nanos) with
      ⟨st', o⟩
    obtain ⟨rfl, hpr⟩ := of_reloadNext_comparing hn
    refine h.update rfl h.live fun new' current' prepared ho => ?_
    obtain ⟨q, hq, hqo⟩ := Option.map_eq_some_iff.mp ho
    obtain ⟨changed, prepared', -, hpre, rfl⟩ := hpr q hq
    cases hqo
    exact carries_of_prepareReload hg hr hon hd hpre
  | swapping new current prepared =>
    rcases hn : reloadNext ext c.shared.reload (.swapping new current prepared) with ⟨st', o⟩
    obtain ⟨rfl, hs⟩ := of_reloadNext_swapping hn
    refine h.update rfl ?_ fun new' current' prepared' ho => ?_
    · rcases get_swapContexts name prepared c.shared.reload with hsa | ⟨q, hq, hna, hg⟩
      · obtain ⟨ctx, hg, hct⟩ := h.live
        exact ⟨ctx, hsa.trans hg, hct⟩
      · obtain ⟨hr, hc⟩ := h.prepared i new current prepared hp q hq hna
        obtain ⟨v, hv⟩ := Option.isSome_iff_exists.mp (hst new current prepared hp q hq hna)
        obtain rfl := hc v hv
        exact ⟨q.context, hg, hr, hv⟩
    · obtain ⟨q, hq, hqo⟩ := Option.map_eq_some_iff.mp ho
      obtain rfl := hs q hq
      cases hqo
  | storing new =>
    exact h.update rfl h.live fun _ _ _ ho => by cases ho

end DrainInvariant

/-- **A reload keeps an operator's drains.**  If every request writes to the live context while no
reload is between its capture and its swap, and reloads capture a backend of one pool, then the
live pool always shows the value of the last request that was answered with success, or else what
it showed at first. -/
theorem drain_survives_reload {ext : Externals} {name : String} {id : BackendId} {initial : Bool}
    {st : ReloadState} {ctx : ListenerContext} {schedule : List (Event AdminPoint)}
    {c : AdminSystem} (hlive : st.listeners.get name = some ctx)
    (hpools : ∀ pool ∈ ctx.pools, pool.pool.Reached)
    (hpresent : ctx.drained id = some initial)
    (hrun : Run (AdminStep ext name id fun c e => Stays name id c e ∧ Undisturbed name id c e)
      (idle ⟨st, [], []⟩) schedule c) :
    ∃ ctx', c.shared.reload.listeners.get name = some ctx' ∧
      ctx'.drained id = some (c.shared.answers.getLast?.getD initial) := by
  have hid : DrainInvariant name id initial (idle ⟨st, [], []⟩) :=
    ⟨⟨ctx, hlive, hpools, hpresent⟩, by simp [idle]⟩
  have hc : DrainInvariant name id initial c := by
    refine config_invariant hid (fun c i p _ _ hp h => h.spawn hp) ?_ hrun
    rintro c i p s' o ⟨hst, hu⟩ hp hs h
    cases p with
    | arrived drain nanos =>
      obtain ⟨ctx, hg, -⟩ := h.live
      simp only [stepOf, adminNext, hg] at hs
      cases hs
      exact h.update rfl h.live fun _ _ _ ho => by cases ho
    | loaded generation drain nanos =>
      rw [Undisturbed, hp] at hu
      obtain ⟨rfl, hot⟩ := hu
      exact h.write hot hs
    | reload p => exact h.reload hp hst hu hs
  obtain ⟨ctx', hg, -, hd⟩ := hc.live
  exact ⟨ctx', hg, hd⟩

/-! ### A drain and a new rate -/

def startsAdmin : AdminPoint → Bool
  | .arrived _ _ => true
  | .reload (.requested _ _ _) => true
  | _ => false

lemma starts_of_startsAdmin (p : AdminPoint) (h : startsAdmin p = true) : p.Starts := by
  cases p with
  | arrived => trivial
  | loaded => cases h
  | reload p =>
    cases p with
    | requested => trivial
    | comparing | swapping | storing => cases h

/-- The conditions of a run, as far as they do not speak of other threads. -/
def staysBool (c : AdminSystem) : Event AdminPoint → Bool
  | .spawn _ _ => true
  | .step i => match c.threads i with
    | some (.reload (.swapping _ _ prepared)) => prepared.all fun p =>
        p.name ≠ "web" || (p.context.drained "web1").isSome
    | _ => true

lemma stays_of_staysBool (c : AdminSystem) (e : Event AdminPoint) (h : staysBool c e = true) :
    Stays "web" "web1" c e := by
  cases e with
  | spawn => trivial
  | step i =>
    intro new current prepared hi p hp hn
    rw [staysBool, hi] at h
    have hp' := all_eq_true.mp h p hp
    simpa [hn] using hp'

/-- One thread on its own, which finds what it has loaded live and the backend in one pool. -/
def undisturbedAlone (c : AdminSystem) : Event AdminPoint → Bool
  | .spawn i _ => i = 0
  | .step i => i = 0 && match c.threads i with
    | some (.loaded generation _ _) => generation = c.shared.retired.length
    | some (.reload (.comparing _ _ _ _)) => (c.shared.reload.listeners.get "web").all fun ctx =>
        ctx.pools.countP (PoolCore.knows "web1") ≤ 1
    | _ => true

variable {e : Event AdminPoint}

lemma undisturbed_of_alone {c : AdminSystem} (hs : Solo c) (h : undisturbedAlone c e = true) :
    Undisturbed "web" "web1" c e := by
  cases e with
  | spawn => trivial
  | step i =>
    rw [undisturbedAlone, Bool.and_eq_true, decide_eq_true_eq] at h
    obtain ⟨rfl, h⟩ := h
    rw [Undisturbed]
    split
    · next generation drain nanos hi =>
      rw [hi] at h
      refine ⟨of_decide_eq_true h, fun j new current prepared hj => ?_⟩
      cases hs.thread_eq hi hj
    · next hi =>
      rw [hi] at h
      intro ctx hg
      rw [hg] at h
      exact of_decide_eq_true h
    · trivial

lemma thread_eq_zero_of_alone {c : AdminSystem} (h : undisturbedAlone c e = true) :
    e.thread = 0 := by
  cases e with
  | spawn => exact of_decide_eq_true h
  | step =>
    rw [undisturbedAlone, Bool.and_eq_true] at h
    exact of_decide_eq_true h.1

lemma undisturbed_of_run {s : AdminState} {events : List (Event AdminPoint)} {c : AdminSystem}
    (h : Run (AdminStep plainExternals "web" "web1" fun c e =>
      (staysBool c e && undisturbedAlone c e) = true) (idle s) events c) :
    Run (AdminStep plainExternals "web" "web1" fun c e =>
      Stays "web" "web1" c e ∧ Undisturbed "web" "web1" c e) (idle s) events c := by
  have ht : ∀ (c : AdminSystem) (e : Event AdminPoint),
      (staysBool c e && undisturbedAlone c e) = true → e.thread = 0 :=
    fun c e h => thread_eq_zero_of_alone (Bool.and_eq_true_iff.mp h).2
  refine (run_solo ht h).mono ?_
  rintro c e c' ⟨hso, hok, hst⟩
  obtain ⟨hs, ha⟩ := Bool.and_eq_true_iff.mp hok
  exact ⟨⟨stays_of_staysBool c e hs, undisturbed_of_alone hso ha⟩, hst⟩

/-- A drain that is answered before a reload starts is carried over. -/
theorem drain_survives_reload_before :
    ∃ app schedule c, buildApp plainExternals readableFiles (webConfig 50) false = .ok app ∧
      Run (AdminStep plainExternals "web" "web1" fun c e =>
        Stays "web" "web1" c e ∧ Undisturbed "web" "web1" c e) (idle ⟨app.reload, [], []⟩)
        schedule c ∧
      c.shared.retired.length = 1 ∧ ∃ ctx, c.shared.reload.listeners.get "web" = some ctx ∧
        ctx.drained "web1" = some true := by
  obtain ⟨app, hap⟩ := exists_webApp
  have he : (((buildApp plainExternals readableFiles (webConfig 50) false).toOption.bind
      fun app => exec startsAdmin (fun c e => staysBool c e && undisturbedAlone c e)
        (adminNext plainExternals "web" "web1") (idle ⟨app.reload, [], []⟩)
        [.spawn 0 (.arrived true 0), .step 0, .step 0, .spawn 0 (.reload (newRate 60)), .step 0,
          .step 0, .step 0, .step 0]).any
      fun c => c.shared.answers = [true] ∧ c.shared.retired.length = 1) = true := by
    decide +kernel
  have hf : (((buildApp plainExternals readableFiles (webConfig 50) false).toOption.bind
      fun app => app.reload.listeners.get "web").bind fun ctx => ctx.drained "web1")
        = some false := by
    decide +kernel
  rw [hap] at he hf
  obtain ⟨c, hru, ha, hr⟩ := exists_run_of_exec starts_of_startsAdmin (fun _ _ h => h) he
  have hru := undisturbed_of_run hru
  obtain ⟨-, -, -, hco⟩ := of_buildApp (by decide) hap
  obtain ⟨ctx, hl, hb⟩ := hco (webListener 50) mem_cons_self
  have hpo : ∀ pool ∈ ctx.pools, pool.pool.Reached := by
    intro pool hpoo
    obtain ⟨backends, hc, rfl⟩ := exists_buildPool_of_buildContext hb hpoo
    exact reached_buildPool backends hc none
  have hp : ctx.drained "web1" = some false := by
    obtain ⟨ctx', hc', hd⟩ := Option.bind_eq_some_iff.mp hf
    cases hl.symm.trans hc'
    exact hd
  obtain ⟨ctx', hg, hs⟩ := drain_survives_reload hl hpo hp hru
  rw [ha] at hs
  exact ⟨app, _, c, hap, hru, hr, ctx', hg, hs⟩

/-- A request that writes to the old pool after the capture is answered and lost. -/
theorem drain_lost :
    ∃ app schedule c, buildApp plainExternals readableFiles (webConfig 50) false = .ok app ∧
      Run (AdminStep plainExternals "web" "web1" (Stays "web" "web1")) (idle ⟨app.reload, [], []⟩)
        schedule c ∧
      Quiescent c ∧ c.shared.answers = [true] ∧
      (c.shared.reload.listeners.get "web").bind (fun ctx => ctx.drained "web1") = some false := by
  obtain ⟨app, hap⟩ := exists_webApp
  have he : (((buildApp plainExternals readableFiles (webConfig 50) false).toOption.bind
      fun app => exec startsAdmin staysBool (adminNext plainExternals "web" "web1")
        (idle ⟨app.reload, [], []⟩) [.spawn 0 (.reload (newRate 60)), .step 0, .step 0,
          .spawn 1 (.arrived true 0), .step 1, .step 1, .step 0, .step 0]).any
      fun c => (∀ i < 2, (c.threads i).isNone) ∧ c.shared.answers = [true] ∧
        (c.shared.reload.listeners.get "web").bind (fun ctx => ctx.drained "web1")
          = some false) = true := by
    decide +kernel
  rw [hap] at he
  obtain ⟨c, hr, hd, ha, hs⟩ := exists_run_of_exec starts_of_startsAdmin stays_of_staysBool he
  have hq : Quiescent c := quiescent_of_run hr (by simp [Event.thread]) hd
  exact ⟨app, _, c, hap, hr, hq, ha, hs⟩

end LoadBalancer.Server
