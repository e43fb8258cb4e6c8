import LoadBalancer.Balancer.Maglev
import LoadBalancer.Lib.VersionedCache

/-!
# Picks and refreshes at the same time

`ring_for` and `table_for` read the pool's version, then the cache and, if that is of another
version, the pool's ids and one weight after the other.  Meanwhile `apply_resolved` may be changing
the pool: it stores the new settings of the backends that stay one by one, publishes the new
membership, and counts the version up at the end.  So a pick may build its ring from a mixture and
leave it in the cache.

Both balancers keep their tables under a version as in `VersionedCache`; `changes` counts the
refreshes that changed the pool and is not part of the code.
-/

namespace LoadBalancer.Balancer

open LoadBalancer.Core Interleaving VersionedCache List

/-! ## Refreshes -/

structure PoolStore where
  pool : BackendPool
  /-- `ejection_lock` is held. -/
  locked : Bool
  changes : ℕ

/-- Where a call of `apply_resolved` is: before it has the lock, in its loop with the backends still
to come and the states found so far, before it counts the version up, and before it gives the lock
back. -/
inductive Refresh
  | lock (backends : List Backend)
  | collect (previous : PoolState) (backends todo : List Backend) (refs : List StateRef)
  | count
  | unlock

namespace Refresh

def next (s : PoolStore) : Refresh → PoolStore × Option Refresh
  | lock backends =>
    if s.locked then (s, some (lock backends))
    else if s.pool.resolvedSetUnchanged backends then ({ s with locked := true }, some unlock)
    else ({ s with locked := true }, some (collect s.pool.inner backends backends []))
  | collect previous backends (b :: todo) refs =>
    let slot := { s.pool with inner := previous }.resolvedSlot s.pool.arena b
    ({ s with pool := { s.pool with arena := slot.2 } },
      some (collect previous backends todo (refs ++ [slot.1])))
  | collect _ backends [] refs =>
    ({ s with pool := { s.pool with inner := .build s.pool.arena backends refs } }, some count)
  | count =>
    ({ s with
      pool := { s.pool with version := (s.pool.version + 1) % 2 ^ 64 }
      changes := s.changes + 1 }, some unlock)
  | unlock => ({ s with locked := false }, none)

def Begins (w : Refresh) : Prop := ∃ backends, w = lock backends

/-- The pool may have been changed, and this is not yet counted. -/
def Changing : Refresh → Prop
  | collect .. | count => True
  | lock _ | unlock => False

lemma pool_of_lock {s s' : PoolStore} {backends : List Backend} {w' : Option Refresh}
    (h : next s (lock backends) = (s', w')) : s'.pool = s.pool ∧ s'.changes = s.changes := by
  have hl : (next s (lock backends)).1.pool = s.pool ∧
      (next s (lock backends)).1.changes = s.changes := by
    simp only [next]
    split_ifs <;> exact ⟨rfl, rfl⟩
  rwa [h] at hl

lemma counted : Counted BackendPool.version PoolStore.pool (stepOf next) (2 ^ 64)
    PoolStore.changes Changing where
  version {s w s' w'} h hv := by
    cases w with
    | lock backends =>
      obtain ⟨hp, hc⟩ := pool_of_lock h
      rw [hp, hc]
      exact hv
    | collect previous backends todo refs =>
      cases todo with
      | nil | cons =>
        obtain ⟨rfl, -⟩ := Prod.mk.inj h
        exact hv
    | count =>
      obtain ⟨rfl, -⟩ := Prod.mk.inj h
      show (s.pool.version + 1) % 2 ^ 64 = (s.changes + 1) % 2 ^ 64
      rw [hv, Nat.mod_add_mod]
    | unlock =>
      obtain ⟨rfl, -⟩ := Prod.mk.inj h
      exact hv
  step {s w s' w'} h := by
    cases w with
    | lock backends =>
      obtain ⟨hp, hc⟩ := pool_of_lock h
      exact Or.inr ⟨hc, Or.inr ⟨hp, id⟩⟩
    | collect previous backends todo refs =>
      refine Or.inr ?_
      cases todo with
      | nil =>
        cases h
        exact ⟨rfl, Or.inl ⟨count, rfl, trivial⟩⟩
      | cons b todo =>
        cases h
        exact ⟨rfl, Or.inl ⟨_, rfl, trivial⟩⟩
    | count =>
      obtain ⟨rfl, -⟩ := Prod.mk.inj h
      exact Or.inl (Nat.lt_succ_self s.changes)
    | unlock =>
      obtain ⟨rfl, -⟩ := Prod.mk.inj h
      exact Or.inr ⟨rfl, Or.inr ⟨rfl, id⟩⟩

/-- The loop of a refresh that nothing else disturbs. -/
lemma alone_collect (p : BackendPool) (backends : List Backend) {s' : PoolStore} :
    ∀ (todo : List Backend) (refs : List StateRef) (s : PoolStore),
      Alone (stepOf next)
        { s with pool := { s.pool with
          arena := (Core.collect p.resolvedSlot todo s.pool.arena).2 } }
        (collect p.inner backends [] (refs ++ (Core.collect p.resolvedSlot todo s.pool.arena).1))
        s' →
      Alone (stepOf next) s (collect p.inner backends todo refs) s'
  | [], refs, s => by
    intro h
    rwa [Core.collect, append_nil] at h
  | b :: todo, refs, s => by
    intro h
    refine .more rfl (alone_collect p backends todo _ _ ?_)
    rw [collect_cons] at h
    dsimp only at h
    rw [append_cons] at h
    exact h

/-- **A refresh that nothing else disturbs** is a call of `apply_resolved`. -/
lemma alone_applyResolved {pool : BackendPool} {backends : List Backend}
    (hc : pool.resolvedSetUnchanged backends = false) (changes : ℕ) :
    Alone (stepOf next) ⟨pool, false, changes⟩ (lock backends)
      ⟨pool.applyResolved backends, false, changes + 1⟩ := by
  have hl : next ⟨pool, false, changes⟩ (lock backends)
      = (⟨pool, true, changes⟩, some (collect pool.inner backends backends [])) := by
    simp only [next, hc, Bool.false_eq_true, if_false]
  have ha : pool.applyResolved backends = { pool with
      arena := (Core.collect pool.resolvedSlot backends pool.arena).2
      inner := .build (Core.collect pool.resolvedSlot backends pool.arena).2 backends
        (Core.collect pool.resolvedSlot backends pool.arena).1
      version := (pool.version + 1) % 2 ^ 64 } := by
    rw [BackendPool.applyResolved, hc]
    rfl
  refine .more hl (alone_collect pool backends backends [] _ (.more rfl (.more rfl (.last ?_))))
  rw [ha]
  rfl

end Refresh

/-! ## Picks -/

/-- How far a pick is with reading the pool: before it lists the ids, between two ids, and between
the two loads of `BackendPool::backend`, with the state it found. -/
inductive Reading
  | ids
  | weights (todo : List BackendId) (found : List (BackendId × ℕ))
  | backend (id : BackendId) (r : Option StateRef) (todo : List BackendId)
    (found : List (BackendId × ℕ))

/-- The ids of a pool with their weights, which both balancers cap at 100. -/
def weightsOf (pool : BackendPool) : List (BackendId × ℕ) :=
  pool.allBackendIds.map fun id => (id, cappedWeight 100 pool id)

lemma weight_eq (pool : BackendPool) (id : BackendId) :
    min ((pool.inner.states.get id).elim 1 fun r => (pool.arena.read r).backend.weight) 100
      = cappedWeight 100 pool id := by
  rw [cappedWeight, BackendPool.backend]
  cases pool.inner.states.get id <;> rfl

section

variable {β : Type} (hit : β → ℕ → Bool) (make : ℕ → List (BackendId × ℕ) → β)

/-- One load, or the building of the table from what was loaded. -/
def readPool (pool : BackendPool) (version : ℕ) : Reading → Reading ⊕ β
  | .ids => .inl (.weights pool.allBackendIds [])
  | .weights [] found => .inr (make version found)
  | .weights (id :: todo) found => .inl (.backend id (pool.inner.states.get id) todo found)
  | .backend id r todo found =>
    let weight := min (r.elim 1 fun r => (pool.arena.read r).backend.weight) 100
    .inl (.weights todo (found ++ [(id, weight)]))

/-- A balancer that keeps the tables it makes, and uses those for which `hit` holds. -/
def keeping : Scheme BackendPool Reading β where
  version := BackendPool.version
  hit := hit
  start := .ids
  read := readPool make

def ReadFrom (pool : BackendPool) : Reading → Prop
  | .ids => True
  | .weights todo found => weightsOf pool
    = found ++ todo.map fun id => (id, cappedWeight 100 pool id)
  | .backend id r todo found => r = pool.inner.states.get id ∧ weightsOf pool
    = found ++ (id :: todo).map fun id => (id, cappedWeight 100 pool id)

variable {hit make}

lemma builds_keeping (hl : ∀ v found v', hit (make v found) v' = true → v' = v) :
    (keeping hit make).Builds (fun pool _ => ReadFrom pool)
      fun pool v => make v (weightsOf pool) where
  start _ _ := trivial
  read {pool v r r'} hr h := by
    match r, hr, h with
    | .ids, _, h =>
      obtain rfl := Sum.inl.inj h
      exact rfl
    | .weights (id :: todo) found, hr, h =>
      obtain rfl := Sum.inl.inj h
      exact ⟨rfl, hr⟩
    | .backend id r todo found, hr, h =>
      obtain rfl := Sum.inl.inj h
      obtain ⟨rfl, hf⟩ := hr
      rw [map_cons, append_cons] at hf
      show weightsOf pool = _
      rw [weight_eq]
      exact hf
  done {pool v r b} hr h := by
    match r, hr, h with
    | .weights [] found, hr, h =>
      obtain rfl := Sum.inr.inj h
      have hf : weightsOf pool = found ++ [] := hr
      rw [hf, append_nil]
  label {pool v r b v'} h hh := by
    match r, h with
    | .weights [] found, h =>
      obtain rfl := Sum.inr.inj h
      exact hl v found v' hh

/-- A pick that nothing else disturbs, from where it reads weights to its end. -/
lemma alone_weights (s : PoolStore) (cached : β) (v : ℕ) :
    ∀ (todo : List BackendId) (found : List (BackendId × ℕ)),
      Alone (ThreadStep (keeping hit make) PoolStore.pool (stepOf Refresh.next)) ⟨s, cached⟩
        (.reading v (.weights todo found))
        ⟨s, make v (found ++ todo.map fun id => (id, cappedWeight 100 s.pool id))⟩
  | [], found => by
    rw [map_nil, append_nil]
    exact .more (.done rfl) (.more .save (.last .leave))
  | id :: todo, found => by
    have hr := alone_weights s cached v todo (found ++ [(id, cappedWeight 100 s.pool id)])
    rw [← append_cons] at hr
    refine .more (.read rfl) (.more (.read rfl) ?_)
    rw [weight_eq]
    exact hr

/-- **A pick that nothing else disturbs** makes a table if the one that is kept cannot be used. -/
lemma alone_pick (s : PoolStore) (cached : β) :
    Alone (ThreadStep (keeping hit make) PoolStore.pool (stepOf Refresh.next)) ⟨s, cached⟩ .enter
      ⟨s, if hit cached s.pool.version then cached
        else make s.pool.version (weightsOf s.pool)⟩ := by
  cases hc : hit cached s.pool.version with
  | true => exact .more .enter (.more (.hit hc) (.last .leave))
  | false =>
    exact .more .enter (.more (.miss hc) (.more (.read rfl) (alone_weights s cached _ _ [])))

end

def Races {β : Type} (S : Scheme BackendPool Reading β) :
    Config (Shared PoolStore β) (Point Refresh Reading β) → Event (Point Refresh Reading β) →
      Config (Shared PoolStore β) (Point Refresh Reading β) → Prop :=
  Step (Starts Refresh.Begins) (ThreadStep S PoolStore.pool (stepOf Refresh.next))

/-- A pick starts as thread `i` when there is no refresh, and comes to search `b` before another
one begins. -/
structure QuietPick {β : Type} (S : Scheme BackendPool Reading β) (pool₀ : BackendPool) (cached : β)
    (c : Config (Shared PoolStore β) (Point Refresh Reading β)) (i : ℕ) (b : β)
    (c' : Config (Shared PoolStore β) (Point Refresh Reading β)) : Prop where
  before : ∃ events, Run (Races S) (idle ⟨⟨pool₀, false, 0⟩, cached⟩) events c
  quiet : Quiet c
  free : c.threads i = none
  during : ∃ events, Run (Races S) c events c' ∧ ∀ e ∈ events, StartsReader e
  searches : c'.threads i = some (.use b)

lemma QuietPick.eq_make {β : Type} {hit : β → ℕ → Bool} {make : ℕ → List (BackendId × ℕ) → β}
    {pool₀ : BackendPool} {cached b : β} {i : ℕ}
    {c c' : Config (Shared PoolStore β) (Point Refresh Reading β)}
    (h : QuietPick (keeping hit make) pool₀ cached c i b c')
    (hl : ∀ v found v', hit (make v found) v' = true → v' = v)
    (he : ∀ v, hit cached v = false) (hv : pool₀.version = 0)
    (hro : c.shared.store.changes < 2 ^ 64) :
    b = make c'.shared.store.pool.version (weightsOf c'.shared.store.pool) := by
  obtain ⟨before, hb⟩ := h.before
  obtain ⟨during, hd, hr⟩ := h.during
  have hc : Counted (keeping hit make).version PoolStore.pool (stepOf Refresh.next) (2 ^ 64)
      PoolStore.changes Refresh.Changing := Refresh.counted
  refine use_eq_build hc (builds_keeping hl) ?_ ?_ hb h.quiet h.free hro hd
    hr h.searches
  · exact hv
  · exact he

/-! ## The two balancers -/

namespace ConsistentHash

variable (hash : Hash) (poolPtr : ℕ)

def isCached (ring : Ring) (version : ℕ) : Bool :=
  ring.poolPtr = poolPtr && ring.version = version

def makeRing (version : ℕ) (found : List (BackendId × ℕ)) : Ring where
  poolPtr := poolPtr
  version := version
  points := (found.flatMap fun x =>
    (List.range (x.2 * virtualNodesPerWeightUnit)).map fun v =>
      (hashStr hash (x.1 ++ "\x00" ++ toString v), x.1)).mergeSort fun a b => a.1 ≤ b.1

def rings : Scheme BackendPool Reading Ring := keeping (isCached poolPtr) (makeRing hash poolPtr)

lemma makeRing_weightsOf (pool : BackendPool) :
    makeRing hash poolPtr pool.version (weightsOf pool) = freshRing hash poolPtr pool := by
  rw [makeRing, freshRing, ringPoints, weightsOf, flatMap_map]
  rfl

lemma version_of_isCached_makeRing (v : ℕ) (found : List (BackendId × ℕ)) (v' : ℕ)
    (h : isCached poolPtr (makeRing hash poolPtr v found) v' = true) : v' = v := by
  rw [isCached, Bool.and_eq_true, decide_eq_true_iff, decide_eq_true_iff] at h
  exact h.2.symm

lemma alone_ringFor (self : ConsistentHash) (s : PoolStore) :
    Alone (ThreadStep (rings hash poolPtr) PoolStore.pool (stepOf Refresh.next)) ⟨s, self.cached⟩
      .enter ⟨s, (self.ringFor hash poolPtr s.pool).2.cached⟩ := by
  unfold rings ringFor
  convert alone_pick s self.cached using 2
  rw [makeRing_weightsOf]
  split_ifs <;> simp_all [isCached]

end ConsistentHash

namespace Maglev

variable (hash : Hash) (poolPtr : ℕ)

def isCached (table : MaglevTable) (version : ℕ) : Bool :=
  table.poolPtr = poolPtr && table.version = version && !table.backends.isEmpty

/-- `build` from the weights that were read: a backend takes its turn as often as it weighs. -/
def makeTable (version : ℕ) (found : List (BackendId × ℕ)) : MaglevTable :=
  let claimants := found.filter fun x => 0 < x.2
  let backends := claimants.map Prod.fst
  if backends.isEmpty then ⟨poolPtr, version, [], []⟩
  else
    let turns := claimants.zipIdx.flatMap fun x => List.replicate x.1.2 x.2
    let filling := Probing.fillRounds (slot hash backends) tableSize turns tableSize
      (.start tableSize)
    ⟨poolPtr, version, backends, filling.entries.map fun owner => owner.getD (2 ^ 32 - 1)⟩

def tables : Scheme BackendPool Reading MaglevTable :=
  keeping (isCached poolPtr) (makeTable hash poolPtr)

lemma makeTable_weightsOf (pool : BackendPool) (version : ℕ) :
    makeTable hash poolPtr version (weightsOf pool) = build hash pool poolPtr version := by
  have hc : (weightsOf pool).filter (fun x => 0 < x.2)
      = (claimants pool).map fun id => (id, cappedWeight maxWeight pool id) := by
    rw [weightsOf, filter_map]
    rfl
  have hb : ((claimants pool).map fun id => (id, cappedWeight maxWeight pool id)).map
      Prod.fst = claimants pool := by
    rw [map_map]
    exact map_id _
  have ht : ((claimants pool).map fun id => (id, cappedWeight maxWeight pool id)).zipIdx.flatMap
      (fun x => List.replicate x.1.2 x.2) = turns pool (claimants pool) := by
    rw [turns, zipIdx_map, flatMap_map]
    rfl
  rw [makeTable, hc]
  dsimp only
  rw [hb, ht]
  rfl

lemma version_of_isCached_makeTable (v : ℕ) (found : List (BackendId × ℕ)) (v' : ℕ)
    (h : isCached poolPtr (makeTable hash poolPtr v found) v' = true) : v' = v := by
  have hv : (makeTable hash poolPtr v found).version = v := by
    unfold makeTable
    dsimp only
    split_ifs <;> rfl
  rw [isCached, Bool.and_eq_true, Bool.and_eq_true, decide_eq_true_iff, decide_eq_true_iff, hv] at h
  exact h.1.2.symm

lemma alone_tableFor (self : Maglev) (s : PoolStore) :
    Alone (ThreadStep (tables hash poolPtr) PoolStore.pool (stepOf Refresh.next)) ⟨s, self.cached⟩
      .enter ⟨s, (self.tableFor hash poolPtr s.pool).2.cached⟩ := by
  unfold tables tableFor
  convert alone_pick s self.cached using 2
  rw [makeTable_weightsOf]
  split_ifs <;> simp_all [isCached]

end Maglev

/-- **A pick that nothing disturbs is atomic**: load by load it leaves the cache that `ring_for` or
`table_for` leaves in the sequential model. -/
theorem undisturbed_picks_sequential (hash : Hash) (poolPtr : ℕ) (s : PoolStore) :
    (∀ self : ConsistentHash, Alone (ThreadStep (ConsistentHash.rings hash poolPtr) PoolStore.pool
      (stepOf Refresh.next)) ⟨s, self.cached⟩ .enter
        ⟨s, (self.ringFor hash poolPtr s.pool).2.cached⟩) ∧
    (∀ self : Maglev, Alone (ThreadStep (Maglev.tables hash poolPtr) PoolStore.pool
      (stepOf Refresh.next)) ⟨s, self.cached⟩ .enter
        ⟨s, (self.tableFor hash poolPtr s.pool).2.cached⟩) :=
  ⟨fun self => self.alone_ringFor hash poolPtr s, fun self => self.alone_tableFor hash poolPtr s⟩

/-- **Cached rings and tables are never stale.**  Whatever ran before, and whatever other picks run
at the same time, a pick between two refreshes searches the ring or the table of the pool's current
membership and weights, as long as the version has not come round. -/
theorem quiet_pick_searches_fresh (hash : Hash) {poolPtr : ℕ} (hptr : poolPtr ≠ 0)
    {pool₀ : BackendPool} (hversion : pool₀.version = 0) :
    (∀ c i ring c', QuietPick (ConsistentHash.rings hash poolPtr) pool₀ ConsistentHash.new.cached
        c i ring c' → c.shared.store.changes < 2 ^ 64 →
      ring = ConsistentHash.freshRing hash poolPtr c'.shared.store.pool) ∧
    (∀ c i table c', QuietPick (Maglev.tables hash poolPtr) pool₀ Maglev.new.cached
        c i table c' → c.shared.store.changes < 2 ^ 64 →
      table = Maglev.build hash c'.shared.store.pool poolPtr c'.shared.store.pool.version) := by
  constructor
  · intro c i ring c' h hr
    rw [← ConsistentHash.makeRing_weightsOf]
    refine h.eq_make (ConsistentHash.version_of_isCached_makeRing hash poolPtr) (fun v => ?_)
      hversion hr
    rw [ConsistentHash.isCached, Bool.and_eq_false_iff]
    exact Or.inl (decide_eq_false hptr.symm)
  · intro c i table c' h hr
    rw [← Maglev.makeTable_weightsOf]
    refine h.eq_make (Maglev.version_of_isCached_makeTable hash poolPtr) (fun v => ?_)
      hversion hr
    exact Bool.and_false _

/-! ### A backend whose weight changes -/

def lone (weight : ℕ) : Backend := ⟨"b", "10.0.0.1:80", weight, none, 0⟩

lemma weightsOf_lone {pool : BackendPool} {weight : ℕ} (h : pool.Lists [lone weight]) :
    weightsOf pool = [("b", min weight 100)] := by
  obtain ⟨hp, hpe⟩ := h
  obtain ⟨s, hm, hs⟩ : ∃ s, pool.members = [s] ∧ s.backend = lone weight := by
    obtain ⟨s, rest, hm, hs, hr⟩ := map_eq_cons_iff.mp hpe.eq_singleton
    exact ⟨s, by rw [hm, map_eq_nil_iff.mp hr], hs⟩
  have hme : s ∈ pool.members := by simp [hm]
  have hid : s.id = "b" := by rw [← hp.backend_id s hme, hs, lone]
  have hw : cappedWeight 100 pool s.id = min weight 100 := by
    rw [cappedWeight, hp.backend_of_mem hme, hs]
    rfl
  rw [weightsOf, BackendPool.allBackendIds, hp.order_eq, hm, map_singleton, map_singleton, hw, hid]

def weightAfter (n : ℕ) : ℕ := if n = 0 then 3 else 1 + n % 2

lemma weightAfter_succ_ne (n : ℕ) : weightAfter n ≠ weightAfter (n + 1) := by
  cases n with
  | zero => decide
  | succ n =>
    have ha : ∀ k, weightAfter (k + 1) = 1 + (k + 1) % 2 := fun _ => rfl
    rw [ha, ha]
    omega

lemma run_refreshes {β : Type} {S : Scheme BackendPool Reading β} {cached : β} {pool : BackendPool}
    (hpo : pool.Lists [lone 3]) (hv : pool.version = 0)
    {c₀ : Config (Shared PoolStore β) (Point Refresh Reading β)}
    (hst : ∃ events, Run (Races S) c₀ events (idle ⟨⟨pool, false, 0⟩, cached⟩)) (n : ℕ) :
    ∃ pool' : BackendPool, pool'.Lists [lone (weightAfter n)] ∧ pool'.version = n % 2 ^ 64 ∧
      ∃ events, Run (Races S) c₀ events (idle ⟨⟨pool', false, n⟩, cached⟩) := by
  induction n with
  | zero => exact ⟨pool, hpo, hv, hst⟩
  | succ n ih =>
    obtain ⟨pool', hl, hv', events, hr⟩ := ih
    have hc : pool'.resolvedSetUnchanged [lone (weightAfter (n + 1))] = false := by
      by_contra hu
      rw [Bool.not_eq_false] at hu
      have hp := hl.2.symm.trans (hl.1.perm_of_unchanged hu)
      exact weightAfter_succ_ne n
        (congrArg Backend.weight (singleton_perm_singleton.mp hp))
    refine ⟨pool'.applyResolved [lone (weightAfter (n + 1))],
      hl.1.applyResolved (nodup_singleton _), ?_, ?_⟩
    · rw [BackendPool.applyResolved, hc]
      show (pool'.version + 1) % 2 ^ 64 = _
      rw [hv', Nat.mod_add_mod]
    · have ha : Alone (ThreadStep S PoolStore.pool (stepOf Refresh.next))
          ⟨⟨pool', false, n⟩, cached⟩ (.writer (.lock [lone (weightAfter (n + 1))]))
          ⟨⟨pool'.applyResolved [lone (weightAfter (n + 1))], false, n + 1⟩, cached⟩ :=
        alone_writer (Refresh.alone_applyResolved hc n) cached
      have hs : Starts Refresh.Begins
          (.writer (.lock [lone (weightAfter (n + 1))]) : Point Refresh Reading β) := ⟨_, rfl⟩
      exact exists_run_call hr hs ha

def lonePool : BackendPool := .new [lone 3]

lemma lists_lonePool : lonePool.Lists [lone 3] := by
  have hn : ([lone 3].map fun b => b.id).Nodup := nodup_singleton "b"
  exact BackendPool.lists_withMaxEjectedFraction hn none

section

variable {β : Type} {hit : β → ℕ → Bool} {make : ℕ → List (BackendId × ℕ) → β} {cached : β}

lemma run_pick_refreshes (make : ℕ → List (BackendId × ℕ) → β) (hm : hit cached 0 = false)
    (n : ℕ) :
    ∃ pool : BackendPool, pool.Lists [lone (weightAfter n)] ∧ pool.version = n % 2 ^ 64 ∧
      ∃ events, Run (Races (keeping hit make)) (idle ⟨⟨lonePool, false, 0⟩, cached⟩) events
        (idle ⟨⟨pool, false, n⟩, make 0 (weightsOf lonePool)⟩) := by
  have hp : Alone (ThreadStep (keeping hit make) PoolStore.pool (stepOf Refresh.next))
      ⟨⟨lonePool, false, 0⟩, cached⟩ .enter
      ⟨⟨lonePool, false, 0⟩, if hit cached 0 then cached else make 0 (weightsOf lonePool)⟩ :=
    alone_pick ⟨lonePool, false, 0⟩ cached
  rw [hm] at hp
  have hs : Starts Refresh.Begins (.enter : Point Refresh Reading β) := trivial
  exact run_refreshes lists_lonePool rfl (exists_run_call .start hs hp) n

lemma quietPick_of_hit (hh : hit (make 0 (weightsOf lonePool)) 0 = true) {pool : BackendPool}
    {n : ℕ} (hv : pool.version = 0)
    (hr : ∃ events, Run (Races (keeping hit make)) (idle ⟨⟨lonePool, false, 0⟩, cached⟩) events
      (idle ⟨⟨pool, false, n⟩, make 0 (weightsOf lonePool)⟩)) :
    ∃ c', c'.shared.store.pool = pool ∧ QuietPick (keeping hit make) lonePool cached
      (idle ⟨⟨pool, false, n⟩, make 0 (weightsOf lonePool)⟩) 0 (make 0 (weightsOf lonePool))
      c' := by
  have hh' : (keeping hit make).hit (make 0 (weightsOf lonePool)) pool.version = true := by
    rw [hv]
    exact hh
  refine ⟨⟨⟨⟨pool, false, n⟩, make 0 (weightsOf lonePool)⟩, Function.update (fun _ => none) 0
    (some (.use (make 0 (weightsOf lonePool))))⟩, rfl, hr, fun j p hp => ?_, rfl,
    ⟨[.spawn 0 .enter, .step 0, .step 0], ?_, ?_⟩, rfl⟩
  · cases hp
  · exact ((Run.start.next (spawn_only trivial)).next (step_only .enter)).next
      (step_only (.hit hh'))
  · rw [forall_mem_cons]
    refine ⟨fun w hw => ?_, fun e he => ?_⟩
    · cases hw
    · obtain rfl : e = .step 0 := by simpa using he
      trivial

end

def noHash : Hash := fun _ => 0

/-- The second of two picks finds what the first one made. -/
theorem quiet_pick_searches_fresh_twice :
    (∃ c ring c', QuietPick (ConsistentHash.rings noHash 1) lonePool ConsistentHash.new.cached
        c 0 ring c' ∧ ring = ConsistentHash.freshRing noHash 1 c'.shared.store.pool) ∧
      ∃ c table c', QuietPick (Maglev.tables noHash 1) lonePool Maglev.new.cached c 0 table c' ∧
        table = Maglev.build noHash c'.shared.store.pool 1 c'.shared.store.pool.version := by
  have hf := quiet_pick_searches_fresh noHash (one_ne_zero : (1 : ℕ) ≠ 0)
    (rfl : lonePool.version = 0)
  have hr : ConsistentHash.isCached 1 ConsistentHash.new.cached 0 = false := rfl
  have ht : Maglev.isCached 1 Maglev.new.cached 0 = false := rfl
  constructor
  · obtain ⟨pool, -, hv, hru⟩ := run_pick_refreshes (ConsistentHash.makeRing noHash 1) hr 0
    obtain ⟨c', -, hq⟩ := quietPick_of_hit rfl hv hru
    exact ⟨_, _, c', hq, hf.1 _ _ _ _ hq (Nat.two_pow_pos 64)⟩
  · obtain ⟨pool, -, hv, hru⟩ := run_pick_refreshes (Maglev.makeTable noHash 1) ht 0
    have hh : Maglev.isCached 1 (Maglev.makeTable noHash 1 0 (weightsOf lonePool)) 0 = true := by
      rw [weightsOf_lone lists_lonePool]
      rfl
    obtain ⟨c', -, hq⟩ := quietPick_of_hit hh hv hru
    exact ⟨_, _, c', hq, hf.2 _ _ _ _ hq (Nat.two_pow_pos 64)⟩

/-- After `2 ^ 64` refreshes that changed the pool, a pick between two refreshes searches a ring in
which the backend has three times its weight. -/
theorem quiet_pick_stale_after_wrap : ∃ c ring c', QuietPick (ConsistentHash.rings noHash 1)
    lonePool ConsistentHash.new.cached c 0 ring c' ∧
      ring ≠ ConsistentHash.freshRing noHash 1 c'.shared.store.pool := by
  have hr : ConsistentHash.isCached 1 ConsistentHash.new.cached 0 = false := rfl
  obtain ⟨pool, hl, hv, hru⟩ := run_pick_refreshes (ConsistentHash.makeRing noHash 1) hr (2 ^ 64)
  rw [Nat.mod_self] at hv
  obtain ⟨c', rfl, hq⟩ := quietPick_of_hit rfl hv hru
  refine ⟨_, _, c', hq, fun heq => ?_⟩
  have hp := congrArg (fun ring => ring.points.length) heq
  rw [← ConsistentHash.makeRing_weightsOf, weightsOf_lone hl, weightsOf_lone lists_lonePool] at hp
  simp [ConsistentHash.makeRing, weightAfter, ConsistentHash.virtualNodesPerWeightUnit] at hp

end LoadBalancer.Balancer
