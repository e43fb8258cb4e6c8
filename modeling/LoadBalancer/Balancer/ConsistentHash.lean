import LoadBalancer.Balancer.Strategies

/-!
# Consistent hashing

The ring is built from every backend, eligible or not, and kept until the pool's membership
changes.  A pick starts at the first point at or after the hash of the key and walks the ring to
the first point whose backend may be used.

A cached ring is recognised by the address of its pool and the pool's version.  `Fresh` says that
a ring recognised in this way was built from the membership the pool has now.
-/

namespace LoadBalancer.Balancer

open LoadBalancer.Core List

/-- The test a search along a ring or a table applies to a backend. -/
def allowed (pool : BackendPool) (excluded : List BackendId) (id : BackendId) : Bool :=
  !excluded.contains id && pool.isEligible id

def cappedWeight (maxWeight : ℕ) (pool : BackendPool) (id : BackendId) : ℕ :=
  min ((pool.backend id).elim 1 fun b => b.weight) maxWeight

/-- Two pools of the same backends, in the same order and with the same settings. -/
structure SameMembership (pool pool' : BackendPool) : Prop where
  ids_eq : pool'.allBackendIds = pool.allBackendIds
  backend_eq : ∀ id, pool'.backend id = pool.backend id

lemma SameMembership.of_flagWrite {pool pool' : BackendPool}
    (h : BackendPool.FlagWrite pool pool') : SameMembership pool pool' where
  ids_eq := congrArg PoolState.order h.inner_eq
  backend_eq id := by
    rw [BackendPool.backend, BackendPool.backend, h.inner_eq]
    exact congrFun (congrArg Option.map (funext h.backend_eq)) _

lemma SameMembership.cappedWeight_eq {pool pool' : BackendPool} (h : SameMembership pool pool')
    (maxWeight : ℕ) : cappedWeight maxWeight pool' = cappedWeight maxWeight pool := by
  funext id
  rw [cappedWeight, cappedWeight, h.backend_eq]

lemma allowed_iff {pool : BackendPool} {excluded : List BackendId} {id : BackendId} :
    allowed pool excluded id = true ↔ pool.isEligible id = true ∧ id ∉ excluded := by
  rw [allowed, Bool.and_eq_true, Bool.not_eq_true', contains_eq_mem,
    decide_eq_false_iff_not, and_comm]

lemma usable_iff {pool : BackendPool} (hp : pool.Consistent) (maxWeight : ℕ) (hm : 0 < maxWeight)
    (excluded : List BackendId) (id : BackendId) :
    Usable pool true excluded id ↔ (id ∈ pool.allBackendIds ∧ 0 < cappedWeight maxWeight pool id) ∧
      allowed pool excluded id = true := by
  rw [allowed_iff, cappedWeight, lt_min_iff, and_iff_left hm]
  constructor
  · intro h
    obtain ⟨b, hb, hpo⟩ := h.weight_pos rfl
    exact ⟨⟨hp.mem_allBackendIds h.eligible, by rwa [hb]⟩, h.eligible, h.not_excluded⟩
  · rintro ⟨⟨-, hpo⟩, he, hex⟩
    obtain ⟨s, hs, rfl⟩ := (hp.isEligible_iff id).mp he
    have hb := hp.backend_of_mem (BackendPool.mem_members_of_mem_offered hs)
    rw [hb] at hpo
    exact ⟨he, hex, fun _ => ⟨s.backend, hb, hpo⟩⟩

/-! ## The ring -/

structure Ring where
  poolPtr : ℕ
  version : ℕ
  points : List (UInt64 × BackendId)
  deriving DecidableEq

structure ConsistentHash where
  cached : Ring
  deriving DecidableEq

namespace ConsistentHash

def virtualNodesPerWeightUnit : ℕ := 10

def maxWeight : ℕ := 100

def new : ConsistentHash := ⟨⟨0, 0, []⟩⟩

def hashStr (hash : Hash) (s : String) : UInt64 := hash [asBytes s]

def ringPoints (hash : Hash) (pool : BackendPool) : List (UInt64 × BackendId) :=
  (pool.allBackendIds.flatMap fun id =>
    (List.range (cappedWeight maxWeight pool id * virtualNodesPerWeightUnit)).map fun v =>
      (hashStr hash (id ++ "\x00" ++ toString v), id)).mergeSort fun a b => a.1 ≤ b.1

/-- The ring of a pool's membership.  `poolPtr` is the address of the pool. -/
def freshRing (hash : Hash) (poolPtr : ℕ) (pool : BackendPool) : Ring :=
  { poolPtr := poolPtr, version := pool.version, points := ringPoints hash pool }

def ringFor (self : ConsistentHash) (hash : Hash) (poolPtr : ℕ) (pool : BackendPool) :
    Ring × ConsistentHash :=
  if self.cached.poolPtr = poolPtr ∧ self.cached.version = pool.version then (self.cached, self)
  else
    let fresh := freshRing hash poolPtr pool
    (fresh, ⟨fresh⟩)

/-- The points are sorted, so `partition_point` counts those below the target. -/
def pickExcluding (self : ConsistentHash) (hash : Hash) (poolPtr : ℕ) (pool : BackendPool)
    (key : String) (excluded : List BackendId) : Option BackendId × ConsistentHash :=
  let (ring, self) := self.ringFor hash poolPtr pool
  let len := ring.points.length
  if len = 0 then (none, self)
  else
    let target := hashStr hash key
    let start := (ring.points.takeWhile fun x => x.1 < target).length % len
    let found := (ring.points.rotate start).find? fun x => allowed pool excluded x.2
    (found.map fun x => x.2, self)

/-- A ring that will be taken for the pool's was built from its membership. -/
def Fresh (self : ConsistentHash) (hash : Hash) (poolPtr : ℕ) (pool : BackendPool) : Prop :=
  self.cached.poolPtr = poolPtr → self.cached.version = pool.version →
    self.cached.points = ringPoints hash pool

def walk (hash : Hash) (pool : BackendPool) (key : String) : List (UInt64 × BackendId) :=
  let points := ringPoints hash pool
  points.rotate (points.takeWhile fun x => x.1 < hashStr hash key).length

variable {self : ConsistentHash} {hash : Hash} {poolPtr : ℕ} {pool pool' : BackendPool}

lemma ringFor_points (h : self.Fresh hash poolPtr pool) :
    (self.ringFor hash poolPtr pool).1.points = ringPoints hash pool := by
  unfold ringFor
  split_ifs with hc
  · exact h hc.1 hc.2
  · rfl

lemma pickExcluding_snd (self : ConsistentHash) (hash : Hash) (poolPtr : ℕ) (pool : BackendPool)
    (key : String) (excluded : List BackendId) :
    (self.pickExcluding hash poolPtr pool key excluded).2 ∈
      [self, ⟨freshRing hash poolPtr pool⟩] := by
  have hs : (self.pickExcluding hash poolPtr pool key excluded).2 =
      (self.ringFor hash poolPtr pool).2 := by
    unfold pickExcluding
    dsimp only
    split_ifs <;> rfl
  rw [hs, ringFor]
  split_ifs <;> simp

/-- **A pick is a search** along the key's walk. -/
lemma pickExcluding_fst (h : self.Fresh hash poolPtr pool) (key : String)
    (excluded : List BackendId) :
    (self.pickExcluding hash poolPtr pool key excluded).1 =
      ((walk hash pool key).find? fun x => allowed pool excluded x.2).map fun x => x.2 := by
  unfold pickExcluding
  dsimp only
  rw [ringFor_points h, walk]
  split_ifs with hl
  · rw [length_eq_zero_iff.mp hl]
    rfl
  · rw [rotate_mod]

lemma exists_mem_walk_iff (key : String) (id : BackendId) :
    (∃ point, (point, id) ∈ walk hash pool key) ↔
      id ∈ pool.allBackendIds ∧ 0 < cappedWeight maxWeight pool id := by
  simp only [walk, mem_rotate, ringPoints, mem_mergeSort, mem_flatMap, mem_map,
    mem_range]
  constructor
  · rintro ⟨point, id', hm, v, hv, heq⟩
    obtain ⟨-, rfl⟩ := Prod.mk.inj heq
    exact ⟨hm, Nat.pos_of_mul_pos_right (Nat.zero_lt_of_lt hv)⟩
  · rintro ⟨hm, hp⟩
    exact ⟨_, id, hm, 0, Nat.mul_pos hp (by decide), rfl⟩

lemma chooses (hp : pool.Consistent) (h : self.Fresh hash poolPtr pool) (key : String)
    (excluded : List BackendId) :
    Chooses (Usable pool true excluded)
      (self.pickExcluding hash poolPtr pool key excluded).1 := by
  rw [pickExcluding_fst h]
  refine ((Chooses.find? _ _).map _).congr fun id => ?_
  rw [usable_iff hp maxWeight (by decide), ← exists_mem_walk_iff key]
  constructor
  · rintro ⟨⟨point, id'⟩, ⟨hm, ha⟩, rfl⟩
    exact ⟨⟨point, hm⟩, ha⟩
  · rintro ⟨⟨point, hm⟩, ha⟩
    exact ⟨_, ⟨hm, ha⟩, rfl⟩

/-! The ring depends on the membership only. -/

lemma ringPoints_eq (hs : SameMembership pool pool') :
    ringPoints hash pool' = ringPoints hash pool := by
  rw [ringPoints, ringPoints, hs.ids_eq, hs.cappedWeight_eq]

lemma walk_eq (hs : SameMembership pool pool') (key : String) :
    walk hash pool' key = walk hash pool key := by
  rw [walk, walk, ringPoints_eq hs]

end ConsistentHash

end LoadBalancer.Balancer
