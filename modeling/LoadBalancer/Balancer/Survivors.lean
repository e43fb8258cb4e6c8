import LoadBalancer.Lib.HashRing
import LoadBalancer.Balancer.ConsistentHash

/-!
# A ring of the survivors

`ConsistentHash` builds its ring from all backends of the pool and skips the points of those that
may not be used.  A ring built from the usable backends alone, in the same order, gives the same
picks: skipping changes nothing but the points that are skipped.  Points with equal hashes stay in
the order in which they were pushed, on both rings.
-/

namespace LoadBalancer.Balancer.ConsistentHash

open LoadBalancer.Core List

def pointsOf (hash : Hash) (weight : BackendId → ℕ) (id : BackendId) : List (UInt64 × BackendId) :=
  (List.range (weight id * virtualNodesPerWeightUnit)).map fun v =>
    (hashStr hash (id ++ "\x00" ++ toString v), id)

def ringOf (hash : Hash) (weight : BackendId → ℕ) (ids : List BackendId) :
    List (UInt64 × BackendId) :=
  (ids.flatMap (pointsOf hash weight)).mergeSort fun a b => a.1 ≤ b.1

/-- A pick from a ring on which every backend may be used: the point at or after the target. -/
def pickFrom (points : List (UInt64 × BackendId)) (target : UInt64) : Option BackendId :=
  let start := (points.takeWhile fun x => x.1 < target).length % points.length
  points[start]?.map fun x => x.2

variable (hash : Hash) (weight : BackendId → ℕ) (points : List (UInt64 × BackendId))

lemma ringPoints_eq_ringOf (pool : BackendPool) :
    ringPoints hash pool = ringOf hash (cappedWeight maxWeight pool) pool.allBackendIds := rfl

/-- Hashes are compared as numbers. -/
def place (x : UInt64 × BackendId) : ℕ := x.1.toNat

lemma ringOf_eq (ids : List BackendId) :
    ringOf hash weight ids = HashRing.ring place (ids.flatMap (pointsOf hash weight)) := by
  have hle : (fun a b : UInt64 × BackendId => decide (a.1 ≤ b.1))
      = fun a b => decide (place a ≤ place b) := by
    funext a b
    exact decide_eq_decide.mpr UInt64.le_iff_toNat_le
  rw [ringOf, HashRing.ring, hle]

lemma rotate_eq_around (target : UInt64) :
    points.rotate (points.takeWhile fun x => x.1 < target).length
      = HashRing.around place points target.toNat := by
  have hlt : (fun x : UInt64 × BackendId => decide (x.1 < target))
      = fun x => decide (place x < target.toNat) := by
    funext x
    exact decide_eq_decide.mpr UInt64.lt_iff_toNat_lt
  rw [HashRing.around, hlt]

lemma pickFrom_eq (target : UInt64) :
    pickFrom points target
      = (HashRing.around place points target.toNat).head?.map fun x => x.2 := by
  rw [← rotate_eq_around, pickFrom]
  cases points with
  | nil => rfl
  | cons a points =>
    have hlt : ((a :: points).takeWhile fun x => x.1 < target).length % (a :: points).length
        < (a :: points).length := Nat.mod_lt _ (Nat.succ_pos _)
    rw [← rotate_mod, List.head?_rotate hlt]

lemma filter_flatMap_pointsOf (keep : BackendId → Bool) (ids : List BackendId) :
    (ids.flatMap (pointsOf hash weight)).filter (fun x => keep x.2)
      = (ids.filter keep).flatMap (pointsOf hash weight) := by
  induction ids with
  | nil => rfl
  | cons id ids ih =>
    have hp : ∀ x ∈ pointsOf hash weight id, x.2 = id := by
      intro x hx
      obtain ⟨v, -, rfl⟩ := mem_map.mp hx
      rfl
    rw [flatMap_cons, filter_append, ih, filter_cons]
    cases hk : keep id with
    | true =>
      rw [if_pos rfl, flatMap_cons, filter_eq_self.mpr]
      exact fun x hx => (congrArg keep (hp x hx)).trans hk
    | false =>
      rw [if_neg Bool.false_ne_true, filter_eq_nil_iff.mpr, nil_append]
      intro x hx
      rw [hp x hx, hk]
      exact Bool.false_ne_true

/-- **Skipping on the full ring is the ring of the survivors.** -/
theorem pick_eq_pickFrom_survivors {self : ConsistentHash} {hash : Hash} {poolPtr : ℕ}
    {pool : BackendPool} (hfresh : self.Fresh hash poolPtr pool) (key : String)
    (excluded : List BackendId) :
    (self.pickExcluding hash poolPtr pool key excluded).1
      = pickFrom (ringOf hash (cappedWeight maxWeight pool)
          (pool.allBackendIds.filter (allowed pool excluded))) (hashStr hash key) := by
  rw [pickExcluding_fst hfresh, pickFrom_eq]
  refine congrArg (Option.map _) ?_
  rw [walk, rotate_eq_around, ringPoints_eq_ringOf, ringOf_eq, ringOf_eq, ← filter_flatMap_pointsOf]
  exact HashRing.find?_around place ..

def equalPair : BackendPool :=
  .new [⟨"a", "10.0.0.1:80", 1, none, 0⟩, ⟨"b", "10.0.0.2:80", 1, none, 0⟩]

/-- All points collide, and the first backend is excluded. -/
theorem pick_eq_pickFrom_survivors_collision :
    new.Fresh (fun _ => 0) 1 equalPair ∧
      (new.pickExcluding (fun _ => 0) 1 equalPair "key" ["a"]).1
        = pickFrom (ringOf (fun _ => 0) (cappedWeight maxWeight equalPair) ["b"])
            (hashStr (fun _ => 0) "key") := by
  have hf : new.Fresh (fun _ => 0) 1 equalPair := fun hpt => absurd hpt (by decide)
  have hp := pick_eq_pickFrom_survivors hf "key" ["a"]
  have hs : equalPair.allBackendIds.filter (allowed equalPair ["a"]) = ["b"] := by
    decide +kernel
  rw [hs] at hp
  exact ⟨hf, hp⟩

end LoadBalancer.Balancer.ConsistentHash
