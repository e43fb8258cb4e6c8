import LoadBalancer.Core.Eligibility
import LoadBalancer.Lib.Choice

/-!
# Strategies that look at the eligible backends

The strategies of `crates/lb-balancer` that ask the pool for its eligible backends at every pick:
round robin, least connections, their weighted and random variants, and rendezvous hashing.  Each
`pickExcluding` returns the choice and the strategy's next state; an index into a list of
candidates is read with `[i]?`, and the lemmas show that it is in range.

Rendezvous scores are floating-point numbers compared with `total_cmp`; here they are taken from
any linear order.  Sums of weights are natural numbers.
-/

namespace LoadBalancer.Balancer

open LoadBalancer.Core List

/-! ## Hashing and random numbers -/

def asBytes (s : String) : List UInt8 := s.toList.flatMap String.utf8EncodeChar

/-- The type of `hash_parts`, where a result holds for any hash function. -/
abbrev Hash := List (List UInt8) → UInt64

def fnvByte (h : UInt64) (byte : UInt8) : UInt64 := (h ^^^ byte.toUInt64) * 0x100000001b3

/-- 64-bit FNV-1a over the parts, separated by `0xff`, with a finalizer. -/
def hashParts : Hash := fun parts =>
  let h := (parts.intersperse [0xff]).flatten.foldl fnvByte 0xcbf29ce484222325
  let h := (h ^^^ (h >>> 33)) * 0xff51afd7ed558ccd
  let h := (h ^^^ (h >>> 33)) * 0xc4ceb9fe1a85ec53
  h ^^^ (h >>> 33)

structure Rng where
  state : UInt64
  deriving DecidableEq

namespace Rng

def next (rng : Rng) : UInt64 × Rng :=
  let x := rng.state
  let x := x ^^^ (x <<< 13)
  let x := x ^^^ (x >>> 7)
  let x := x ^^^ (x <<< 17)
  (x, ⟨x⟩)

def below (rng : Rng) (n : ℕ) : ℕ × Rng := (rng.next.1.toNat % n, rng.next.2)

lemma below_lt (rng : Rng) {n : ℕ} (hn : 0 < n) : (rng.below n).1 < n := Nat.mod_lt _ hn

end Rng

/-! ## The strategies -/

def remaining (pool : BackendPool) (excluded : List BackendId) : List BackendId :=
  pool.eligibleBackends.filter fun id => !excluded.contains id

structure RoundRobin where
  cursor : UInt64
  deriving DecidableEq

def RoundRobin.pickExcluding (self : RoundRobin) (pool : BackendPool)
    (excluded : List BackendId) : Option BackendId × RoundRobin :=
  let eligible := remaining pool excluded
  if eligible.isEmpty then (none, self)
  else (eligible[self.cursor.toNat % eligible.length]?, ⟨self.cursor + 1⟩)

/-- `min_by_key` keeps the first of the least. -/
def LeastConnections.pickExcluding (pool : BackendPool) (excluded : List BackendId) :
    Option BackendId :=
  (remaining pool excluded).argmin pool.activeCount

structure WeightedRoundRobin where
  cursor : UInt64
  deriving DecidableEq

namespace WeightedRoundRobin

def maxWeight : ℕ := 1000

def pickExcluding (self : WeightedRoundRobin) (pool : BackendPool) (excluded : List BackendId) :
    Option BackendId × WeightedRoundRobin :=
  let weighted := (pool.eligibleWithWeights.filter fun x => !excluded.contains x.1).map
    fun x => (x.1, min x.2 maxWeight)
  let total := (weighted.map fun x => x.2).sum
  if total = 0 then (none, self)
  else (pickByWeight weighted (self.cursor.toNat % total), ⟨self.cursor + 1⟩)

end WeightedRoundRobin

structure Random where
  rng : Rng
  deriving DecidableEq

def Random.pickExcluding (self : Random) (pool : BackendPool) (excluded : List BackendId) :
    Option BackendId × Random :=
  let eligible := remaining pool excluded
  if eligible.isEmpty then (none, self)
  else
    let (index, rng) := self.rng.below eligible.length
    (eligible[index]?, ⟨rng⟩)

def weightedRemaining (pool : BackendPool) (excluded : List BackendId) : List (BackendId × ℕ) :=
  pool.eligibleWithWeights.filter fun x => 0 < x.2 && !excluded.contains x.1

structure WeightedRandom where
  rng : Rng
  deriving DecidableEq

def WeightedRandom.pickExcluding (self : WeightedRandom) (pool : BackendPool)
    (excluded : List BackendId) : Option BackendId × WeightedRandom :=
  let candidates := weightedRemaining pool excluded
  let total := (candidates.map fun x => x.2).sum
  if total = 0 then (none, self)
  else
    let (x, rng) := self.rng.next
    (pickByWeight candidates (x.toNat % total), ⟨rng⟩)

structure LeastRequest where
  rng : Rng
  deriving DecidableEq

def LeastRequest.pickExcluding (self : LeastRequest) (pool : BackendPool)
    (excluded : List BackendId) : Option BackendId × LeastRequest :=
  let eligible := remaining pool excluded
  match eligible.length with
  | 0 => (none, self)
  | 1 => (eligible.getLast?, self)
  | n + 2 =>
    let (first, rng) := self.rng.below (n + 2)
    let (second, rng) := rng.below (n + 1)
    let second := if first ≤ second then second + 1 else second
    let winner := do
      let a ← eligible[first]?
      let b ← eligible[second]?
      return if pool.activeCount b < pool.activeCount a then b else a
    (winner, ⟨rng⟩)

/-- `max_by` keeps the last of the greatest, so the first from the end. -/
def RendezvousHash.pickExcluding {S : Type} [LinearOrder S] (score : String → BackendId → ℕ → S)
    (pool : BackendPool) (key : String) (excluded : List BackendId) : Option BackendId :=
  let scored := (weightedRemaining pool excluded).map fun x => (score key x.1 x.2, x.1)
  (scored.reverse.argmax fun x => x.1).map fun x => x.2

/-! ## What they choose from -/

/-- A backend the caller may be given: eligible, not excluded, and of positive weight where the
strategy reads weights. -/
structure Usable (pool : BackendPool) (weighted : Bool) (excluded : List BackendId)
    (id : BackendId) : Prop where
  eligible : pool.isEligible id = true
  not_excluded : id ∉ excluded
  weight_pos : weighted = true → ∃ b, pool.backend id = some b ∧ 0 < b.weight

lemma chooses_weighted (l : List (BackendId × ℕ)) (cursor : ℕ) :
    Chooses (fun id => ∃ weight, (id, weight) ∈ l ∧ 0 < weight)
      (if (l.map fun x => x.2).sum = 0 then none
        else pickByWeight l (cursor % (l.map fun x => x.2).sum)) := by
  split_ifs with hz
  · rw [sum_eq_zero_iff, forall_mem_map] at hz
    refine .none ?_
    rintro id ⟨weight, hm, hpo⟩
    exact hpo.ne' (hz _ hm)
  · exact .of_ne_none (fun _ => mem_of_pickByWeight) fun _ =>
      pickByWeight_ne_none (Nat.mod_lt _ (Nat.pos_of_ne_zero hz))

section

variable {pool : BackendPool} (hp : pool.Consistent) (excluded : List BackendId)

include hp

lemma mem_remaining_iff (id : BackendId) :
    id ∈ remaining pool excluded ↔ Usable pool false excluded id := by
  rw [remaining, mem_filter, hp.mem_eligibleBackends_iff, Bool.not_eq_true',
    contains_eq_mem, decide_eq_false_iff_not]
  exact ⟨fun h => ⟨h.1, h.2, fun hw => by cases hw⟩, fun h => ⟨h.eligible, h.not_excluded⟩⟩

lemma exists_mem_weights_iff (id : BackendId) :
    (∃ weight, (id, weight) ∈ pool.eligibleWithWeights ∧ id ∉ excluded ∧ 0 < weight) ↔
      Usable pool true excluded id := by
  constructor
  · rintro ⟨weight, hm, hex, hpo⟩
    obtain ⟨he, b, hb, rfl⟩ := (hp.mem_eligibleWithWeights_iff id weight).mp hm
    exact ⟨he, hex, fun _ => ⟨b, hb, hpo⟩⟩
  · intro h
    obtain ⟨b, hb, hpo⟩ := h.weight_pos rfl
    exact ⟨b.weight, (hp.mem_eligibleWithWeights_iff id _).mpr ⟨h.eligible, b, hb, rfl⟩,
      h.not_excluded, hpo⟩

lemma exists_mem_weightedRemaining_iff (id : BackendId) :
    (∃ weight, (id, weight) ∈ weightedRemaining pool excluded) ↔
      Usable pool true excluded id := by
  rw [← exists_mem_weights_iff hp]
  refine exists_congr fun weight => ?_
  rw [weightedRemaining, mem_filter, Bool.and_eq_true, decide_eq_true_iff, Bool.not_eq_true',
    contains_eq_mem, decide_eq_false_iff_not, and_comm (a := 0 < weight)]

lemma RoundRobin.chooses (self : RoundRobin) :
    Chooses (Usable pool false excluded) (self.pickExcluding pool excluded).1 := by
  refine Chooses.congr ?_ (mem_remaining_iff hp excluded)
  unfold RoundRobin.pickExcluding
  dsimp only
  split_ifs with he
  · rw [List.isEmpty_iff] at he
    exact .none fun id => he ▸ List.not_mem_nil
  · exact .getElem?_mod _ _

lemma LeastConnections.chooses :
    Chooses (Usable pool false excluded) (LeastConnections.pickExcluding pool excluded) :=
  (Chooses.argmin _ _).congr (mem_remaining_iff hp excluded)

lemma Random.chooses (self : Random) :
    Chooses (Usable pool false excluded) (self.pickExcluding pool excluded).1 := by
  refine Chooses.congr ?_ (mem_remaining_iff hp excluded)
  unfold Random.pickExcluding
  dsimp only
  split_ifs with he
  · rw [List.isEmpty_iff] at he
    exact .none fun id => he ▸ List.not_mem_nil
  · exact .getElem?_mod _ _

lemma LeastRequest.chooses (self : LeastRequest) :
    Chooses (Usable pool false excluded) (self.pickExcluding pool excluded).1 := by
  refine Chooses.congr ?_ (mem_remaining_iff hp excluded)
  unfold LeastRequest.pickExcluding
  dsimp only
  split
  next hl => exact .none fun id => eq_nil_of_length_eq_zero hl ▸ not_mem_nil
  next => exact .getLast? _
  next n hl =>
    have hf : (self.rng.below (n + 2)).1 < n + 2 := self.rng.below_lt (n + 1).succ_pos
    have hs : ((self.rng.below (n + 2)).2.below (n + 1)).1 < n + 1 :=
      (self.rng.below (n + 2)).2.below_lt n.succ_pos
    have ho : (if (self.rng.below (n + 2)).1 ≤ ((self.rng.below (n + 2)).2.below (n + 1)).1
        then ((self.rng.below (n + 2)).2.below (n + 1)).1 + 1
        else ((self.rng.below (n + 2)).2.below (n + 1)).1) < n + 2 := by
      split_ifs <;> omega
    exact .winner (hf.trans_eq hl.symm) (ho.trans_eq hl.symm)
      (fun a b => if pool.activeCount b < pool.activeCount a then b else a)
      fun a b => (ite_eq_or_eq _ b a).symm

lemma WeightedRoundRobin.chooses (self : WeightedRoundRobin) :
    Chooses (Usable pool true excluded) (self.pickExcluding pool excluded).1 := by
  have h := chooses_weighted ((pool.eligibleWithWeights.filter fun x => !excluded.contains x.1).map
    fun x => (x.1, min x.2 maxWeight)) self.cursor.toNat
  unfold WeightedRoundRobin.pickExcluding
  dsimp only
  rw [apply_ite Prod.fst]
  refine h.congr fun id => ?_
  rw [← exists_mem_weights_iff hp]
  constructor
  · rintro ⟨capped, hm, hpo⟩
    obtain ⟨⟨id', weight⟩, hf, heq⟩ := mem_map.mp hm
    cases heq
    obtain ⟨hw, he⟩ := mem_filter.mp hf
    exact ⟨weight, hw, by simpa using he, (lt_min_iff.mp hpo).1⟩
  · rintro ⟨weight, hw, he, hpo⟩
    have hf : (id, weight) ∈ pool.eligibleWithWeights.filter fun x => !excluded.contains x.1 :=
      mem_filter.mpr ⟨hw, by simpa using he⟩
    exact ⟨_, mem_map.mpr ⟨_, hf, rfl⟩, lt_min hpo (by decide)⟩

lemma WeightedRandom.chooses (self : WeightedRandom) :
    Chooses (Usable pool true excluded) (self.pickExcluding pool excluded).1 := by
  have h := chooses_weighted (weightedRemaining pool excluded) self.rng.next.1.toNat
  unfold WeightedRandom.pickExcluding
  dsimp only
  rw [apply_ite Prod.fst]
  refine h.congr fun id => ?_
  rw [← exists_mem_weightedRemaining_iff hp]
  refine exists_congr fun weight => and_iff_left_of_imp fun hm => ?_
  exact of_decide_eq_true (Bool.and_eq_true_iff.mp (mem_filter.mp hm).2).1

lemma RendezvousHash.chooses {S : Type} [LinearOrder S] (score : String → BackendId → ℕ → S)
    (key : String) :
    Chooses (Usable pool true excluded)
      (RendezvousHash.pickExcluding score pool key excluded) := by
  refine ((Chooses.argmax _ _).map _).congr fun id => ?_
  rw [← exists_mem_weightedRemaining_iff hp]
  constructor
  · rintro ⟨⟨_, id'⟩, hm, rfl⟩
    obtain ⟨⟨id, weight⟩, hx, heq⟩ := mem_map.mp (mem_reverse.mp hm)
    obtain ⟨-, rfl⟩ := Prod.mk.inj heq
    exact ⟨weight, hx⟩
  · rintro ⟨weight, hx⟩
    exact ⟨_, mem_reverse.mpr (mem_map_of_mem hx), rfl⟩

/-! ## Rendezvous hashing as a fixed ranking -/

/-- The scores of all backends with a weight, from the last to the first. -/
def RendezvousHash.ranking {S : Type} (score : String → BackendId → ℕ → S) (pool : BackendPool)
    (key : String) : List (S × BackendId) :=
  let weights := pool.allBackendIds.map fun id => (id, (pool.backend id).elim 0 fun b => b.weight)
  ((weights.filter fun x => 0 < x.2).map fun x => (score key x.1 x.2, x.1)).reverse

lemma RendezvousHash.pickExcluding_eq {S : Type} [LinearOrder S]
    (score : String → BackendId → ℕ → S) (key : String) :
    RendezvousHash.pickExcluding score pool key excluded =
      (((RendezvousHash.ranking score pool key).filter fun x =>
        !excluded.contains x.2 && pool.isEligible x.2).argmax fun x => x.1).map fun x => x.2 := by
  have hw : pool.allBackendIds.map
      (fun id => (id, (pool.backend id).elim 0 fun b => b.weight)) =
      pool.members.map fun s => (s.id, s.backend.weight) := by
    rw [BackendPool.allBackendIds, hp.order_eq, map_map]
    refine map_congr_left fun s hs => ?_
    rw [Function.comp_apply, hp.backend_of_mem hs]
    rfl
  have hr : weightedRemaining pool excluded =
      ((pool.members.map fun s => (s.id, s.backend.weight)).filter fun x => 0 < x.2).filter
        fun x => !excluded.contains x.1 && pool.isEligible x.1 := by
    rw [weightedRemaining, BackendPool.eligibleWithWeights, hp.eligibleMap_eq, hp.offered_eq_filter,
      filter_map, filter_map, filter_map, filter_filter, filter_filter]
    refine congrArg _ (filter_congr fun s _ => ?_)
    simp only [Function.comp_apply]
    ac_rfl
  rw [RendezvousHash.pickExcluding, RendezvousHash.ranking, hw, hr]
  generalize (pool.members.map fun s => (s.id, s.backend.weight)).filter (fun x => 0 < x.2) = ranked
  rw [filter_reverse, filter_map]
  rfl

end

end LoadBalancer.Balancer
