import LoadBalancer.Balancer.ConsistentHash
import LoadBalancer.Lib.Probing

/-!
# Maglev hashing

A table of 65,537 slots is filled round by round: in each round a backend of weight `w` takes `w`
slots, walking its own permutation of the table.  A pick starts at the slot of the key's hash and
walks the table to the first slot whose backend may be used; it gives up once it has seen every
backend.

Filling stops when the table is full, which may be in the middle of the first round.  A backend
has a slot exactly when the weights listed before it sum to less than the size of the table
(`mem_entries_iff`).
-/

namespace LoadBalancer.Balancer

open LoadBalancer.Core List

/-- The lookup table of `maglev.rs`. -/
structure MaglevTable where
  poolPtr : ℕ
  version : ℕ
  backends : List BackendId
  entries : List ℕ
  deriving DecidableEq

structure Maglev where
  cached : MaglevTable
  deriving DecidableEq

namespace Maglev

def tableSize : ℕ := 65537

def maxWeight : ℕ := 100

def new : Maglev := ⟨⟨0, 0, [], []⟩⟩

/-- The backends with a weight, which take part in filling. -/
def claimants (pool : BackendPool) : List BackendId :=
  pool.allBackendIds.filter fun id => 0 < cappedWeight maxWeight pool id

def permutation (hash : Hash) (id : BackendId) : ℕ × ℕ :=
  ((hash [asBytes id, asBytes "offset"]).toNat % tableSize,
    (hash [asBytes id, asBytes "skip"]).toNat % (tableSize - 1) + 1)

/-- The slot at place `k` of the permutation of backend `i`. -/
def slot (hash : Hash) (backends : List BackendId) (i k : ℕ) : ℕ :=
  let (offset, skip) := permutation hash (backends.getD i "")
  (offset + k * skip) % tableSize

/-- The two loops of a round: each index as often as its backend weighs. -/
def turns (pool : BackendPool) (backends : List BackendId) : List ℕ :=
  backends.zipIdx.flatMap fun x => List.replicate (cappedWeight maxWeight pool x.1) x.2

/-- Every round takes a slot, so there are at most as many rounds as slots.  A slot without an
owner has the value `u32::MAX`. -/
def fill (hash : Hash) (pool : BackendPool) (backends : List BackendId) : List ℕ :=
  let filling := Probing.fillRounds (slot hash backends) tableSize (turns pool backends) tableSize
    (.start tableSize)
  filling.entries.map fun owner => owner.getD (2 ^ 32 - 1)

def build (hash : Hash) (pool : BackendPool) (poolPtr version : ℕ) : MaglevTable :=
  let backends := claimants pool
  if backends.isEmpty then ⟨poolPtr, version, [], []⟩
  else ⟨poolPtr, version, backends, fill hash pool backends⟩

/-- `poolPtr` is the address of the pool. -/
def tableFor (self : Maglev) (hash : Hash) (poolPtr : ℕ) (pool : BackendPool) :
    MaglevTable × Maglev :=
  if self.cached.poolPtr = poolPtr ∧ self.cached.version = pool.version ∧
      !self.cached.backends.isEmpty then (self.cached, self)
  else
    let fresh := build hash pool poolPtr pool.version
    (fresh, ⟨fresh⟩)

/-- The search along the table: it skips backends it has seen, and stops when it has seen all of
them. -/
def scan (usable : BackendId → Bool) (backends : List BackendId) :
    List ℕ → (seen : List Bool) → (seenCount : ℕ) → Option BackendId
  | [], _, _ => none
  | index :: rest, seen, seenCount =>
    if seen.getD index false then scan usable backends rest seen seenCount
    else
      match backends[index]? with
      | none => none
      | some id =>
        if usable id then some id
        else if seenCount + 1 = backends.length then none
        else scan usable backends rest (seen.set index true) (seenCount + 1)

def pickExcluding (self : Maglev) (hash : Hash) (poolPtr : ℕ) (pool : BackendPool) (key : String)
    (excluded : List BackendId) : Option BackendId × Maglev :=
  let (table, self) := self.tableFor hash poolPtr pool
  if table.backends.isEmpty then (none, self)
  else
    let start := (hash [asBytes key]).toNat % tableSize
    let first := table.entries[start]?.bind fun index => table.backends[index]?
    if first.any (allowed pool excluded) then (first, self)
    else
      let seen := List.replicate table.backends.length false
      (scan (allowed pool excluded) table.backends (table.entries.rotate start) seen 0, self)

/-- A table that will be taken for the pool's was built from its membership. -/
def Fresh (self : Maglev) (hash : Hash) (poolPtr : ℕ) (pool : BackendPool) : Prop :=
  self.cached.poolPtr = poolPtr → self.cached.version = pool.version →
    self.cached.backends ≠ [] → self.cached = build hash pool poolPtr pool.version

/-! ## Filling -/

lemma tableSize_prime : tableSize.Prime := by
  rw [tableSize]
  norm_num

lemma covers_slot (hash : Hash) (backends : List BackendId) (i : ℕ) :
    Probing.Covers (slot hash backends i) tableSize := by
  refine Probing.covers_stride tableSize_prime _ (Nat.succ_pos _) ?_
  have hlt : ∀ n, n % (tableSize - 1) < tableSize - 1 := fun n => Nat.mod_lt n (by decide)
  exact Nat.add_lt_of_lt_sub (hlt _)

variable {pool pool' : BackendPool} {hash : Hash}

lemma map_turns (pool : BackendPool) (backends : List BackendId) :
    (turns pool backends).map (fun i => backends.getD i "") =
      Probing.byWeight (cappedWeight maxWeight pool) backends := by
  have hm : ∀ x ∈ backends.zipIdx,
      (List.replicate (cappedWeight maxWeight pool x.1) x.2).map (fun i => backends.getD i "") =
        List.replicate (cappedWeight maxWeight pool x.1) x.1 := by
    intro x hx
    rw [map_replicate, getD_eq_getElem?_getD, mem_zipIdx_iff_getElem?.mp hx, Option.getD_some]
  rw [turns, map_flatMap, flatMap_congr hm, Probing.byWeight]
  conv_rhs => rw [← zipIdx_map_fst 0 backends, flatMap_map]

lemma lt_of_mem_turns {backends : List BackendId} {i : ℕ} (hi : i ∈ turns pool backends) :
    i < backends.length := by
  obtain ⟨x, hx, hm⟩ := mem_flatMap.mp hi
  rw [eq_of_mem_replicate hm]
  exact (List.getElem?_eq_some_iff.mp (mem_zipIdx_iff_getElem?.mp hx)).1

def precedingWeight (pool : BackendPool) (id : BackendId) : ℕ :=
  ((pool.allBackendIds.takeWhile fun other => other ≠ id).map (cappedWeight maxWeight pool)).sum

lemma byWeight_claimants (pool : BackendPool) :
    Probing.byWeight (cappedWeight maxWeight pool) (claimants pool) =
      Probing.byWeight (cappedWeight maxWeight pool) pool.allBackendIds := by
  rw [claimants]
  induction pool.allBackendIds with
  | nil => rfl
  | cons id rest ih =>
    by_cases hp : 0 < cappedWeight maxWeight pool id
    · rw [filter_cons_of_pos (by simpa using hp), Probing.byWeight, Probing.byWeight,
        flatMap_cons, flatMap_cons]
      exact congrArg _ ih
    · rw [filter_cons_of_neg (by simpa using hp), ih, Probing.byWeight, Probing.byWeight,
        flatMap_cons, Nat.eq_zero_of_not_pos hp, replicate_zero, nil_append]

/-- **The filled table**: every slot has an owner, and a backend owns a slot exactly when it has a
turn before the table is full. -/
lemma fill_spec (hash : Hash) (hne : claimants pool ≠ []) :
    (fill hash pool (claimants pool)).length = tableSize ∧
    (∀ index ∈ fill hash pool (claimants pool), index < (claimants pool).length) ∧
    ∀ id, (∃ index ∈ fill hash pool (claimants pool), (claimants pool)[index]? = some id) ↔
      (id ∈ pool.allBackendIds ∧ 0 < cappedWeight maxWeight pool id) ∧
        precedingWeight pool id < tableSize := by
  have ht : turns pool (claimants pool) ≠ [] := by
    intro hn
    obtain ⟨id, hid⟩ := exists_mem_of_ne_nil _ hne
    have hma := map_turns pool (claimants pool)
    rw [hn, map_nil, eq_comm, Probing.byWeight, flatMap_eq_nil_iff] at hma
    have hp : 0 < cappedWeight maxWeight pool id := of_decide_eq_true (mem_filter.mp hid).2
    exact hp.ne' (by simpa using hma id hid)
  obtain ⟨hl, hf, ho⟩ := Probing.fillRounds_spec
    (fun i _ => covers_slot hash (claimants pool) i) ht tableSize_prime.pos
  have hm : ∀ index, index ∈ fill hash pool (claimants pool) ↔
      index ∈ (turns pool (claimants pool)).take tableSize := by
    intro index
    rw [← ho, fill, mem_map]
    constructor
    · rintro ⟨owner, hm, rfl⟩
      obtain ⟨i, rfl⟩ := Option.isSome_iff_exists.mp (hf owner hm)
      exact hm
    · exact fun h => ⟨_, h, rfl⟩
  refine ⟨by rw [fill, length_map, hl], fun index hind => ?_, fun id => ?_⟩
  · exact lt_of_mem_turns (mem_of_mem_take ((hm index).mp hind))
  · rw [precedingWeight, ← Probing.mem_take_byWeight_iff, ← byWeight_claimants, ← map_turns,
      ← map_take, mem_map]
    refine exists_congr fun index => ?_
    rw [hm]
    refine and_congr_right fun hind => ?_
    have hlt := lt_of_mem_turns (mem_of_mem_take hind)
    rw [getD_eq_getElem?_getD, List.getElem?_eq_getElem hlt, Option.some_inj, Option.getD_some]

/-! ## Searching -/

/-- The backends in the order in which a key visits their slots. -/
def walk (hash : Hash) (pool : BackendPool) (key : String) : List BackendId :=
  ((fill hash pool (claimants pool)).rotate ((hash [asBytes key]).toNat % tableSize)).filterMap
    fun index => (claimants pool)[index]?

/-- What the search has seen: only backends that may not be used. -/
structure Seen (usable : BackendId → Bool) (backends : List BackendId) (seen : List Bool)
    (seenCount : ℕ) : Prop where
  length_eq : seen.length = backends.length
  count_eq : seen.countP id = seenCount
  unusable : ∀ (index : ℕ) (id : BackendId), seen[index]? = some true →
    backends[index]? = some id → usable id = false

section

variable {usable : BackendId → Bool} {backends : List BackendId} {seen : List Bool} {seenCount : ℕ}

lemma Seen.none (usable : BackendId → Bool) (backends : List BackendId) :
    Seen usable backends (List.replicate backends.length false) 0 where
  length_eq := length_replicate
  count_eq := by simp [countP_replicate]
  unusable index id ht := by
    have hm := eq_of_mem_replicate (mem_of_getElem? ht)
    cases hm

lemma Seen.mark (h : Seen usable backends seen seenCount) {index : ℕ}
    (hind : index < backends.length) (hn : seen[index]? = some false)
    (hu : usable backends[index] = false) :
    Seen usable backends (seen.set index true) (seenCount + 1) where
  length_eq := by rw [length_set, h.length_eq]
  count_eq := by
    obtain ⟨hlt, hg⟩ := List.getElem?_eq_some_iff.mp hn
    rw [countP_set hlt, hg, h.count_eq]
    rfl
  unusable i id ht hid := by
    rw [List.getElem?_set] at ht
    split_ifs at ht with heq
    · subst heq
      rw [List.getElem?_eq_getElem hind, Option.some_inj] at hid
      exact hid ▸ hu
    · exact h.unusable i id ht hid

lemma Seen.all (h : Seen usable backends seen backends.length) : ∀ id ∈ backends,
    usable id = false := by
  intro id hid
  obtain ⟨index, hind⟩ := mem_iff_getElem?.mp hid
  have hlt : index < seen.length := by
    rw [h.length_eq]
    exact (List.getElem?_eq_some_iff.mp hind).1
  have ht := countP_eq_length.mp (h.count_eq.trans h.length_eq.symm) _
    (getElem_mem hlt)
  exact h.unusable index id ((List.getElem?_eq_getElem hlt).trans (congrArg some ht)) hind

/-- **Skipping what has been seen changes nothing.** -/
lemma scan_eq_find? {entries : List ℕ} (he : ∀ index ∈ entries, index < backends.length)
    (h : Seen usable backends seen seenCount) :
    scan usable backends entries seen seenCount =
      (entries.filterMap fun index => backends[index]?).find? usable := by
  induction entries generalizing seen seenCount with
  | nil => rfl
  | cons index rest ih =>
    rw [forall_mem_cons] at he
    have hs := List.getElem?_eq_getElem he.1
    have hlt : index < seen.length := by
      rw [h.length_eq]
      exact he.1
    have hg := List.getElem?_eq_getElem hlt
    rw [scan, filterMap_cons_some hs, List.find?_cons, hs, getD_eq_getElem?_getD,
      hg, Option.getD_some]
    cases hse : seen[index] with
    | true =>
      rw [if_pos rfl, h.unusable index _ (hse ▸ hg) hs]
      exact ih he.2 h
    | false =>
      rw [if_neg Bool.false_ne_true]
      dsimp only
      cases hu : usable backends[index] with
      | true => exact if_pos rfl
      | false =>
        have hm := h.mark he.1 (hse ▸ hg) hu
        rw [if_neg Bool.false_ne_true]
        split_ifs with ha
        · -- the search may stop early because nothing that follows may be used
          refine (List.find?_eq_none.mpr fun id hid => ?_).symm
          obtain ⟨i, -, hi⟩ := mem_filterMap.mp hid
          rw [ha] at hm
          rw [hm.all id (mem_of_getElem? hi)]
          exact Bool.false_ne_true
        · exact ih he.2 hm

end

variable {self : Maglev} {poolPtr : ℕ}

lemma tableFor_fst (h : self.Fresh hash poolPtr pool) :
    (self.tableFor hash poolPtr pool).1 = build hash pool poolPtr pool.version := by
  unfold tableFor
  split_ifs with hc
  · obtain ⟨hp, hv, hne⟩ := hc
    exact h hp hv (by simpa using hne)
  · rfl

lemma label_build (hash : Hash) (pool : BackendPool) (poolPtr version : ℕ) :
    (build hash pool poolPtr version).poolPtr = poolPtr ∧
      (build hash pool poolPtr version).version = version := by
  rw [build]
  split_ifs <;> exact ⟨rfl, rfl⟩

lemma pickExcluding_snd (self : Maglev) (hash : Hash) (poolPtr : ℕ) (pool : BackendPool)
    (key : String) (excluded : List BackendId) :
    (self.pickExcluding hash poolPtr pool key excluded).2 ∈
      [self, ⟨build hash pool poolPtr pool.version⟩] := by
  have hs : (self.pickExcluding hash poolPtr pool key excluded).2 =
      (self.tableFor hash poolPtr pool).2 := by
    unfold pickExcluding
    dsimp only
    split_ifs <;> rfl
  rw [hs, tableFor]
  split_ifs <;> simp

lemma walk_eq_nil (hn : claimants pool = []) (key : String) : walk hash pool key = [] := by
  rw [walk, hn, filterMap_eq_nil_iff]
  exact fun _ _ => rfl

lemma pickExcluding_fst (h : self.Fresh hash poolPtr pool) (key : String)
    (excluded : List BackendId) :
    (self.pickExcluding hash poolPtr pool key excluded).1 =
      (walk hash pool key).find? (allowed pool excluded) := by
  unfold pickExcluding
  dsimp only
  rw [tableFor_fst h, build]
  by_cases hn : claimants pool = []
  · rw [if_pos (isEmpty_iff.mpr hn), walk_eq_nil hn]
    rfl
  · have he : ¬ (claimants pool).isEmpty = true := fun h => hn (isEmpty_iff.mp h)
    rw [if_neg he]
    dsimp only
    rw [if_neg he]
    obtain ⟨hl, hlt, -⟩ := fill_spec hash hn
    -- the slot of the key is the first one of the walk
    have hs :
        (hash [asBytes key]).toNat % tableSize < (fill hash pool (claimants pool)).length := by
      rw [hl]
      exact Nat.mod_lt _ tableSize_prime.pos
    have hr := rotate_eq_drop_append_take hs.le
    rw [drop_eq_getElem_cons hs, cons_append] at hr
    have hso := List.getElem?_eq_getElem (hlt _ (getElem_mem hs))
    rw [List.getElem?_eq_getElem hs, Option.bind_some, hso, Option.any_some]
    split_ifs with hf
    · rw [walk, hr, filterMap_cons_some hso, List.find?_cons_of_pos hf]
    · exact scan_eq_find? (fun index hind => hlt index (mem_rotate.mp hind)) (.none _ _)

lemma mem_walk_iff (key : String) (id : BackendId) :
    id ∈ walk hash pool key ↔
      (id ∈ pool.allBackendIds ∧ 0 < cappedWeight maxWeight pool id) ∧
        precedingWeight pool id < tableSize := by
  by_cases hn : claimants pool = []
  · rw [walk_eq_nil hn]
    refine iff_of_false not_mem_nil ?_
    rintro ⟨⟨hm, hp⟩, -⟩
    have hc : id ∈ claimants pool := mem_filter.mpr ⟨hm, decide_eq_true hp⟩
    exact not_mem_nil (hn ▸ hc)
  · obtain ⟨-, -, hm⟩ := fill_spec hash hn
    rw [← hm, walk, mem_filterMap]
    simp only [mem_rotate]

/-- **The choice**: only a backend with a slot can be found. -/
lemma chooses (hp : pool.Consistent) (h : self.Fresh hash poolPtr pool) (key : String)
    (excluded : List BackendId) :
    Chooses (fun id => Usable pool true excluded id ∧ precedingWeight pool id < tableSize)
      (self.pickExcluding hash poolPtr pool key excluded).1 := by
  rw [pickExcluding_fst h]
  refine (Chooses.find? _ _).congr fun id => ?_
  rw [usable_iff hp maxWeight (by decide), mem_walk_iff, and_right_comm]

/-! The table depends on the membership only. -/

variable (hsa : SameMembership pool pool')

include hsa

lemma claimants_eq : claimants pool' = claimants pool := by
  rw [claimants, claimants, hsa.ids_eq, hsa.cappedWeight_eq]

lemma fill_eq (backends : List BackendId) : fill hash pool' backends = fill hash pool backends := by
  have ht : turns pool' backends = turns pool backends := by
    rw [turns, turns, hsa.cappedWeight_eq]
  rw [fill, fill, ht]

lemma walk_eq (key : String) : walk hash pool' key = walk hash pool key := by
  rw [walk, walk, claimants_eq hsa, fill_eq hsa]

end Maglev

end LoadBalancer.Balancer
