import LoadBalancer.Lib.FairFilling
import LoadBalancer.Balancer.Maglev

/-!
# How Maglev shares its table

The loops of `build` (`crates/lb-balancer/src/maglev.rs`) have no bound of their own: the search
for a free slot ends because the skip of a backend is invertible modulo the prime size of the
table, and the rounds end because every turn takes a slot.

The table holds 32-bit indices, of which the largest marks a free slot.  A backend whose index is
65,537 or more has no turn before the table is full, so no index that is stored is cut off or taken
for the mark.
-/

namespace LoadBalancer.Balancer.Maglev

open LoadBalancer.Core List

variable {pool : BackendPool}

section

variable {α : Type*} (weight : α → ℕ)

variable (l : List α)

lemma length_flatMap_zipIdx (start : ℕ) :
    ((l.zipIdx start).flatMap fun x => List.replicate (weight x.1) x.2).length
      = (l.map weight).sum := by
  induction l generalizing start with
  | nil => rfl
  | cons a l ih => simp [ih]

lemma count_flatMap_zipIdx_of_lt {start i : ℕ} (h : i < start) :
    ((l.zipIdx start).flatMap fun x => List.replicate (weight x.1) x.2).count i = 0 := by
  induction l generalizing start with
  | nil => rfl
  | cons a l ih =>
    have hne : ¬ start = i := by omega
    have hn : i < start + 1 := by omega
    simp [count_replicate, hne, ih hn]

lemma count_flatMap_zipIdx (start : ℕ) {i : ℕ} (hi : i < l.length) :
    ((l.zipIdx start).flatMap fun x => List.replicate (weight x.1) x.2).count (start + i)
      = weight l[i] := by
  induction l generalizing start i with
  | nil => exact absurd hi (Nat.not_lt_zero _)
  | cons a l ih =>
    cases i with
    | zero => simp [count_flatMap_zipIdx_of_lt weight l (Nat.lt_succ_self start)]
    | succ i =>
      have hr := ih (start + 1) (i := i) (by simpa using hi)
      rw [Nat.add_right_comm, Nat.add_assoc] at hr
      simp [count_replicate, hr]

lemma le_of_getElem?_flatMap_zipIdx (hp : ∀ a ∈ l, 0 < weight a) {start k i : ℕ}
    (h : ((l.zipIdx start).flatMap fun x => List.replicate (weight x.1) x.2)[k]? = some i) :
    i ≤ start + k := by
  induction l generalizing start k with
  | nil => simp at h
  | cons a l ih =>
    rw [forall_mem_cons] at hp
    simp only [zipIdx_cons, flatMap_cons] at h
    rw [List.getElem?_append, length_replicate] at h
    split_ifs at h with hk
    · rw [List.getElem?_replicate, if_pos hk] at h
      have heq := Option.some.inj h
      omega
    · have hle := ih hp.2 h
      omega

end

def totalWeight (pool : BackendPool) : ℕ := ((claimants pool).map (cappedWeight maxWeight pool)).sum

lemma length_turns (pool : BackendPool) : (turns pool (claimants pool)).length = totalWeight pool :=
  length_flatMap_zipIdx (cappedWeight maxWeight pool) (claimants pool) 0

lemma count_turns {i : ℕ} (hi : i < (claimants pool).length) :
    (turns pool (claimants pool)).count i = cappedWeight maxWeight pool (claimants pool)[i] := by
  have hc := count_flatMap_zipIdx (cappedWeight maxWeight pool) (claimants pool) 0 hi
  rwa [Nat.zero_add] at hc

lemma pos_of_mem_claimants {id : BackendId} (hid : id ∈ claimants pool) :
    0 < cappedWeight maxWeight pool id := of_decide_eq_true (mem_filter.mp hid).2

lemma lt_of_mem_take_turns {i n : ℕ} (hi : i ∈ (turns pool (claimants pool)).take n) : i < n := by
  obtain ⟨k, hk⟩ := mem_iff_getElem?.mp hi
  rw [List.getElem?_take] at hk
  split_ifs at hk with hlt
  have hle := le_of_getElem?_flatMap_zipIdx (cappedWeight maxWeight pool) (claimants pool)
    (fun _ => pos_of_mem_claimants) hk
  omega

lemma turns_ne_nil (hne : claimants pool ≠ []) : turns pool (claimants pool) ≠ [] := by
  obtain ⟨id, hid⟩ := exists_mem_of_ne_nil _ hne
  obtain ⟨i, hi, rfl⟩ := getElem_of_mem hid
  have hp := pos_of_mem_claimants hid
  rw [← count_turns hi, count_pos_iff] at hp
  exact ne_nil_of_mem hp

/-- **Complete and fair.**  If a backend has a weight, then the loops of `build` end, in one
state.  The table made of it has an owner in each of its 65,537 slots, and with `q` the number of
whole rounds each backend of weight `w` owns at least `q * w` and at most `(q + 1) * w` slots. -/
theorem table_complete_and_fair (hash : Hash) (pool : BackendPool)
    (hweight : ∃ id ∈ pool.allBackendIds, 0 < cappedWeight maxWeight pool id)
    (poolPtr version : ℕ) :
    (build hash pool poolPtr version).backends = claimants pool ∧
    (∃ filling, Probing.Fills (slot hash (claimants pool)) tableSize (turns pool (claimants pool))
      (.start tableSize) filling) ∧
    ∀ filling, Probing.Fills (slot hash (claimants pool)) tableSize (turns pool (claimants pool))
        (.start tableSize) filling →
      (build hash pool poolPtr version).entries
        = filling.entries.map (fun owner => owner.getD (2 ^ 32 - 1)) ∧
      filling.entries.length = tableSize ∧
      (∀ owner ∈ filling.entries, ∃ index, owner = some index ∧
        index < (claimants pool).length ∧ index < tableSize) ∧
      (∀ i, filling.next i ≤ tableSize) ∧
      ∀ i (hi : i < (claimants pool).length),
        tableSize / totalWeight pool * cappedWeight maxWeight pool (claimants pool)[i]
            ≤ filling.entries.count (some i) ∧
          filling.entries.count (some i)
            ≤ (tableSize / totalWeight pool + 1)
              * cappedWeight maxWeight pool (claimants pool)[i] := by
  have hne : claimants pool ≠ [] := by
    obtain ⟨id, hid, hp⟩ := hweight
    exact ne_nil_of_mem (mem_filter.mpr ⟨hid, decide_eq_true hp⟩)
  have hc : ∀ i ∈ turns pool (claimants pool),
      Probing.Covers (slot hash (claimants pool) i) tableSize := fun i _ => covers_slot hash _ i
  have hf := fun filling => Probing.fills_iff (s := filling) hc (turns_ne_nil hne)
    tableSize_prime.pos
  obtain ⟨hl, hfu, ho⟩ := Probing.fillRounds_spec hc (turns_ne_nil hne)
    tableSize_prime.pos
  have hb : build hash pool poolPtr version
      = ⟨poolPtr, version, claimants pool, fill hash pool (claimants pool)⟩ := by
    rw [build, if_neg (by simpa using hne)]
  refine ⟨by rw [hb], ⟨_, (hf _).mpr rfl⟩, fun filling h => ?_⟩
  obtain rfl := (hf filling).mp h
  refine ⟨by rw [hb]; rfl, hl, fun owner hm => ?_,
    (Probing.owned_fillRounds hc tableSize_prime.pos).next_le, fun i hi => ?_⟩
  · obtain ⟨index, rfl⟩ := Option.isSome_iff_exists.mp (hfu owner hm)
    have ht := (ho index).mp hm
    exact ⟨index, rfl, lt_of_mem_turns (mem_of_mem_take ht), lt_of_mem_take_turns ht⟩
  · have hbo := Probing.share_bounds hc (turns_ne_nil hne) tableSize_prime.pos i
    rwa [length_turns, count_turns hi] at hbo

def threeToOne : BackendPool :=
  .new [⟨"a", "10.0.0.1:80", 3, none, 0⟩, ⟨"b", "10.0.0.2:80", 1, none, 0⟩]

/-- Three of four turns, whatever the hash. -/
theorem table_complete_and_fair_three_to_one :
    0 < cappedWeight maxWeight threeToOne "a" ∧
      ∃ filling, Probing.Fills (slot (fun _ => 0) (claimants threeToOne)) tableSize
          (turns threeToOne (claimants threeToOne)) (.start tableSize) filling ∧
        49152 ≤ filling.entries.count (some 0) ∧ filling.entries.count (some 0) ≤ 49155 := by
  have hp : 0 < cappedWeight maxWeight threeToOne "a" := by decide +kernel
  have hm : "a" ∈ threeToOne.allBackendIds := by decide +kernel
  obtain ⟨-, ⟨filling, hf⟩, ha⟩ := table_complete_and_fair (fun _ => 0) threeToOne ⟨"a", hm, hp⟩ 1 0
  obtain ⟨-, -, -, -, hsh⟩ := ha filling hf
  have hc : claimants threeToOne = ["a", "b"] := by decide +kernel
  have hlt : 0 < (claimants threeToOne).length := by rw [hc]; exact Nat.two_pos
  have hs := hsh 0 hlt
  have ht : totalWeight threeToOne = 4 := by decide +kernel
  have hw : cappedWeight maxWeight threeToOne "a" = 3 := by decide +kernel
  have hfi : (claimants threeToOne)[0] = "a" := by simp [hc]
  rw [ht, hfi, hw] at hs
  exact ⟨hp, filling, hf, hs⟩

end LoadBalancer.Balancer.Maglev
