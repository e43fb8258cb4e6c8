import Mathlib.Data.List.Count
import Mathlib.Data.Nat.Prime.Basic
import Mathlib.Data.Nat.ModEq
import Mathlib.Data.Fintype.EquivFin
import Mathlib.Data.Fin.Basic
import Mathlib.Logic.Function.Basic

/-!
# Tables filled by probing

Claimants take the slots of a table in turns.  Each walks a sequence of slots of its own and, at
its turn, takes the next one that is free; the list of turns is repeated until the table is full.

If every claimant's sequence visits every slot (`Covers`), then no turn fails to find a slot, the
table gets full, and its owners are exactly the claimants of the first `size` turns
(`fillRounds_spec`).  Sequences of a fixed stride visit every slot when the size is a prime number
(`covers_stride`).
-/

namespace Probing

open List

variable {ι : Type*}

/-- A table under construction: how far each claimant has walked, the owners of the slots, and
the number of slots taken. -/
structure Filling (ι : Type*) where
  next : ι → ℕ
  entries : List (Option ι)
  filled : ℕ

def Filling.start (size : ℕ) : Filling ι where
  next := fun _ => 0
  entries := .replicate size none
  filled := 0

def taken (entries : List (Option ι)) (slot : ℕ) : Bool := (entries.getD slot none).isSome

/-- The walk past slots that are taken, for at most `fuel` steps. -/
def probe (slot : ℕ → ℕ) (entries : List (Option ι)) : (fuel next : ℕ) → ℕ
  | 0, next => next
  | fuel + 1, next =>
    if taken entries (slot next) then probe slot entries fuel (next + 1) else next

def claim [DecidableEq ι] (slot : ι → ℕ → ℕ) (size : ℕ) (s : Filling ι) (i : ι) : Filling ι :=
  let next := probe (slot i) s.entries size (s.next i)
  { next := Function.update s.next i (next + 1)
    entries := s.entries.set (slot i next) (some i)
    filled := s.filled + 1 }

def fillTurns [DecidableEq ι] (slot : ι → ℕ → ℕ) (size : ℕ) : List ι → Filling ι → Filling ι
  | [], s => s
  | i :: turns, s =>
    let s := claim slot size s i
    if s.filled = size then s else fillTurns slot size turns s

/-- The list of turns again and again, at most `rounds` times. -/
def fillRounds [DecidableEq ι] (slot : ι → ℕ → ℕ) (size : ℕ) (turns : List ι) :
    (rounds : ℕ) → Filling ι → Filling ι
  | 0, s => s
  | rounds + 1, s =>
    let s := fillTurns slot size turns s
    if s.filled = size then s else fillRounds slot size turns rounds s

def byWeight (weight : ι → ℕ) (l : List ι) : List ι := l.flatMap fun x => .replicate (weight x) x

/-! ## Walking -/

/-- The sequence stays in the table and visits all of it within `size` steps. -/
structure Covers (walk : ℕ → ℕ) (size : ℕ) : Prop where
  lt : ∀ k, walk k < size
  exists_eq : ∀ t < size, ∃ k < size, walk k = t

/-- A walk of a fixed stride visits every slot of a table of prime size. -/
lemma covers_stride {size skip : ℕ} (hs : size.Prime) (offset : ℕ) (hp : 0 < skip)
    (hlt : skip < size) : Covers (fun k => (offset + k * skip) % size) size where
  lt k := Nat.mod_lt _ hs.pos
  exists_eq t ht := by
    -- the walk is injective on the first `size` numbers
    let walk : Fin size → Fin size := fun k => ⟨(offset + k * skip) % size, Nat.mod_lt _ hs.pos⟩
    have hinj : Function.Injective walk := by
      intro k k' h
      have hm : offset + k * skip ≡ offset + k' * skip [MOD size] := congrArg Fin.val h
      have hc : size.gcd skip = 1 := Nat.coprime_of_lt_prime hp.ne' hlt hs
      have hk := (hm.add_left_cancel' offset).cancel_right_of_coprime hc
      exact Fin.ext (hk.eq_of_lt_of_lt k.isLt k'.isLt)
    obtain ⟨k, hk⟩ := Finite.surjective_of_injective hinj ⟨t, ht⟩
    exact ⟨k, k.isLt, congrArg Fin.val hk⟩

lemma probe_spec (walk : ℕ → ℕ) (entries : List (Option ι)) : ∀ (fuel next : ℕ),
    (∃ k < fuel, taken entries (walk (next + k)) = false) →
    taken entries (walk (probe walk entries fuel next)) = false ∧
      ∀ k, next ≤ k → k < probe walk entries fuel next → taken entries (walk k) = true
  | 0, _, ⟨_, hk, _⟩ => absurd hk (Nat.not_lt_zero _)
  | fuel + 1, next, ⟨k, hk, hfr⟩ => by
    unfold probe
    cases hta : taken entries (walk next) with
    | false =>
      rw [if_neg Bool.false_ne_true]
      exact ⟨hta, fun j hle hlt => absurd hle (Nat.not_le.mpr hlt)⟩
    | true =>
      rw [if_pos rfl]
      have ha : ∃ k < fuel, taken entries (walk (next + 1 + k)) = false := by
        cases k with
        | zero => rw [Nat.add_zero, hta] at hfr; cases hfr
        | succ k => exact ⟨k, by omega, by rwa [Nat.add_right_comm, Nat.add_assoc]⟩
      obtain ⟨hs, hp⟩ := probe_spec walk entries fuel (next + 1) ha
      refine ⟨hs, fun j hle hlt => ?_⟩
      rcases Nat.eq_or_lt_of_le hle with rfl | hlt'
      · exact hta
      · exact hp j hlt' hlt

/-! ## Slots -/

section

variable {entries : List (Option ι)} {t : ℕ} {i : ι}

variable (ht : t < entries.length) (hfr : taken entries t = false)

include ht

lemma taken_eq_isSome : taken entries t = entries[t].isSome := by
  rw [taken, getD_eq_getElem?_getD, List.getElem?_eq_getElem ht, Option.getD_some]

lemma taken_set (t' : ℕ) : taken (entries.set t (some i)) t' = (taken entries t' || t = t') := by
  unfold taken
  rw [getD_eq_getElem?_getD, getD_eq_getElem?_getD, List.getElem?_set]
  by_cases h : t = t'
  · subst h
    simp [ht]
  · simp [h]

include hfr

lemma getElem_of_not_taken : entries[t] = none := by
  rwa [taken_eq_isSome ht, Option.isSome_eq_false_iff, Option.isNone_iff_eq_none] at hfr

lemma countP_set_free :
    (entries.set t (some i)).countP Option.isSome = entries.countP Option.isSome + 1 := by
  rw [countP_set ht, getElem_of_not_taken ht hfr]
  rfl

lemma some_mem_set_free (j : ι) : some j ∈ entries.set t (some i) ↔ some j ∈ entries ∨ j = i := by
  refine ⟨fun h => (mem_or_eq_of_mem_set h).imp_right Option.some.inj, ?_⟩
  rintro (h | rfl)
  · obtain ⟨k, hk⟩ := mem_iff_getElem?.mp h
    have hne : t ≠ k := by
      rintro rfl
      rw [List.getElem?_eq_getElem ht, getElem_of_not_taken ht hfr] at hk
      cases hk
    exact mem_iff_getElem?.mpr ⟨k, by rw [List.getElem?_set_ne hne, hk]⟩
  · exact mem_set ht _

end

/-! ## Turns -/

section

variable [DecidableEq ι] {slot : ι → ℕ → ℕ} {size : ℕ} {turns done : List ι} {s : Filling ι}
  {I : List ι → Filling ι → Prop}

variable (hfi : ∀ done s, I done s → s.filled = done.length)
  (hcl : ∀ done s, ∀ i ∈ turns, I done s → done.length < size →
    I (done ++ [i]) (claim slot size s i))

include hfi hcl

/-- What every turn keeps, of the turns so far and the table, the turns of a list keep. -/
lemma fillTurns_induction (h : I done s) (hlt : done.length < size) :
    I (done ++ turns.take (size - done.length)) (fillTurns slot size turns s) := by
  induction turns generalizing done s with
  | nil => rwa [take_nil, append_nil]
  | cons i turns ih =>
    have hn := hcl done s i mem_cons_self h hlt
    have hta : (i :: turns).take (size - done.length) =
        i :: turns.take (size - (done ++ [i]).length) := by
      rw [length_append, length_singleton, ← take_succ_cons]
      congr 1
      omega
    rw [fillTurns, hta, append_cons]
    have hl := hfi _ _ hn
    split_ifs with hf
    · rw [hf] at hl
      rwa [← hl, Nat.sub_self, take_zero, append_nil]
    · refine ih (fun done s j hj => hcl done s j (mem_cons_of_mem i hj)) hn
        (lt_of_le_of_ne ?_ (hl ▸ hf))
      rw [length_append, length_singleton]
      omega

lemma fillRounds_induction (rounds : ℕ) (h : I done s) (hlt : done.length < size) :
    I (done ++ (List.replicate rounds turns).flatten.take (size - done.length))
      (fillRounds slot size turns rounds s) := by
  induction rounds generalizing done s with
  | zero => rwa [replicate_zero, flatten_nil, take_nil, append_nil]
  | succ rounds ih =>
    have htu := fillTurns_induction hfi hcl h hlt
    have hl := hfi _ _ htu
    rw [length_append, length_take] at hl
    rw [fillRounds, replicate_succ, flatten_cons, take_append]
    split_ifs with hf
    · rw [hf] at hl
      have hr : size - done.length - turns.length = 0 := by omega
      rwa [hr, take_zero, append_nil]
    · have hs : turns.length ≤ size - done.length := by omega
      rw [take_of_length_le hs] at htu ⊢
      have hn := ih htu (by rw [length_append]; omega)
      rwa [length_append, Nat.sub_add_eq, append_assoc] at hn

end

/-- The table after the listed turns. -/
structure Filled (slot : ι → ℕ → ℕ) (size : ℕ) (turns : List ι) (s : Filling ι) : Prop where
  length_eq : s.entries.length = size
  filled_eq : s.filled = turns.length
  count_eq : s.entries.countP Option.isSome = turns.length
  owner_iff : ∀ i, some i ∈ s.entries ↔ i ∈ turns
  /-- The slots a claimant has walked past are taken. -/
  walked : ∀ i, ∀ k < s.next i, taken s.entries (slot i k) = true

namespace Filled

variable {slot : ι → ℕ → ℕ} {size : ℕ} {turns done : List ι} {s : Filling ι}

lemma start : Filled slot size [] (.start size) where
  length_eq := length_replicate
  filled_eq := rfl
  count_eq := by simp [Filling.start, countP_replicate]
  owner_iff i := by simp [Filling.start, mem_replicate]
  walked _ _ hk := absurd hk (Nat.not_lt_zero _)

variable (hco : ∀ i ∈ turns, Covers (slot i) size) (h : Filled slot size done s)
  (hlt : done.length < size)

include h hlt

lemma exists_free : ∃ t < size, taken s.entries t = false := by
  rw [← h.count_eq, ← h.length_eq, countP_lt_length_iff] at hlt
  obtain ⟨owner, hm, hfr⟩ := hlt
  obtain ⟨t, ht, rfl⟩ := getElem_of_mem hm
  exact ⟨t, h.length_eq ▸ ht, by rwa [taken_eq_isSome ht]⟩

/-- What a claimant has walked past is taken, so a free slot is ahead of it. -/
lemma exists_ahead {i : ι} (hco : Covers (slot i) size) :
    ∃ k < size, s.next i ≤ k ∧ taken s.entries (slot i k) = false := by
  obtain ⟨t, ht, hfr⟩ := h.exists_free hlt
  obtain ⟨k, hk, rfl⟩ := hco.exists_eq t ht
  refine ⟨k, hk, ?_, hfr⟩
  by_contra hlt'
  rw [h.walked i k (by omega)] at hfr
  cases hfr

variable [DecidableEq ι]

/-- **A turn finds a slot** while one is free. -/
lemma claim {i : ι} (hco : Covers (slot i) size) :
    Filled slot size (done ++ [i]) (claim slot size s i) := by
  obtain ⟨k, hk, hle, hfr⟩ := h.exists_ahead hlt hco
  have ha : ∃ k < size, taken s.entries (slot i (s.next i + k)) = false :=
    ⟨k - s.next i, by omega, by rwa [Nat.add_sub_of_le hle]⟩
  obtain ⟨hfr, hp⟩ := probe_spec (slot i) s.entries size (s.next i) ha
  have ht : slot i (probe (slot i) s.entries size (s.next i)) < s.entries.length := by
    rw [h.length_eq]
    exact hco.lt _
  refine ⟨?_, ?_, ?_, fun j => ?_, fun j k hk => ?_⟩
  · rw [Probing.claim, length_set, h.length_eq]
  · rw [Probing.claim, h.filled_eq, length_append, length_singleton]
  · rw [Probing.claim, countP_set_free ht hfr, h.count_eq, length_append, length_singleton]
  · rw [Probing.claim, some_mem_set_free ht hfr, h.owner_iff, mem_append, mem_singleton]
  · rw [Probing.claim, taken_set ht, Bool.or_eq_true, decide_eq_true_iff]
    simp only [Probing.claim, Function.update_apply] at hk
    split_ifs at hk with hji
    · subst hji
      rcases Nat.lt_succ_iff_lt_or_eq.mp hk with hk | rfl
      · by_cases hw : k < s.next j
        · exact .inl (h.walked j k hw)
        · exact .inl (hp k (by omega) hk)
      · exact .inr rfl
    · exact .inl (h.walked j k hk)

include hco

lemma fillTurns :
    Filled slot size (done ++ turns.take (size - done.length)) (fillTurns slot size turns s) :=
  fillTurns_induction (fun _ _ h => h.filled_eq)
    (fun _ _ i hi h hlt => h.claim hlt (hco i hi)) h hlt

omit hlt h

lemma fillRounds (rounds : ℕ) (h : Filled slot size done s) (hlt : done.length < size) :
    Filled slot size (done ++ (List.replicate rounds turns).flatten.take (size - done.length))
      (fillRounds slot size turns rounds s) :=
  fillRounds_induction (fun _ _ h => h.filled_eq)
    (fun _ _ i hi h hlt => h.claim hlt (hco i hi)) rounds h hlt

end Filled

lemma mem_take_repeated {turns : List ι} {n : ℕ} (hn : 0 < n) (i : ι) :
    i ∈ (List.replicate n turns).flatten.take n ↔ i ∈ turns.take n := by
  obtain ⟨m, rfl⟩ := Nat.exists_eq_add_of_lt hn
  rw [Nat.zero_add, replicate_succ, flatten_cons, take_append, mem_append, or_iff_left_of_imp]
  intro hi
  -- a second round is reached only after a whole first one
  have hf := mem_of_mem_take hi
  obtain ⟨round, hr, hm⟩ := mem_flatten.mp hf
  rw [eq_of_mem_replicate hr] at hm
  rwa [take_of_length_le]
  by_contra hle
  rw [Nat.sub_eq_zero_of_le (by omega), take_zero] at hi
  cases hi

/-- Who has a turn among the first `n`, where everyone has as many turns as they weigh. -/
lemma mem_take_byWeight_iff [DecidableEq ι] {weight : ι → ℕ} {x : ι} : ∀ {l : List ι} {n : ℕ},
    x ∈ (byWeight weight l).take n ↔
      (x ∈ l ∧ 0 < weight x) ∧ ((l.takeWhile fun y => y ≠ x).map weight).sum < n
  | [], n => by simp [byWeight]
  | y :: l, n => by
    rw [byWeight, flatMap_cons, take_append, take_replicate, length_replicate,
      mem_append, mem_replicate, ← byWeight, mem_take_byWeight_iff]
    by_cases hyx : y = x
    · subst hyx
      rw [takeWhile_cons_of_neg (by simp), map_nil, sum_nil]
      simp only [mem_cons_self, true_and, and_true]
      omega
    · rw [takeWhile_cons_of_pos (by simpa using hyx), map_cons, sum_cons,
        mem_cons, or_iff_right (fun h => hyx h.2.symm), or_iff_right (Ne.symm hyx),
        Nat.lt_sub_iff_add_lt']

/-- **The finished table**: every slot has an owner, and the owners are the claimants of the
first turns. -/
theorem fillRounds_spec [DecidableEq ι] {slot : ι → ℕ → ℕ} {size : ℕ} {turns : List ι}
    (hco : ∀ i ∈ turns, Covers (slot i) size) (htu : turns ≠ []) (hs : 0 < size) :
    (fillRounds slot size turns size (.start size)).entries.length = size ∧
    (∀ owner ∈ (fillRounds slot size turns size (.start size)).entries, owner.isSome = true) ∧
    ∀ i, some i ∈ (fillRounds slot size turns size (.start size)).entries ↔
      i ∈ turns.take size := by
  have h := Filled.start.fillRounds hco size hs
  rw [length_nil, Nat.sub_zero, nil_append] at h
  have hl : ((List.replicate size turns).flatten.take size).length = size := by
    rw [length_take, length_flatten, map_replicate, sum_replicate_nat, Nat.min_eq_left]
    exact Nat.le_mul_of_pos_right size (length_pos_of_ne_nil htu)
  refine ⟨h.length_eq, countP_eq_length.mp ?_, fun i => ?_⟩
  · rw [h.count_eq, hl, h.length_eq]
  · rw [h.owner_iff, mem_take_repeated hs]

end Probing
