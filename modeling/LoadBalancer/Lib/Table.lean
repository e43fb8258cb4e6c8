import Mathlib

/-!
# Finite tables

Mathlib's `AList` is a list of bindings whose keys do not repeat.  At a constant family it is the
observable content of a hash map.  This file adds the operations of a hash map that `AList` lacks —
`retain`, `mapValues`, the number of bindings — with the equation each of them has under `get`, and
the one fact about iteration the rest needs: a sum over the bindings is a `Finset` sum over any set
of keys that covers the table (`sum_entries`).
-/

abbrev Table (κ ν : Type*) := AList fun _ : κ => ν

namespace AList

open List

variable {κ ν μ : Type*}

/-! ## Operations -/

def size (t : Table κ ν) : ℕ := t.entries.length

def mapValues (f : ν → μ) (t : Table κ ν) : Table κ μ where
  entries := t.entries.map fun e => ⟨e.1, f e.2⟩
  nodupKeys := List.NodupKeys.map₂ (fun _ => f) t.entries t.nodupKeys

def retain (p : κ → ν → Bool) (t : Table κ ν) : Table κ ν where
  entries := t.entries.filter fun e => p e.1 e.2
  nodupKeys := t.nodupKeys.sublist List.filter_sublist

lemma size_eq_length_keys (t : Table κ ν) : t.size = t.keys.length := by
  simp [size, AList.keys, List.keys]

@[simp] lemma size_eq_zero_iff {t : Table κ ν} : t.size = 0 ↔ t = ∅ := by
  constructor
  · intro h
    exact AList.ext (length_eq_zero_iff.mp h)
  · rintro rfl
    rfl

section

variable [DecidableEq κ]

/-- The value under a key.  `lookup` at a constant family, with a type that does not mention
the key, so that the key can be rewritten. -/
def get (t : Table κ ν) (k : κ) : Option ν := t.lookup k

@[simp] lemma get_empty (k : κ) : (∅ : Table κ ν).get k = none := rfl

lemma get_isSome_iff {t : Table κ ν} {k : κ} : (t.get k).isSome ↔ k ∈ t := AList.lookup_isSome

lemma get_eq_none_iff {t : Table κ ν} {k : κ} : t.get k = none ↔ k ∉ t := AList.lookup_eq_none

variable {v : ν} (p : κ → ν → Bool)

lemma mem_of_get_eq_some {t : Table κ ν} {k : κ} (h : t.get k = some v) : k ∈ t :=
  get_isSome_iff.mp (by simp [h])

lemma exists_get_of_mem {t : Table κ ν} {k : κ} (h : k ∈ t) : ∃ v, t.get k = some v :=
  Option.isSome_iff_exists.mp (get_isSome_iff.mpr h)

lemma get_insert (t : Table κ ν) (k k' : κ) (v : ν) :
    (t.insert k v).get k' = if k' = k then some v else t.get k' := by
  by_cases h : k' = k
  · subst h
    simp [get]
  · rw [if_neg h]
    exact AList.lookup_insert_ne h

lemma get_insert_of_ne (t : Table κ ν) {k k' : κ} (v : ν) (h : k' ≠ k) :
    (t.insert k v).get k' = t.get k' := AList.lookup_insert_ne h

lemma get_erase (t : Table κ ν) (k k' : κ) :
    (t.erase k).get k' = if k' = k then none else t.get k' := by
  by_cases h : k' = k
  · subst h
    simp [get]
  · rw [if_neg h]
    exact AList.lookup_erase_ne h

lemma mem_entries_iff_get {t : Table κ ν} {k : κ} :
    (⟨k, v⟩ : (_ : κ) × ν) ∈ t.entries ↔ t.get k = some v :=
  AList.mem_lookup_iff.symm

@[simp] lemma get_mapValues (f : ν → μ) (t : Table κ ν) (k : κ) :
    (t.mapValues f).get k = (t.get k).map f :=
  dlookup_map₂ (f := fun _ => f) k

lemma get_retain_eq_some_iff (t : Table κ ν) (k : κ) (v : ν) :
    (t.retain p).get k = some v ↔ t.get k = some v ∧ p k v = true := by
  rw [← mem_entries_iff_get, ← mem_entries_iff_get]
  simp [retain, mem_filter]

@[simp] lemma get_retain (t : Table κ ν) (k : κ) : (t.retain p).get k = (t.get k).filter (p k) := by
  apply Option.ext
  intro v
  rw [get_retain_eq_some_iff, Option.filter_eq_some_iff]

lemma mem_retain_key (p : κ → Bool) (t : Table κ ν) (k : κ) :
    k ∈ t.retain (fun k _ => p k) ↔ k ∈ t ∧ p k = true := by
  rw [← get_isSome_iff, ← get_isSome_iff, get_retain]
  cases t.get k <;> simp [Option.filter]

lemma get_foldl_insert {k : κ} : ∀ (l : List (κ × ν)) (t : Table κ ν),
    (l.map fun x => x.1).Nodup →
      ((l.foldl (fun t x => t.insert x.1 x.2) t).get k = some v ↔
        (k, v) ∈ l ∨ (k ∉ l.map fun x => x.1) ∧ t.get k = some v)
  | [], t, _ => by simp
  | (k', v') :: l, t, hn => by
      obtain ⟨hk', hn⟩ := nodup_cons.mp hn
      rw [foldl_cons, get_foldl_insert l _ hn, get_insert, mem_cons, map_cons,
        mem_cons, not_or, Prod.mk.injEq]
      by_cases hk : k = k'
      · subst hk
        have hno : (k, v) ∉ l := fun h => hk' (mem_map.mpr ⟨(k, v), h, rfl⟩)
        have hne : k ∉ l.map fun x => x.1 := hk'
        rw [if_pos rfl]
        simp only [hne, hno, not_false_eq_true, true_and, Option.some.injEq, false_or, or_false,
          not_true_eq_false, false_and]
        exact eq_comm
      · rw [if_neg hk]
        simp only [hk, false_and, false_or, not_false_eq_true, true_and]

/-- Inserting entries one after the other: a value under a key is one of its entries. -/
lemma mem_of_get_foldl_insert {k : κ} : ∀ {l : List (κ × ν)} {t : Table κ ν},
    (l.foldl (fun t x => t.insert x.1 x.2) t).get k = some v → (k, v) ∈ l ∨ t.get k = some v
  | [], _, h => Or.inr h
  | (k', v') :: l, t, h => by
      rw [foldl_cons] at h
      rcases mem_of_get_foldl_insert h with hm | hg
      · exact Or.inl (mem_cons_of_mem _ hm)
      · rw [get_insert] at hg
        split_ifs at hg with hk
        · cases hg
          exact Or.inl (hk ▸ mem_cons_self)
        · exact Or.inr hg

lemma mem_foldl_insert_iff {k : κ} : ∀ {l : List (κ × ν)} {t : Table κ ν},
    k ∈ l.foldl (fun t x => t.insert x.1 x.2) t ↔ k ∈ l.map (fun x => x.1) ∨ k ∈ t
  | [], _ => by simp
  | (k', v') :: l, t => by
      rw [foldl_cons, mem_foldl_insert_iff, AList.mem_insert, map_cons, mem_cons]
      tauto

/-- Two tables of one size are compared by looking up the bindings of the first. -/
def sameEntries [DecidableEq ν] (t t' : Table κ ν) : Bool :=
  t.size = t'.size && t.entries.all fun e => t'.get e.1 = some e.2

/-- **Tables that compare equal** have the same bindings. -/
lemma get_eq_of_sameEntries [DecidableEq ν] {t t' : Table κ ν} (h : t.sameEntries t' = true)
    (k : κ) : t.get k = t'.get k := by
  rw [sameEntries, Bool.and_eq_true, decide_eq_true_eq, all_eq_true] at h
  obtain ⟨hsi, he⟩ := h
  have hg : ∀ k v, t.get k = some v → t'.get k = some v := fun k v hk => by
    simpa using he ⟨k, v⟩ (mem_entries_iff_get.mpr hk)
  have hs : t.keys ⊆ t'.keys := fun k hk => by
    obtain ⟨v, hv⟩ := exists_get_of_mem hk
    exact mem_of_get_eq_some (hg k v hv)
  -- as many keys, so the first table has them all
  have hp : t.keys.Perm t'.keys := by
    refine (subperm_of_subset t.keys_nodup hs).perm_of_length_le ?_
    rw [← size_eq_length_keys, ← size_eq_length_keys, hsi]
  cases hk : t.get k with
  | some v => exact (hg k v hk).symm
  | none =>
    have hn : k ∉ t'.keys := fun hm => get_eq_none_iff.mp hk (hp.mem_iff.mpr hm)
    exact (get_eq_none_iff.mpr hn).symm

lemma eq_empty_iff_get {t : Table κ ν} : t = ∅ ↔ ∀ k, t.get k = none := by
  constructor
  · rintro rfl k
    exact get_empty k
  · intro h
    refine AList.ext (eq_nil_iff_forall_not_mem.mpr fun e he => ?_)
    have hs := mem_entries_iff_get.mp he
    rw [h e.1] at hs
    cases hs

lemma size_insert_of_mem {t : Table κ ν} {k : κ} (v : ν) (h : k ∈ t) :
    (t.insert k v).size = t.size := by
  have hk : k ∈ t.keys := AList.mem_keys.mp h
  rw [size_eq_length_keys, size_eq_length_keys, AList.keys_insert, length_cons,
    length_erase_of_mem hk]
  have := length_pos_of_mem hk
  omega

lemma size_insert_of_notMem {t : Table κ ν} {k : κ} (v : ν) (h : k ∉ t) :
    (t.insert k v).size = t.size + 1 := by
  have hk : k ∉ t.keys := fun hc => h (AList.mem_keys.mpr hc)
  rw [size_eq_length_keys, size_eq_length_keys, AList.keys_insert, length_cons, erase_of_not_mem hk]

lemma size_le_size_insert (t : Table κ ν) (k : κ) (v : ν) : t.size ≤ (t.insert k v).size := by
  by_cases h : k ∈ t
  · exact (size_insert_of_mem v h).ge
  · rw [size_insert_of_notMem v h]
    omega

/-! ## Iteration -/

/-- **A sum over the bindings does not depend on their order**: it is the sum over any finite
set of keys that covers the table, an absent key contributing nothing. -/
lemma sum_entries (t : Table κ ν) (f : κ → ν → ℕ) (S : Finset κ) (hS : ∀ k ∈ t, k ∈ S) :
    (t.entries.map fun e => f e.1 e.2).sum = ∑ k ∈ S, (t.get k).elim 0 (f k) := by
  have hke : t.entries.map (fun e => f e.1 e.2)
      = t.keys.map fun k => (t.get k).elim 0 (f k) := by
    rw [AList.keys, List.keys, map_map]
    refine map_congr_left fun e he => ?_
    have hl : t.get e.1 = some e.2 := mem_entries_iff_get.mp he
    simp [hl]
  rw [hke, ← sum_toFinset _ t.keys_nodup]
  refine Finset.sum_subset (fun k hk => hS k ?_) fun k _ hk => ?_
  · exact AList.mem_keys.mpr (mem_toFinset.mp hk)
  · have : t.get k = none :=
      get_eq_none_iff.mpr fun hc => hk (mem_toFinset.mpr (AList.mem_keys.mp hc))
    simp [this]

/-- The same for the bindings whose key satisfies `p`, the covering set being exactly the keys
that can satisfy it. -/
lemma sum_filter_entries (t : Table κ ν) (p : κ → Bool) (f : κ → ν → ℕ) (S : Finset κ)
    (hS : ∀ k ∈ t, p k = true → k ∈ S) (hp : ∀ k ∈ S, p k = true) :
    ((t.entries.filter fun e => p e.1).map fun e => f e.1 e.2).sum
      = ∑ k ∈ S, (t.get k).elim 0 (f k) := by
  have h := sum_entries (t.retain fun k _ => p k) f S fun k hk => by
    obtain ⟨v, hv⟩ := exists_get_of_mem hk
    rw [get_retain_eq_some_iff] at hv
    exact hS k (mem_of_get_eq_some hv.1) hv.2
  refine h.trans (Finset.sum_congr rfl fun k hk => ?_)
  rw [get_retain]
  cases hl : t.get k with
  | none => rfl
  | some v => simp [Option.filter, hp k hk]

/-! ## Weights -/

def weigh (f : ν → ℕ) (t : Table κ ν) : ℕ := (t.entries.map fun e => f e.2).sum

variable {f : ν → ℕ} {t : Table κ ν} {k : κ}

lemma weigh_eq_sum (S : Finset κ) (hS : ∀ k ∈ t, k ∈ S) :
    t.weigh f = ∑ k ∈ S, (t.get k).elim 0 f :=
  sum_entries t (fun _ => f) S hS

omit [DecidableEq κ] in
@[simp] lemma weigh_empty : (∅ : Table κ ν).weigh f = 0 := rfl

lemma weigh_erase (f : ν → ℕ) (t : Table κ ν) (k : κ) :
    (t.erase k).weigh f + (t.get k).elim 0 f = t.weigh f := by
  obtain ⟨S, hk, hc⟩ : ∃ S : Finset κ, k ∈ S ∧ ∀ k' ∈ t, k' ∈ S := by
    refine ⟨{k} ∪ t.keys.toFinset, by simp, fun k' hk' => ?_⟩
    exact Finset.mem_union_right _ (mem_toFinset.mpr (AList.mem_keys.mp hk'))
  have hc' : ∀ k' ∈ t.erase k, k' ∈ S := fun k' hk' => hc k' (AList.mem_erase.mp hk').2
  rw [weigh_eq_sum S hc, weigh_eq_sum S hc', ← Finset.add_sum_erase S _ hk,
    ← Finset.add_sum_erase S (fun k => (t.get k).elim 0 f) hk, get_erase, if_pos rfl]
  have hr : ∑ k' ∈ S.erase k, ((t.erase k).get k').elim 0 f
      = ∑ k' ∈ S.erase k, (t.get k').elim 0 f := by
    refine Finset.sum_congr rfl fun k' hk' => ?_
    rw [get_erase, if_neg (Finset.ne_of_mem_erase hk')]
  rw [hr, Option.elim_none]
  omega

lemma weigh_insert (f : ν → ℕ) (t : Table κ ν) (k : κ) (v : ν) :
    (t.insert k v).weigh f + (t.get k).elim 0 f = t.weigh f + f v := by
  have hc : (t.insert k v).weigh f = f v + (t.erase k).weigh f := by
    rw [weigh, AList.entries_insert, map_cons, sum_cons]
    rfl
  have he := weigh_erase f t k
  omega

end

end AList
