import Mathlib.Data.List.Induction
import Mathlib.Tactic.Common

/-!
# Multimaps

A map in which a key may have several values, as the list of its lines.  `getAll` gives the values
of one key in order, and everything else is described by what it does to `getAll`: the order of
lines with different keys has no meaning.
-/

/-- Lines of keys and values, in order; a key may be on several lines. -/
structure MultiMap (κ ν : Type*) where
  lines : List (κ × ν)
  deriving DecidableEq

namespace MultiMap

open List

variable {κ ν : Type*} [DecidableEq κ]

def empty : MultiMap κ ν := ⟨[]⟩

variable (m : MultiMap κ ν)

/-- The values of a key, in the order of its lines. -/
def getAll (k : κ) : List ν := (m.lines.filter fun line => line.1 = k).map Prod.snd

/-- The first value of a key. -/
def get (k : κ) : Option ν := (m.getAll k).head?

def containsKey (k : κ) : Bool := !(m.getAll k).isEmpty

def append (k : κ) (v : ν) : MultiMap κ ν := ⟨m.lines ++ [(k, v)]⟩

/-- All lines of a key go. -/
def remove (k : κ) : MultiMap κ ν := ⟨m.lines.filter fun line => line.1 ≠ k⟩

/-- One value in the place of all others of its key. -/
def insert (k : κ) (v : ν) : MultiMap κ ν := (m.remove k).append k v

def removeAll (ks : List κ) : MultiMap κ ν := ks.foldl remove m

def insertAll (entries : List (κ × ν)) : MultiMap κ ν :=
  entries.foldl (fun m e => m.insert e.1 e.2) m

/-! ## What the operations do to the values of a key -/

lemma getAll_perm {m m' : MultiMap κ ν} (h : m.lines.Perm m'.lines) (k : κ) :
    (m.getAll k).Perm (m'.getAll k) :=
  (h.filter _).map _

lemma getAll_append (k k' : κ) (v : ν) :
    (m.append k v).getAll k' = if k' = k then m.getAll k' ++ [v] else m.getAll k' := by
  unfold append getAll
  by_cases h : k' = k
  · subst h
    simp
  · rw [if_neg h]
    simp [Ne.symm h]

lemma getAll_remove (k k' : κ) :
    (m.remove k).getAll k' = if k' = k then [] else m.getAll k' := by
  unfold remove getAll
  rw [filter_filter]
  by_cases h : k' = k
  · subst h
    simp
  · rw [if_neg h]
    congr 1
    refine filter_congr fun line _ => ?_
    by_cases hl : line.1 = k'
    · simp [hl, h]
    · simp [hl]

lemma remove_of_getAll_eq_nil {k : κ} (h : m.getAll k = []) : m.remove k = m := by
  rw [getAll, map_eq_nil_iff, filter_eq_nil_iff] at h
  have ha : m.lines.filter (fun line => line.1 ≠ k) = m.lines :=
    filter_eq_self.mpr fun line hl => by simpa using h line hl
  rw [remove, ha]

lemma removeAll_of_getAll_eq_nil {ks : List κ} (h : ∀ k ∈ ks, m.getAll k = []) :
    m.removeAll ks = m := by
  induction ks with
  | nil => rfl
  | cons k ks ih =>
    rw [removeAll, foldl_cons, m.remove_of_getAll_eq_nil (h k mem_cons_self)]
    exact ih fun k' hk' => h k' (mem_cons_of_mem k hk')

lemma getAll_insert (k k' : κ) (v : ν) :
    (m.insert k v).getAll k' = if k' = k then [v] else m.getAll k' := by
  rw [insert, getAll_append, getAll_remove]
  split_ifs <;> rfl

lemma getAll_removeAll (ks : List κ) (k : κ) :
    (m.removeAll ks).getAll k = if k ∈ ks then [] else m.getAll k := by
  unfold removeAll
  induction ks generalizing m with
  | nil => simp
  | cons k' ks ih =>
    rw [foldl_cons, ih, getAll_remove]
    by_cases h : k = k'
    · subst h
      simp
    · simp [h]

lemma getAll_insertAll (entries : List (κ × ν)) (k : κ) :
    (m.insertAll entries).getAll k =
      match (entries.filter fun e => e.1 = k).getLast? with
      | some e => [e.2]
      | none => m.getAll k := by
  unfold insertAll
  induction entries using List.reverseRecOn with
  | nil => rfl
  | append_singleton entries e ih =>
    rw [foldl_append, foldl_cons, foldl_nil, getAll_insert, ih, filter_append]
    by_cases h : k = e.1
    · subst h
      simp
    · simp [h, Ne.symm h]

@[simp] lemma containsKey_eq_false_iff {k : κ} :
    m.containsKey k = false ↔ m.getAll k = [] := by
  simp [containsKey]

end MultiMap
