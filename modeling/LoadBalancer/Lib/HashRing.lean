import Mathlib.Data.List.Rotate
import Mathlib.Data.List.Sort

/-!
# Points on a ring

Points have a key and are sorted by it, those of equal keys in the order in which they were given.
A search from a target visits the points from the first one at or after the target, around the ring.

Leaving points out commutes with all of this: a stable sort, the place of the target and the way
around.  So a search that skips points finds what a search that skips nothing finds on a ring made
of the others alone (`find?_around`).
-/

namespace HashRing

open List

variable {κ β : Type*} [LinearOrder κ] (key : β → κ)

def ring (points : List β) : List β := points.mergeSort fun a b => key a ≤ key b

def around (points : List β) (target : κ) : List β :=
  points.rotate (points.takeWhile fun x => key x < target).length

variable {key}

/-! ## Sorted points and a target -/

section

variable {points : List β} (hs : points.Pairwise fun a b => key a ≤ key b) (target : κ)
include hs

lemma takeWhile_eq_filter :
    points.takeWhile (fun x => key x < target) = points.filter fun x => key x < target := by
  induction points with
  | nil => rfl
  | cons a points ih =>
    rw [pairwise_cons] at hs
    by_cases ha : key a < target
    · simp [ha, ih hs.2]
    · have hn : points.filter (fun x => decide (key x < target)) = [] := by
        refine filter_eq_nil_iff.mpr fun b hb => ?_
        simpa using (not_lt.mp ha).trans (hs.1 b hb)
      simp [ha, hn]

lemma dropWhile_eq_filter :
    points.dropWhile (fun x => key x < target)
      = points.filter fun x => !decide (key x < target) := by
  induction points with
  | nil => rfl
  | cons a points ih =>
    rw [pairwise_cons] at hs
    by_cases ha : key a < target
    · simp [ha, ih hs.2]
    · have hal : points.filter (fun x => !decide (key x < target)) = points := by
        refine filter_eq_self.mpr fun b hb => ?_
        simpa using (not_lt.mp ha).trans (hs.1 b hb)
      simp [ha, hal]

/-- A search visits the points that are not before the target, and then the others. -/
lemma around_eq : around key points target
    = points.filter (fun x => !decide (key x < target)) ++
      points.filter fun x => key x < target := by
  have ht : (points.takeWhile fun x => key x < target) <+: points := takeWhile_prefix _
  rw [around, rotate_eq_drop_append_take ht.length_le, ← takeWhile_eq_filter hs,
    ← dropWhile_eq_filter hs]
  congr 1
  · have ha : points = points.takeWhile (fun x => key x < target) ++
        points.dropWhile fun x => key x < target := takeWhile_append_dropWhile.symm
    exact (congrArg (List.drop _) ha).trans drop_left
  · exact (prefix_iff_eq_take.mp ht).symm

lemma filter_around (p : β → Bool) :
    (around key points target).filter p = around key (points.filter p) target := by
  rw [around_eq hs, around_eq (hs.sublist filter_sublist), filter_append,
    filter_filter, filter_filter, filter_filter, filter_filter]
  simp only [Bool.and_comm]

end

/-! ## Stable sorting -/

variable (key)

lemma le_trans_key (a b c : β) (h : decide (key a ≤ key b) = true)
    (h' : decide (key b ≤ key c) = true) : decide (key a ≤ key c) = true := by
  simp only [decide_eq_true_eq] at h h' ⊢
  exact h.trans h'

lemma le_total_key (a b : β) : (decide (key a ≤ key b) || decide (key b ≤ key a)) = true := by
  simpa using le_total (key a) (key b)

lemma sorted_ring (points : List β) : (ring key points).Pairwise fun a b => key a ≤ key b := by
  have hs := pairwise_mergeSort (le_trans_key key) (le_total_key key) points
  simpa [ring] using hs

/-- A point given first is put in front of all that do not come strictly before it. -/
lemma ring_cons (a : β) (points : List β) :
    ring key (a :: points) = (ring key points).filter (fun x => key x < key a) ++
      a :: (ring key points).filter fun x => !decide (key x < key a) := by
  obtain ⟨before, after, hc, hr, hb⟩ :=
    mergeSort_cons (le_trans_key key) (le_total_key key) a points
  have hs := sorted_ring key (a :: points)
  rw [ring, hc, pairwise_append, pairwise_cons] at hs
  have ha : ∀ b ∈ after, key a ≤ key b := hs.2.1.1
  have hlt : ∀ b ∈ before, key b < key a := by simpa using hb
  rw [ring, ring, hc, hr, filter_append, filter_append, filter_eq_self.mpr (by simpa using hlt),
    filter_eq_nil_iff.mpr (by simpa using ha),
    filter_eq_nil_iff.mpr (by simpa using hlt),
    filter_eq_self.mpr (by simpa using ha), append_nil, nil_append]

/-- **Stable sorting** commutes with leaving points out. -/
lemma filter_ring (p : β → Bool) (points : List β) :
    (ring key points).filter p = ring key (points.filter p) := by
  induction points with
  | nil => simp [ring]
  | cons a points ih =>
    have hc : ∀ q : β → Bool,
        ((ring key points).filter q).filter p = (ring key (points.filter p)).filter q := by
      intro q
      rw [← ih, filter_filter, filter_filter]
      simp only [Bool.and_comm]
    rw [ring_cons, filter_append, hc, filter_cons, hc]
    cases hp : p a with
    | true => rw [if_pos rfl, filter_cons_of_pos hp, ring_cons]
    | false =>
      have hs := sorted_ring key (points.filter p)
      rw [if_neg Bool.false_ne_true, filter_cons_of_neg (by simp [hp]),
        ← takeWhile_eq_filter hs, ← dropWhile_eq_filter hs,
        takeWhile_append_dropWhile]

/-- **Skipping points** on a ring is searching the ring of the others. -/
theorem find?_around (p : β → Bool) (points : List β) (target : κ) :
    (around key (ring key points) target).find? p
      = (around key (ring key (points.filter p)) target).head? := by
  rw [← List.head?_filter, filter_around (sorted_ring key points), filter_ring]

end HashRing
