import LoadBalancer.Lib.Choice

/-!
# Rotation by a counter

A counter taken modulo a period goes through all residues in any window as long as the period,
wherever the window starts.  So a function of the residue takes each value as often in every such
window, and a draw by weights with the counter as its number draws every element exactly as often
as it weighs.

Several callers of one counter may hold their numbers for a while before they use them.
`window_perm` is what is left of the order then.
-/

namespace Rotation

open List

variable {α β : Type*}

/-- What a counter gives that starts at `start`, with a number used `period` times. -/
def window (f : ℕ → β) (period start : ℕ) : List β :=
  (List.range' start period).map fun k => f (k % period)

/-- **Where a window starts makes no difference.** -/
lemma count_window [BEq β] [LawfulBEq β] (f : ℕ → β) (period start : ℕ) (b : β)
    [hde : DecidablePred fun k => f k = b] :
    (window f period start).count b = Nat.count (fun k => f k = b) period := by
  have hd : DecidablePred fun k => f (k % period) = b := fun k => hde (k % period)
  have hp : Function.Periodic (fun k => f (k % period) = b) period := by
    intro k
    simp only [Nat.add_mod_right]
  have hb : Nat.count (fun k => f (k % period) = b) period
      = Nat.count (fun k => f k = b) period := by
    rw [Nat.count_eq_card_filter_range, Nat.count_eq_card_filter_range]
    refine congrArg _ (Finset.filter_congr fun k hk => ?_)
    rw [Nat.mod_eq_of_lt (Finset.mem_range.mp hk)]
  have hc : (window f period start).count b
      = ((List.range' start period).filter fun k => f (k % period) = b).length := by
    rw [window, count_eq_countP, countP_map, countP_eq_length_filter]
    refine congrArg _ (filter_congr fun k _ => ?_)
    rw [Function.comp_apply, Bool.eq_iff_iff, beq_iff_eq, decide_eq_true_iff]
  rw [hc, ← hb, ← Nat.filter_Ico_card_eq_of_periodic start period _ hp,
    Nat.Ico_eq_range', Nat.add_sub_cancel_left]
  rfl

/-! ## Draws by weight -/

lemma pickByWeight_eq_none_iff : ∀ {l : List (α × ℕ)} {k : ℕ},
    pickByWeight l k = none ↔ (l.map fun y => y.2).sum ≤ k
  | [], k => by simp [pickByWeight]
  | (y, weight) :: l, k => by
    rw [pickByWeight, map_cons, sum_cons]
    by_cases hlt : k < weight
    · rw [if_pos hlt]
      exact iff_of_false (Option.some_ne_none y) (by omega)
    · rw [if_neg hlt, pickByWeight_eq_none_iff]
      omega

lemma count_pickByWeight_none (l : List (α × ℕ)) (n : ℕ) :
    Nat.count (fun k => pickByWeight l k = none) n = n - (l.map fun y => y.2).sum := by
  induction n with
  | zero => rw [Nat.count_zero, Nat.zero_sub]
  | succ n ih =>
    rw [Nat.count_succ, ih]
    simp only [pickByWeight_eq_none_iff]
    split_ifs <;> omega

variable [DecidableEq α]

def weightOf (x : α) (l : List (α × ℕ)) : ℕ := ((l.filter fun y => y.1 = x).map fun y => y.2).sum

lemma weightOf_cons (x y : α) (weight : ℕ) (l : List (α × ℕ)) :
    weightOf x ((y, weight) :: l) = (if y = x then weight else 0) + weightOf x l := by
  unfold weightOf
  by_cases h : y = x <;> simp [h]

lemma weightOf_eq {x : α} {weight : ℕ} {l : List (α × ℕ)} (hn : (l.map fun y => y.1).Nodup)
    (hm : (x, weight) ∈ l) : weightOf x l = weight := by
  induction l with
  | nil => cases hm
  | cons y l ih =>
    obtain ⟨y, w⟩ := y
    obtain ⟨hy, hn⟩ := nodup_cons.mp hn
    rw [weightOf_cons]
    rcases mem_cons.mp hm with heq | hm
    · cases heq
      have hr : l.filter (fun y => y.1 = x) = [] := by
        rw [filter_eq_nil_iff]
        intro z hz hzx
        exact hy (mem_map.mpr ⟨z, hz, of_decide_eq_true hzx⟩)
      rw [if_pos rfl, weightOf, hr]
      rfl
    · have hne : y ≠ x := by
        rintro rfl
        exact hy (mem_map.mpr ⟨_, hm, rfl⟩)
      rw [if_neg hne, zero_add, ih hn hm]

/-- The numbers that draw `x` are as many as it weighs; those from the sum of all weights on draw
nothing. -/
lemma count_pickByWeight (x : α) : ∀ (l : List (α × ℕ)) {n : ℕ}, (l.map fun y => y.2).sum ≤ n →
    Nat.count (fun k => pickByWeight l k = some x) n = weightOf x l
  | [], n, _ => by
    have hn : ∀ k < n, ¬ pickByWeight ([] : List (α × ℕ)) k = some x := by simp [pickByWeight]
    rw [Nat.count_iff_forall_not.mpr hn]
    rfl
  | (y, weight) :: l, n, h => by
    rw [map_cons, sum_cons] at h
    obtain ⟨m, rfl⟩ := Nat.exists_eq_add_of_le (Nat.le_of_add_right_le h)
    have ht : Nat.count (fun k => pickByWeight ((y, weight) :: l) (weight + k) = some x) m
        = weightOf x l := by
      rw [← count_pickByWeight x l (Nat.add_le_add_iff_left.mp h)]
      simp [pickByWeight]
    have hh : Nat.count (fun k => pickByWeight ((y, weight) :: l) k = some x) weight
        = if y = x then weight else 0 := by
      split_ifs with hyx
      · exact Nat.count_iff_forall.mpr fun k hk => by simp [pickByWeight, hk, hyx]
      · exact Nat.count_iff_forall_not.mpr fun k hk => by simp [pickByWeight, hk, hyx]
    rw [Nat.count_add, hh, ht, weightOf_cons]

/-- **Exact over every window**: each element is drawn as often as it weighs. -/
theorem count_draws (l : List (α × ℕ)) {period : ℕ} (h : (l.map fun y => y.2).sum ≤ period)
    (start : ℕ) (x : α) :
    (window (pickByWeight l) period start).count (some x) = weightOf x l := by
  rw [count_window, count_pickByWeight x l h]

/-! ## Numbers that are used in another order -/

/-- Every number of a window has been used once, each as `f` says. -/
lemma window_perm {used : List (ℕ × β)} {f : ℕ → β} {period start : ℕ}
    (huse : ∀ u ∈ used, u.2 = f (u.1 % period))
    (ho : ∀ k, start ≤ k → k < start + period → (used.map fun u => u.1).count k = 1) :
    ((used.filter fun u => start ≤ u.1 ∧ u.1 < start + period).map fun u => u.2).Perm
      (window f period start) := by
  have hke : ((used.filter fun u => start ≤ u.1 ∧ u.1 < start + period).map fun u => u.1).Perm
      (List.range' start period) := by
    have hf : (used.filter fun u => start ≤ u.1 ∧ u.1 < start + period).map (fun u => u.1)
        = (used.map fun u => u.1).filter fun k => start ≤ k ∧ k < start + period := by
      rw [filter_map]
      rfl
    rw [hf, perm_iff_count]
    intro k
    by_cases hk : start ≤ k ∧ k < start + period
    · rw [count_filter (by simpa using hk), ho k hk.1 hk.2,
        count_eq_one_of_mem nodup_range' (by simpa [mem_range'_1] using hk)]
    · rw [count_eq_zero.mpr (by simp [hk]), count_eq_zero.mpr]
      rwa [mem_range'_1]
  have hus : (used.filter fun u => start ≤ u.1 ∧ u.1 < start + period).map (fun u => u.2)
      = ((used.filter fun u => start ≤ u.1 ∧ u.1 < start + period).map fun u => u.1).map
          fun k => f (k % period) := by
    rw [map_map]
    exact map_congr_left fun u hu => huse u (mem_of_mem_filter hu)
  rw [hus]
  exact hke.map _

end Rotation
