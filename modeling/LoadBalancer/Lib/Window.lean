import Mathlib
import LoadBalancer.Lib.Run

/-!
# Sliding windows

A limiter with a sliding window keeps an amount for each instant of its clock and admits a call
when the amounts of the last `w` instants add up to less than a limit.  If an admitted call adds at
least one to the amount of its own instant, and no call lowers an amount that the window can still
see, then the calls admitted in *any* `w` consecutive instants are at most the limit.
-/

namespace Window

open List

abbrev Call := ℕ × Bool

/-- The first instant of the window that ends at `now`. -/
def start (now w : ℕ) : ℕ := now - (w - 1)

def Step (w limit : ℕ) (f : ℕ → ℕ) (call : Call) (f' : ℕ → ℕ) : Prop :=
  (∀ t, start call.1 w ≤ t → f t + (if call.2 = true ∧ call.1 = t then 1 else 0) ≤ f' t) ∧
    (call.2 = true → ∑ t ∈ Finset.Icc (start call.1 w) call.1, f t < limit)

def admitted (calls : List Call) : List ℕ := (calls.filter fun call => call.2).map Prod.fst

section

variable {w limit : ℕ} {f₀ f : ℕ → ℕ} {calls : List Call}

lemma admitted_snoc (calls : List Call) (call : Call) :
    admitted (calls ++ [call]) = admitted calls ++ if call.2 then [call.1] else [] := by
  rw [admitted, filter_append, map_append, filter_singleton]
  cases call.2 <;> rfl

variable {now : ℕ} (hrun : Run (Step w limit) f₀ calls f)

lemma Step.of_le {f' : ℕ → ℕ} (h : ∀ t, start now w ≤ t → f t ≤ f' t) :
    Step w limit f (now, false) f' :=
  ⟨fun t ht => by simpa using h t ht, nofun⟩

include hrun

/-- The amounts cover the admitted calls, at every instant that the window at `now` sees. -/
lemma count_admitted_le {t : ℕ} (hc : ∀ call ∈ calls, call.1 ≤ now) (ht : start now w ≤ t) :
    (admitted calls).count t ≤ f t := by
  induction hrun with
  | start => exact Nat.zero_le _
  | @next calls f f' call _ hs ih =>
    rw [forall_mem_append, forall_mem_singleton] at hc
    have ho := ih hc.1
    have hn := hs.1 t ((Nat.sub_le_sub_right hc.2 _).trans ht)
    have hco : (if call.2 then [call.1] else []).count t
        = if call.2 = true ∧ call.1 = t then 1 else 0 := by
      cases call.2 <;> simp [count_singleton']
    rw [admitted_snoc, count_append, hco]
    omega

/-- The limiter at `now` sees the admitted calls of every window that is still open. -/
lemma length_filter_admitted_le {t : ℕ} (hc : ∀ call ∈ calls, call.1 ≤ now)
    (ho : now < t + w) :
    ((admitted calls).filter fun a => t ≤ a ∧ a < t + w).length
      ≤ ∑ a ∈ Finset.Icc (start now w) now, f a :=
  calc ((admitted calls).filter fun a => t ≤ a ∧ a < t + w).length
      ≤ ((admitted calls).filter (· ∈ Finset.Icc (start now w) now)).length := by
        rw [← countP_eq_length_filter, ← countP_eq_length_filter]
        refine countP_mono_left fun a ha hw => ?_
        obtain ⟨call, hca, rfl⟩ := mem_map.mp ha
        have hle := hc call (mem_of_mem_filter hca)
        simp only [decide_eq_true_eq, Finset.mem_Icc, start] at hw ⊢
        omega
    _ ≤ ∑ a ∈ Finset.Icc (start now w) now, f a := by
        rw [← sum_count_eq_length_filter]
        exact Finset.sum_le_sum fun a ha =>
          count_admitted_le hrun hc (Finset.mem_Icc.mp ha).1

/-- **Any window.** -/
theorem admitted_le (hc : calls.Pairwise fun call call' => call.1 ≤ call'.1) (t : ℕ) :
    ((admitted calls).filter fun a => t ≤ a ∧ a < t + w).length ≤ limit := by
  induction hrun with
  | start => exact Nat.zero_le _
  | @next calls f f' call hrun hs ih =>
    rw [pairwise_append] at hc
    have hp : ∀ call' ∈ calls, call'.1 ≤ call.1 := fun call' hc' =>
      hc.2.2 call' hc' call (mem_singleton_self call)
    rw [admitted_snoc, filter_append, length_append]
    by_cases hin : call.2 = true ∧ t ≤ call.1 ∧ call.1 < t + w
    · -- the window holds this call, so the limiter saw every earlier one in it
      have hse : ((admitted calls).filter fun a => t ≤ a ∧ a < t + w).length < limit :=
        (length_filter_admitted_le hrun hp hin.2.2).trans_lt (hs.2 hin.1)
      have ho : (List.filter (fun a => t ≤ a ∧ a < t + w)
          (if call.2 then [call.1] else [])).length ≤ 1 := by
        rw [if_pos hin.1]
        exact length_filter_le _ _
      omega
    · have hn : List.filter (fun a => t ≤ a ∧ a < t + w)
          (if call.2 then [call.1] else []) = [] := by
        rw [filter_eq_nil_iff]
        intro a ha
        split_ifs at ha with had
        · obtain rfl := mem_singleton.mp ha
          simpa using fun h1 h2 => hin ⟨had, h1, h2⟩
        · cases ha
      rw [hn]
      exact ih hc.1

end

end Window
