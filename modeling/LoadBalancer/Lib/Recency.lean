import Mathlib.Data.List.Basic

/-!
# Recency in a history

A history is a list of elements in the order in which they were used.  `LastAt l a i` says that `a`
was used last at position `i`, and `UsedBefore l a b` that `b` was used after the last use of `a`.
A store that labels its elements with the position of their last use can compare labels instead of
histories.
-/

namespace Recency

open List

variable {α : Type*} {l : List α} {a b : α} {i j : ℕ}

def LastAt (l : List α) (a : α) (i : ℕ) : Prop :=
  ∃ l₁ l₂, l = l₁ ++ a :: l₂ ∧ a ∉ l₂ ∧ l₁.length = i

def UsedBefore (l : List α) (a b : α) : Prop :=
  ∃ l₁ l₂, l = l₁ ++ b :: l₂ ∧ a ∉ b :: l₂

lemma LastAt.lt_length (h : LastAt l a i) : i < l.length := by
  obtain ⟨l₁, l₂, rfl, -, rfl⟩ := h
  rw [length_append, length_cons]
  omega

lemma lastAt_snoc (l : List α) (a : α) : LastAt (l ++ [a]) a l.length :=
  ⟨l, [], rfl, not_mem_nil, rfl⟩

lemma LastAt.snoc (h : LastAt l a i) (hne : a ≠ b) : LastAt (l ++ [b]) a i := by
  obtain ⟨l₁, l₂, rfl, hl, hi⟩ := h
  refine ⟨l₁, l₂ ++ [b], by simp, ?_, hi⟩
  rw [mem_append, mem_singleton]
  exact fun hm => hm.elim hl hne

lemma usedBefore_snoc (hne : a ≠ b) : UsedBefore (l ++ [b]) a b :=
  ⟨l, [], rfl, fun hm => hne (mem_singleton.mp hm)⟩

lemma not_usedBefore_snoc : ¬ UsedBefore (l ++ [a]) a b := by
  rintro ⟨l₁, l₂, heq, hn⟩
  have hl := congrArg List.getLast? heq
  rw [List.getLast?_concat, List.getLast?_append_of_ne_nil _ (cons_ne_nil b l₂)] at hl
  exact hn (mem_of_getLast? hl.symm)

lemma LastAt.unique (ha : LastAt l a i) (hb : LastAt l b i) : a = b := by
  obtain ⟨l₁, l₂, rfl, -, rfl⟩ := ha
  obtain ⟨l₁', l₂', heq, -, hl⟩ := hb
  exact (List.cons.inj (append_inj heq hl.symm).2).1

lemma LastAt.usedBefore (ha : LastAt l a i) (hb : LastAt l b j) (hlt : i < j) :
    UsedBefore l a b := by
  obtain ⟨l₁, l₂, heq, hl, rfl⟩ := ha
  obtain ⟨l₁', l₂', rfl, -, rfl⟩ := hb
  refine ⟨l₁', l₂', rfl, fun hme => hl ?_⟩
  -- the last use of `b` stands behind the last use of `a`, and with it what follows
  rcases append_eq_append_iff.mp heq with ⟨more, rfl, -⟩ | ⟨more, rfl, hm⟩
  · rw [length_append] at hlt
    omega
  · cases more with
    | nil => simp at hlt
    | cons c mid =>
      obtain ⟨-, rfl⟩ := List.cons.inj hm
      exact mem_append_right mid hme

end Recency
