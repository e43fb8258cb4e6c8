import Mathlib.Tactic.SplitIfs

/-!
# Computations that can fail

What it takes for an `Except` computation to succeed, one lemma for each way such a computation
is put together: a sequence succeeds when both parts do, a guard when it does not fire.  With
them a parser written with `do` is taken apart by `simp only`, in either direction.
-/

namespace Except

open List

variable {ε : Type*} {α β : Type}

variable {x : Except ε α} {f : α → Except ε β}

lemma bind_eq_ok_iff {b : β} : (x >>= f) = .ok b ↔ ∃ a, x = .ok a ∧ f a = .ok b := by
  cases x with
  | error e =>
    constructor
    · intro h
      cases h
    · rintro ⟨a, h, -⟩
      cases h
  | ok a =>
    constructor
    · intro h
      exact ⟨a, rfl, h⟩
    · rintro ⟨a', h, hf⟩
      cases h
      exact hf

lemma seq_eq_ok_iff {x : Except ε Unit} {f : Unit → Except ε β} {b : β} :
    (x >>= f) = .ok b ↔ x = .ok () ∧ f () = .ok b :=
  bind_eq_ok_iff.trans ⟨fun ⟨_, hx, hf⟩ => ⟨hx, hf⟩, fun ⟨hx, hf⟩ => ⟨(), hx, hf⟩⟩

lemma ite_error_eq_ok_iff {c : Prop} [Decidable c] {e : ε} {a : α} :
    (if c then .error e else x) = .ok a ↔ ¬ c ∧ x = .ok a := by
  split_ifs with h
  · simp [h]
  · simp [h]

@[simp] lemma mapError_eq_ok_iff {ε' : Type*} {f : ε → ε'} {a : α} :
    x.mapError f = .ok a ↔ x = .ok a := by
  cases x <;> simp [Except.mapError]

lemma mapM_eq_ok_map {g : α → β} :
    ∀ {l : List α}, (∀ a ∈ l, f a = .ok (g a)) → l.mapM f = .ok (l.map g)
  | [], _ => rfl
  | a :: l, h => by
      rw [mapM_cons, h a (mem_cons_self ..), mapM_eq_ok_map fun b hb => h b (mem_cons_of_mem _ hb)]
      rfl

lemma exists_mapM_eq_ok :
    ∀ {l : List α}, (∀ a ∈ l, ∃ b, f a = .ok b) → ∃ bs, l.mapM f = .ok bs
  | [], _ => ⟨[], rfl⟩
  | a :: l, h => by
      obtain ⟨b, hb⟩ := h a (mem_cons_self ..)
      obtain ⟨bs, hbs⟩ := exists_mapM_eq_ok fun a ha => h a (mem_cons_of_mem _ ha)
      rw [mapM_cons, hb, hbs]
      exact ⟨b :: bs, rfl⟩

lemma mem_of_mapM_eq_ok :
    ∀ {l : List α} {bs : List β}, l.mapM f = .ok bs →
      (∀ a ∈ l, ∃ b ∈ bs, f a = .ok b) ∧ ∀ b ∈ bs, ∃ a ∈ l, f a = .ok b
  | [], bs, h => by
      cases h
      simp
  | a :: l, bs, h => by
      rw [mapM_cons] at h
      obtain ⟨b, hb, h⟩ := bind_eq_ok_iff.mp h
      obtain ⟨bs', hbs', h⟩ := bind_eq_ok_iff.mp h
      cases h
      obtain ⟨hl, hr⟩ := mem_of_mapM_eq_ok hbs'
      constructor
      · refine forall_mem_cons.mpr ⟨⟨b, mem_cons_self, hb⟩, fun a' ha' => ?_⟩
        obtain ⟨b', hb', hf⟩ := hl a' ha'
        exact ⟨b', mem_cons_of_mem _ hb', hf⟩
      · refine forall_mem_cons.mpr ⟨⟨a, mem_cons_self, hb⟩, fun b' hb' => ?_⟩
        obtain ⟨a', ha', hf⟩ := hr b' hb'
        exact ⟨a', mem_cons_of_mem _ ha', hf⟩

/-- What the results have in common with their elements, in order. -/
lemma map_of_mapM_eq_ok {γ : Type*} {g : α → γ} {g' : β → γ}
    (hg : ∀ a b, f a = .ok b → g' b = g a) :
    ∀ {l : List α} {bs : List β}, l.mapM f = .ok bs → bs.map g' = l.map g
  | [], bs, h => by
      cases h
      rfl
  | a :: l, bs, h => by
      rw [mapM_cons] at h
      obtain ⟨b, hb, h⟩ := bind_eq_ok_iff.mp h
      obtain ⟨bs', hbs', h⟩ := bind_eq_ok_iff.mp h
      cases h
      rw [map_cons, map_cons, hg a b hb, map_of_mapM_eq_ok hg hbs']

lemma forM_eq_ok_iff {f : α → Except ε PUnit} :
    ∀ {l : List α}, l.forM f = .ok () ↔ ∀ a ∈ l, f a = .ok ()
  | [] => by simp [List.forM, pure, Except.pure]
  | a :: l => by
      rw [List.forM, seq_eq_ok_iff, forM_eq_ok_iff, forall_mem_cons]

end Except
