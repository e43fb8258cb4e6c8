import Mathlib.Tactic.Lemma
import Mathlib.Tactic.TypeStar

/-!
# Equality tests that need not be reflexive

A derived `==` compares field by field, and on a number format it may say that a value is not equal
to itself.  It is still to be trusted when it says yes.
-/

/-- What `==` calls equal is equal. -/
class SoundBEq (α : Type*) [BEq α] : Prop where
  eq_of_beq : ∀ {a b : α}, (a == b) = true → a = b

namespace SoundBEq

variable {α : Type*} [BEq α]

instance [LawfulBEq α] : SoundBEq α := ⟨LawfulBEq.eq_of_beq⟩

lemma eq_of_bne_eq_false [SoundBEq α] {a b : α} (h : (a != b) = false) : a = b :=
  eq_of_beq (by simpa [bne] using h)

instance [SoundBEq α] : SoundBEq (Option α) where
  eq_of_beq {a b} h := by
    cases a <;> cases b
    · rfl
    · cases h
    · cases h
    · exact congrArg some (eq_of_beq h)

instance [SoundBEq α] : SoundBEq (List α) where
  eq_of_beq {a b} h := by
    induction a generalizing b with
    | nil =>
      cases b with
      | nil => rfl
      | cons y ys => cases h
    | cons x xs ih =>
      cases b with
      | nil => cases h
      | cons y ys =>
        rw [List.cons_beq_cons, Bool.and_eq_true] at h
        rw [eq_of_beq h.1, ih h.2]

end SoundBEq
