import Mathlib.Data.Nat.Notation
import Mathlib.Logic.Function.Basic

/-!
# Shared mutable objects

Objects that several owners hold pointers to, as cells of an arena: a pointer is a number, and
what it points to is read from the arena.  Two copies of one pointer see each other's writes,
and a pointer outlives the structure it was taken from.  Pointers below `next` have been handed
out.
-/

structure Arena (α : Type*) where
  read : ℕ → α
  next : ℕ

namespace Arena

variable {α : Type*} (m : Arena α)

def empty [Inhabited α] : Arena α := ⟨fun _ => default, 0⟩

def alloc (a : α) : ℕ × Arena α := (m.next, ⟨Function.update m.read m.next a, m.next + 1⟩)

def modify (r : ℕ) (f : α → α) : Arena α :=
  { m with read := Function.update m.read r (f (m.read r)) }

@[simp] lemma alloc_fst (a : α) : (m.alloc a).1 = m.next := rfl

@[simp] lemma read_modify_self (r : ℕ) (f : α → α) : (m.modify r f).read r = f (m.read r) :=
  Function.update_self ..

lemma read_modify_of_ne {r r' : ℕ} (h : r' ≠ r) (f : α → α) :
    (m.modify r f).read r' = m.read r' := Function.update_of_ne h ..

@[simp] lemma read_alloc_self (a : α) : (m.alloc a).2.read m.next = a := Function.update_self ..

lemma read_alloc_of_lt {r : ℕ} (h : r < m.next) (a : α) : (m.alloc a).2.read r = m.read r :=
  Function.update_of_ne (Nat.ne_of_lt h) ..

lemma modify_induction {β : Type*} {g : α → β} {f : α → α} (h : ∀ a, g (f a) = g a) (r r' : ℕ) :
    g ((m.modify r f).read r') = g (m.read r') := by
  by_cases hr : r' = r
  · rw [hr, read_modify_self, h]
  · rw [read_modify_of_ne m hr]

end Arena
