import Mathlib.Data.List.Basic
import Mathlib.Tactic.Common

/-!
# Calls and what is noted about them

A book lists calls and notes in the order in which they are made.  It is kept if every call is
followed, before the next one, by the notes about it, and there are no other notes.
-/

namespace Bookkeeping

inductive Entry (κ ε : Type*)
  | call (k : κ)
  | note (k : κ) (e : ε)

variable {κ ε : Type*} {P : κ → List ε → Prop} {book later : List (Entry κ ε)}

/-- Every call is followed by the notes about it, which satisfy `P`, and by nothing else until the
next call. -/
inductive Kept (P : κ → List ε → Prop) : List (Entry κ ε) → Prop
  | nil : Kept P []
  | call {k : κ} {notes : List ε} {rest : List (Entry κ ε)} (hnotes : P k notes)
    (hrest : Kept P rest) : Kept P (.call k :: (notes.map (.note k) ++ rest))

lemma Kept.append (h : Kept P book) (h' : Kept P later) : Kept P (book ++ later) := by
  induction h with
  | nil => exact h'
  | call hn _ ih =>
    rw [List.cons_append, List.append_assoc]
    exact .call hn ih

lemma Kept.single {k : κ} {notes : List ε} (h : P k notes) :
    Kept P (.call k :: notes.map (.note k)) := by
  simpa using Kept.call h .nil

end Bookkeeping
