import Mathlib.Algebra.Order.Ring.Rat
import Mathlib.Data.Nat.Notation
import LoadBalancer.Lib.PartialEq

/-!
# Floating-point settings

The values of a binary floating-point number as they are compared with constants: a rational
number, one of the infinities, or not a number.  Every comparison with the last is false, so that
`x < q` and `q ≤ x` can both fail, and it is not even equal to itself.
-/

inductive Float64
  | finite (q : ℚ)
  | infinite (negative : Bool)
  | nan
  deriving DecidableEq, Inhabited

namespace Float64

/-- How a number compares with a constant, if it does. -/
def compareWith : Float64 → ℚ → Option Ordering
  | finite x, q => some (compare x q)
  | infinite negative, _ => some (if negative then .lt else .gt)
  | nan, _ => none

def lt (x : Float64) (q : ℚ) : Bool := x.compareWith q = some .lt

def gt (x : Float64) (q : ℚ) : Bool := x.compareWith q = some .gt

def le (x : Float64) (q : ℚ) : Bool := x.lt q || x.compareWith q = some .eq

def ge (x : Float64) (q : ℚ) : Bool := x.gt q || x.compareWith q = some .eq

/-- `(a..=b).contains(&x)`. -/
def within (x : Float64) (a b : ℚ) : Bool := x.ge a && x.le b

instance : BEq Float64 where
  beq
    | finite x, finite y => x = y
    | infinite x, infinite y => x = y
    | _, _ => false

instance : SoundBEq Float64 where
  eq_of_beq {a b} h := by
    cases a <;> cases b
    case finite.finite x y => exact congrArg finite (of_decide_eq_true h)
    case infinite.infinite x y => exact congrArg infinite (of_decide_eq_true h)
    all_goals cases h

def toRat : Float64 → Option ℚ
  | finite q => some q
  | _ => none

end Float64
