import Mathlib.Algebra.Order.Field.Rat
import Mathlib.Algebra.Order.AbsoluteValue.Basic
import Mathlib.Data.Rat.Floor

/-!
# Scalars: one definition for every arithmetic

A program over floating-point numbers is written once, over any type with the operations it uses.
Nothing is assumed of them, so what is proved for every `Scalar` holds of machine floats too. The
rationals are the instance for exact arithmetic, and the one to compute with.
-/

/-- The operations of a floating-point type that a program uses. Definitions over it are generic,
and theorems say which instance they speak of. -/
class Scalar (α : Type) extends Add α, Sub α, Mul α, Div α, Neg α, LT α, LE α, OfScientific α,
    IntCast α where
  abs : α → α
  decidableLT : DecidableLT α
  decidableLE : DecidableLE α

namespace Scalar

attribute [reducible, instance] decidableLT decidableLE

/-- `x.clamp(lo, hi)`, by the comparisons that the standard library makes. -/
def clamp {α : Type} [Scalar α] (x lo hi : α) : α :=
  let x := if x < lo then lo else x
  if hi < x then hi else x

instance : Scalar ℚ where
  abs x := |x|
  decidableLT := inferInstance
  decidableLE := inferInstance

/-- The scalars with `x.round()`, as an integer. -/
class Rounding (α : Type) [Scalar α] where
  round : α → Int

/-- Halves are rounded away from zero. -/
instance : Rounding ℚ where
  round x := if 0 ≤ x then ⌊x + 1 / 2⌋ else ⌈x - 1 / 2⌉

/-- A floating-point value as a program may be handed one. -/
inductive Extended (α : Type) where
  | nan
  | negInfinity
  | finite (x : α)
  | infinity
  deriving DecidableEq

end Scalar
