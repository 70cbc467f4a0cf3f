import Mathlib.Algebra.Group.Nat.Defs
import Mathlib.Order.Lattice
import Mathlib.Algebra.Order.Group.Int

/-!
# Integer operations of the source language

The saturating, clamping and rounding operations of Rust's integers, over `Int` and `Nat`.
-/

namespace Arith

/-- `value.clamp(lo, hi)` on integers, where the lower bound does not exceed the upper one. -/
def clamp (value lo hi : Int) : Int := max lo (min value hi)

/-- A clamped value is between its bounds. -/
theorem clamp_mem (value : Int) {lo hi : Int} (h : lo ≤ hi) :
    lo ≤ clamp value lo hi ∧ clamp value lo hi ≤ hi :=
  ⟨le_max_left _ _, max_le h (min_le_right _ _)⟩

/-- `a.saturating_add(b)` on unsigned integers of `bits` bits: the sum, or the largest of them where
that is too small for it. -/
def saturatingAdd (bits a b : Nat) : Nat := min (a + b) (2 ^ bits - 1)

end Arith
