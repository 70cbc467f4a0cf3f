import Motorball.Library.Scalar
import Mathlib.Tactic.Linarith
import Mathlib.Tactic.NormNum

/-!
# Exact arithmetic: clamping and rounding

What the scalar operations do over the rationals. Clamping keeps a value between its bounds, keeps
the order, and takes no value further from one inside the bounds. Rounding is off by at most a half
and keeps the order.
-/

namespace Scalar

/-! ## Clamping -/

section Clamp

variable {lo hi : ℚ} (h : lo ≤ hi)
include h

/-- Clamping by comparisons is clamping by minimum and maximum, when the bounds are in order. -/
theorem clamp_eq (x : ℚ) : clamp x lo hi = max lo (min x hi) := by
  simp only [clamp]
  split
  next below =>
    rw [if_neg (not_lt.mpr h), max_eq_left ((min_le_left _ _).trans below.le)]
  next inside =>
    split
    next above => rw [min_eq_right above.le, max_eq_right h]
    next within => rw [min_eq_left (not_lt.mp within), max_eq_right (not_lt.mp inside)]

/-- A clamped value is between its bounds. -/
theorem clamp_mem (x : ℚ) : lo ≤ clamp x lo hi ∧ clamp x lo hi ≤ hi := by
  rw [clamp_eq h]
  exact ⟨le_max_left _ _, max_le h (min_le_right _ _)⟩

/-- Clamping keeps the order. -/
theorem clamp_mono {x y : ℚ} (le : x ≤ y) : clamp x lo hi ≤ clamp y lo hi := by
  rw [clamp_eq h, clamp_eq h]
  exact max_le_max le_rfl (min_le_min le le_rfl)

/-- Clamping does not take a value further from one between the bounds. -/
theorem clamp_near (x : ℚ) {y : ℚ} (lower : lo ≤ y) (upper : y ≤ hi) :
    |clamp x lo hi - y| ≤ |x - y| := by
  rw [clamp_eq h]
  rcases le_total x hi with below | above
  · rw [min_eq_left below]
    rcases le_total lo x with inside | outside
    · rw [max_eq_right inside]
    · rw [max_eq_left outside, abs_of_nonpos (by linarith), abs_of_nonpos (by linarith)]
      linarith
  · rw [min_eq_right above, max_eq_right h, abs_of_nonneg (by linarith),
      abs_of_nonneg (by linarith)]
    linarith

/-- Clamping takes no two values further apart: a step is at most as large after clamping as
before. -/
theorem clamp_sub_clamp {x y : ℚ} (le : x ≤ y) : clamp y lo hi - clamp x lo hi ≤ y - x := by
  rw [clamp_eq h, clamp_eq h]
  rcases le_total y hi with below | above
  · rw [min_eq_left below, min_eq_left (le.trans below)]
    rcases le_total lo x with inside | outside
    · rw [max_eq_right inside, max_eq_right (inside.trans le)]
    · rw [max_eq_left outside]
      rcases le_total lo y with inside | outside'
      · rw [max_eq_right inside]
        linarith
      · rw [max_eq_left outside']
        linarith
  · rw [min_eq_right above, max_eq_right h]
    have kept : min x hi ≤ max lo (min x hi) := le_max_right _ _
    rcases le_total x hi with inside | outside
    · rw [min_eq_left inside] at kept ⊢
      linarith
    · rw [min_eq_right outside] at kept ⊢
      linarith

/-- A step away from a bound that a value has not passed is not changed by clamping before it. -/
theorem clamp_add_clamp {x d : ℚ} (away : (0 ≤ d ∧ lo ≤ x) ∨ (d ≤ 0 ∧ x ≤ hi)) :
    clamp (clamp x lo hi + d) lo hi = clamp (x + d) lo hi := by
  rw [clamp_eq h, clamp_eq h, clamp_eq h]
  obtain ⟨up, low⟩ | ⟨down, high⟩ := away
  · rw [max_eq_right (le_min low h)]
    rcases le_total x hi with inside | outside
    · rw [min_eq_left inside]
    · rw [min_eq_right outside, min_eq_right (by linarith), min_eq_right (by linarith)]
  · rw [min_eq_left high]
    rcases le_total lo x with inside | outside
    · rw [max_eq_right inside]
    · rw [max_eq_left outside, min_eq_left (by linarith), min_eq_left (by linarith),
        max_eq_left (by linarith), max_eq_left (by linarith)]

end Clamp

/-! ## Rounding -/

theorem round_eq_floor {x : ℚ} (h : 0 ≤ x) : Rounding.round x = ⌊x + 1 / 2⌋ := if_pos h

/-- A rounded value is off by at most a half, which a half itself attains. -/
theorem round_near {x : ℚ} (h : 0 ≤ x) : |(Rounding.round x : ℚ) - x| ≤ 1 / 2 := by
  rw [round_eq_floor h, abs_le]
  have lower := Int.lt_floor_add_one (x + 1 / 2)
  have upper := Int.floor_le (x + 1 / 2)
  constructor
  · linarith
  · linarith

/-- Rounding keeps the order, on the side of zero where it is a floor. -/
theorem round_mono {x y : ℚ} (h : 0 ≤ x) (le : x ≤ y) :
    (Rounding.round x : Int) ≤ Rounding.round y := by
  rw [round_eq_floor h, round_eq_floor (h.trans le)]
  apply Int.floor_le_floor
  linarith

/-- A value between two integers is rounded to one between them. -/
theorem round_mem {x : ℚ} {lo hi : Int} (nonneg : 0 ≤ lo) (lower : (lo : ℚ) ≤ x)
    (upper : x ≤ hi) : lo ≤ Rounding.round x ∧ Rounding.round x ≤ hi := by
  have h : 0 ≤ x := le_trans (by exact_mod_cast nonneg) lower
  rw [round_eq_floor h]
  constructor
  · apply Int.le_floor.mpr
    linarith
  · apply Int.lt_add_one_iff.mp
    apply Int.floor_lt.mpr
    push_cast
    linarith

/-- The same on either side of zero. -/
theorem round_between {x : ℚ} {lo hi : Int} (lower : (lo : ℚ) ≤ x) (upper : x ≤ hi) :
    lo ≤ Rounding.round x ∧ Rounding.round x ≤ hi := by
  change lo ≤ (if 0 ≤ x then ⌊x + 1 / 2⌋ else ⌈x - 1 / 2⌉) ∧
    (if 0 ≤ x then ⌊x + 1 / 2⌋ else ⌈x - 1 / 2⌉) ≤ hi
  split
  · constructor
    · apply Int.le_floor.mpr
      linarith
    · apply Int.lt_add_one_iff.mp
      apply Int.floor_lt.mpr
      push_cast
      linarith
  · constructor
    · apply Int.sub_one_lt_iff.mp
      apply Int.lt_ceil.mpr
      push_cast
      linarith
    · apply Int.ceil_le.mpr
      linarith

end Scalar
