import Mathlib.Tactic.Common

/-!
# Decimal numbers with a bound

Reading a number from its decimal digits into a type that ends at a bound, one digit at a time and
with a check at each sum. However long the text is, the reading fails exactly if a character is no
digit or the number is not below the bound (`read_eq_some_iff`), since a number never falls as
digits are added (`le_ofDigitChars`).
-/

namespace Decimal

variable {bound n m : Nat} {c : Char} {digits : List Char}

/-- The value of a decimal digit, and nothing for another character. -/
def digit? (c : Char) : Option Nat := if c.isDigit then some (c.toNat - '0'.toNat) else none

/-- `n` with one more digit, with a check at the product and at the sum, as a reader of a machine
integer makes them. -/
def addDigit (bound n : Nat) (c : Char) : Option Nat :=
  if 10 * n < bound then
    (digit? c).bind fun d => if 10 * n + d < bound then some (10 * n + d) else none
  else none

/-- The number of a list of digits, if every step stays below the bound. The empty list reads as
zero. -/
def read (bound : Nat) (digits : List Char) : Option Nat := digits.foldlM (addDigit bound) 0

/-- The check at the product never decides: a product that fails it makes a sum that does too. -/
theorem addDigit_eq_some_iff :
    addDigit bound n c = some m ↔
      c.isDigit = true ∧ 10 * n + (c.toNat - '0'.toNat) = m ∧ m < bound := by
  simp only [addDigit, digit?]
  by_cases digit : c.isDigit = true
  · simp only [digit, if_true, Option.bind_some, true_and]
    constructor
    · intro added
      split at added
      · split at added
        next fits =>
          cases added
          exact ⟨rfl, fits⟩
        · cases added
      · cases added
    · rintro ⟨rfl, fits⟩
      rw [if_pos (by omega), if_pos fits]
  · simp [digit]

/-- A number does not fall as digits are added to it, so a bound that is passed on the way is passed
at the end. -/
theorem le_ofDigitChars (digits : List Char) (n : Nat) : n ≤ Nat.ofDigitChars 10 digits n := by
  induction digits generalizing n with
  | nil => exact Nat.le_refl n
  | cons c digits ih =>
    rw [Nat.ofDigitChars_cons]
    exact Nat.le_trans (by omega) (ih _)

/-- The digits that follow `n`. -/
theorem foldlM_addDigit_eq_some_iff (small : n < bound) :
    digits.foldlM (addDigit bound) n = some m ↔
      (∀ c ∈ digits, c.isDigit = true) ∧ Nat.ofDigitChars 10 digits n = m ∧ m < bound := by
  induction digits generalizing n with
  | nil =>
    simp only [List.foldlM_nil, Option.pure_def, Option.some.injEq, Nat.ofDigitChars_nil,
      List.not_mem_nil, false_implies, implies_true, true_and]
    exact ⟨fun same => ⟨same, same ▸ small⟩, fun same => same.1⟩
  | cons c digits ih =>
    simp only [List.foldlM_cons, Option.bind_eq_bind, Option.bind_eq_some_iff,
      addDigit_eq_some_iff, List.forall_mem_cons, Nat.ofDigitChars_cons]
    constructor
    · rintro ⟨k, ⟨digit, rfl, fits⟩, rest⟩
      obtain ⟨all, value, below⟩ := (ih fits).mp rest
      exact ⟨⟨digit, all⟩, value, below⟩
    · rintro ⟨⟨digit, all⟩, value, below⟩
      -- The sum on the way is no more than the whole number, so it is below the bound too.
      have fits : 10 * n + (c.toNat - '0'.toNat) < bound :=
        Nat.lt_of_le_of_lt (le_ofDigitChars digits _) (value ▸ below)
      exact ⟨_, ⟨digit, rfl, fits⟩, (ih fits).mpr ⟨all, value, below⟩⟩

/-- **A text is read exactly if it is made of digits and its number is below the bound.** -/
theorem read_eq_some_iff (positive : 0 < bound) :
    read bound digits = some m ↔
      (∀ c ∈ digits, c.isDigit = true) ∧ Nat.ofDigitChars 10 digits 0 = m ∧ m < bound :=
  foldlM_addDigit_eq_some_iff positive

end Decimal
