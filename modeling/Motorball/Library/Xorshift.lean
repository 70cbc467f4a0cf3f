import Motorball.Library.BitLinear

/-!
# Xorshift generators

A xorshift step adds to a word a shifted copy of itself, three times over, with exclusive or for the
addition and the bits that leave the word lost. The width and the three distances are parameters.

A shift by at least one place is linear and empties the word when it is repeated often enough
(`Fading`). Whatever is like that can be taken away again after it was added
(`Fading.mix_bijective`): guesses at the word it was added to get better with each turn, whichever
word the first one is. So a step loses nothing (`xorshift_bijective`), and since it keeps zero, no
other word becomes zero.
-/

namespace Xorshift

variable {w : Nat}

/-- A word with its image under `f` added: what each of a generator's three shifts does to its
state. -/
def mix (f : BitVec w → BitVec w) (x : BitVec w) : BitVec w := x ^^^ f x

/-- One step: the shifts go left, right and left again, by amounts that are parameters here. -/
def xorshift (a b c : Nat) (x : BitVec w) : BitVec w :=
  mix (· <<< c) (mix (· >>> b) (mix (· <<< a) x))

/-! ## Linear maps that fade -/

/-- `f` is linear in exclusive or, and repeating it leaves nothing of any word. -/
structure Fading (f : BitVec w → BitVec w) : Prop where
  xor : ∀ x y, f (x ^^^ y) = f x ^^^ f y
  fades : ∃ n, ∀ x, f^[n] x = 0

section Fading

variable {f : BitVec w → BitVec w}

/-- The next guess, after `u`, at the word that `mix f` takes to `y`. -/
def guess (f : BitVec w → BitVec w) (y u : BitVec w) : BitVec w := y ^^^ f u

/-- A guess is right when it does not change any more. -/
theorem mix_eq_iff {x y : BitVec w} : mix f x = y ↔ guess f y x = x := by
  unfold mix guess
  constructor
  · rintro rfl
    rw [BitVec.xor_assoc, BitVec.xor_self, BitVec.xor_zero]
  · intro right
    calc x ^^^ f x = y ^^^ f x ^^^ f x := by rw [right]
      _ = y := by rw [BitVec.xor_assoc, BitVec.xor_self, BitVec.xor_zero]

/-- Two guesses come to differ by what is left of their difference. -/
theorem Fading.iterate_guess_xor (fading : Fading f) (y a b : BitVec w) (n : Nat) :
    (guess f y)^[n] a ^^^ (guess f y)^[n] b = f^[n] (a ^^^ b) := by
  induction n with
  | zero => rfl
  | succ n ih =>
    rw [Function.iterate_succ_apply', Function.iterate_succ_apply', Function.iterate_succ_apply',
      ← ih, fading.xor]
    unfold guess
    generalize f _ = fa
    generalize f _ = fb
    calc y ^^^ fa ^^^ (y ^^^ fb) = (y ^^^ y) ^^^ (fa ^^^ fb) := by ac_rfl
      _ = fa ^^^ fb := by rw [BitVec.xor_self, BitVec.zero_xor]

/-- What was added to a word and fades can be taken away again: the guesses settle after finitely
many turns, on the one word that is right. -/
theorem Fading.mix_bijective (fading : Fading f) : Function.Bijective (mix f) := by
  obtain ⟨n, fades⟩ := fading.fades
  have meet : ∀ y a b : BitVec w, (guess f y)^[n] a = (guess f y)^[n] b := by
    intro y a b
    rw [← BitVec.xor_eq_zero_iff, fading.iterate_guess_xor]
    exact fades _
  constructor
  · intro a b h
    have ha : guess f (mix f b) a = a := mix_eq_iff.mp h
    have hb : guess f (mix f b) b = b := mix_eq_iff.mp rfl
    calc a = (guess f (mix f b))^[n] a := (Function.iterate_fixed ha n).symm
      _ = (guess f (mix f b))^[n] b := meet _ _ _
      _ = b := Function.iterate_fixed hb n
  · intro y
    refine ⟨(guess f y)^[n] y, mix_eq_iff.mpr ?_⟩
    calc guess f y ((guess f y)^[n] y) = (guess f y)^[n + 1] y :=
          (Function.iterate_succ_apply' (guess f y) n y).symm
      _ = (guess f y)^[n] (guess f y y) := Function.iterate_succ_apply (guess f y) n y
      _ = (guess f y)^[n] y := meet _ _ _

end Fading

/-! ## Shifts -/

/-- A shift by at least one place fades, whichever way it goes. -/
theorem fading_shift {shift : BitVec w → Nat → BitVec w}
    (xor : ∀ x y n, shift (x ^^^ y) n = shift x n ^^^ shift y n)
    (none' : ∀ x, shift x 0 = x) (add : ∀ x m n, shift x (m + n) = shift (shift x m) n)
    (out : ∀ x n, w ≤ n → shift x n = 0) {k : Nat} (far : 0 < k) : Fading (shift · k) := by
  have iterate : ∀ n x, (shift · k)^[n] x = shift x (n * k) := by
    intro n x
    induction n with
    | zero => rw [Nat.zero_mul, none']; rfl
    | succ n ih => rw [Function.iterate_succ_apply', ih, Nat.succ_mul, add]
  refine ⟨fun x y => xor x y k, w, ?_⟩
  intro x
  rw [iterate]
  exact out x _ (Nat.le_mul_of_pos_right w far)

/-- Shifting to the left fades. -/
theorem fading_shiftLeft {k : Nat} (far : 0 < k) : Fading (w := w) (· <<< k) :=
  fading_shift BitVec.shiftLeft_xor_distrib BitVec.shiftLeft_zero BitVec.shiftLeft_add
    (fun _ _ => BitVec.shiftLeft_eq_zero) far

/-- So does shifting to the right. -/
theorem fading_shiftRight {k : Nat} (far : 0 < k) : Fading (w := w) (· >>> k) :=
  fading_shift BitVec.ushiftRight_xor_distrib BitVec.ushiftRight_zero BitVec.shiftRight_add
    (fun _ _ => BitVec.ushiftRight_eq_zero) far

/-! ## The step -/

variable {a b c : Nat}

/-- **A xorshift step loses nothing**, as long as each of its shifts moves the word; shifting by
nothing would add the word to itself. -/
theorem xorshift_bijective (ha : 0 < a) (hb : 0 < b) (hc : 0 < c) :
    Function.Bijective (xorshift (w := w) a b c) :=
  (fading_shiftLeft hc).mix_bijective.comp
    ((fading_shiftRight hb).mix_bijective.comp (fading_shiftLeft ha).mix_bijective)

/-- Adding the image keeps sums. -/
theorem Fading.mix_linear {f : BitVec w → BitVec w} (fading : Fading f) :
    BitLinear.Linear (mix f) := by
  intro x y
  rw [mix, mix, mix, fading.xor]
  ac_rfl

/-- A xorshift step keeps sums. -/
theorem xorshift_linear (ha : 0 < a) (hb : 0 < b) (hc : 0 < c) :
    BitLinear.Linear (xorshift (w := w) a b c) :=
  (fading_shiftLeft hc).mix_linear.comp
    ((fading_shiftRight hb).mix_linear.comp (fading_shiftLeft ha).mix_linear)

/-- The zero word stays where it is, and by the bijection no other word comes to it. -/
@[simp] theorem xorshift_zero : xorshift (w := w) a b c 0 = 0 := by
  simp [xorshift, mix]

end Xorshift
