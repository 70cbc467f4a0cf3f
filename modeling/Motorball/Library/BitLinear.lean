import Mathlib.Logic.Function.Iterate
import Mathlib.Tactic.Common

/-!
# Linear maps on words, and what is seen of their iterates

Words are vectors of bits, with exclusive or for the sum. A linear map loses nothing if its values
on the unit words are independent, and that can be computed: `independent` takes one word after
another out of a list and clears a bit of it from those that are left (`eq_zero_of_independent`).

The use is for a linear map that is repeated while one bit of its state is looked at. If the bits
seen in `n` turns are independent, no state but zero shows `n` zeros in a row (`exists_seen`), and
if the map has no other fixed point either, none shows more than `n` ones (`exists_unseen`).
-/

namespace BitLinear

variable {v w : Nat}

/-- A map that keeps sums, the words of a width being a vector space over the field of two elements
with exclusive or for its sum. -/
def Linear (f : BitVec w → BitVec v) : Prop := ∀ x y, f (x ^^^ y) = f x ^^^ f y

/-- Such a map keeps the zero word. -/
theorem Linear.zero {f : BitVec w → BitVec v} (linear : Linear f) : f 0 = 0 := by
  have h : f 0 ^^^ f 0 = f 0 := by rw [← linear, BitVec.xor_self]; rfl
  rwa [BitVec.xor_self, eq_comm] at h

/-- And two in a row make one. -/
theorem Linear.comp {u : Nat} {f : BitVec w → BitVec v} {g : BitVec u → BitVec w}
    (hf : Linear f) (hg : Linear g) : Linear fun x => f (g x) := by
  intro x y
  dsimp only
  rw [hg, hf]

/-! ## Sums of selected words -/

/-- The sum of the words that are selected, one selecting bit for each word. -/
def combine : List Bool → List (BitVec w) → BitVec w
  | b :: bs, x :: xs => (if b then x else 0) ^^^ combine bs xs
  | _, _ => 0

/-- A linear map can be applied to the words before they are summed. -/
theorem combine_map {f : BitVec w → BitVec v} (linear : Linear f) (bs : List Bool)
    (xs : List (BitVec w)) : f (combine bs xs) = combine bs (xs.map f) := by
  induction bs generalizing xs with
  | nil => exact linear.zero
  | cons b bs ih =>
    cases xs with
    | nil => exact linear.zero
    | cons x xs =>
      rw [List.map_cons, combine, combine, linear, ih]
      cases b with
      | false => exact congrArg (· ^^^ _) linear.zero
      | true => rfl

theorem combine_append {bs : List Bool} {xs : List (BitVec w)} (same : bs.length = xs.length)
    (bs' : List Bool) (xs' : List (BitVec w)) :
    combine (bs ++ bs') (xs ++ xs') = combine bs xs ^^^ combine bs' xs' := by
  induction bs generalizing xs with
  | nil =>
    rw [List.eq_nil_of_length_eq_zero same.symm]
    exact (BitVec.zero_xor).symm
  | cons b bs ih =>
    cases xs with
    | nil => cases same
    | cons x xs =>
      rw [List.cons_append, List.cons_append, combine, combine, ih (Nat.succ.inj same),
        BitVec.xor_assoc]

theorem combine_eq_zero {bs : List Bool} (none' : ∀ b ∈ bs, b = false) (xs : List (BitVec w)) :
    combine bs xs = 0 := by
  induction bs generalizing xs with
  | nil => rfl
  | cons b bs ih =>
    cases xs with
    | nil => rfl
    | cons x xs =>
      rw [none' b List.mem_cons_self, combine, ih fun b' hb => none' b' (List.mem_cons_of_mem _ hb)]
      exact BitVec.xor_zero

/-- The words with one bit set. -/
def units (w : Nat) : List (BitVec w) := (List.range w).map (BitVec.twoPow w)

/-- A word is the sum of the units at its bits, so that a linear map is given by its values on
these. -/
theorem combine_units (x : BitVec w) : combine ((List.range w).map x.getLsbD) (units w) = x := by
  have low : ∀ n ≤ w, ∀ i,
      (combine ((List.range n).map x.getLsbD) ((List.range n).map (BitVec.twoPow w))).getLsbD i =
        (decide (i < n) && x.getLsbD i) := by
    intro n
    induction n with
    | zero =>
      intro _ i
      exact BitVec.getLsbD_zero
    | succ n ih =>
      intro hn i
      rw [List.range_succ, List.map_append, List.map_append, combine_append (by simp),
        BitVec.getLsbD_xor, ih (Nat.le_of_succ_le hn)]
      simp only [List.map_singleton, combine]
      rw [show (0 : BitVec w) = 0#w from rfl, BitVec.xor_zero]
      rcases Nat.lt_trichotomy i n with below | rfl | above
      · have h := BitVec.getLsbD_twoPow (w := w) n i
        cases x.getLsbD n <;> simp [h, below, Nat.lt_succ_of_lt below, Nat.ne_of_gt below]
      · have h := BitVec.getLsbD_twoPow (w := w) i i
        have small : i < w := hn
        rw [decide_eq_true small, decide_eq_true rfl, Bool.and_self] at h
        cases x.getLsbD i <;> simp [h]
      · have h := BitVec.getLsbD_twoPow (w := w) n i
        have out : ¬i < n + 1 := by omega
        cases x.getLsbD n <;> simp [h, out, Nat.not_lt_of_lt above, Nat.ne_of_lt above]
  apply BitVec.eq_of_getLsbD_eq
  intro i hi
  exact (low w (Nat.le_refl w) i).trans (by simp [hi])

/-! ## Independent words -/

/-- A word whose bit `k` is set is added to clear that bit: one elimination step of Gauss's
method. -/
def clear (k : Nat) (x y : BitVec w) : BitVec w := if y.getLsbD k then y ^^^ x else y

/-- Whether the words are independent, in at most `n` turns of elimination. It is a computation, so
that independence of given words can be had by `decide`. -/
def independent : Nat → List (BitVec w) → Bool
  | _, [] => true
  | 0, _ :: _ => false
  | n + 1, x :: xs =>
    match (List.range w).find? fun k => x.getLsbD k with
    | none => false
    | some k => independent n (xs.map (clear k x))

/-- Clearing is linear in the word that is cleared. -/
theorem clear_linear {k : Nat} {x : BitVec w} : Linear (clear k x) := by
  intro y z
  unfold clear
  rw [BitVec.getLsbD_xor]
  cases y.getLsbD k with
  | false => cases z.getLsbD k <;> simp [BitVec.xor_assoc]
  | true =>
    cases z.getLsbD k with
    | false => simp only [Bool.bne_false, if_true, Bool.false_eq_true, if_false]; ac_rfl
    | true =>
      calc y ^^^ z = y ^^^ z ^^^ (x ^^^ x) := by rw [BitVec.xor_self, BitVec.xor_zero]
        _ = (y ^^^ x) ^^^ (z ^^^ x) := by ac_rfl

theorem clear_self {k : Nat} {x : BitVec w} (set : x.getLsbD k = true) : clear k x x = 0 := by
  rw [clear, if_pos set, BitVec.xor_self]
  rfl

/-- Of independent words, no selection but the empty one sums to zero. The induction is on the turns
of the elimination, which is linear and so keeps the sum. -/
theorem none_of_independent {n : Nat} {bs : List Bool} {xs : List (BitVec w)}
    (indep : independent n xs = true) (same : bs.length = xs.length)
    (cancels : combine bs xs = 0) : ∀ b ∈ bs, b = false := by
  induction n generalizing bs xs with
  | zero =>
    cases xs with
    | nil =>
      rw [List.eq_nil_of_length_eq_zero same]
      simp
    | cons => cases indep
  | succ n ih =>
    cases xs with
    | nil =>
      rw [List.eq_nil_of_length_eq_zero same]
      simp
    | cons x xs =>
      obtain _ | ⟨b, bs⟩ := bs
      · cases same
      rw [independent] at indep
      split at indep
      · cases indep
      next k found =>
        have set : x.getLsbD k = true := List.find?_some found
        have rest : combine bs xs = if b then x else 0 :=
          (BitVec.xor_eq_zero_iff.mp cancels).symm
        -- Clearing the bit takes the rest of the sum to zero, whether the first word is in or not.
        have cleared : combine bs (xs.map (clear k x)) = 0 := by
          rw [← combine_map clear_linear, rest]
          cases b with
          | false => exact clear_linear.zero
          | true => exact clear_self set
        have none' := ih indep (by rw [List.length_map]; exact Nat.succ.inj same) cleared
        rw [combine_eq_zero none'] at rest
        intro b' hb
        rcases List.mem_cons.mp hb with rfl | hb
        · cases b' with
          | false => rfl
          | true =>
            have zero : x = 0 := rest.symm
            rw [zero] at set
            cases (BitVec.getLsbD_zero).symm.trans set
        · exact none' b' hb

/-- **A linear map whose values on the units are independent takes only zero to zero.** -/
theorem eq_zero_of_independent {f : BitVec w → BitVec v} (linear : Linear f) {n : Nat}
    (indep : independent n ((units w).map f) = true) {x : BitVec w} (zero : f x = 0) : x = 0 := by
  have none' : ∀ b ∈ (List.range w).map x.getLsbD, b = false := by
    apply none_of_independent indep
    · rw [List.length_map, List.length_map, units, List.length_map]
    · rw [← combine_map linear, combine_units]
      exact zero
  rw [← combine_units x]
  exact combine_eq_zero none' _

/-! ## What is seen of the iterates -/

/-- The bit `k` of a word and of its images, `n` bits in all: what is seen of an iteration through
one bit of its state. -/
def observe (f : BitVec w → BitVec w) (k : Nat) : (n : Nat) → BitVec w → BitVec n
  | 0, _ => 0#0
  | n + 1, x => (observe f k n (f x)).concat (x.getLsbD k)

variable {f : BitVec w → BitVec w} {k n : Nat}

/-- What is seen is linear in the word it begins with. -/
theorem observe_linear (linear : Linear f) : Linear (observe f k n) := by
  induction n with
  | zero => exact fun _ _ => Subsingleton.elim _ _
  | succ n ih =>
    intro x y
    rw [observe, observe, observe, linear, ih, BitVec.getLsbD_xor, BitVec.concat_xor_concat]

/-- Nothing seen is the zero word. -/
theorem observe_eq_zero {x : BitVec w} (unseen : ∀ i < n, (f^[i] x).getLsbD k = false) :
    observe f k n x = 0 := by
  induction n generalizing x with
  | zero => rfl
  | succ n ih =>
    have first := unseen 0 (Nat.succ_pos n)
    have rest := ih fun i hi => unseen (i + 1) (Nat.succ_lt_succ hi)
    rw [Function.iterate_zero_apply] at first
    rw [observe, first, rest]
    exact BitVec.zero_concat_false

/-- A state that is not zero shows the bit within `n` turns, if what is seen of the units is
independent. -/
theorem exists_seen (linear : Linear f) {m : Nat}
    (sees : independent m ((units w).map (observe f k n)) = true) {x : BitVec w} (alive : x ≠ 0) :
    ∃ i < n, (f^[i] x).getLsbD k = true := by
  by_contra unseen
  apply alive
  apply eq_zero_of_independent (observe_linear linear) sees
  apply observe_eq_zero
  intro i hi
  rw [Bool.eq_false_iff]
  exact fun seen => unseen ⟨i, hi, seen⟩

/-- Nor does it show the bit more than `n` times in a row, if the map fixes no state but zero: the
sum of a state and its image would show nothing. -/
theorem exists_unseen (linear : Linear f) {m m' : Nat}
    (sees : independent m ((units w).map (observe f k n)) = true)
    (moves : independent m' ((units w).map fun x => f x ^^^ x) = true) {x : BitVec w}
    (alive : x ≠ 0) : ∃ i ≤ n, (f^[i] x).getLsbD k = false := by
  by_contra seen
  have all : ∀ i ≤ n, (f^[i] x).getLsbD k = true := by
    intro i hi
    rw [← Bool.not_eq_false]
    exact fun unseen => seen ⟨i, hi, unseen⟩
  have iterates : ∀ i, Linear f^[i] := by
    intro i
    induction i with
    | zero => exact fun _ _ => rfl
    | succ i ih =>
      rw [Function.iterate_succ']
      exact linear.comp ih
  -- A state and the next one show the same, so their difference shows nothing.
  have moved : Linear fun x => f x ^^^ x := by
    intro y z
    dsimp only
    rw [linear]
    ac_rfl
  apply alive
  apply eq_zero_of_independent moved moves
  by_contra differ
  obtain ⟨i, hi, shows⟩ := exists_seen linear sees differ
  rw [iterates, ← Function.iterate_succ_apply, BitVec.getLsbD_xor, all (i + 1) hi,
    all i (Nat.le_of_lt hi)] at shows
  cases shows

end BitLinear
