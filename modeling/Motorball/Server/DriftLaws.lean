import Motorball.Server.ChaosLaws

/-!
# The drift stays with nobody and at no end

Only the drift thread writes the drift, so however the threads interleave, the drift of a state is
what its own turns have made of the drift at startup (`drift_of_runs`).

A turn pulls each player's drift with one call of the generator, downwards or upwards as the top bit
of the state that follows is clear or set. Those bits of 64 turns determine the state of the
generator, like the low ones of the chaos phase, so that neither pull lasts for ever. A drift that
has reached an end is taken off it by the first pull the other way (`drift_leaves_ends`).
-/

namespace Motorball.Server

open Transducer

section Turns

variable {α : Type} [Scalar α]

/-- One turn of the drift thread, on the drift together with its generator. -/
def drifting (p : Drift α × Rng) : Drift α × Rng := p.1.tick p.2

/-- The drift at startup, before any wind. -/
def Drift.start : Drift α := ⟨0.0, 0.0⟩

/-- The drift and the generator after so many turns. In a run the number of turns decides them
(`drift_of_runs`). -/
def drifted (rng : Rng) (n : Nat) : Drift α × Rng := drifting^[n] (Drift.start, rng)

/-- A turn of the drift thread among the events. -/
def Inputs.Event.isTick : Inputs.Event α → Bool
  | .driftTick => true
  | _ => false

/-- One turn more. -/
theorem drifted_succ (rng : Rng) (n : Nat) :
    (drifted rng (n + 1) : Drift α × Rng) = drifting (drifted rng n) :=
  Function.iterate_succ_apply' ..

/-- A turn calls the generator twice, so one player gets the odd calls and the other the even
ones. -/
theorem drifted_rng (rng : Rng) (n : Nat) :
    (drifted rng n : Drift α × Rng).2 = Rng.next^[2 * n] rng := by
  induction n with
  | zero => rfl
  | succ n ih =>
    rw [drifted_succ, Nat.mul_succ, Nat.add_comm, Function.iterate_add_apply, ← ih]
    rfl

variable [Scalar.Rounding α]

/-- Only a turn of the drift thread moves the drift, and it does so by itself. -/
theorem Inputs.drift_step {s s' : Inputs α} {event : Inputs.Event α} {output : Inputs.Obs α}
    (h : s.step event = some (s', output)) : (s'.drift, s'.rng) =
      if event.isTick then drifting (s.drift, s.rng) else (s.drift, s.rng) := by
  cases event with
  | driftTick | mouse | leftButton | rightButton | gamepad =>
    cases h
    rfl
  | setInput | loadLeft | loadRight | applyRamp | copy | mix =>
    simp only [Inputs.step] at h
    split at h <;> cases h
    all_goals rfl

/-- The drift of a run is what the turns of its thread have made of it, wherever they stand among
the events of the other threads. -/
theorem drift_of_runs {rng : Rng} {events : List (Inputs.Event α)} {outputs : List (Inputs.Obs α)}
    {s : Inputs α} (runs : Runs Inputs.step (Inputs.start rng) events outputs s) :
    (s.drift, s.rng) = drifted rng (events.countP Inputs.Event.isTick) := by
  induction runs with
  | nil => rfl
  | snoc _ last ih =>
    rw [Inputs.drift_step last, List.countP_append, List.countP_singleton]
    split
    · rw [drifted_succ, ih]
    · exact ih

end Turns

/-! ## The pulls -/

namespace Rng

/-- The top bits of 64 turns determine the state, by computing with the units. -/
theorem tops_independent :
    BitLinear.independent 64 ((BitLinear.units 64).map (BitLinear.observe turn 63 64)) = true := by
  decide +kernel

/-- The pull of a call is downwards if the top bit of the state that follows is clear. So the
direction of the wind is one bit of the generator. -/
theorem signedUnit_neg_iff (rng : Rng) :
    (rng.signedUnit : ℚ × Rng).1 < 0 ↔ rng.next.state.toBitVec.getLsbD 63 = false := by
  have small := rng.next.state.toNat_lt
  have top : rng.next.state.toBitVec.getLsbD 63 = false ↔ rng.next.state.toNat < 2 ^ 63 := by
    rw [BitVec.getLsbD, UInt64.toNat_toBitVec, Nat.testBit_eq_decide_div_mod_eq,
      decide_eq_false_iff_not]
    omega
  have drawn : (rng.signedUnit : ℚ × Rng).1 =
      (((rng.next.state >>> 40).toNat : Int) : ℚ) / ((2 ^ 24 : Int) : ℚ) * 2.0 - 1.0 := rfl
  have high : (rng.next.state >>> 40).toNat = rng.next.state.toNat / 2 ^ 40 := by
    rw [UInt64.toNat_shiftRight, Nat.shiftRight_eq_div_pow]
    rfl
  rw [top, drawn, high]
  generalize hn : rng.next.state.toNat / 2 ^ 40 = n
  have half : rng.next.state.toNat < 2 ^ 63 ↔ n < 2 ^ 23 := by omega
  rw [half]
  constructor
  · intro neg
    have below : (n : ℚ) < 2 ^ 23 := by
      push_cast at neg
      linarith
    exact_mod_cast below
  · intro below
    have below' : (n : ℚ) < 2 ^ 23 := by exact_mod_cast below
    push_cast
    linarith

end Rng

/-- A wandering drift, without the names of its constants. -/
theorem wander_eq (v : ℚ) (rng : Rng) : (wander v rng).1 =
    max (-21) (min (v * 0.97 + 2 * (rng.signedUnit : ℚ × Rng).1) 21) := by
  have h : (wander v rng).1 =
      Scalar.clamp (v * 0.97 + 2.0 * (rng.signedUnit : ℚ × Rng).1) (-driftMax) driftMax := rfl
  rw [h, driftMax_eq, Scalar.clamp_eq (by norm_num)]
  norm_num

/-- A pull downwards takes a drift off the upper end: it shrinks, and is pushed away from there. -/
theorem wander_lt {v : ℚ} (bounded : v ≤ 21) {rng : Rng}
    (down : (rng.signedUnit : ℚ × Rng).1 < 0) : (wander v rng).1 < 21 := by
  rw [wander_eq]
  apply max_lt (by norm_num)
  apply min_lt_of_left_lt
  linarith

/-- A pull upwards, or none, takes it off the lower end, by the shrinking if by nothing else. -/
theorem lt_wander {v : ℚ} (bounded : -21 ≤ v) {rng : Rng}
    (up : 0 ≤ (rng.signedUnit : ℚ × Rng).1) : -21 < (wander v rng).1 := by
  rw [wander_eq]
  apply lt_max_of_lt_right
  apply lt_min
  · linarith
  · norm_num

/-! ## No end for ever -/

/-- The drift is within its range after any number of turns. -/
theorem drifted_bounded (rng : Rng) (n : Nat) : (drifted rng n : Drift ℚ × Rng).1.Bounded := by
  cases n with
  | zero =>
    refine ⟨⟨?_, ?_⟩, ⟨?_, ?_⟩⟩
    all_goals norm_num [drifted, Drift.start]
  | succ n =>
    rw [drifted_succ]
    exact Drift.tick_bounded _ _

/-- What 65 turns from the `m`-th on do with one player's drift: each end is left somewhere. -/
structure Leaves (v : Nat → ℚ) (m : Nat) : Prop where
  upper : ∃ i ≤ 64, v (m + i + 1) < 21
  lower : ∃ i ≤ 64, -21 < v (m + i + 1)

/-- A drift whose pulls are every other call of a live generator leaves both ends. Were all pulls of
65 turns alike, the top bits would be too, and the generator would be dead or stand still. -/
theorem leaves_of_pulls {v : Nat → ℚ} {pull : Nat → Rng} {rng : Rng} (live : rng.Live)
    (pulls : ∀ i, pull i = Rng.next^[2 * i] rng)
    (moves : ∀ i, v (i + 1) = (wander (v i) (pull i)).1)
    (bounded : ∀ i, -21 ≤ v i ∧ v i ≤ 21) (m : Nat) : Leaves v m := by
  have alive := alive_bits live m
  have top : ∀ i, (pull (m + i)).next.state.toBitVec.getLsbD 63 =
      (Rng.turn^[i] (Rng.next^[2 * m] rng).next.state.toBitVec).getLsbD 63 := by
    intro i
    rw [pulls, Nat.mul_add, Nat.add_comm (2 * m), Function.iterate_add_apply,
      Rng.iterate_next_bits]
  constructor
  · obtain ⟨i, hi, clear⟩ := BitLinear.exists_unseen Rng.turn_linear Rng.tops_independent
      Rng.moves_independent alive
    refine ⟨i, hi, ?_⟩
    rw [moves]
    exact wander_lt (bounded _).2 ((Rng.signedUnit_neg_iff _).mpr ((top i).trans clear))
  · obtain ⟨i, hi, set⟩ := BitLinear.exists_seen Rng.turn_linear Rng.tops_independent alive
    refine ⟨i, Nat.le_of_lt hi, ?_⟩
    rw [moves]
    apply lt_wander (bounded _).1
    rw [← not_lt, Rng.signedUnit_neg_iff, top i, set]
    decide

/-- Both players' drifts do, the second with the generator one call ahead. -/
theorem drifted_leaves {rng : Rng} (live : rng.Live) (m : Nat) :
    Leaves (fun n => (drifted rng n : Drift ℚ × Rng).1.p1) m ∧
      Leaves (fun n => (drifted rng n : Drift ℚ × Rng).1.p2) m := by
  constructor
  · apply leaves_of_pulls live (fun i => rfl)
    · intro i
      rw [drifted_succ, ← drifted_rng (α := ℚ)]
      rfl
    · exact fun i => (drifted_bounded rng i).p1
  · apply leaves_of_pulls (live.iterate 1) (fun i => rfl)
    · intro i
      rw [drifted_succ, ← Function.iterate_add_apply, Nat.add_comm, Function.iterate_add_apply,
        ← drifted_rng (α := ℚ)]
      rfl
    · exact fun i => (drifted_bounded rng i).p2

/-- Somewhere in a stretch of events the drift is such. The state is one of the run, so it is a
drift that a reader could have copied. -/
def Visits (rng : Rng) (before stretch : List (Inputs.Event ℚ)) (P : Drift ℚ → Prop) : Prop :=
  ∃ a b os s, stretch = a ++ b ∧ Runs Inputs.step (Inputs.start rng) (before ++ a) os s ∧ P s.drift

/-- A list has a front with any smaller number of turns. -/
theorem exists_front {events : List (Inputs.Event ℚ)} {n : Nat}
    (enough : n ≤ events.countP Inputs.Event.isTick) :
    ∃ a b, events = a ++ b ∧ a.countP Inputs.Event.isTick = n := by
  induction events generalizing n with
  | nil => exact ⟨[], [], rfl, (Nat.le_zero.mp enough).symm⟩
  | cons event events ih =>
    cases n with
    | zero => exact ⟨[], event :: events, rfl, rfl⟩
    | succ n =>
      cases tick : event.isTick with
      | false =>
        rw [List.countP_cons_of_neg (by simp [tick])] at enough
        obtain ⟨a, b, rfl, ha⟩ := ih enough
        exact ⟨event :: a, b, rfl, by rw [List.countP_cons_of_neg (by simp [tick]), ha]⟩
      | true =>
        rw [List.countP_cons_of_pos tick] at enough
        obtain ⟨a, b, rfl, ha⟩ := ih (Nat.le_of_succ_le_succ enough)
        exact ⟨event :: a, b, rfl, by rw [List.countP_cons_of_pos tick, ha]⟩

/-- **The drift stays at no end.** Whatever the seed and however the threads interleave, a stretch
of a run in which the drift thread turns 65 times takes each player's drift off the upper end and
off the lower end somewhere. The number is one more than the width of the generator's state: two
states that show the same 64 top bits are the same. -/
theorem drift_leaves_ends {seed : UInt64} {before stretch : List (Inputs.Event ℚ)}
    {outputs : List (Inputs.Obs ℚ)} {s : Inputs ℚ}
    (runs : Runs Inputs.step (Inputs.start (Rng.fromTime seed)) (before ++ stretch) outputs s)
    (long : 64 < stretch.countP Inputs.Event.isTick) :
    (Visits (Rng.fromTime seed) before stretch (·.p1 < 21) ∧
      Visits (Rng.fromTime seed) before stretch (-21 < ·.p1)) ∧
    Visits (Rng.fromTime seed) before stretch (·.p2 < 21) ∧
      Visits (Rng.fromTime seed) before stretch (-21 < ·.p2) := by
  have visits : ∀ {P : Drift ℚ → Prop}, (∃ i ≤ 64,
      P (drifted (Rng.fromTime seed) (before.countP Inputs.Event.isTick + i + 1)).1) →
      Visits (Rng.fromTime seed) before stretch P := by
    rintro P ⟨i, hi, hP⟩
    have enough : i + 1 ≤ stretch.countP Inputs.Event.isTick := by omega
    obtain ⟨a, b, rfl, ha⟩ := exists_front enough
    rw [← List.append_assoc] at runs
    obtain ⟨t, os, _, -, first, -⟩ := runs.split
    refine ⟨a, b, os, t, rfl, first, ?_⟩
    rwa [Nat.add_assoc, ← ha, ← List.countP_append, ← drift_of_runs first] at hP
  obtain ⟨leaves1, leaves2⟩ := drifted_leaves (Rng.fromTime_live seed)
    (before.countP Inputs.Event.isTick)
  exact ⟨⟨visits leaves1.upper, visits leaves1.lower⟩,
    visits leaves2.upper, visits leaves2.lower⟩

/-- Sixty-five turns of the drift thread, with the mouse moved in between. -/
def windy : List (Inputs.Event ℚ) :=
  List.replicate 40 .driftTick ++ .mouse 3 :: List.replicate 25 .driftTick

/-- The sixty-five turns take both drifts off their ends. -/
theorem drift_leaves_ends_windy : Visits (Rng.fromTime 1) [.mouse 3] windy (·.p1 < 21) ∧
    Visits (Rng.fromTime 1) [.mouse 3] windy (-21 < ·.p2) := by
  have ran : (run Inputs.step (Inputs.start (Rng.fromTime 1)) ([.mouse 3] ++ windy)).map
      (fun _ => ()) = some () := by decide +kernel
  obtain ⟨os, s, runs, -⟩ := runs_of_run ran
  obtain ⟨⟨upper, -⟩, -, lower⟩ := drift_leaves_ends runs (by decide)
  exact ⟨upper, lower⟩

end Motorball.Server
