import Motorball.Library.Xorshift
import Motorball.Server.Inputs
import Motorball.Server.Poison

/-!
# The random generator never dies

A call of the generator is a xorshift step, so it loses nothing of the state, and zero is the state
it does not leave. The seed is odd. What any number of calls makes of it is therefore another state
than zero (`Rng.Live`), and this holds for the two generators of the server, that of the drift
thread and that of the countdown thread, in every state of every run: a step either leaves the
generator alone or calls it twice.

At zero the drift would be drawn to one side only, and the chaos phase would only stop the motor.
-/

namespace Motorball.Server

open Transducer

namespace Rng

/-- The generator that a call leaves. The value a call draws is that state too, so the sequence of
values is the sequence of states. -/
def next (rng : Rng) : Rng := rng.nextU64.2

/-- No number of calls takes the generator to zero, from where no call would take it away again. -/
def Live (rng : Rng) : Prop := ∀ n, (next^[n] rng).state ≠ 0

/-! ## One call -/

/-- A generator is its state in bits, which carries the laws of the `Xorshift` library over to
it. -/
theorem bits_bijective : Function.Bijective fun rng : Rng => rng.state.toBitVec := by
  constructor
  · rintro ⟨a⟩ ⟨b⟩ h
    exact congrArg Rng.mk (UInt64.toBitVec_inj.mp h)
  · intro x
    exact ⟨⟨⟨x⟩⟩, rfl⟩

/-- A call is the xorshift with the shifts 13, 7 and 17 of the source. The library's laws ask only
that each shift is positive and below the width. -/
theorem next_bits (rng : Rng) :
    rng.next.state.toBitVec = Xorshift.xorshift 13 7 17 rng.state.toBitVec := rfl

/-- A call loses nothing of the state: what it draws tells what it drew from. -/
theorem next_bijective : Function.Bijective next := by
  apply (bits_bijective.of_comp_iff' next).mp
  have step : (fun rng : Rng => rng.state.toBitVec) ∘ next =
      Xorshift.xorshift 13 7 17 ∘ fun rng : Rng => rng.state.toBitVec := funext next_bits
  rw [step]
  exact (Xorshift.xorshift_bijective (by decide) (by decide) (by decide)).comp bits_bijective

/-- Zero stays zero, since each step of the shift combines the state with itself. -/
theorem next_zero : next ⟨0⟩ = ⟨0⟩ := bits_bijective.injective Xorshift.xorshift_zero

/-- A dead generator stays dead, however often it is called. -/
theorem iterate_next_zero (n : Nat) : next^[n] ⟨0⟩ = ⟨0⟩ := Function.iterate_fixed next_zero n

/-- Only zero leads to zero: a call is one to one and keeps zero, so no other state can reach it. -/
theorem live_iff {rng : Rng} : rng.Live ↔ rng.state ≠ 0 := by
  constructor
  · intro live
    exact live 0
  · intro nonzero n dead
    have merged : next^[n] rng = next^[n] ⟨0⟩ := by
      rw [iterate_next_zero]
      cases h : next^[n] rng
      rw [h] at dead
      exact congrArg Rng.mk dead
    exact nonzero (congrArg Rng.state (next_bijective.injective.iterate n merged))

/-- A live generator stays live, wherever its sequence is picked up. -/
theorem Live.iterate {rng : Rng} (live : rng.Live) (n : Nat) : (next^[n] rng).Live :=
  live_iff.mpr (live n)

/-- `from_time` sets the lowest bit, whatever the clock says. That is the whole reason for the `| 1`
of the source. -/
theorem fromTime_odd (seed : UInt64) : Odd (fromTime seed).state.toNat := by
  rw [fromTime, UInt64.toNat_or, Nat.odd_iff]
  simp

/-- A seeded generator is live, also when the clock stands at the epoch and the seed is one. -/
theorem fromTime_live (seed : UInt64) : (fromTime seed).Live := by
  apply live_iff.mpr
  intro zero
  have odd := fromTime_odd seed
  rw [zero] at odd
  exact absurd odd (by decide)

end Rng

/-! ## The generators of the server -/

/-- A step calls a generator twice or not at all: the drift thread once for each player, the
countdown thread for a command and for the interval after it. -/
def Draws (rng rng' : Rng) : Prop := rng' = rng ∨ rng' = Rng.next^[2] rng

/-- Such a step keeps a generator live. -/
theorem Draws.live {rng rng' : Rng} (draws : Draws rng rng') (live : rng.Live) : rng'.Live := by
  obtain rfl | rfl := draws
  · exact live
  · exact live.iterate 2

section Inputs

variable {α : Type} [Scalar α] [Scalar.Rounding α]

/-- Of the steps around the controls only the drift thread's turn draws. -/
theorem Inputs.draws {s s' : Inputs α} {event : Inputs.Event α} {output : Inputs.Obs α}
    (h : s.step event = some (s', output)) : Draws s.rng s'.rng := by
  cases event with
  | driftTick =>
    cases h
    exact Or.inr rfl
  | mouse | leftButton | rightButton | gamepad =>
    cases h
    exact Or.inl rfl
  | setInput | loadLeft | loadRight | applyRamp | copy | mix =>
    simp only [Inputs.step] at h
    split at h <;> cases h
    all_goals exact Or.inl rfl

end Inputs

/-- Performing an update draws twice if the update is a random change, and not at all otherwise. -/
theorem performUpdate_draws {now next next' : Nat} {motor motor' : MotorAction} {rng rng' : Rng}
    {update : Update} (h : performUpdate now motor rng next update = some (motor', rng', next')) :
    Draws rng rng' := by
  cases update with
  | startChaos | changeMotor =>
    obtain ⟨_, -, heq⟩ := Option.map_eq_some_iff.mp h
    cases heq
    exact Or.inr rfl
  | finishChaos | none =>
    cases h
    exact Or.inl rfl

/-- Of the steps around the countdown only the performing of a random change draws. -/
theorem System.draws {s s' : System} {e : System.Event} {o : System.Obs}
    (h : s.step e = some (s', o)) : Draws s.rng s'.rng := by
  cases e with
  | perform =>
    rw [System.step] at h
    split at h
    next now update decided =>
      obtain ⟨⟨motor, rng, next⟩, performed, heq⟩ := Option.map_eq_some_iff.mp h
      cases heq
      exact performUpdate_draws performed
    · cases h
  -- Of the other moves none writes the generator.
  | advance | startGame | startMotor | tick | choose | setMotor | currentCountdown | apiMotor =>
    cases System.step_moved h
    all_goals exact Or.inl rfl

/-- With the panics in the picture a step draws no more than before: one that panics draws
nothing. -/
theorem Guarded.draws {g g' : Guarded} {e : System.Event} {o : Outcome}
    (h : g.step e = some (g', o)) : Draws g.system.rng g'.system.rng := by
  obtain quiet | ⟨-, countdown, motor, same⟩ := Guarded.step_cases h
  · obtain ⟨⟨s, obs⟩, moved, heq⟩ := Option.map_eq_some_iff.mp quiet
    cases heq
    exact System.draws moved
  · rw [same]
    exact Or.inl rfl

/-! ## At zero -/

/-- What the drift would get from a dead generator: the push to the left end, at every turn. -/
theorem signedUnit_zero : (Rng.signedUnit ⟨0⟩ : ℚ × Rng) = (-1, ⟨0⟩) := by
  decide +kernel

/-- What the chaos phase would get from a dead generator: a stopped motor, at every change. -/
theorem randomMotorAction_zero : randomMotorAction ⟨0⟩ = (.stop, ⟨0⟩) := rfl

/-- **The generator never dies.** A call is one to one on the states and onto them, and keeps zero.
So the odd seed never becomes zero, different states never become the same, and both generators of
the running server are live, whichever of its threads have panicked. A generator at zero would stay
there, with the drift drawn to -1 and the motor stopped at every call. No hypothesis is needed: the
clock that seeds may stand anywhere, and before the epoch the constant of the source takes its
place. -/
theorem Rng.never_dies {α : Type} [Scalar α] [Scalar.Rounding α] (sinceEpoch : Option Nat) :
    (Function.Bijective Rng.next ∧ Rng.nextU64 ⟨0⟩ = (0, ⟨0⟩)) ∧
    (Odd (fromTime (timeSeed sinceEpoch)).state.toNat ∧
      ∀ n, (next^[n] (fromTime (timeSeed sinceEpoch))).state ≠ 0) ∧
    (∀ a b : Rng, a ≠ b → ∀ n, next^[n] a ≠ next^[n] b) ∧
    (∀ events : List (Inputs.Event α),
      Always Inputs.step (Inputs.start (fromTime (timeSeed sinceEpoch))) events
        fun s => s.rng.Live) ∧
    (∀ parsed clock events,
      Always Guarded.step (Guarded.start parsed clock (timeSeed sinceEpoch)) events
        fun g => g.system.rng.Live) ∧
    ∀ n, (signedUnit (next^[n] ⟨0⟩) : ℚ × Rng).1 = -1 ∧
      (randomMotorAction (next^[n] ⟨0⟩)).1 = .stop := by
  refine ⟨⟨next_bijective, rfl⟩, ⟨fromTime_odd _, fromTime_live _⟩, ?_, ?_, ?_, ?_⟩
  · intro a b different n merged
    exact different (next_bijective.injective.iterate n merged)
  · intro events before _ _ s _ runs
    exact runs.invariant (P := fun s => s.rng.Live) (fromTime_live _)
      fun _ _ _ _ live moved => (Inputs.draws moved).live live
  · intro parsed clock events before _ _ g _ runs
    exact runs.invariant (P := fun g => g.system.rng.Live) (fromTime_live _)
      fun _ _ _ _ live moved => (Guarded.draws moved).live live
  · intro n
    rw [iterate_next_zero, signedUnit_zero, randomMotorAction_zero]
    exact ⟨rfl, rfl⟩

end Motorball.Server
