import Motorball.Server.System
import Mathlib.Order.Bounds.Basic

/-!
# The seconds left

`countdown_status` shows the seconds left before a deadline, rounded up. It compares instants to the
nanosecond, and rounds what is left after cutting it to whole milliseconds in 64 bits. The two
agree except where that cut loses something that matters: less than a millisecond above a whole
number of seconds, or more milliseconds than 64 bits can count (`secondsRemaining_isLeast_iff`).
There a running game shows one second too few, and none at all in its last millisecond
(`running_with_no_seconds`).
-/

namespace Motorball.Server

/-- The deadline that is ahead, the game's before that of the chaos phase. One that has passed is
not in force, though it may still be set. -/
def Countdown.inForce (countdown : Countdown) (now : Nat) : Option Nat :=
  (countdown.deadline.filter fun deadline => now < deadline).or
    (countdown.chaosDeadline.filter fun deadline => now < deadline)

/-- The seconds shown are the deadline's, rounded up; some are left whenever the game or its chaos
phase is on, and none in the other states. -/
def RoundsUp (countdown : Countdown) (now : Nat) : Prop :=
  (∀ deadline ∈ countdown.inForce now, IsLeast {n | deadline ≤ now + fromSecs n}
      (countdownStatus countdown now).remainingSeconds) ∧
    ((countdownStatus countdown now).state = .running ∨
        (countdownStatus countdown now).state = .chaos →
      1 ≤ (countdownStatus countdown now).remainingSeconds) ∧
    ((countdownStatus countdown now).remainingSeconds = 0 ↔
      (countdownStatus countdown now).state = .idle ∨
        (countdownStatus countdown now).state = .finished)

/-- Cutting the time left to whole milliseconds in 64 bits loses no second. It does where less than
a millisecond is left of a second that has begun, and beyond 2 ^ 64 milliseconds. -/
def Resolved (left : Nat) : Prop :=
  left / fromMillis 1 < 2 ^ 64 ∧
    (left % fromSecs 1 = 0 ∨ fromMillis 1 ≤ left % fromSecs 1)

instance (left : Nat) : Decidable (Resolved left) :=
  inferInstanceAs (Decidable (left / fromMillis 1 < 2 ^ 64 ∧
    (left % fromSecs 1 = 0 ∨ fromMillis 1 ≤ left % fromSecs 1)))

/-- The seconds of a deadline are rounded up exactly when the cut loses none. -/
theorem secondsRemaining_isLeast_iff {deadline now : Nat} :
    IsLeast {n | deadline ≤ now + fromSecs n} (secondsRemaining deadline now) ↔
      Resolved (deadline - now) := by
  have least : ∀ n, IsLeast {n | deadline ≤ now + fromSecs n} n ↔
      n = (deadline - now + 999999999) / 1000000000 := by
    intro n
    constructor
    · rintro ⟨enough, first⟩
      have ceil := first (a := (deadline - now + 999999999) / 1000000000)
      simp only [Set.mem_ofPred_eq, fromSecs] at enough ceil
      omega
    · rintro rfl
      refine ⟨?_, ?_⟩
      · simp only [Set.mem_ofPred_eq, fromSecs]
        omega
      · intro m hm
        simp only [Set.mem_ofPred_eq, fromSecs] at hm
        omega
  rw [least, secondsRemaining, Resolved]
  simp only [fromMillis, fromSecs, Nat.mul_one]
  omega

/-- The status of a deadline ahead, and of none. -/
theorem countdownStatus_inForce (countdown : Countdown) (now : Nat) :
    match countdown.inForce now with
    | some deadline => now < deadline ∧
        (countdownStatus countdown now).remainingSeconds = secondsRemaining deadline now ∧
        ((countdownStatus countdown now).state = .running ∨
          (countdownStatus countdown now).state = .chaos)
    | none => (countdownStatus countdown now).remainingSeconds = 0 ∧
        ((countdownStatus countdown now).state = .idle ∨
          (countdownStatus countdown now).state = .finished) := by
  have ahead : ∀ {o : Option Nat} {d : Nat}, (o.filter fun d => now < d) = some d → now < d :=
    fun h => of_decide_eq_true (Option.filter_eq_some_iff.mp h).2
  rw [Countdown.inForce, countdownStatus]
  cases running : countdown.deadline.filter fun deadline => now < deadline with
  | some deadline => exact ⟨ahead running, rfl, Or.inl rfl⟩
  | none =>
    cases chaos : countdown.chaosDeadline.filter fun deadline => now < deadline with
    | some deadline => exact ⟨ahead chaos, rfl, Or.inr rfl⟩
    | none =>
      by_cases played : 0 < countdown.game
      · simp [played]
      · simp [played]

/-- A countdown is shown rounded up exactly when the cut to milliseconds loses no second of its
deadline. -/
theorem roundsUp_iff (countdown : Countdown) (now : Nat) :
    RoundsUp countdown now ↔ ∀ deadline ∈ countdown.inForce now, Resolved (deadline - now) := by
  have shown := countdownStatus_inForce countdown now
  cases inForce : countdown.inForce now with
  | none =>
    rw [inForce] at shown
    obtain ⟨none', state⟩ := shown
    refine iff_of_true ⟨?_, ?_, ?_⟩ ?_
    · intro deadline h
      rw [inForce] at h
      cases h
    · rcases state with state | state <;> simp [state]
    · exact iff_of_true none' state
    · intro deadline h
      cases h
  | some deadline =>
    rw [inForce] at shown
    obtain ⟨ahead, seconds, state⟩ := shown
    rw [RoundsUp, inForce, seconds]
    constructor
    · rintro ⟨least, -⟩ d h
      cases h
      exact secondsRemaining_isLeast_iff.mp (least deadline rfl)
    · intro resolved
      have least := secondsRemaining_isLeast_iff.mpr (resolved deadline rfl)
      have some' : 1 ≤ secondsRemaining deadline now := by
        have enough := least.1
        simp only [Set.mem_ofPred_eq, fromSecs] at enough
        omega
      refine ⟨?_, fun _ => some', ?_⟩
      · intro d h
        cases h
        exact least
      · refine iff_of_false (Nat.ne_of_gt some') ?_
        rcases state with state | state <;> simp [state]

namespace System

open Transducer

/-- **When the countdown rounds up.** In every state of every run, at whatever instant it is read,
the seconds shown are those of the deadline ahead, rounded up, and none are shown exactly when no
game is on, if and only if the cut to whole milliseconds loses no second. The instant of the read is
free, as a reader takes its own clock. -/
theorem remaining_rounds_up_iff (parsed : Option UInt64) (clock : Nat) (seed : UInt64)
    (es : List Event) :
    Always step (start parsed clock seed) es fun s => ∀ now,
      (RoundsUp s.countdown now ↔
        ∀ deadline ∈ s.countdown.inForce now, Resolved (deadline - now)) :=
  fun _ _ _ s _ _ now => roundsUp_iff s.countdown now

/-- In the last nanosecond of a game no second is left, and the game still runs. -/
theorem running_with_no_seconds :
    ∃ os s, Runs step (start (some 1) 0 1) [.startGame 0] os s ∧
      (countdownStatus s.countdown 999999999).state = .running ∧
      (countdownStatus s.countdown 999999999).remainingSeconds = 0 ∧
      ¬RoundsUp s.countdown 999999999 := by
  have played : (run step (start (some 1) 0 1) [.startGame 0]).map (fun p => p.1.countdown) =
      some ⟨1, some 1000000000, none, 1⟩ := by decide +kernel
  obtain ⟨os, s, runs, hcountdown⟩ := runs_of_run played
  refine ⟨os, s, runs, ?_⟩
  rw [hcountdown, roundsUp_iff]
  decide

end System

end Motorball.Server
