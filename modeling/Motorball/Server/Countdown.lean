import Motorball.Server.Rng

/-!
# The game countdown

The countdown of `piwebserver/src/main.rs`: what `start_game` and the countdown thread do under its
lock, and the status that readers are given. A section that panics answers with no result; what it
had already written stays in the countdown.
-/

namespace Motorball.Server

def defaultGameSeconds : Nat := 60
def chaosSeconds : Nat := 10

/-- The state under the countdown lock. At most one of the deadlines is set in any run, the game's
or that of the chaos phase after it (`exclusive_of_runs`); the type itself does not say so. -/
structure Countdown where
  durationSeconds : Nat
  deadline : Option Nat
  chaosDeadline : Option Nat
  game : Nat
  deriving DecidableEq

/-- The game length `main` settles on, from what parsing `PIWS_GAME_SECONDS` gave: zero and what is
no number count as not set. -/
def gameSeconds (parsed : Option UInt64) : Nat :=
  (((parsed.map UInt64.toNat).filter fun seconds => 0 < seconds)).getD defaultGameSeconds

/-- No game is of length zero, so a game is running at the instant at which it starts. -/
theorem gameSeconds_pos (parsed : Option UInt64) : 0 < gameSeconds parsed := by
  rw [gameSeconds]
  cases h : (parsed.map UInt64.toNat).filter fun seconds => 0 < seconds with
  | none => decide
  | some seconds => exact of_decide_eq_true (Option.filter_eq_some_iff.mp h).2

/-- The countdown of `main`: no game has been played, and the number of games is 0. -/
def Countdown.initial (durationSeconds : Nat) : Countdown := ⟨durationSeconds, none, none, 0⟩

/-! ## Status -/

/-- The four states as they are reported. The source reports them by their names in lower case. -/
inductive GameState where
  | idle
  | running
  | chaos
  | finished
  deriving DecidableEq

/-- What `/api/countdown` answers, and what the logger and the display are given. -/
structure CountdownStatus where
  state : GameState
  remainingSeconds : Nat
  durationSeconds : Nat
  game : Nat
  deriving DecidableEq

/-- `seconds_remaining`: the seconds left, rounded up from milliseconds. The milliseconds are cut to
64 bits, and what is left of a millisecond is dropped before the rounding. -/
def secondsRemaining (deadline now : Nat) : Nat :=
  ((deadline - now) / 1000000 % 2 ^ 64 + 999) / 1000

/-- `countdown_status`: a deadline that is ahead decides, the game's before that of the chaos phase.
One that has passed counts for nothing here, also while the countdown thread has not seen it yet. -/
def countdownStatus (countdown : Countdown) (now : Nat) : CountdownStatus :=
  match countdown.deadline.filter fun deadline => now < deadline with
  | some deadline =>
    ⟨.running, secondsRemaining deadline now, countdown.durationSeconds, countdown.game⟩
  | none =>
    match countdown.chaosDeadline.filter fun deadline => now < deadline with
    | some deadline =>
      ⟨.chaos, secondsRemaining deadline now, countdown.durationSeconds, countdown.game⟩
    | none =>
      if 0 < countdown.game then ⟨.finished, 0, countdown.durationSeconds, countdown.game⟩
      else ⟨.idle, 0, countdown.durationSeconds, 0⟩

/-- Every status carries the number of games, also the idle one, where the source writes 0 instead
of it. -/
theorem countdownStatus_game (countdown : Countdown) (now : Nat) :
    (countdownStatus countdown now).game = countdown.game := by
  rw [countdownStatus]
  split
  · rfl
  · split
    · rfl
    · split
      · rfl
      · next h => exact (Nat.eq_zero_of_not_pos h).symm

/-! ## Sections under the lock -/

/-- `start_game` under the countdown lock. It reads the clock twice: at `now` for the deadline, and
at `later` for the status that it returns. -/
def startGame (now later : Nat) (countdown : Countdown) : Countdown × Option CountdownStatus :=
  let countdown := { countdown with game := Arith.saturatingAdd 64 countdown.game 1 }
  match after now (fromSecs countdown.durationSeconds) with
  | none => (countdown, none)
  | some deadline =>
    let countdown := { countdown with deadline := some deadline, chaosDeadline := none }
    (countdown, some (countdownStatus countdown later))

/-- What the countdown thread has to do to the motor, decided under one lock and done under
another. -/
inductive Update where
  | none
  | startChaos (game : Nat)
  | changeMotor
  | finishChaos (game : Nat)
  deriving DecidableEq

/-- An update that draws a random motor command. The beginning of a chaos phase is the first of its
changes. -/
def Update.IsRandom : Update → Prop
  | .startChaos _ | .changeMotor => True
  | .none | .finishChaos _ => False

/-- The countdown thread under the countdown lock, with the clock it read before: a game that is
over goes into its chaos phase, one in chaos for ten seconds is finished, and in between the motor
is changed when that is due. -/
def chooseUpdate (now nextMotorChange : Nat) (countdown : Countdown) :
    Countdown × Option Update :=
  if countdown.deadline.any fun deadline => deadline ≤ now then
    match after now (fromSecs chaosSeconds) with
    | none => ({ countdown with deadline := none }, none)
    | some deadline =>
      ({ countdown with deadline := none, chaosDeadline := some deadline },
        some (.startChaos countdown.game))
  else if countdown.chaosDeadline.any fun deadline => deadline ≤ now then
    ({ countdown with chaosDeadline := none }, some (.finishChaos countdown.game))
  else if countdown.chaosDeadline.isSome ∧ nextMotorChange ≤ now then
    (countdown, some .changeMotor)
  else (countdown, some .none)

/-- What performing an update leaves: the motor command, the generator and the instant of the next
change. `none` when that instant is not representable. The number of the game is in the update and
is not looked at. -/
def performUpdate (now : Nat) (motor : MotorAction) (rng : Rng) (nextMotorChange : Nat) :
    Update → Option (MotorAction × Rng × Nat)
  | .startChaos _ | .changeMotor =>
    let (motor, rng) := randomMotorAction rng
    let (interval, rng) := nextChaosInterval rng
    (after now interval).map fun next => (motor, rng, next)
  | .finishChaos _ => some (.stop, rng, nextMotorChange)
  | .none => some (motor, rng, nextMotorChange)

end Motorball.Server
