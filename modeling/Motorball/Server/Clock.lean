import Motorball.Library.Arith

/-!
# Instants, durations and the motor command

`std::time` as the server uses it: an instant is a reading of the monotonic clock in nanoseconds, a
duration a number of them. An `Instant` has a signed 64-bit count of seconds, so a sum past its
last nanosecond panics: `after` answers `none` there.
-/

namespace Motorball.Server

/-- `Duration::from_secs`, in nanoseconds. A duration is a natural number here; its own range of 2 ^
64 seconds is never reached, as an instant gives out first. -/
def fromSecs (seconds : Nat) : Nat := 1000000000 * seconds
/-- `Duration::from_millis`, in nanoseconds. -/
def fromMillis (millis : Nat) : Nat := 1000000 * millis

/-- The first instant that is not representable. On Linux an instant holds signed seconds of 64 bits
beside its nanoseconds. -/
def instantLimit : Nat := 1000000000 * 2 ^ 63

/-- `now + wait` as `Instant` adds it: it panics where the sum is not representable. -/
def after (now : Nat) (wait : Nat) : Option Nat :=
  if now + wait < instantLimit then some (now + wait) else none

/-- Where the addition does not panic it is the addition. -/
theorem after_eq_some {now next : Nat} {wait : Nat} (h : after now wait = some next) :
    next = now + wait := by
  rw [after] at h
  split at h
  · exact (Option.some.inj h).symm
  · cases h

/-- What the motor is told, and what `/api/motor` answers with. -/
inductive MotorAction where
  | stop
  | start
  deriving DecidableEq

/-- `MotorAction::as_num`: the body of the answer to `/api/motor`, by which the ball decides whether
to move. -/
def MotorAction.asNum : MotorAction → Nat
  | .start => 1
  | .stop => 0

end Motorball.Server
