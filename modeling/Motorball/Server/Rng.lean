import Motorball.Server.Clock

/-!
# The random generator of the server

`Rng` of `piwebserver/src/main.rs`, a xorshift on 64 bits, and what the countdown thread draws
from it. A draw answers with the value and the generator that follows.
-/

namespace Motorball.Server

/-- The xorshift generator of `main.rs`. The drift thread and the countdown thread have one each, so
neither disturbs the other's sequence. -/
structure Rng where
  state : UInt64
  deriving DecidableEq

/-- The seed `from_time` reads off the clock, which may stand before the epoch. -/
def Rng.timeSeed (sinceEpoch : Option Nat) : UInt64 :=
  (sinceEpoch.map UInt64.ofNat).getD 0x9E3779B97F4A7C15

/-- The generator seeded with the nanoseconds since the epoch. -/
def Rng.fromTime (nanos : UInt64) : Rng := ⟨nanos ||| 1⟩

/-- `Rng::next_u64`: the state is shifted left, right and left again, each time combined with
itself, and is then what is drawn. Bits that are shifted out are lost, as in Rust. -/
def Rng.nextU64 (rng : Rng) : UInt64 × Rng :=
  let x := rng.state
  let x := x ^^^ (x <<< 13)
  let x := x ^^^ (x >>> 7)
  let x := x ^^^ (x <<< 17)
  (x, ⟨x⟩)

def chaosMinIntervalMs : Nat := 200
def chaosIntervalRangeMs : Nat := 601

/-- `next_chaos_interval`: between 200 and 800 milliseconds, with a remainder for the spread. It is
drawn after each random change of the motor. -/
def nextChaosInterval (rng : Rng) : Nat × Rng :=
  let (x, rng) := rng.nextU64
  (fromMillis (chaosMinIntervalMs + x.toNat % chaosIntervalRangeMs), rng)

/-- `random_motor_action`: the lowest bit of a draw decides between stop and start. -/
def randomMotorAction (rng : Rng) : MotorAction × Rng :=
  let (x, rng) := rng.nextU64
  (if x &&& 1 = 0 then .stop else .start, rng)

/-- The intervals of the chaos phase are between 200 and 800 milliseconds. -/
theorem nextChaosInterval_mem (rng : Rng) :
    fromMillis 200 ≤ (nextChaosInterval rng).1 ∧
      (nextChaosInterval rng).1 ≤ fromMillis 800 := by
  have h : rng.nextU64.1.toNat % chaosIntervalRangeMs < 601 := Nat.mod_lt _ (by decide)
  simp only [nextChaosInterval, fromMillis, chaosMinIntervalMs]
  omega

end Motorball.Server
