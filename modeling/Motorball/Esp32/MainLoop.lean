import Motorball.Esp32.WifiInputs
import Motorball.Library.Scalar

/-!
# The tilt sensor, the motors and the LED

`hardware_inputs.rs`, `motor_driver.rs` and `led_driver.rs` of `esp32motorball`: what a turn of the
main loop makes of the command it has polled. A pin is high exactly if the command was to start
(`driveMotors_high_iff`).
-/

namespace Motorball.Esp32

/-- The output pins, where `true` is high, and whether there is a tilt sensor to ask. -/
structure HardwareControls where
  led : Bool
  motorLeft : Bool
  motorRight : Bool
  /-- Whether the tilt sensor was activated. -/
  tiltSensor : Bool
  deriving DecidableEq

/-- The hardware as `initialise_hardware` leaves it, with every pin low. -/
def initialiseHardware (tiltSensor : Bool) : HardwareControls := ⟨false, false, false, tiltSensor⟩

/-- What the ball makes of the sensor's measurement. -/
inductive TiltSensation where
  | idle
  | tiltingLeft
  | tiltingRight
  | tiltingForward
  | tiltingBack
  deriving DecidableEq

structure Measurement (α : Type) where
  x : α
  y : α
  deriving DecidableEq

section Tilt

variable {α : Type} [Scalar α]

/-- The acceleration from which a tilt counts, in units of gravity. -/
def tiltThresholdG : α := 0.3

/-- The source's own absolute value, by comparison with zero. -/
def abs (v : α) : α := if v < 0.0 then -v else v

/-- The direction of the larger of the two accelerations, the first if they are equal, provided it
is past the threshold. -/
def classify (m : Measurement α) : TiltSensation :=
  let ax := abs m.x
  let ay := abs m.y
  if tiltThresholdG < ax ∧ ay ≤ ax then
    if 0.0 < m.x then .tiltingRight else .tiltingLeft
  else if tiltThresholdG < ay then
    if 0.0 < m.y then .tiltingForward else .tiltingBack
  else .idle

/-- One reading of the tilt sensor, where `reading` is what the sensor answers, if it answers. A
ball without the sensor, or with a silent one, is taken to be level. -/
def readTiltSensor (hardware : HardwareControls) (reading : Option (Measurement α)) :
    TiltSensation :=
  if hardware.tiltSensor then
    match reading with
    | some measurement => classify measurement
    | none => .idle
  else .idle

end Tilt

def stopMotors (hardware : HardwareControls) : HardwareControls :=
  { hardware with motorLeft := false, motorRight := false }

/-- The pins for a ball that is to move: to turn to a side, the motor of that side stands still.
Tilted back it goes on with both. -/
def startMotors (hardware : HardwareControls) : TiltSensation → HardwareControls
  | .idle => { hardware with motorLeft := true, motorRight := true }
  | .tiltingLeft => { hardware with motorLeft := false, motorRight := true }
  | .tiltingRight => { hardware with motorLeft := true, motorRight := false }
  | .tiltingForward => { hardware with motorLeft := true, motorRight := true }
  | .tiltingBack => { hardware with motorLeft := true, motorRight := true }

/-- The pins for a command; the tilt counts only while the ball is to move. -/
def driveMotors (hardware : HardwareControls) (input : MotorAction) (tilt : TiltSensation) :
    HardwareControls :=
  match input with
  | .stop => stopMotors hardware
  | .start => startMotors hardware tilt

/-- The LED, at the milliseconds since boot: it is on for every other second while it blinks. -/
def driveLed (hardware : HardwareControls) (input : LedAction) (millis : Nat) : HardwareControls :=
  match input with
  | .off => { hardware with led := false }
  | .blink => { hardware with led := decide (millis / 1000 % 2 = 0) }

/-- A ball that is to move has a motor that runs, whatever the tilt is. -/
theorem startMotors_moves (hardware : HardwareControls) (tilt : TiltSensation) :
    (startMotors hardware tilt).motorLeft = true ∨
      (startMotors hardware tilt).motorRight = true := by
  cases tilt with
  | tiltingLeft => exact .inr rfl
  | idle | tiltingRight | tiltingForward | tiltingBack => exact .inl rfl

/-- A pin is high exactly if the command was to start, whatever the pins were and the tilt is. -/
theorem driveMotors_high_iff (hardware : HardwareControls) (input : MotorAction)
    (tilt : TiltSensation) :
    ((driveMotors hardware input tilt).motorLeft = true ∨
      (driveMotors hardware input tilt).motorRight = true) ↔ input = .start := by
  cases input with
  | stop =>
    constructor
    · rintro (left | right)
      · cases left
      · cases right
    · intro started
      cases started
  | start => exact ⟨fun _ => rfl, fun _ => startMotors_moves hardware tilt⟩

end Motorball.Esp32
