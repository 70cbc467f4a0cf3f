import Motorball.Library.Arith
import Motorball.Library.Exact
import Motorball.Server.Rng

/-!
# The players' controls

The arithmetic of `piwebserver/src/main.rs` on the two players' axes, over any scalars: what the
writers do to the controls and to the drift, and the pair of values the readers make of them. Below
are the facts about exact arithmetic that later modules use: every writer keeps its value between
its bounds (`Controls.Bounded`, `Drift.Bounded`), and `entangled_near` says how far a value gets
from its own player's axis.
-/

namespace Motorball.Server

section Constants

variable {α : Type} [Scalar α]

def entangle : α := 0.15
def deadzone : α := 0.12
def center : α := 127.5
def span : α := 127.5
def driftMax : α := 21.0
def driftStep : α := 2.0
def driftDecay : α := 0.97
def p2Rate : α := 0.03
def mouseRate : α := 0.00025
def clickRate : α := 0.03

end Constants

/-- The axes of the two players, between -1 and 1. `AppState` keeps them under one lock, and every
writer below takes them as they stand under it. -/
structure Controls (α : Type) where
  p1 : α
  p2 : α
  deriving DecidableEq

/-- What the wind adds to the two values. It has a lock of its own, so a reader copies it in a later
section than the axes. -/
structure Drift (α : Type) where
  p1 : α
  p2 : α
  deriving DecidableEq

variable {α : Type} [Scalar α]

/-! ## The values -/

/-- `clamp_axis`: the requested axis within its range. A request may carry any `f32`, so the
infinities go to the ends and NaN, which `clamp` would keep, to the middle. -/
def clampAxis : Scalar.Extended α → α
  | .nan => 0.0
  | .negInfinity => -1.0
  | .finite v => Scalar.clamp v (-1.0) 1.0
  | .infinity => 1.0

/-- `to_value`: the control value that an axis alone asks for, from 0 at the left end to 255 at the
right. -/
def toValue (x : α) : α := center + x * span

/-- `clamp_value`: a mixed value cut to a byte's range and then rounded. The cast to `i32`
saturates, which never shows after the cut (`clampValue_eq`). -/
def clampValue [Scalar.Rounding α] (v : α) : Int :=
  Arith.clamp (Scalar.Rounding.round (Scalar.clamp v 0.0 255.0)) (-2 ^ 31) (2 ^ 31 - 1)

/-- `entangled`: each player's value is what their own axis and drift make of it, less 0.15 of how
far the opponent's axis and drift are off the centre. -/
def entangled [Scalar.Rounding α] (raw : Controls α) (drift : Drift α) : Int × Int :=
  let b1 := toValue raw.p1 + drift.p1
  let b2 := toValue raw.p2 + drift.p2
  let o1 := center + (b1 - center) - entangle * (b2 - center)
  let o2 := center + (b2 - center) - entangle * (b1 - center)
  (clampValue o1, clampValue o2)

/-! ## The drift -/

/-- `Rng::signed_unit`: the upper 24 bits of a draw as a fraction between -1 and 1, the width that
an `f32` holds exactly. -/
def Rng.signedUnit (rng : Rng) : α × Rng :=
  let (x, rng) := rng.nextU64
  let u : α := ((x >>> 40).toNat : Int) / ((2 ^ 24 : Int) : α)
  (u * 2.0 - 1.0, rng)

/-- `wander`: a drift shrinks towards zero, takes a random step and is clamped. The decay keeps it
from staying at an end of its own accord. -/
def wander (v : α) (rng : Rng) : α × Rng :=
  let (unit, rng) := (rng.signedUnit : α × Rng)
  (Scalar.clamp (v * driftDecay + driftStep * unit) (-driftMax) driftMax, rng)

/-- One turn of the loop of `spawn_drift`: both drifts wander, player 1's with the first draw and
player 2's with the second. -/
def Drift.tick (drift : Drift α) (rng : Rng) : Drift α × Rng :=
  let (p1, rng) := wander drift.p1 rng
  let (p2, rng) := wander drift.p2 rng
  (⟨p1, p2⟩, rng)

/-! ## The writers of the controls -/

/-- The write of `set_input`; `none` for an unknown player. -/
def Controls.setInput (controls : Controls α) (player : String) (x : α) : Option (Controls α) :=
  if player = "p1" then some { controls with p1 := x }
  else if player = "p2" then some { controls with p2 := x }
  else none

/-- `apply_mouse_dx`: the motion of the mouse moves player 1's axis, in counts times `mouseRate`. A
motion of nothing takes no lock. -/
def Controls.applyMouseDx (controls : Controls α) (dx : Int) : Controls α :=
  if dx = 0 then controls
  else { controls with p1 := Scalar.clamp (controls.p1 + (dx : α) * mouseRate) (-1.0) 1.0 }

/-- `mouse_button_direction`: one button alone pulls to its side, and both together are as none. -/
def mouseButtonDirection (left right : Bool) : α :=
  match left, right with
  | true, false => -1.0
  | false, true => 1.0
  | _, _ => 0.0

/-- The write of `spawn_mouse_button_ramp`, a click rate in the direction it was told. It leaves the
controls alone when neither side is held. -/
def Controls.ramp (controls : Controls α) (direction : α) : Controls α :=
  if direction < 0.0 ∨ 0.0 < direction then
    { controls with p1 := Scalar.clamp (controls.p1 + direction * clickRate) (-1.0) 1.0 }
  else controls

/-- `input_direction`: a side held alone decides, and both sides held cancel out. With none held the
axis that is furthest out decides, once it is past the dead zone; of equal ones the first counts. -/
def inputDirection (left right : Bool) (axes : Vector α 3) : α :=
  match left, right with
  | true, false => -1.0
  | false, true => 1.0
  | true, true => 0.0
  | false, false =>
    let x := (axes.toList.drop 1).foldl
      (fun x candidate => if Scalar.abs x < Scalar.abs candidate then candidate else x) axes[0]
    if x < -deadzone then -1.0 else if deadzone < x then 1.0 else 0.0

/-- What is read of a gamepad: the two buttons of each side, and the three axes in the order in
which they are compared. -/
structure Pad (α : Type) where
  dPadLeft : Bool
  north : Bool
  dPadRight : Bool
  east : Bool
  leftStickX : α
  rightStickX : α
  dPadX : α
  deriving DecidableEq

/-- `pad_direction`: either of the buttons of a side stands for that side, and the sticks and the
pad's axis are the candidates otherwise. -/
def padDirection (pad : Pad α) : α :=
  inputDirection (pad.dPadLeft || pad.north) (pad.dPadRight || pad.east)
    #v[pad.leftStickX, pad.rightStickX, pad.dPadX]

/-- The write of `spawn_gamepad_reader`, with the first gamepad there is. It moves player 2's axis
by a fixed rate, however far a stick is out. -/
def Controls.gamepad (controls : Controls α) : Option (Pad α) → Controls α
  | some pad =>
    let dir := padDirection pad
    if dir < 0.0 ∨ 0.0 < dir then
      { controls with p2 := Scalar.clamp (controls.p2 + dir * p2Rate) (-1.0) 1.0 }
    else controls
  | none => controls

/-! ## Bounds -/

section Constants

@[simp] theorem entangle_eq : (entangle : ℚ) = 0.15 := rfl
@[simp] theorem center_eq : (center : ℚ) = 127.5 := rfl
@[simp] theorem span_eq : (span : ℚ) = 127.5 := rfl
@[simp] theorem driftMax_eq : (driftMax : ℚ) = 21 := by norm_num [driftMax]

end Constants

/-- Both axes are between -1 and 1. Each writer clamps what it writes, so no order of them leads out
(`Bounded.setInput` to `Bounded.gamepad`). -/
structure Controls.Bounded (controls : Controls ℚ) : Prop where
  p1 : -1 ≤ controls.p1 ∧ controls.p1 ≤ 1
  p2 : -1 ≤ controls.p2 ∧ controls.p2 ≤ 1

/-- Both drifts are within `driftMax`, whatever the generator draws: `wander` clamps last. -/
structure Drift.Bounded (drift : Drift ℚ) : Prop where
  p1 : -21 ≤ drift.p1 ∧ drift.p1 ≤ 21
  p2 : -21 ≤ drift.p2 ∧ drift.p2 ≤ 21

/-- A clamped axis is between -1 and 1. The literals of the source are decimals, hence the two
spellings of the ends. -/
theorem axis_mem (x : ℚ) :
    -1 ≤ Scalar.clamp x (-1.0) 1.0 ∧ Scalar.clamp x (-1.0) 1.0 ≤ 1 := by
  obtain ⟨lower, upper⟩ := Scalar.clamp_mem (show (-1.0 : ℚ) ≤ 1.0 by norm_num) x
  constructor
  · linarith
  · linarith

/-- Whatever a request carries, the axis it is granted is in range. NaN is the case that `clamp`
alone would let through. -/
theorem clampAxis_mem (x : Scalar.Extended ℚ) : -1 ≤ clampAxis x ∧ clampAxis x ≤ 1 := by
  cases x with
  | nan => norm_num [clampAxis]
  | negInfinity => norm_num [clampAxis]
  | finite v => exact axis_mem v
  | infinity => norm_num [clampAxis]

/-- A drift that has wandered is in range even if it was not before, so no invariant has to be
assumed of it. -/
theorem wander_mem (v : ℚ) (rng : Rng) : -21 ≤ (wander v rng).1 ∧ (wander v rng).1 ≤ 21 := by
  have mem : -driftMax ≤ (wander v rng).1 ∧ (wander v rng).1 ≤ driftMax :=
    Scalar.clamp_mem (by norm_num) _
  rw [driftMax_eq] at mem
  exact mem

/-- A turn of the drift thread leaves both drifts in range. -/
theorem Drift.tick_bounded (drift : Drift ℚ) (rng : Rng) : (drift.tick rng).1.Bounded :=
  ⟨wander_mem _ _, wander_mem _ _⟩

namespace Controls

variable {controls : Controls ℚ}

/-- A request keeps the axes in range if what it asks for is, and `clampAxis_mem` says that it is.
An unknown player writes nothing. -/
theorem Bounded.setInput (bounded : controls.Bounded) {player : String} {x : ℚ}
    {controls' : Controls ℚ} (axis : -1 ≤ x ∧ x ≤ 1)
    (written : controls.setInput player x = some controls') : controls'.Bounded := by
  unfold Controls.setInput at written
  split at written
  · cases written
    exact ⟨axis, bounded.p2⟩
  · split at written
    · cases written
      exact ⟨bounded.p1, axis⟩
    · cases written

/-- The mouse keeps the axes in range, however far it has moved. -/
theorem Bounded.applyMouseDx (bounded : controls.Bounded) (dx : Int) :
    (controls.applyMouseDx dx).Bounded := by
  unfold Controls.applyMouseDx
  split
  · exact bounded
  · exact ⟨axis_mem _, bounded.p2⟩

/-- The ramp keeps the axes in range, for any direction. -/
theorem Bounded.ramp (bounded : controls.Bounded) (direction : ℚ) :
    (controls.ramp direction).Bounded := by
  unfold Controls.ramp
  split
  · exact ⟨axis_mem _, bounded.p2⟩
  · exact bounded

/-- The gamepad reader keeps the axes in range, for any gamepad and for none. -/
theorem Bounded.gamepad (bounded : controls.Bounded) (pad : Option (Pad ℚ)) :
    (controls.gamepad pad).Bounded := by
  cases pad with
  | none => exact bounded
  | some pad =>
    simp only [Controls.gamepad]
    split
    · exact ⟨bounded.p1, axis_mem _⟩
    · exact bounded

end Controls

/-! ## The writers without their guards -/

/-- The direction a turn of the gamepad reader takes; without a gamepad there is nothing to move, as
in the dead zone. -/
def gamepadDirection : Option (Pad ℚ) → ℚ
  | some pad => padDirection pad
  | none => 0

/-- An axis within its bounds that is not moved is not clamped either. This is why a writer may skip
its write. -/
theorem axis_still {x : ℚ} (axis : -1 ≤ x ∧ x ≤ 1) : Scalar.clamp (x + 0) (-1.0) 1.0 = x := by
  rw [Scalar.clamp_eq (by norm_num), add_zero, min_eq_left (by linarith),
    max_eq_right (by linarith)]

/-- A direction that is neither negative nor positive is zero; the source asks both questions of an
`f32`, of which NaN would answer neither. -/
theorem eq_zero_of_still {x : ℚ} (still : ¬(x < 0.0 ∨ 0.0 < x)) : x = 0 := by
  have zero : (0.0 : ℚ) = 0 := by norm_num
  rw [zero, not_or, not_lt, not_lt] at still
  exact le_antisymm still.2 still.1

namespace Controls

variable {controls : Controls ℚ}

/-- The guard of `apply_mouse_dx` only saves a write: on axes in range the formula covers the motion
of zero too. -/
theorem applyMouseDx_eq (bounded : controls.Bounded) (dx : Int) :
    controls.applyMouseDx dx =
      { controls with p1 := Scalar.clamp (controls.p1 + dx * mouseRate) (-1.0) 1.0 } := by
  unfold applyMouseDx
  split
  next still => rw [still, Int.cast_zero, zero_mul, axis_still bounded.p1]
  · rfl

/-- The guard of the ramp only saves a write, so each turn is the clamped sum, whatever the
buttons. -/
theorem ramp_eq (bounded : controls.Bounded) (direction : ℚ) :
    controls.ramp direction =
      { controls with p1 := Scalar.clamp (controls.p1 + direction * clickRate) (-1.0) 1.0 } := by
  unfold ramp
  split
  · rfl
  next still => rw [eq_zero_of_still still, zero_mul, axis_still bounded.p1]

/-- The guard of the gamepad reader only saves a write, and a missing gamepad is one that pulls
nowhere. -/
theorem gamepad_eq (bounded : controls.Bounded) (pad : Option (Pad ℚ)) :
    controls.gamepad pad =
      { controls with
        p2 := Scalar.clamp (controls.p2 + gamepadDirection pad * p2Rate) (-1.0) 1.0 } := by
  cases pad with
  | none =>
    rw [gamepadDirection, zero_mul, axis_still bounded.p2]
    rfl
  | some pad =>
    simp only [gamepad, gamepadDirection]
    split
    · rfl
    next still => rw [eq_zero_of_still still, zero_mul, axis_still bounded.p2]

end Controls

/-- The cast of a clamped value loses nothing, as it lies between 0 and 255. -/
theorem clampValue_eq (v : ℚ) :
    clampValue v = Scalar.Rounding.round (Scalar.clamp v 0.0 255.0) := by
  obtain ⟨lower, upper⟩ := Scalar.clamp_mem (show (0.0 : ℚ) ≤ 255.0 by norm_num) v
  obtain ⟨lower', upper'⟩ : 0 ≤ Scalar.Rounding.round (Scalar.clamp v 0.0 255.0) ∧
      Scalar.Rounding.round (Scalar.clamp v 0.0 255.0) ≤ 255 :=
    Scalar.round_mem le_rfl (le_trans (by norm_num) lower) (le_trans upper (by norm_num))
  rw [clampValue, Arith.clamp, min_eq_left (by omega), max_eq_right (by omega)]

/-- A higher value is not rounded to a lower one. `Steering` and the fairness of the chain rest on
it. -/
theorem clampValue_mono {v w : ℚ} (le : v ≤ w) : clampValue v ≤ clampValue w := by
  have h : (0.0 : ℚ) ≤ 255.0 := by norm_num
  rw [clampValue_eq, clampValue_eq]
  apply Scalar.round_mono
  · exact le_trans (by norm_num) (Scalar.clamp_mem h v).1
  · exact Scalar.clamp_mono h le

/-- A value is at most a half further from a target between 0 and 255 than it was before it was
clamped. The bounds on the target are needed: clamping moves towards the range and so towards any
target in it. -/
theorem clampValue_near (v : ℚ) {target : ℚ} (lower : 0 ≤ target) (upper : target ≤ 255) :
    |(clampValue v : ℚ) - target| ≤ |v - target| + 0.5 := by
  have h : (0.0 : ℚ) ≤ 255.0 := by norm_num
  have clamped := Scalar.clamp_near h v (le_trans (by norm_num) lower)
    (le_trans upper (by norm_num))
  have rounded := Scalar.round_near (le_trans (by norm_num) (Scalar.clamp_mem h v).1)
  rw [clampValue_eq]
  calc |(Scalar.Rounding.round (Scalar.clamp v 0.0 255.0) : ℚ) - target|
      ≤ |(Scalar.Rounding.round (Scalar.clamp v 0.0 255.0) : ℚ) - Scalar.clamp v 0.0 255.0| +
          |Scalar.clamp v 0.0 255.0 - target| := abs_sub_le _ _ _
    _ ≤ |v - target| + 0.5 := by linarith

/-- What a player's own axis contributes to the mixed value, and the opponent's. The centre cancels
out, so the opponent's share is 0.15 of their axis and drift. -/
theorem entangled_eq (raw : Controls ℚ) (drift : Drift ℚ) : entangled raw drift =
    (clampValue (127.5 + 127.5 * raw.p1 + drift.p1 - 0.15 * (127.5 * raw.p2 + drift.p2)),
      clampValue (127.5 + 127.5 * raw.p2 + drift.p2 - 0.15 * (127.5 * raw.p1 + drift.p1))) := by
  have mixed : ∀ x y d e : ℚ, center + (toValue x + d - center) -
      entangle * (toValue y + e - center) =
      127.5 + 127.5 * x + d - 0.15 * (127.5 * y + e) := by
    intro x y d e
    simp only [toValue, center_eq, span_eq, entangle_eq]
    linarith
  simp only [entangled, mixed]

/-- The values a player's own axis gives alone are near those that are made of it: 43.775 is 21 of
drift, 0.15 of the opponent's 148.5, and a half for the rounding. -/
structure Near (raw : Controls ℚ) (values : Int × Int) : Prop where
  p1 : |(values.1 : ℚ) - (127.5 + 127.5 * raw.p1)| ≤ 43.775
  p2 : |(values.2 : ℚ) - (127.5 + 127.5 * raw.p2)| ≤ 43.775

/-- The drift moves a value by 21, the opponent by 0.15 · (127.5 + 21), the rounding by a half. Both
ends of the range are covered, where the clamp only brings the value nearer. -/
theorem entangled_near {raw : Controls ℚ} {drift : Drift ℚ} (controls : raw.Bounded)
    (drifts : drift.Bounded) : Near raw (entangled raw drift) := by
  have moved : ∀ x y d e : ℚ, (-1 ≤ x ∧ x ≤ 1) → (-1 ≤ y ∧ y ≤ 1) → (-21 ≤ d ∧ d ≤ 21) →
      (-21 ≤ e ∧ e ≤ 21) →
      |(clampValue (127.5 + 127.5 * x + d - 0.15 * (127.5 * y + e)) : ℚ) -
        (127.5 + 127.5 * x)| ≤ 43.775 := by
    rintro x y d e ⟨_, _⟩ ⟨_, _⟩ ⟨_, _⟩ ⟨_, _⟩
    refine (clampValue_near _ (by linarith) (by linarith)).trans ?_
    have mixed : |127.5 + 127.5 * x + d - 0.15 * (127.5 * y + e) - (127.5 + 127.5 * x)| ≤
        43.275 := by
      rw [abs_le]
      constructor
      · linarith
      · linarith
    linarith
  rw [entangled_eq]
  exact ⟨moved _ _ _ _ controls.p1 controls.p2 drifts.p1 drifts.p2,
    moved _ _ _ _ controls.p2 controls.p1 drifts.p2 drifts.p1⟩

end Motorball.Server
