import Motorball.Server.Inputs

/-!
# A player's axis is their own

Which threads an axis listens to, for any arithmetic: the axis of player 1 is moved by requests for
"p1", the mouse and its ramp, that of player 2 by requests for "p2" and the gamepad, and the drift
by its own thread. `axes_isolated` compares two runs of the server that agree on one player's inputs
and on nothing else.
-/

namespace Motorball.Server.Inputs

open Transducer

variable {α : Type}

/-! ## Whose input an event is -/

/-- The inputs of player 1: requests for `p1`, the mouse with its buttons, and the turns of the
ramp, which turns the buttons into motion later. -/
def Event.player1 : Event α → Bool
  | .setInput player _ => player = "p1"
  | .mouse _ | .leftButton _ | .rightButton _ | .loadLeft | .loadRight | .applyRamp => true
  | .gamepad _ | .driftTick | .copy _ | .mix _ => false

/-- The inputs of player 2: requests for `p2` and the gamepad. The ramp and the mouse serve the
other player alone. -/
def Event.player2 : Event α → Bool
  | .setInput player _ => player = "p2"
  | .gamepad _ => true
  | .mouse _ | .leftButton _ | .rightButton _ | .loadLeft | .loadRight | .applyRamp | .driftTick
  | .copy _ | .mix _ => false

/-- The turns of the drift thread, the only steps that call the generator. -/
def Event.drift : Event α → Bool
  | .driftTick => true
  | _ => false

/-- Player 1's axis, with the mouse buttons and the ramp that also move it. -/
def hand1 (s : Inputs α) : α × Bool × Bool × Ramp α :=
  (s.controls.p1, s.leftHeld, s.rightHeld, s.ramp)

/-- Player 2's axis. A gamepad moves it within one section, so nothing has to be kept for it between
sections. -/
def hand2 (s : Inputs α) : α := s.controls.p2

/-- The drift, with the state of its generator. -/
def wind (s : Inputs α) : Drift α × Rng := (s.drift, s.rng)

/-- What a request writes: the axis of the player it names. For any other name it writes nothing,
and so it is neither player's input. -/
theorem setInput_eq_some {controls controls' : Controls α} {player : String} {x : α}
    (written : controls.setInput player x = some controls') :
    (player = "p1" ∧ controls' = { controls with p1 := x }) ∨
      (player = "p2" ∧ controls' = { controls with p2 := x }) := by
  unfold Controls.setInput at written
  split at written
  next first => cases written; exact Or.inl ⟨first, rfl⟩
  · split at written
    next second => cases written; exact Or.inr ⟨second, rfl⟩
    · cases written

section Writers

variable [Scalar α] (controls controls' : Controls α)

/-- The mouse leaves player 2's axis alone. -/
theorem applyMouseDx_p2 (dx : Int) : (controls.applyMouseDx dx).p2 = controls.p2 := by
  unfold Controls.applyMouseDx
  split <;> rfl

/-- The ramp leaves player 2's axis alone. -/
theorem ramp_p2 (direction : α) : (controls.ramp direction).p2 = controls.p2 := by
  unfold Controls.ramp
  split <;> rfl

/-- A gamepad leaves player 1's axis alone. -/
theorem gamepad_p1 (pad : Option (Pad α)) : (controls.gamepad pad).p1 = controls.p1 := by
  cases pad with
  | none => rfl
  | some pad =>
    simp only [Controls.gamepad]
    split <;> rfl

end Writers

variable [Scalar α] [Scalar.Rounding α]

/-- What moves player 1's axis, or the buttons and the ramp that will, is an input of player 1, and
how it moves them depends on nothing else of the state. -/
theorem sees_hand1 : Sees (step : Step (Inputs α) (Event α) (Obs α)) hand1 Event.player1 where
  foreign := by
    intro s e s' o foreign moved
    cases e with
    | setInput player x =>
      simp only [step] at moved
      split at moved
      next controls written =>
        cases moved
        obtain ⟨rfl, -⟩ | ⟨rfl, rfl⟩ := setInput_eq_some written
        · cases foreign
        · rfl
      · cases moved
        rfl
    | gamepad pad =>
      cases moved
      rw [hand1, gamepad_p1]
      rfl
    | driftTick =>
      cases moved
      rfl
    | copy reader =>
      simp only [step] at moved
      split at moved
      · cases moved
      · cases moved
        rfl
    | mix reader =>
      simp only [step] at moved
      split at moved
      · cases moved
      · cases moved
        rfl
    | mouse | leftButton | rightButton | loadLeft | loadRight | applyRamp => cases foreign
  consistent := by
    rintro ⟨⟨p1, p2⟩, drift, left, right, ramp, rng, pending⟩
      ⟨⟨q1, q2⟩, drift', left', right', ramp', rng', pending'⟩ e s' t' o p own same moved moved'
    cases same
    cases e with
    | setInput player x =>
      obtain rfl : player = "p1" := of_decide_eq_true own
      cases moved
      cases moved'
      rfl
    | mouse dx =>
      cases moved
      cases moved'
      simp only [hand1, Controls.applyMouseDx]
      split <;> rfl
    | leftButton held | rightButton held =>
      cases moved
      cases moved'
      rfl
    | loadLeft =>
      cases ramp with
      | idle => cases moved; cases moved'; rfl
      | loaded | decided => cases moved
    | loadRight =>
      cases ramp with
      | loaded left => cases moved; cases moved'; rfl
      | idle | decided => cases moved
    | applyRamp =>
      cases ramp with
      | decided direction =>
        cases moved
        cases moved'
        simp only [hand1, Controls.ramp]
        split <;> rfl
      | idle | loaded => cases moved
    | gamepad | driftTick | copy | mix => cases own

/-- What moves player 2's axis is an input of player 2, and how depends on that axis alone. -/
theorem sees_hand2 : Sees (step : Step (Inputs α) (Event α) (Obs α)) hand2 Event.player2 where
  foreign := by
    intro s e s' o foreign moved
    cases e with
    | setInput player x =>
      simp only [step] at moved
      split at moved
      next controls written =>
        cases moved
        obtain ⟨rfl, rfl⟩ | ⟨rfl, -⟩ := setInput_eq_some written
        · rfl
        · cases foreign
      · cases moved
        rfl
    | mouse dx =>
      cases moved
      exact applyMouseDx_p2 _ dx
    | applyRamp =>
      simp only [step] at moved
      split at moved
      · cases moved
        exact ramp_p2 _ _
      · cases moved
    | leftButton | rightButton | driftTick =>
      cases moved
      rfl
    | loadLeft | loadRight | copy | mix =>
      simp only [step] at moved
      split at moved <;> cases moved
      rfl
    | gamepad => cases foreign
  consistent := by
    rintro ⟨⟨p1, p2⟩, drift, left, right, ramp, rng, pending⟩
      ⟨⟨q1, q2⟩, drift', left', right', ramp', rng', pending'⟩ e s' t' o p own same moved moved'
    cases same
    cases e with
    | setInput player x =>
      obtain rfl : player = "p2" := of_decide_eq_true own
      cases moved
      cases moved'
      rfl
    | gamepad pad =>
      cases moved
      cases moved'
      cases pad with
      | none => rfl
      | some pad =>
        simp only [hand2, Controls.gamepad]
        split <;> rfl
    | mouse | leftButton | rightButton | loadLeft | loadRight | applyRamp | driftTick | copy
    | mix => cases own

/-- Only the drift thread moves the drift, and by its own draws. The controls never enter. -/
theorem sees_wind : Sees (step : Step (Inputs α) (Event α) (Obs α)) wind Event.drift where
  foreign := by
    intro s e s' o foreign moved
    cases e with
    | mouse | leftButton | rightButton | gamepad =>
      cases moved
      rfl
    | setInput | loadLeft | loadRight | applyRamp | copy | mix =>
      simp only [step] at moved
      split at moved <;> cases moved <;> rfl
    | driftTick => cases foreign
  consistent := by
    rintro ⟨⟨p1, p2⟩, drift, left, right, ramp, rng, pending⟩
      ⟨⟨q1, q2⟩, drift', left', right', ramp', rng', pending'⟩ e s' t' o p own same moved moved'
    cases same
    cases e with
    | driftTick =>
      cases moved
      cases moved'
      rfl
    | setInput | mouse | leftButton | rightButton | loadLeft | loadRight | applyRamp | gamepad
    | copy | mix => cases own

/-- **Neither player moves the other's axis.** Take any two runs of the server, with any generators
and any interleavings. If player 1's inputs are the same in both, so is player 1's axis, and if
player 2's are, player 2's axis; and the drift is the same if the generators and the number of turns
of its thread are. Nothing is asked of the other inputs, not even their number; what the values that
are served have of the opponent is put in when they are mixed. -/
theorem axes_isolated {rng rng' : Rng} {events events' : List (Event α)}
    {outputs outputs' : List (Obs α)} {s s' : Inputs α}
    (runs : Runs step (start rng) events outputs s)
    (runs' : Runs step (start rng') events' outputs' s') :
    (events.filter Event.player1 = events'.filter Event.player1 →
        s.controls.p1 = s'.controls.p1) ∧
      (events.filter Event.player2 = events'.filter Event.player2 →
        s.controls.p2 = s'.controls.p2) ∧
      (rng = rng' → events.filter Event.drift = events'.filter Event.drift →
        s.drift = s'.drift) := by
  refine ⟨?_, ?_, ?_⟩
  · intro same
    exact congrArg Prod.fst (runs.noninterference sees_hand1 runs' rfl same)
  · intro same
    have kept : hand2 s = hand2 s' := runs.noninterference sees_hand2 runs' rfl same
    exact kept
  · rintro rfl same
    exact congrArg Prod.fst (runs.noninterference sees_wind runs' rfl same)

/-- Player 1 on the mouse, with nobody else about: a motion, a turn of the ramp, a request and a
motion back. -/
def alone : List (Event ℚ) :=
  [.mouse 400, .leftButton true, .loadLeft, .loadRight, .applyRamp, .setInput "p1" (.finite 0.5),
    .mouse (-40)]

/-- The same inputs of player 1 among requests for the others, the wind, the readers and the other
player's gamepad. -/
def opposed : List (Event ℚ) :=
  [.driftTick, .mouse 400, .leftButton true, .setInput "p2" .infinity, .loadLeft, .copy .logger,
    .loadRight, .gamepad (some ⟨true, false, false, false, 0, 0, 0⟩), .applyRamp, .driftTick,
    .setInput "p1" (.finite 0.5), .mix 1, .mouse (-40), .setInput "p3" .nan]

/-- Player 1's axis is where it would be without all that, though player 2's has moved. -/
theorem axes_isolated_opposed :
    ∃ outputs outputs' s s', Runs step (start ⟨1⟩) alone outputs s ∧
      Runs step (start ⟨7⟩) opposed outputs' s' ∧ s.controls.p1 = s'.controls.p1 ∧
      s.controls.p2 ≠ s'.controls.p2 := by
  have ran : (run step (start ⟨1⟩) alone).map (fun p => p.1.controls.p2) = some 0 := by
    decide +kernel
  have ran' : (run step (start ⟨7⟩) opposed).map (fun p => p.1.controls.p2) = some 0.97 := by
    decide +kernel
  obtain ⟨outputs, s, runs, still⟩ := runs_of_run ran
  obtain ⟨outputs', s', runs', moved⟩ := runs_of_run ran'
  refine ⟨outputs, outputs', s, s', runs, runs', (axes_isolated runs runs').1 ?_, ?_⟩
  · decide +kernel
  · rw [still, moved]
    norm_num

end Motorball.Server.Inputs
