import Motorball.Link.Chain
import Motorball.Server.Inputs
import Mathlib.Order.WithBot

/-!
# Pulling harder

What comes of a player's efforts over a whole run. Two runs of the server take the same steps in the
same order, but in the second player 1 pulls further to the right wherever there is a choice, and
player 2 further to the left (`Pulls`): in the number of a request, in a move of the mouse, in the
buttons that are held, in the sides and the axes of the gamepad. These are compared as they come in,
before the server has made anything of them. That no reading of them turns an effort around is the
first part of the proof: `clampAxis_mono`, `mouseButtonDirection_mono`, and `gamepadDirection_mono`,
where the axis that is moved the furthest decides and may be another one after a harder pull.

`Pulled` is what the threads keep of it from step to step: no thread, and no clamp on the way, turns
an effort against the player who makes it. `pulling_pays` says what both servos see.
-/

namespace Motorball.Link.Steering

open Transducer Motorball.Server Motorball.Server.Inputs

/-! ## The axes -/

/-- Player 1's axis is as far to the right or further, and player 2's as far to the left: the order
in which the players pull against each other. -/
structure Apart (raw raw' : Controls ℚ) : Prop where
  p1 : raw.p1 ≤ raw'.p1
  p2 : raw'.p2 ≤ raw.p2

/-- Mixing keeps the axes apart, since each player's value goes up with their own axis and down with
the other's. -/
theorem Apart.entangled {raw raw' : Controls ℚ} (apart : Apart raw raw') (drift : Drift ℚ) :
    (entangled raw drift).1 ≤ (entangled raw' drift).1 ∧
      (entangled raw' drift).2 ≤ (entangled raw drift).2 := by
  obtain ⟨own, opponent⟩ := entangled_mono_p1 raw apart.p1 drift
  obtain ⟨opponent', own'⟩ := entangled_mono_p2 raw' apart.p2 drift
  exact ⟨own.trans own', opponent'.trans opponent⟩

/-- The limits of an axis keep the order. -/
theorem axis_mono {x y : ℚ} (le : x ≤ y) :
    Scalar.clamp x (-1.0) 1.0 ≤ Scalar.clamp y (-1.0) 1.0 :=
  Scalar.clamp_mono (by norm_num) le

/-! ## What a player does -/

/-- How far to the right a request asks an axis to go, the infinities included. A value that is not
a number asks for the middle, as `clamp_axis` reads it. -/
def asked : Scalar.Extended ℚ → WithBot (WithTop ℚ)
  | .nan => ((0 : ℚ) : WithTop ℚ)
  | .negInfinity => ⊥
  | .finite x => (x : WithTop ℚ)
  | .infinity => ((⊤ : WithTop ℚ) : WithBot (WithTop ℚ))

/-- A request that asks for more is not granted less. -/
theorem clampAxis_mono {x x' : Scalar.Extended ℚ} (le : asked x ≤ asked x') :
    clampAxis x ≤ clampAxis x' := by
  have middle : (clampAxis .nan : ℚ) = Scalar.clamp 0 (-1.0) 1.0 := by decide +kernel
  have least : ∀ y : Scalar.Extended ℚ, (clampAxis .negInfinity : ℚ) ≤ clampAxis y := by
    intro y
    have bottom : (clampAxis .negInfinity : ℚ) = -1 := by norm_num [clampAxis]
    rw [bottom]
    exact (clampAxis_mem y).1
  have greatest : ∀ y : Scalar.Extended ℚ, (clampAxis y : ℚ) ≤ clampAxis .infinity := by
    intro y
    have top : (clampAxis .infinity : ℚ) = 1 := by norm_num [clampAxis]
    rw [top]
    exact (clampAxis_mem y).2
  cases x with
  | negInfinity => exact least x'
  | infinity =>
    cases x' with
    | infinity => exact le_rfl
    | nan => exact absurd le (by decide +kernel)
    | negInfinity | finite => exact absurd le (by simp [asked])
  | nan =>
    cases x' with
    | infinity => exact greatest _
    | negInfinity => exact absurd le (by simp [asked])
    | nan => exact le_rfl
    | finite y =>
      rw [middle]
      exact axis_mono (by simpa only [asked, WithBot.coe_le_coe, WithTop.coe_le_coe] using le)
  | finite x =>
    cases x' with
    | infinity => exact greatest _
    | negInfinity => exact absurd le (by simp [asked])
    | nan =>
      rw [middle]
      exact axis_mono (by simpa only [asked, WithBot.coe_le_coe, WithTop.coe_le_coe] using le)
    | finite y =>
      exact axis_mono (by simpa only [asked, WithBot.coe_le_coe, WithTop.coe_le_coe] using le)

/-- A button more on the right or less on the left does not turn the ramp to the left; both at once
cancel out. -/
theorem mouseButtonDirection_mono {left left' right right' : Bool} (less : left' ≤ left)
    (more : right ≤ right') :
    (mouseButtonDirection left right : ℚ) ≤ mouseButtonDirection left' right' := by
  revert left left' right right'
  decide +kernel

/-- A gamepad that nobody touches, which is also what a missing one comes to. -/
def untouched : Pad ℚ := ⟨false, false, false, false, 0, 0, 0⟩

/-- Whoever holds the second gamepad pulls no less to the left: no side is let go on the left or
pressed on the right, and no axis is further to the right. The order is one of the raw buttons and
axes, before the server makes a direction of them. -/
structure PullsLeft (pad pad' : Pad ℚ) : Prop where
  dPadLeft : pad.dPadLeft ≤ pad'.dPadLeft
  north : pad.north ≤ pad'.north
  dPadRight : pad'.dPadRight ≤ pad.dPadRight
  east : pad'.east ≤ pad.east
  leftStickX : pad'.leftStickX ≤ pad.leftStickX
  rightStickX : pad'.rightStickX ≤ pad.rightStickX
  dPadX : pad'.dPadX ≤ pad.dPadX

/-- Of two axes the one that is moved further, the first if neither is. -/
def further (x candidate : ℚ) : ℚ := if |x| < |candidate| then candidate else x

/-- If both axes move to the left, so does the one that counts, whichever that is before and
after. -/
theorem further_mono {x x' candidate candidate' : ℚ} (le : x' ≤ x) (le' : candidate' ≤ candidate) :
    further x' candidate' ≤ further x candidate := by
  unfold further
  split
  next overtakes =>
    split
    next => exact le'
    -- `candidate'` is beyond `x'`, and `candidate` was not beyond `x`
    next behind =>
      rw [not_lt] at behind
      rcases le_total 0 x with right | left
      · rw [abs_of_nonneg right] at behind
        exact le'.trans ((le_abs_self candidate).trans behind)
      · rw [abs_of_nonpos left] at behind
        rw [abs_of_nonpos (le.trans left), lt_abs] at overtakes
        obtain up | down := overtakes
        · linarith [neg_le_of_abs_le behind, le_abs_self candidate]
        · linarith
  next behind =>
    rw [not_lt] at behind
    split
    next overtakes =>
      rcases le_total 0 candidate with right | left
      · rw [abs_of_nonneg right] at overtakes
        exact le.trans ((le_abs_self x).trans overtakes.le)
      · rw [abs_of_nonpos left, abs_lt] at overtakes
        rw [abs_of_nonpos (le'.trans left), le_abs] at behind
        obtain up | down := behind
        · linarith
        · linarith
    next => exact le

/-- The dead zone keeps the order of what it is asked. -/
theorem deadened_mono {x x' : ℚ} (le : x' ≤ x) :
    (if x' < -deadzone then -1.0 else if deadzone < x' then 1.0 else 0.0 : ℚ) ≤
      if x < -deadzone then -1.0 else if deadzone < x then 1.0 else 0.0 := by
  have wide : (0 : ℚ) < deadzone := by norm_num [deadzone]
  split
  next => split <;> [exact le_rfl; (split <;> norm_num)]
  next inside' =>
    rw [if_neg fun left => inside' (le.trans_lt left)]
    split
    next right => rw [if_pos (right.trans_le le)]
    next => split <;> norm_num

/-- The direction of an input is within the axis's limits, so a side that is pressed is never worse
than what the axes decide. -/
theorem inputDirection_mem (left right : Bool) (axes : Vector ℚ 3) :
    -1 ≤ inputDirection left right axes ∧ inputDirection left right axes ≤ 1 := by
  unfold inputDirection
  split
  · norm_num
  · norm_num
  · norm_num
  · dsimp only
    split
    · norm_num
    · split <;> norm_num

/-- **A harder pull to the left does not turn the gamepad to the right.** Pressing a side of one's
own or letting go of the other one can end what the axes decide, but only for the better. -/
theorem padDirection_mono {pad pad' : Pad ℚ} (pulls : PullsLeft pad pad') :
    padDirection pad' ≤ padDirection pad := by
  have axes : inputDirection false false #v[pad'.leftStickX, pad'.rightStickX, pad'.dPadX] ≤
      inputDirection false false #v[pad.leftStickX, pad.rightStickX, pad.dPadX] :=
    deadened_mono (further_mono (further_mono pulls.leftStickX pulls.rightStickX) pulls.dPadX)
  have left : (pad.dPadLeft || pad.north) ≤ (pad'.dPadLeft || pad'.north) :=
    sup_le_sup pulls.dPadLeft pulls.north
  have right : (pad'.dPadRight || pad'.east) ≤ (pad.dPadRight || pad.east) :=
    sup_le_sup pulls.dPadRight pulls.east
  rw [padDirection, padDirection]
  generalize (pad.dPadLeft || pad.north) = held at left ⊢
  generalize (pad'.dPadLeft || pad'.north) = held' at left ⊢
  generalize (pad.dPadRight || pad.east) = opposed at right ⊢
  generalize (pad'.dPadRight || pad'.east) = opposed' at right ⊢
  cases held' with
  | true =>
    cases opposed' with
    | false =>
      have first : ∀ axes : Vector ℚ 3, inputDirection true false axes = -1 := by
        norm_num [inputDirection]
      rw [first]
      exact (inputDirection_mem _ _ _).1
    | true =>
      rw [Bool.eq_true_of_true_le right]
      cases held <;> norm_num [inputDirection]
  | false =>
    rw [Bool.eq_false_of_le_false left]
    cases opposed with
    | true =>
      have last : ∀ axes : Vector ℚ 3, inputDirection false true axes = 1 := by
        norm_num [inputDirection]
      rw [last]
      exact (inputDirection_mem _ _ _).2
    | false =>
      rw [Bool.eq_false_of_le_false right]
      exact axes

/-- The direction of the gamepad that is there, if one is. -/
theorem gamepadDirection_mono {pad pad' : Option (Pad ℚ)}
    (pulls : PullsLeft (pad.getD untouched) (pad'.getD untouched)) :
    gamepadDirection pad' ≤ gamepadDirection pad := by
  have still : padDirection untouched = 0 := by decide +kernel
  have read : ∀ pad : Option (Pad ℚ), gamepadDirection pad = padDirection (pad.getD untouched) := by
    intro pad
    cases pad with
    | none => exact still.symm
    | some pad => rfl
  rw [read, read]
  exact padDirection_mono pulls

/-! ## Two runs -/

/-- An event in which player 1 pulls as far to the right or further, and player 2 to the left, at
the same step of the same thread. What is ordered is what the players do: the values requested, the
mouse's motion, its buttons, the gamepad's buttons and axes. -/
inductive Pulls : Event ℚ → Event ℚ → Prop
  | setInput (player : String) (x x' : Scalar.Extended ℚ)
      (p1 : player = "p1" → asked x ≤ asked x')
      (p2 : player = "p2" → asked x' ≤ asked x) :
      Pulls (.setInput player x) (.setInput player x')
  | mouse (dx dx' : Int) (le : dx ≤ dx') : Pulls (.mouse dx) (.mouse dx')
  | leftButton (held held' : Bool) (less : held' ≤ held) :
      Pulls (.leftButton held) (.leftButton held')
  | rightButton (held held' : Bool) (more : held ≤ held') :
      Pulls (.rightButton held) (.rightButton held')
  | loadLeft : Pulls .loadLeft .loadLeft
  | loadRight : Pulls .loadRight .loadRight
  | applyRamp : Pulls .applyRamp .applyRamp
  | gamepad (pad pad' : Option (Pad ℚ))
      (left : PullsLeft (pad.getD untouched) (pad'.getD untouched)) :
      Pulls (.gamepad pad) (.gamepad pad')
  | driftTick : Pulls .driftTick .driftTick
  | copy (reader : Reader) : Pulls (.copy reader) (.copy reader)
  | mix (reader : Nat) : Pulls (.mix reader) (.mix reader)

/-- The ramp thread is at the same place of its turn, and goes no less to the right with what it has
read of the buttons so far. -/
inductive Ramps : Ramp ℚ → Ramp ℚ → Prop
  | idle : Ramps .idle .idle
  | loaded {left left' : Bool} (less : left' ≤ left) : Ramps (.loaded left) (.loaded left')
  | decided {direction direction' : ℚ} (le : direction ≤ direction') :
      Ramps (.decided direction) (.decided direction')

/-- What the threads keep of a harder pull: the axes and the copies readers have taken are apart,
the buttons and the ramp are ordered, and the drift is the same, for nobody pulls at it. -/
structure Pulled (s s' : Inputs ℚ) : Prop where
  controls : Apart s.controls s'.controls
  drift : s.drift = s'.drift
  rng : s.rng = s'.rng
  left : s'.leftHeld ≤ s.leftHeld
  right : s.rightHeld ≤ s'.rightHeld
  ramp : Ramps s.ramp s'.ramp
  pending : List.Forall₂ (fun copy copy' => copy.1 = copy'.1 ∧ Apart copy.2 copy'.2)
    s.pending s'.pending

/-- The same reader is served, with no less for player 1 and no more for player 2. -/
inductive Answers : Obs ℚ → Obs ℚ → Prop
  | silent : Answers .silent .silent
  | refused (response : HttpResponse) : Answers (.refused response) (.refused response)
  | served (who : Reader) {raw raw' : Controls ℚ} {drift : Drift ℚ} {values values' : Int × Int}
      {response response' : Option HttpResponse} (p1 : values.1 ≤ values'.1)
      (p2 : values'.2 ≤ values.2) :
      Answers (.served who raw drift values response) (.served who raw' drift values' response')

variable {s s' t t' : Inputs ℚ} {e e' : Event ℚ} {o o' : Obs ℚ}

/-- Both runs begin with the same state. -/
theorem Pulled.start (rng : Rng) : Pulled (start rng) (start rng) :=
  ⟨⟨le_rfl, le_rfl⟩, rfl, rfl, le_rfl, le_rfl, .idle, .nil⟩

/-- A write of the controls that keeps them apart keeps the relation. -/
theorem Pulled.write (pulled : Pulled s s') {controls controls' : Controls ℚ}
    (apart : Apart controls controls') :
    Pulled { s with controls } { s' with controls := controls' } :=
  ⟨apart, pulled.drift, pulled.rng, pulled.left, pulled.right, pulled.ramp, pulled.pending⟩

/-- A reader copies the controls in both runs, and the copies are apart. -/
theorem Pulled.copied (pulled : Pulled s s') (reader : Reader) :
    Pulled { s with pending := s.pending ++ [(reader, s.controls)] }
      { s' with pending := s'.pending ++ [(reader, s'.controls)] } :=
  ⟨pulled.controls, pulled.drift, pulled.rng, pulled.left, pulled.right, pulled.ramp,
    forall₂_snoc.mpr ⟨pulled.pending, rfl, pulled.controls⟩⟩

/-- A request for the axis of a player, or of nobody. -/
theorem Pulled.setInput (pulled : Pulled s s') {player : String} {x x' : Scalar.Extended ℚ}
    (p1 : player = "p1" → asked x ≤ asked x') (p2 : player = "p2" → asked x' ≤ asked x)
    (moved : step s (.setInput player x) = some (t, o))
    (moved' : step s' (.setInput player x') = some (t', o')) : Pulled t t' ∧ Answers o o' := by
  have written : ∀ {controls controls' : Controls ℚ}, Apart controls controls' →
      Pulled { s with controls, pending := s.pending ++ [(.setInput, controls)] }
        { s' with controls := controls', pending := s'.pending ++ [(.setInput, controls')] } :=
    fun apart => (pulled.write apart).copied .setInput
  by_cases first : player = "p1"
  · subst first
    cases moved
    cases moved'
    exact ⟨written ⟨clampAxis_mono (p1 rfl), pulled.controls.p2⟩, .silent⟩
  · by_cases second : player = "p2"
    · subst second
      cases moved
      cases moved'
      exact ⟨written ⟨pulled.controls.p1, clampAxis_mono (p2 rfl)⟩, .silent⟩
    · simp only [step, Controls.setInput, if_neg first, if_neg second] at moved moved'
      cases moved
      cases moved'
      exact ⟨pulled, .refused _⟩

/-- A turn of the ramp thread, section by section. -/
theorem Pulled.turn (pulled : Pulled s s') (bounded : s.Bounded) (bounded' : s'.Bounded)
    (turn : e = .loadLeft ∨ e = .loadRight ∨ e = .applyRamp) (moved : step s e = some (t, o))
    (moved' : step s' e = some (t', o')) : Pulled t t' ∧ Answers o o' := by
  have ramp := pulled.ramp
  obtain ⟨controls, drift, left, right, ramp', rng, pending⟩ := s
  obtain ⟨controls', drift', left', right', ramp'', rng', pending'⟩ := s'
  obtain ⟨apart, hdrift, hrng, hleft, hright, -, hpending⟩ := pulled
  cases ramp with
  | idle =>
    obtain rfl | rfl | rfl := turn <;> cases moved
    cases moved'
    exact ⟨⟨apart, hdrift, hrng, hleft, hright, .loaded hleft, hpending⟩, .silent⟩
  | loaded less =>
    obtain rfl | rfl | rfl := turn <;> cases moved
    cases moved'
    exact ⟨⟨apart, hdrift, hrng, hleft, hright, .decided (mouseButtonDirection_mono less hright),
      hpending⟩, .silent⟩
  | decided le =>
    obtain rfl | rfl | rfl := turn <;> cases moved
    cases moved'
    refine ⟨⟨⟨?_, ?_⟩, hdrift, hrng, hleft, hright, .idle, hpending⟩, .silent⟩
    · dsimp only
      rw [Controls.ramp_eq bounded.controls, Controls.ramp_eq bounded'.controls]
      apply axis_mono
      have rate : (0 : ℚ) ≤ clickRate := by norm_num [clickRate]
      exact add_le_add apart.p1 (mul_le_mul_of_nonneg_right le rate)
    · dsimp only
      rw [Controls.ramp_eq bounded.controls, Controls.ramp_eq bounded'.controls]
      exact apart.p2

/-- **No step turns a pull against the player.** -/
theorem Pulled.step (pulled : Pulled s s') (bounded : s.Bounded) (bounded' : s'.Bounded)
    (pulls : Pulls e e') (moved : step s e = some (t, o))
    (moved' : Inputs.step s' e' = some (t', o')) :
    Pulled t t' ∧ Answers o o' := by
  have apart := pulled.controls
  cases pulls with
  | setInput player x x' p1 p2 => exact pulled.setInput p1 p2 moved moved'
  | loadLeft => exact pulled.turn bounded bounded' (Or.inl rfl) moved moved'
  | loadRight => exact pulled.turn bounded bounded' (Or.inr (Or.inl rfl)) moved moved'
  | applyRamp => exact pulled.turn bounded bounded' (Or.inr (Or.inr rfl)) moved moved'
  | mouse dx dx' le =>
    cases moved
    cases moved'
    refine ⟨pulled.write ?_, .silent⟩
    rw [Controls.applyMouseDx_eq bounded.controls, Controls.applyMouseDx_eq bounded'.controls]
    refine ⟨axis_mono ?_, apart.p2⟩
    have rate : (0 : ℚ) ≤ mouseRate := by norm_num [mouseRate]
    exact add_le_add apart.p1 (mul_le_mul_of_nonneg_right (Int.cast_le.mpr le) rate)
  | gamepad pad pad' left =>
    cases moved
    cases moved'
    have le := gamepadDirection_mono left
    refine ⟨pulled.write ?_, .silent⟩
    rw [Controls.gamepad_eq bounded.controls, Controls.gamepad_eq bounded'.controls]
    refine ⟨apart.p1, axis_mono ?_⟩
    have rate : (0 : ℚ) ≤ p2Rate := by norm_num [p2Rate]
    exact add_le_add apart.p2 (mul_le_mul_of_nonneg_right le rate)
  | leftButton held held' less =>
    cases moved
    cases moved'
    exact ⟨{ pulled with left := less }, .silent⟩
  | rightButton held held' more =>
    cases moved
    cases moved'
    exact ⟨{ pulled with right := more }, .silent⟩
  | driftTick =>
    cases moved
    cases moved'
    have ticked : s.drift.tick s.rng = s'.drift.tick s'.rng := by rw [pulled.drift, pulled.rng]
    exact ⟨{ pulled with drift := congrArg Prod.fst ticked, rng := congrArg Prod.snd ticked },
      .silent⟩
  | copy reader =>
    simp only [Inputs.step] at moved moved'
    split at moved
    · cases moved
    next other =>
      rw [if_neg other] at moved'
      cases moved
      cases moved'
      exact ⟨pulled.copied reader, .silent⟩
  | mix reader =>
    cases moved_of_step moved with
    | mix reader who raw waits =>
      cases moved_of_step moved' with
      | mix reader who' raw' waits' =>
        obtain ⟨rfl, apart⟩ := forall₂_getElem? pulled.pending waits waits'
        obtain ⟨p1, p2⟩ := apart.entangled s.drift
        have mixed : Pulled { s with pending := s.pending.eraseIdx reader }
            { s' with pending := s'.pending.eraseIdx reader } :=
          { pulled with pending := forall₂_eraseIdx pulled.pending reader }
        refine ⟨mixed, ?_⟩
        rw [← pulled.drift]
        exact .served who p1 p2

/-! ## The servos -/

/-- **Pulling pays.** In two runs of the same steps, in the second of which player 1 pulls no less
to the right and player 2 no less to the left at every step: each reader that is served in the first
is served in the second, with no less for player 1 and no more for player 2, so that player 1's
servo gets no longer a pulse and player 2's no shorter one; and the axes end so. The drift is the
same in both, for its generator is; all arithmetic is exact. -/
theorem pulling_pays {rng : Rng} {events events' : List (Event ℚ)} {outputs outputs' : List (Obs ℚ)}
    (runs : Runs Inputs.step (start rng) events outputs s)
    (runs' : Runs Inputs.step (start rng) events' outputs' s')
    (pulls : List.Forall₂ Pulls events events') :
    Apart s.controls s'.controls ∧
      ∀ (i : Nat) who raw drift values response,
        outputs[i]? = some (.served who raw drift values response) →
        ∃ raw' values' response', outputs'[i]? = some (.served who raw' drift values' response') ∧
          values.1 ≤ values'.1 ∧ values'.2 ≤ values.2 ∧
          pulse values'.1 ≤ pulse values.1 ∧ pulse values.2 ≤ pulse values'.2 := by
  have related : (Pulled s s' ∧ s.Bounded ∧ s'.Bounded) ∧
      List.Forall₂ Answers outputs outputs' := by
    apply runs.relate runs' pulls ⟨.start rng, start_bounded rng, start_bounded rng⟩
    rintro s t e e' s' t' o o' ⟨pulled, bounded, bounded'⟩ pulls moved moved'
    obtain ⟨pulled', answers⟩ := pulled.step bounded bounded' pulls moved moved'
    exact ⟨⟨pulled', bounded.moved (moved_of_step moved), bounded'.moved (moved_of_step moved')⟩,
      answers⟩
  obtain ⟨⟨pulled, -, -⟩, answers⟩ := related
  refine ⟨pulled.controls, ?_⟩
  intro i who raw drift values response served
  have hlt := (List.getElem?_eq_some_iff.mp served).1
  rw [answers.length_eq] at hlt
  have served' := List.getElem?_eq_getElem hlt
  have answer := forall₂_getElem? answers served served'
  generalize outputs'[i] = output' at answer served'
  cases answer with
  | @served _ _ raw' _ _ values' _ response' p1 p2 =>
    exact ⟨raw', values', response', served', p1, p2, pulse_antitone p1, pulse_antitone p2⟩

/-- Player 1 asks for nothing that is a number and lets the mouse go to the left; player 2 has one
stick on the right. Every kind of step occurs. -/
def rested : List (Event ℚ) :=
  [.setInput "p1" .nan, .rightButton false, .loadLeft, .loadRight, .driftTick,
    .gamepad (some ⟨false, false, false, false, 0.2, 0, 0⟩), .applyRamp, .mouse (-100),
    .copy .unoSerial, .driftTick, .mix 1]

/-- Player 1 pulls in every way there is; player 2 has the other stick further on the left. -/
def strained : List (Event ℚ) :=
  [.setInput "p1" (.finite 0.5), .rightButton true, .loadLeft, .loadRight, .driftTick,
    .gamepad (some ⟨false, false, false, false, 0.2, -0.8, 0⟩), .applyRamp, .mouse 300,
    .copy .unoSerial, .driftTick, .mix 1]

/-- The serial sender is served 122 and 132 in the first run, and the pull of the second moves both
apart. -/
theorem pulling_pays_strained :
    ∃ outputs outputs' s s', Runs Inputs.step (start ⟨1⟩) rested outputs s ∧
      Runs Inputs.step (start ⟨1⟩) strained outputs' s' ∧ Apart s.controls s'.controls ∧
      ∃ raw' drift values' response',
        outputs'[10]? = some (.served .unoSerial raw' drift values' response') ∧
        122 ≤ values'.1 ∧ values'.2 ≤ 132 ∧
        pulse values'.1 ≤ pulse 122 ∧ pulse 132 ≤ pulse values'.2 := by
  have ran : (run Inputs.step (start ⟨1⟩) rested).map (fun p => p.2[10]?) =
      some (some (.served .unoSerial ⟨-1 / 40, 3 / 100⟩
        ⟨-39747911 / 26214400, 56969301 / 419430400⟩ (122, 132) none)) := by decide +kernel
  have ran' : ((run Inputs.step (start ⟨1⟩) strained).map fun _ => ()) = some () := by
    decide +kernel
  obtain ⟨outputs, s, runs, served⟩ := runs_of_run ran
  obtain ⟨outputs', s', runs', -⟩ := runs_of_run ran'
  have request : Pulls (.setInput "p1" .nan) (.setInput "p1" (.finite 0.5)) :=
    .setInput _ _ _ (fun _ => by decide +kernel) fun h => absurd h (by decide)
  have sticks : Pulls (.gamepad (some ⟨false, false, false, false, 0.2, 0, 0⟩))
      (.gamepad (some ⟨false, false, false, false, 0.2, -0.8, 0⟩)) := by
    refine .gamepad _ _ ⟨le_rfl, le_rfl, le_rfl, le_rfl, le_rfl, ?_, le_rfl⟩
    norm_num
  have pulls : List.Forall₂ Pulls rested strained :=
    .cons request (.cons (.rightButton _ _ (by decide)) (.cons .loadLeft (.cons .loadRight
      (.cons .driftTick (.cons sticks (.cons .applyRamp (.cons (.mouse _ _ (by decide))
        (.cons (.copy _) (.cons .driftTick (.cons (.mix _) .nil))))))))))
  obtain ⟨apart, serves⟩ := pulling_pays runs runs' pulls
  obtain ⟨raw', values', response', served', pays⟩ := serves 10 _ _ _ _ _ served
  exact ⟨outputs, outputs', s, s', runs, runs', apart, raw', _, values', response', served', pays⟩

end Motorball.Link.Steering
