import Motorball.Server.Inputs

/-!
# Hands off

What is left of the motion when nobody touches anything: the buttons are up, the mouse lies still,
the sticks jitter within the dead zone, and requests name no player. `padDirection_eq_zero_iff` says
for which gamepads that is so. `hands_off` is about any order of the threads' steps: the axes do not
move at all, and what the drift does to a served value is no more than 25.
-/

namespace Motorball.Server

open Transducer

/-! ## An untouched gamepad -/

/-- No side is pressed without the other, and if none is, no axis is past the dead zone. With both
sides pressed the axes are not looked at. -/
def Pad.AtRest (pad : Pad ℚ) : Prop :=
  (pad.dPadLeft || pad.north) = (pad.dPadRight || pad.east) ∧
    ((pad.dPadLeft || pad.north) = false →
      ∀ x ∈ [pad.leftStickX, pad.rightStickX, pad.dPadX], |x| ≤ deadzone)

/-- The axis that is moved the furthest is within a bound exactly if all are, in whatever order they
are compared. -/
theorem furthest_le_iff {bound : ℚ} (axes : List ℚ) (x : ℚ) :
    |axes.foldl (fun x candidate =>
        if Scalar.abs x < Scalar.abs candidate then candidate else x) x| ≤ bound ↔
      |x| ≤ bound ∧ ∀ candidate ∈ axes, |candidate| ≤ bound := by
  induction axes generalizing x with
  | nil => simp
  | cons candidate axes ih =>
    rw [List.foldl_cons, ih, List.forall_mem_cons, ← and_assoc]
    refine and_congr_left fun _ => ?_
    change |if |x| < |candidate| then candidate else x| ≤ bound ↔ _
    split
    next further => exact ⟨fun le => ⟨further.le.trans le, le⟩, And.right⟩
    next nearer => exact ⟨fun le => ⟨le, (not_lt.mp nearer).trans le⟩, And.left⟩

/-- The dead zone of an axis, its edges included. -/
theorem deadened_eq_zero_iff (x : ℚ) :
    (if x < -deadzone then -1.0 else if deadzone < x then 1.0 else 0.0 : ℚ) = 0 ↔
      |x| ≤ deadzone := by
  rw [abs_le]
  split
  next left => exact iff_of_false (by norm_num) fun within => absurd left (not_lt.mpr within.1)
  next inside =>
    split
    next right => exact iff_of_false (by norm_num) fun within => absurd right (not_lt.mpr within.2)
    next inside' => exact iff_of_true (by norm_num) ⟨not_lt.mp inside, not_lt.mp inside'⟩

/-- **A gamepad gives no direction exactly at rest.** -/
theorem padDirection_eq_zero_iff (pad : Pad ℚ) : padDirection pad = 0 ↔ pad.AtRest := by
  rw [padDirection, Pad.AtRest]
  cases pad.dPadLeft || pad.north <;> cases pad.dPadRight || pad.east
  · have within := deadened_eq_zero_iff ([pad.rightStickX, pad.dPadX].foldl (fun x candidate =>
      if Scalar.abs x < Scalar.abs candidate then candidate else x) pad.leftStickX)
    rw [furthest_le_iff] at within
    simp only [List.forall_mem_cons (a := pad.leftStickX), true_and, forall_const]
    exact within
  · norm_num [inputDirection]
  · norm_num [inputDirection]
  · norm_num [inputDirection]

/-! ## The steps at rest -/

namespace Inputs

/-- An event in which nobody touches anything. The ramp, the wind and the readers go on as ever. -/
def Event.AtRest : Event ℚ → Prop
  | .setInput player _ => player ≠ "p1" ∧ player ≠ "p2"
  | .mouse dx => dx = 0
  | .leftButton held | .rightButton held => held = false
  | .gamepad pad => ∀ p ∈ pad, p.AtRest
  | .loadLeft | .loadRight | .applyRamp | .driftTick | .copy _ | .mix _ => True

/-- The axes are `raw`, nothing is held, and a reader has copied them so or was waiting `before`.
The ramp may be anywhere in its turn, as long as it has found nothing held. -/
structure Still (raw : Controls ℚ) (before : List (Reader × Controls ℚ)) (s : Inputs ℚ) : Prop where
  controls : s.controls = raw
  leftHeld : s.leftHeld = false
  rightHeld : s.rightHeld = false
  ramp : s.ramp = .idle ∨ s.ramp = .loaded false ∨ s.ramp = .decided 0
  pending : ∀ p ∈ s.pending, p ∈ before ∨ p.2 = raw

variable {raw : Controls ℚ} {before : List (Reader × Controls ℚ)} {s s' t : Inputs ℚ}
  {e : Event ℚ} {o : Obs ℚ}

/-- A step at rest keeps it so, whichever thread makes it. -/
theorem Still.step (h : Still raw before s) (rest : e.AtRest) (moved : s.step e = some (s', o)) :
    Still raw before s' := by
  cases e with
  | setInput player x =>
    have unknown : s.controls.setInput player (clampAxis x) = none := by
      rw [Controls.setInput, if_neg rest.1, if_neg rest.2]
    simp only [Inputs.step, unknown] at moved
    cases moved
    exact h
  | mouse dx =>
    cases moved
    have same : s.controls.applyMouseDx dx = s.controls := if_pos rest
    exact ⟨same.trans h.controls, h.leftHeld, h.rightHeld, h.ramp, h.pending⟩
  | leftButton held =>
    cases moved
    exact ⟨h.controls, rest, h.rightHeld, h.ramp, h.pending⟩
  | rightButton held =>
    cases moved
    exact ⟨h.controls, h.leftHeld, rest, h.ramp, h.pending⟩
  | loadLeft =>
    simp only [Inputs.step] at moved
    split at moved
    · cases moved
      exact ⟨h.controls, h.leftHeld, h.rightHeld, .inr (.inl (congrArg _ h.leftHeld)), h.pending⟩
    · cases moved
  | loadRight =>
    simp only [Inputs.step] at moved
    split at moved
    next left ramp =>
      cases moved
      have up : left = false := by
        obtain idle | loaded | decided := h.ramp
        · cases ramp.symm.trans idle
        · cases ramp.symm.trans loaded
          rfl
        · cases ramp.symm.trans decided
      refine ⟨h.controls, h.leftHeld, h.rightHeld, .inr (.inr ?_), h.pending⟩
      rw [up, h.rightHeld]
      norm_num [mouseButtonDirection]
    · cases moved
  | applyRamp =>
    simp only [Inputs.step] at moved
    split at moved
    next direction ramp =>
      cases moved
      have up : direction = 0 := by
        obtain idle | loaded | decided := h.ramp
        · cases ramp.symm.trans idle
        · cases ramp.symm.trans loaded
        · cases ramp.symm.trans decided
          rfl
      have same : s.controls.ramp direction = s.controls := if_neg (by rw [up]; norm_num)
      exact ⟨same.trans h.controls, h.leftHeld, h.rightHeld, .inl rfl, h.pending⟩
    · cases moved
  | gamepad pad =>
    cases moved
    have same : s.controls.gamepad pad = s.controls := by
      cases pad with
      | none => rfl
      | some pad =>
        have up := (padDirection_eq_zero_iff pad).mpr (rest pad rfl)
        exact if_neg (by rw [up]; norm_num)
    exact ⟨same.trans h.controls, h.leftHeld, h.rightHeld, h.ramp, h.pending⟩
  | driftTick =>
    cases moved
    exact ⟨h.controls, h.leftHeld, h.rightHeld, h.ramp, h.pending⟩
  | copy reader =>
    simp only [Inputs.step] at moved
    split at moved
    · cases moved
    · cases moved
      refine ⟨h.controls, h.leftHeld, h.rightHeld, h.ramp, ?_⟩
      rw [List.forall_mem_append, List.forall_mem_singleton]
      exact ⟨h.pending, .inr h.controls⟩
  | mix reader =>
    simp only [Inputs.step] at moved
    split at moved
    · cases moved
    · cases moved
      exact ⟨h.controls, h.leftHeld, h.rightHeld, h.ramp,
        fun p waits => h.pending p (List.mem_of_mem_eraseIdx waits)⟩

/-- Steps at rest end where they began. -/
theorem Still.runs {rested : List (Event ℚ)} {outputs : List (Obs ℚ)} (h : Still raw before s)
    (rest : ∀ e ∈ rested, e.AtRest) (later : Runs Inputs.step s rested outputs t) :
    Still raw before t := by
  have meets : EachStep Inputs.step s rested fun _ e => e.AtRest := by
    rintro earlier e after - - rfl -
    exact rest e (by simp)
  exact meets.invariant later h fun _ _ _ _ still atRest moved => still.step atRest moved

/-- What is served at rest was copied at rest, or before it. -/
theorem Still.served (h : Still raw before s) {who : Reader} {copied : Controls ℚ}
    {drift : Drift ℚ} {values : Int × Int} {response : Option HttpResponse}
    (moved : Moved s e s' (.served who copied drift values response)) :
    (who, copied) ∈ before ∨ copied = raw := by
  cases moved with
  | mix reader _ _ waits => exact h.pending _ (List.mem_of_getElem? waits)

/-! ## What the drift does -/

/-- Two values are no more than one further apart than what they are made of, as each is rounded by
a half at most and clamping does not part them. -/
theorem clampValue_sub {v w : ℚ} (le : v ≤ w) :
    (clampValue w : ℚ) - clampValue v ≤ w - v + 1 := by
  have h : (0.0 : ℚ) ≤ 255.0 := by norm_num
  have clamped := Scalar.clamp_sub_clamp h le
  have nonneg : ∀ x : ℚ, 0 ≤ Scalar.clamp x 0.0 255.0 := fun x =>
    le_trans (by norm_num) (Scalar.clamp_mem h x).1
  have upper := (abs_le.mp (Scalar.round_near (nonneg w))).2
  have lower := (abs_le.mp (Scalar.round_near (nonneg v))).1
  rw [clampValue_eq, clampValue_eq]
  linarith

/-- Values that are made of numbers no more than 24.15 apart differ by 25 at most, being whole. -/
theorem clampValue_drift {v w : ℚ} (near : |v - w| ≤ 24.15) :
    |clampValue v - clampValue w| ≤ 25 := by
  obtain ⟨lower, upper⟩ := abs_le.mp near
  have few : ∀ a b : Int, (a : ℚ) - b ≤ 25.15 → a - b ≤ 25 := by
    intro a b le
    have below : ((a - b : Int) : ℚ) < 26 := by
      push_cast
      linarith
    have below' : a - b < 26 := by exact_mod_cast below
    omega
  rw [abs_le]
  rcases le_total v w with le | le
  · have far := few (clampValue w) (clampValue v) (by linarith [clampValue_sub le])
    have order := clampValue_mono le
    omega
  · have far := few (clampValue v) (clampValue w) (by linarith [clampValue_sub le])
    have order := clampValue_mono le
    omega

/-- The drift moves a value by 21, and the opponent's by 0.15 · 21, which is 24.15 together. -/
theorem entangled_drift (raw : Controls ℚ) {drift : Drift ℚ} (drifts : drift.Bounded) :
    |(entangled raw drift).1 - (entangled raw ⟨0, 0⟩).1| ≤ 25 ∧
      |(entangled raw drift).2 - (entangled raw ⟨0, 0⟩).2| ≤ 25 := by
  obtain ⟨⟨low1, high1⟩, low2, high2⟩ := drifts
  rw [entangled_eq, entangled_eq]
  constructor
  · apply clampValue_drift
    rw [abs_le]
    constructor
    · linarith
    · linarith
  · apply clampValue_drift
    rw [abs_le]
    constructor
    · linarith
    · linarith

/-- **Hands off, and the axes stay.** From any state the server comes to with the buttons up and the
ramp between two turns: as long as nobody touches anything, no step moves an axis, whatever the
order of the threads. Each pair that is served is made of these axes, or of a copy that was waiting,
and neither value is more than 25 from what it would be without the drift. The buttons have to be up
because the ramp acts on what it heard last; and it has to be between turns because it may have
loaded a button that was let go since. -/
theorem hands_off {rng : Rng} {events rested : List (Event ℚ)} {outputs outputs' : List (Obs ℚ)}
    (runs : Runs Inputs.step (start rng) events outputs s) (left : s.leftHeld = false)
    (right : s.rightHeld = false) (idle : s.ramp = .idle)
    (later : Runs Inputs.step s rested outputs' t) (rest : ∀ e ∈ rested, e.AtRest) :
    t.controls = s.controls ∧
      ∀ who raw drift values response, .served who raw drift values response ∈ outputs' →
        ((who, raw) ∈ s.pending ∨ raw = s.controls) ∧
          |values.1 - (entangled raw ⟨0, 0⟩).1| ≤ 25 ∧
            |values.2 - (entangled raw ⟨0, 0⟩).2| ≤ 25 := by
  have still : Still s.controls s.pending s :=
    ⟨rfl, left, right, .inl idle, fun _ waits => .inl waits⟩
  have keeps : ∀ (u : Inputs ℚ) (e : Event ℚ) (u' : Inputs ℚ) (o : Obs ℚ),
      u.Bounded → Inputs.step u e = some (u', o) → u'.Bounded :=
    fun _ _ _ _ bounded moved => bounded.moved (moved_of_step moved)
  refine ⟨(still.runs rest later).controls, ?_⟩
  intro who raw drift values response mem
  obtain ⟨earlier, after, rfl⟩ := List.append_of_mem mem
  obtain ⟨js, e, ks, u, u', rfl, first, moved, -⟩ := later.at_output rfl
  have still' := still.runs (fun e mem => rest e (List.mem_append_left _ mem)) first
  have bounded : u.Bounded := (runs.trans first).invariant (start_bounded rng) keeps
  obtain ⟨-, drifts, rfl⟩ := bounded.served (moved_of_step moved)
  exact ⟨still'.served (moved_of_step moved), entangled_drift raw drifts⟩

/-- A stick jitters while the drift blows and the ramp turns. -/
def jittering : List (Event ℚ) :=
  [.gamepad (some ⟨false, false, false, false, 0.1, -0.12, 0⟩), .driftTick, .loadLeft, .mouse 0,
    .copy .apiControls, .loadRight, .setInput "p3" (.finite 1), .applyRamp, .mix 0]

/-- The drift has taken both values from 128 to 126, and the stick has done nothing. -/
theorem hands_off_jittering : ∃ outputs t,
    Runs Inputs.step (start ⟨1⟩) jittering outputs t ∧ t.controls = ⟨0, 0⟩ ∧
      ∃ drift response, .served .apiControls ⟨0, 0⟩ drift (126, 126) response ∈ outputs ∧
        |126 - (entangled (⟨0, 0⟩ : Controls ℚ) ⟨0, 0⟩).1| ≤ 25 := by
  have ran : (run Inputs.step (start ⟨1⟩) jittering).map (fun p => p.2.getLast?) =
      some (some (.served .apiControls ⟨0, 0⟩ ⟨-2, -7339967 / 4194304⟩ (126, 126)
        (some (.ok "126,126")))) := by decide +kernel
  have rest : ∀ e ∈ jittering, e.AtRest := by
    have unknown : "p3" ≠ "p1" ∧ "p3" ≠ "p2" := by decide
    norm_num [jittering, Event.AtRest, Pad.AtRest, deadzone, unknown]
  obtain ⟨outputs, t, later, hlast⟩ := runs_of_run ran
  have served := List.mem_of_getLast? hlast
  have started : Runs Inputs.step (start ⟨1⟩ : Inputs ℚ) [] [] (start ⟨1⟩) := .nil
  obtain ⟨stays, few⟩ := hands_off started rfl rfl rfl later rest
  have drifts := (few _ _ _ _ _ served).2.1
  exact ⟨outputs, t, later, stays.trans (by norm_num [start]), _, _, served, drifts⟩

end Inputs

end Motorball.Server
