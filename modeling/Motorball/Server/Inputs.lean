import Motorball.Server.Controls
import Motorball.Server.System

/-!
# The threads around the controls

Every thread that touches the controls or the drift, interleaved at its critical sections:

- requests to `/input/{player}`, the mouse reader and the gamepad reader, which each write the
  controls in one section;
- the mouse-button ramp, which loads the two buttons one after the other and then writes (`ramp`);
- the drift thread, which moves both drifts in one section;
- the readers, which copy the controls in one section and the drift in a later one. What each has
  copied of the controls waits in `pending`; a request to `/input/{player}` copies what it has just
  written.

`Moved` lists what each step can do. `outputs_near_inputs` is for any order of the sections.
-/

namespace Motorball.Server

open Transducer

/-- Who reads the controls: the two routes that answer with them, the logger, the display and the
serial sender. -/
inductive Reader where
  | setInput
  | apiControls
  | logger
  | oled
  | unoSerial
  deriving DecidableEq

/-- What a reader answers with, if it answers a request: the two values with a comma between
them. -/
def Reader.respond (values : Int × Int) : Reader → Option HttpResponse
  | .setInput | .apiControls => some (.ok s!"{values.1},{values.2}")
  | .logger | .oled | .unoSerial => none

/-- Where the ramp thread is in its loop. The two buttons are atomics that it loads one after the
other, so a button may change in between. -/
inductive Ramp (α : Type) where
  | idle
  | loaded (left : Bool)
  | decided (direction : α)
  deriving DecidableEq

/-- The shared state around the controls, with what the threads hold between their sections: the
ramp's place in its turn, the drift thread's generator, and the copies that readers have taken. -/
structure Inputs (α : Type) where
  controls : Controls α
  drift : Drift α
  leftHeld : Bool
  rightHeld : Bool
  ramp : Ramp α
  rng : Rng
  pending : List (Reader × Controls α)
  deriving DecidableEq

namespace Inputs

variable {α : Type} [Scalar α]

/-- The inputs at startup, with the drift thread's generator: both axes in the middle, no wind, and
nothing held. -/
def start (rng : Rng) : Inputs α where
  controls := ⟨0.0, 0.0⟩
  drift := ⟨0.0, 0.0⟩
  leftHeld := false
  rightHeld := false
  ramp := .idle
  rng := rng
  pending := []

/-- The sections of the threads. A request to `/input/{player}` is two of them, its write and its
mixing, as it lets the lock go in between. -/
inductive Event (α : Type) where
  /-- The writing section of a request to `/input/{player}`. -/
  | setInput (player : String) (x : Scalar.Extended α)
  /-- The mouse has moved, or one of its buttons has. -/
  | mouse (dx : Int)
  | leftButton (held : Bool)
  | rightButton (held : Bool)
  /-- The three steps of a turn of the ramp thread. -/
  | loadLeft
  | loadRight
  | applyRamp
  /-- A turn of the gamepad reader, with the first gamepad there is. -/
  | gamepad (pad : Option (Pad α))
  /-- A turn of the drift thread. -/
  | driftTick
  /-- A reader other than `set_input` copies the controls. -/
  | copy (reader : Reader)
  /-- A reader that has copied the controls copies the drift and mixes the two. -/
  | mix (reader : Nat)
  deriving DecidableEq

/-- What is seen of a step: nothing, a refused request, or the pair that a reader has mixed, with
what it was made of. -/
inductive Obs (α : Type) where
  | silent
  | refused (response : HttpResponse)
  | served (reader : Reader) (raw : Controls α) (drift : Drift α) (values : Int × Int)
      (response : Option HttpResponse)
  deriving DecidableEq

/-- One section of one thread. It refuses what is out of order: a reader that has copied nothing, or
a step of the ramp's turn before the one it follows. -/
def step [Scalar.Rounding α] (s : Inputs α) : Event α → Option (Inputs α × Obs α)
  | .setInput player x =>
    match s.controls.setInput player (clampAxis x) with
    | some controls =>
      some ({ s with controls, pending := s.pending ++ [(.setInput, controls)] }, .silent)
    | none => some (s, .refused (.badRequest "unknown player (use p1|p2)"))
  | .mouse dx => some ({ s with controls := s.controls.applyMouseDx dx }, .silent)
  | .leftButton held => some ({ s with leftHeld := held }, .silent)
  | .rightButton held => some ({ s with rightHeld := held }, .silent)
  | .loadLeft =>
    match s.ramp with
    | .idle => some ({ s with ramp := .loaded s.leftHeld }, .silent)
    | _ => none
  | .loadRight =>
    match s.ramp with
    | .loaded left =>
      some ({ s with ramp := .decided (mouseButtonDirection left s.rightHeld) }, .silent)
    | _ => none
  | .applyRamp =>
    match s.ramp with
    | .decided direction =>
      some ({ s with controls := s.controls.ramp direction, ramp := .idle }, .silent)
    | _ => none
  | .gamepad pad => some ({ s with controls := s.controls.gamepad pad }, .silent)
  | .driftTick =>
    let (drift, rng) := s.drift.tick s.rng
    some ({ s with drift, rng }, .silent)
  | .copy reader =>
    if reader = .setInput then none
    else some ({ s with pending := s.pending ++ [(reader, s.controls)] }, .silent)
  | .mix reader =>
    match s.pending[reader]? with
    | none => none
    | some (who, raw) =>
      let values := entangled raw s.drift
      some ({ s with pending := s.pending.eraseIdx reader },
        .served who raw s.drift values (who.respond values))

/-! ## What a step can do -/

/-- Every way the inputs move. Where no proof needs to know from which state of the ramp, the guard
is left out. -/
inductive Moved (s : Inputs ℚ) : Event ℚ → Inputs ℚ → Obs ℚ → Prop
  | setInput (player : String) (x : Scalar.Extended ℚ) (controls : Controls ℚ)
      (known : s.controls.setInput player (clampAxis x) = some controls) :
      Moved s (.setInput player x)
        { s with controls, pending := s.pending ++ [(.setInput, controls)] } .silent
  | refuse (player : String) (x : Scalar.Extended ℚ) (response : HttpResponse)
      (unknown : s.controls.setInput player (clampAxis x) = none) :
      Moved s (.setInput player x) s (.refused response)
  | mouse (dx : Int) :
      Moved s (.mouse dx) { s with controls := s.controls.applyMouseDx dx } .silent
  | leftButton (held : Bool) : Moved s (.leftButton held) { s with leftHeld := held } .silent
  | rightButton (held : Bool) : Moved s (.rightButton held) { s with rightHeld := held } .silent
  | loadLeft : Moved s .loadLeft { s with ramp := .loaded s.leftHeld } .silent
  | loadRight (left : Bool) :
      Moved s .loadRight { s with ramp := .decided (mouseButtonDirection left s.rightHeld) } .silent
  | applyRamp (direction : ℚ) :
      Moved s .applyRamp { s with controls := s.controls.ramp direction, ramp := .idle } .silent
  | gamepad (pad : Option (Pad ℚ)) :
      Moved s (.gamepad pad) { s with controls := s.controls.gamepad pad } .silent
  | driftTick :
      Moved s .driftTick
        { s with drift := (s.drift.tick s.rng).1, rng := (s.drift.tick s.rng).2 } .silent
  | copy (reader : Reader) :
      Moved s (.copy reader) { s with pending := s.pending ++ [(reader, s.controls)] } .silent
  | mix (reader : Nat) (who : Reader) (raw : Controls ℚ)
      (waits : s.pending[reader]? = some (who, raw)) :
      Moved s (.mix reader) { s with pending := s.pending.eraseIdx reader }
        (.served who raw s.drift (entangled raw s.drift)
          (who.respond (entangled raw s.drift)))

/-- Each step is one of the moves. -/
theorem moved_of_step {s s' : Inputs ℚ} {event : Event ℚ} {output : Obs ℚ}
    (h : step s event = some (s', output)) : Moved s event s' output := by
  cases event with
  | setInput player x =>
    simp only [step] at h
    split at h
    next controls known => cases h; exact .setInput player x controls known
    next unknown => cases h; exact .refuse player x _ unknown
  | mouse dx => cases h; exact .mouse dx
  | leftButton held => cases h; exact .leftButton held
  | rightButton held => cases h; exact .rightButton held
  | loadLeft =>
    simp only [step] at h
    split at h
    · cases h; exact .loadLeft
    · cases h
  | loadRight =>
    simp only [step] at h
    split at h
    next left _ => cases h; exact .loadRight left
    · cases h
  | applyRamp =>
    simp only [step] at h
    split at h
    next direction _ => cases h; exact .applyRamp direction
    · cases h
  | gamepad pad => cases h; exact .gamepad pad
  | driftTick => cases h; exact .driftTick
  | copy reader =>
    simp only [step] at h
    split at h
    · cases h
    · cases h; exact .copy reader
  | mix reader =>
    simp only [step] at h
    split at h
    · cases h
    next who raw waits => cases h; exact .mix reader who raw waits

/-! ## Every output is near its input -/

/-- The controls, the drift, and what the readers have copied are all within their bounds. The
copies have to be in it, since they are mixed after the controls have moved on. -/
structure Bounded (s : Inputs ℚ) : Prop where
  controls : s.controls.Bounded
  drift : s.drift.Bounded
  pending : ∀ p ∈ s.pending, p.2.Bounded

/-- At startup everything is nought and nobody has copied anything. -/
theorem start_bounded (rng : Rng) : Bounded (start rng) := by
  refine ⟨⟨?_, ?_⟩, ⟨?_, ?_⟩, ?_⟩
  · norm_num [start]
  · norm_num [start]
  · norm_num [start]
  · norm_num [start]
  · intro p hp
    cases hp

/-- What a reader copies is bounded if the controls are. -/
theorem Bounded.copied {s : Inputs ℚ} (bounded : s.Bounded) {who : Reader} {raw : Controls ℚ}
    (h : raw.Bounded) : ∀ p ∈ s.pending ++ [(who, raw)], p.2.Bounded := by
  intro p hp
  rcases List.mem_append.mp hp with old | new
  · exact bounded.pending p old
  · rw [List.mem_singleton.mp new]
    exact h

/-- Every section keeps the bounds: each writer by clamping, and each copy by that of what it is
taken from. -/
theorem Bounded.moved {s s' : Inputs ℚ} {event : Event ℚ} {output : Obs ℚ} (bounded : s.Bounded)
    (moved : Moved s event s' output) : s'.Bounded := by
  obtain ⟨controls, drift, pending⟩ := bounded
  cases moved with
  | setInput player x controls' known =>
    have written := controls.setInput (clampAxis_mem x) known
    exact ⟨written, drift, copied ⟨controls, drift, pending⟩ written⟩
  | refuse => exact ⟨controls, drift, pending⟩
  | mouse dx => exact ⟨controls.applyMouseDx dx, drift, pending⟩
  | leftButton held => exact ⟨controls, drift, pending⟩
  | rightButton held => exact ⟨controls, drift, pending⟩
  | loadLeft => exact ⟨controls, drift, pending⟩
  | loadRight left => exact ⟨controls, drift, pending⟩
  | applyRamp direction => exact ⟨controls.ramp direction, drift, pending⟩
  | gamepad pad => exact ⟨controls.gamepad pad, drift, pending⟩
  | driftTick => exact ⟨controls, Drift.tick_bounded _ _, pending⟩
  | copy reader => exact ⟨controls, drift, copied ⟨controls, drift, pending⟩ controls⟩
  | mix reader who raw waits =>
    exact ⟨controls, drift, fun p hp => pending p (List.mem_of_mem_eraseIdx hp)⟩

/-- What is served is made of a bounded copy and a bounded drift. -/
theorem Bounded.served {s s' : Inputs ℚ} {event : Event ℚ} {who : Reader} {raw : Controls ℚ}
    {drift : Drift ℚ} {values : Int × Int} {response : Option HttpResponse} (bounded : s.Bounded)
    (moved : Moved s event s' (.served who raw drift values response)) :
    raw.Bounded ∧ drift.Bounded ∧ values = entangled raw drift := by
  cases moved with
  | mix reader _ _ waits =>
    exact ⟨bounded.pending _ (List.mem_of_getElem? waits), bounded.drift, rfl⟩

/-- The controls were `raw` at some point of the run over `events`, in a state that its beginning
leads to. -/
def Held (rng : Rng) (events : List (Event ℚ)) (raw : Controls ℚ) : Prop :=
  ∃ before after outputs s, events = before ++ after ∧ Runs step (start rng) before outputs s ∧
    s.controls = raw

variable {rng : Rng} {events : List (Event ℚ)} {outputs : List (Obs ℚ)} {s s' : Inputs ℚ}

/-- What was held stays in the past of the run. -/
theorem Held.snoc {raw : Controls ℚ} (h : Held rng events raw) (event : Event ℚ) :
    Held rng (events ++ [event]) raw := by
  obtain ⟨before, after, outs, t, rfl, runs, hraw⟩ := h
  exact ⟨before, after ++ [event], outs, t, List.append_assoc .., runs, hraw⟩

/-- A copy that waits was waiting before, or is of the controls as they are now. A request copies
what it has just written, and so after its own write. -/
theorem Moved.pending {event : Event ℚ} {output : Obs ℚ} (moved : Moved s event s' output) :
    ∀ p ∈ s'.pending, p ∈ s.pending ∨ p.2 = s'.controls := by
  intro p hp
  cases moved with
  | setInput player x controls known =>
    rcases List.mem_append.mp hp with old | new
    · exact .inl old
    · exact .inr (by rw [List.mem_singleton.mp new])
  | copy reader =>
    rcases List.mem_append.mp hp with old | new
    · exact .inl old
    · exact .inr (by rw [List.mem_singleton.mp new])
  | mix reader who raw waits => exact .inl (List.mem_of_mem_eraseIdx hp)
  | refuse | mouse | leftButton | rightButton | loadLeft | loadRight | applyRamp | gamepad
  | driftTick => exact .inl hp

/-- Whatever waits to be mixed was held in the run, by going back to the section that copied it. -/
theorem held_of_runs (runs : Runs step (start rng) events outputs s) :
    ∀ p ∈ s.pending, Held rng events p.2 := by
  induction runs with
  | nil => exact fun _ mem => absurd mem List.not_mem_nil
  | @snoc events outputs s s' event output before last ih =>
    intro p hp
    rcases (moved_of_step last).pending p hp with old | new
    · exact (ih p old).snoc event
    · exact ⟨_, [], _, s', (List.append_nil _).symm, before.snoc last, new.symm⟩

/-- **No output is far from its own player's input.** Whatever the threads have done and in whatever
order, the controls and the drifts are within their bounds, and both values of every pair that was
or could now be made of them are within 43.775 of what the player's own axis gives alone. A pair
that was served was made of the drift at that instant and of axes that the controls held until then:
the two are copied in sections of their own, so other threads may have moved the axes in between. -/
theorem outputs_near_inputs (runs : Runs step (start rng) events outputs s) :
    s.controls.Bounded ∧ s.drift.Bounded ∧ Near s.controls (entangled s.controls s.drift) ∧
      ∀ before after who raw drift values response,
        outputs = before ++ .served who raw drift values response :: after →
        raw.Bounded ∧ drift.Bounded ∧ values = entangled raw drift ∧ Near raw values ∧
        ∃ earlier later t, events = earlier ++ later ∧ Runs step (start rng) earlier before t ∧
          t.drift = drift ∧ Held rng earlier raw := by
  have keeps : ∀ (t : Inputs ℚ) (event : Event ℚ) (t' : Inputs ℚ) (output : Obs ℚ),
      t.Bounded → step t event = some (t', output) → t'.Bounded :=
    fun _ _ _ _ bounded moved => bounded.moved (moved_of_step moved)
  have bounded : s.Bounded := runs.invariant (start_bounded rng) keeps
  refine ⟨bounded.controls, bounded.drift, entangled_near bounded.controls bounded.drift, ?_⟩
  intro before after who raw drift values response answered
  obtain ⟨earlier, event, later, t, t', split, first, last, -⟩ := runs.at_output answered
  have bounded' : t.Bounded := first.invariant (start_bounded rng) keeps
  obtain ⟨controls, drifts, rfl⟩ := bounded'.served (moved_of_step last)
  refine ⟨controls, drifts, rfl, entangled_near controls drifts, earlier, event :: later, t, split,
    first, ?_⟩
  cases moved_of_step last with
  | mix reader _ _ waits =>
    exact ⟨rfl, held_of_runs first (who, raw) (List.mem_of_getElem? waits)⟩

/-- Both players hold their axes at the same end; an unknown one asks for more. -/
def pulled : List (Event ℚ) :=
  [.setInput "p1" .infinity, .setInput "p2" (.finite 2), .driftTick, .setInput "p3" .nan,
    .gamepad (some ⟨true, false, false, false, 0, 0, 0⟩), .mouse (-1000), .mix 1]

/-- Both are pulled back by the other: what is served for player 2's request was mixed of axes that
were held, and is no longer what the axes are. -/
theorem outputs_near_inputs_pulled : ∃ outputs s,
    Runs step (start ⟨1⟩) pulled outputs s ∧ s.controls.Bounded ∧
      ∃ before drift response,
        outputs = before ++ [.served .setInput ⟨1, 1⟩ drift (234, 234) response] ∧
        Near ⟨1, 1⟩ (234, 234) ∧ Held ⟨1⟩ pulled ⟨1, 1⟩ := by
  have ran : (run step (start ⟨1⟩) pulled).map (fun p => p.2.getLast?) =
      some (some (.served .setInput ⟨1, 1⟩ ⟨-2, -7339967 / 4194304⟩ (234, 234)
        (some (.ok "234,234")))) := by decide +kernel
  obtain ⟨outputs, s, runs, hlast⟩ := runs_of_run ran
  obtain ⟨before, rfl⟩ := List.getLast?_eq_some_iff.mp hlast
  obtain ⟨bounded, -, -, served⟩ := outputs_near_inputs runs
  obtain ⟨-, -, -, near, earlier, later, t, split, -, -, held⟩ := served _ _ _ _ _ _ _ rfl
  obtain ⟨past, rest, outs, u, hpast, ran, hraw⟩ := held
  exact ⟨_, s, runs, bounded, before, _, _, rfl, near, past, rest ++ later, outs, u,
    by rw [split, hpast, List.append_assoc], ran, hraw⟩

end Inputs

end Motorball.Server
