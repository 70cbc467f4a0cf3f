import Motorball.Server.Isolation

/-!
# The mouse reader

`spawn_mouse_reader` of `piwebserver/src/main.rs`, as built for Linux: it looks for a pointer,
fetches its events in batches, stores the buttons as it goes through a batch, and applies the sum of
a batch's motions at the end of it. `Desk` is the inputs with that reader. The sum is that of the
release build, which wraps.

A read error sends the reader back to look for a pointer, and that is all it does: the buttons keep
what was last stored. `reads_every_event` is the account of a whole run, over any number of
disconnects. `unplugged_mouse_drives` is what the ramp makes of a mouse that was unplugged with a
button down.
-/

namespace Motorball.Server

open Transducer

/-- An event of the device: a relative motion, a button, or anything else. The values are of 32
bits, as the kernel gives them. -/
inductive InputEvent where
  | relX (value : Int32)
  | btnLeft (value : Int32)
  | btnRight (value : Int32)
  | other
  deriving DecidableEq

/-- What an event adds to the motion of its batch. Sums of 32 bits wrap, as they do in a release
build. -/
def InputEvent.motion : InputEvent → Int32
  | .relX value => value
  | .btnLeft _ | .btnRight _ | .other => 0

/-- Where the reader is in its loop: looking for a pointer, waiting for events, or within a batch,
with the motion of the part that it has handled. -/
inductive Mouse where
  | scanning
  | waiting
  | handling (rest : List InputEvent) (dx : Int32)
  deriving DecidableEq

/-- The inputs with the thread that reads the mouse, whose writes are no longer free but come from
the events of the device. -/
structure Desk (α : Type) where
  inputs : Inputs α
  mouse : Mouse

namespace Desk

variable {α : Type}

/-- The reader's own writes among those of the inputs, which no other thread makes. -/
def writes : Inputs.Event α → Bool
  | .mouse _ | .leftButton _ | .rightButton _ => true
  | _ => false

/-- The steps of the reader, and those of all others. -/
inductive Event (α : Type) where
  /-- A section of another thread. -/
  | others (event : Inputs.Event α)
  /-- The reader looks for a pointer. -/
  | scan (found : Bool)
  /-- `fetch_events`, which may fail. -/
  | fetch (batch : Option (List InputEvent))
  /-- The next event of the batch. -/
  | handle
  /-- `apply_mouse_dx`, at the end of the batch. -/
  | apply
  deriving DecidableEq

/-- What is seen of a step, with the write that it has led to. -/
inductive Obs (α : Type) where
  | others (event : Inputs.Event α) (obs : Inputs.Obs α)
  | scanned (found : Bool)
  | fetched (batch : Option (List InputEvent))
  /-- An event of the batch, with the write it has led to. -/
  | handled (event : InputEvent) (write : Option (Inputs.Event α × Inputs.Obs α))
  | applied (dx : Int32) (obs : Inputs.Obs α)

/-! ## What a history shows -/

/-- A section of the inputs, whoever entered it: of another thread, a button that was stored, or a
motion that was applied. -/
def sectionOf : Obs α → Option (Inputs.Event α × Inputs.Obs α)
  | .others event obs => some (event, obs)
  | .handled _ write => write
  | .applied dx obs => some (.mouse dx.toInt, obs)
  | .scanned _ | .fetched _ => none

/-- A batch that was fetched. A failed fetch has none, and is how the reader learns that the mouse
is gone. -/
def batchOf : Obs α → Option (List InputEvent)
  | .fetched batch => batch
  | _ => none

/-- An event that was handled. -/
def handledOf : Obs α → Option InputEvent
  | .handled event _ => some event
  | _ => none

/-- A motion that was applied, at the end of a batch. -/
def motionOf : Obs α → Option Int32
  | .applied dx _ => some dx
  | _ => none

/-- The batches that were fetched, in order. -/
def batches (os : List (Obs α)) : List (List InputEvent) := os.filterMap batchOf
/-- The events that were handled, in order, over all batches. -/
def handled (os : List (Obs α)) : List InputEvent := os.filterMap handledOf
/-- The motions that were applied, in order. -/
def motions (os : List (Obs α)) : List Int32 := os.filterMap motionOf

/-- The motion of a batch, summed as the reader does it. -/
def motion (batch : List InputEvent) : Int32 := batch.foldl (fun dx event => dx + event.motion) 0

/-- What an event says of the left button. -/
def leftOf : InputEvent → Option Int32
  | .btnLeft value => some value
  | _ => none

/-- What an event says of the right button. -/
def rightOf : InputEvent → Option Int32
  | .btnRight value => some value
  | _ => none

/-- Whether a button was down when last heard of. Before any event about it, it counts as up. -/
def lastHeld (button : InputEvent → Option Int32) (events : List InputEvent) : Bool :=
  (events.filterMap button).getLast?.any fun value => value ≠ 0

/-- How far the reader has come with the batches it has fetched. Between two batches it has handled
all of their events and applied all of their motions; within one it has a rest, and the motion of
what it has handled. -/
inductive Progress (batches : List (List InputEvent)) (handled : List InputEvent)
    (motions : List Int32) : Mouse → Prop
  | scanning (all : handled = batches.flatten) (applied : motions = batches.map motion) :
      Progress batches handled motions .scanning
  | waiting (all : handled = batches.flatten) (applied : motions = batches.map motion) :
      Progress batches handled motions .waiting
  | handling {earlier : List (List InputEvent)} {first rest : List InputEvent}
      (latest : batches = earlier ++ [first ++ rest]) (part : handled = earlier.flatten ++ first)
      (applied : motions = earlier.map motion) :
      Progress batches handled motions (.handling rest (motion first))

/-- The batches, one observation later. -/
theorem batches_snoc (os : List (Obs α)) (o : Obs α) :
    batches (os ++ [o]) = batches os ++ (batchOf o).toList := filterMap_snoc ..

/-- The motions, one observation later. -/
theorem motions_snoc (os : List (Obs α)) (o : Obs α) :
    motions (os ++ [o]) = motions os ++ (motionOf o).toList := filterMap_snoc ..

/-- One more event of the device, which decides if it is about the button. -/
theorem lastHeld_snoc (button : InputEvent → Option Int32) (events : List InputEvent)
    (event : InputEvent) :
    lastHeld button (events ++ [event]) =
      match button event with
      | some value => value ≠ 0
      | none => lastHeld button events := by
  rw [lastHeld, filterMap_snoc]
  cases button event with
  | none => rw [Option.toList_none, List.append_nil, lastHeld]
  | some value => rw [Option.toList_some, List.getLast?_concat]; rfl

variable {rng : Rng} {es : List (Event α)} {os : List (Obs α)} {s s' : Desk α} {e : Event α}
  {o : Obs α}

/-- What the reader has made of the events of the device: the invariant of its loop. -/
structure Read (os : List (Obs α)) (s : Desk α) : Prop where
  left : s.inputs.leftHeld = lastHeld leftOf (handled os)
  right : s.inputs.rightHeld = lastHeld rightOf (handled os)
  progress : Progress (batches os) (handled os) (motions os) s.mouse

/-- An event of a batch moves from the rest to what is handled, and adds its motion. -/
theorem Progress.handle {batches : List (List InputEvent)} {handled rest : List InputEvent}
    {motions : List Int32} {dx : Int32} {event : InputEvent}
    (progress : Progress batches handled motions (.handling (event :: rest) dx)) :
    Progress batches (handled ++ [event]) motions (.handling rest (dx + event.motion)) := by
  cases progress with
  | @handling earlier first _ latest part applied =>
    have next : motion first + event.motion = motion (first ++ [event]) := by
      rw [motion, motion, List.foldl_append]
      rfl
    rw [next]
    refine .handling ?_ ?_ applied
    · rw [latest, List.append_assoc, List.singleton_append]
    · rw [part, List.append_assoc]

/-- The end of a batch: nothing is left of it, and its motion is applied. -/
theorem Progress.apply {batches : List (List InputEvent)} {handled : List InputEvent}
    {motions : List Int32} {dx : Int32}
    (progress : Progress batches handled motions (.handling [] dx)) :
    Progress batches handled (motions ++ [dx]) .waiting := by
  cases progress with
  | @handling earlier first _ latest part applied =>
    rw [List.append_nil] at latest
    refine .waiting ?_ ?_
    · rw [part, latest, List.flatten_append, List.flatten_singleton]
    · rw [applied, latest, List.map_append, List.map_singleton]

/-- A step in which no event is handled, and so no button heard of. -/
theorem Read.quiet (h : Read os s) (unhandled : handledOf o = none)
    (left : s'.inputs.leftHeld = s.inputs.leftHeld)
    (right : s'.inputs.rightHeld = s.inputs.rightHeld)
    (progress : Progress (batches os ++ (batchOf o).toList) (handled os)
      (motions os ++ (motionOf o).toList) s'.mouse) : Read (os ++ [o]) s' := by
  have same : handled (os ++ [o]) = handled os := filterMap_snoc_none unhandled
  refine ⟨?_, ?_, ?_⟩
  · rw [same, left, h.left]
  · rw [same, right, h.right]
  · rw [same, batches_snoc, motions_snoc]
    exact progress

/-- A step in which an event is handled, with the buttons as it leaves them. -/
theorem Read.handle (h : Read os s) {event : InputEvent} {rest : List InputEvent} {dx : Int32}
    (handling : s.mouse = .handling (event :: rest) dx) {inputs : Inputs α}
    {write : Option (Inputs.Event α × Inputs.Obs α)}
    (left : inputs.leftHeld = lastHeld leftOf (handled os ++ [event]))
    (right : inputs.rightHeld = lastHeld rightOf (handled os ++ [event])) :
    Read (os ++ [.handled event write]) ⟨inputs, .handling rest (dx + event.motion)⟩ := by
  have progress := h.progress
  rw [handling] at progress
  have more : handled (os ++ [.handled event write]) = handled os ++ [event] :=
    filterMap_snoc_some rfl
  refine ⟨?_, ?_, ?_⟩
  · rw [more]
    exact left
  · rw [more]
    exact right
  · rw [more, batches_snoc, motions_snoc]
    simpa only [batchOf, motionOf, Option.toList_none, List.append_nil] using progress.handle

/-! ## The desk -/

variable [Scalar α]

/-- The desk at startup, before any pointer is found. -/
def start (rng : Rng) : Desk α := ⟨Inputs.start rng, .scanning⟩

/-- The store an event of the device leads to. A button counts as down for any value but 0, so for
the repeats of the kernel too. -/
def store : InputEvent → Option (Inputs.Event α)
  | .btnLeft value => some (.leftButton (value ≠ 0))
  | .btnRight value => some (.rightButton (value ≠ 0))
  | .relX _ | .other => none

variable [Scalar.Rounding α]

/-- One step. The reader takes the events of a batch one at a time, so that other threads may come
between the stores of two of them. -/
def step (s : Desk α) : Event α → Option (Desk α × Obs α)
  | .others event =>
    if writes event then none
    else (s.inputs.step event).map fun (inputs, obs) => ({ s with inputs }, .others event obs)
  | .scan found =>
    match s.mouse with
    | .scanning => some ({ s with mouse := if found then .waiting else .scanning }, .scanned found)
    | _ => none
  | .fetch batch =>
    match s.mouse, batch with
    | .waiting, some events => some ({ s with mouse := .handling events 0 }, .fetched batch)
    | .waiting, none => some ({ s with mouse := .scanning }, .fetched batch)
    | _, _ => none
  | .handle =>
    match s.mouse with
    | .handling (event :: rest) dx =>
      let mouse := .handling rest (dx + event.motion)
      match store event with
      | some write => (s.inputs.step write).map fun (inputs, obs) =>
          (⟨inputs, mouse⟩, .handled event (some (write, obs)))
      | none => some ({ s with mouse }, .handled event none)
    | _ => none
  | .apply =>
    match s.mouse with
    | .handling [] dx =>
      (s.inputs.step (.mouse dx.toInt)).map fun (inputs, obs) =>
        (⟨inputs, .waiting⟩, .applied dx obs)
    | _ => none

/-! ## What a step can do -/

/-- Every way the desk moves, with its guards. -/
inductive Moved (s : Desk α) : Event α → Desk α → Obs α → Prop
  | others (event : Inputs.Event α) (inputs : Inputs α) (obs : Inputs.Obs α)
      (foreign : writes event = false) (moved : s.inputs.step event = some (inputs, obs)) :
      Moved s (.others event) { s with inputs } (.others event obs)
  | scan (found : Bool) (scanning : s.mouse = .scanning) :
      Moved s (.scan found) { s with mouse := if found then .waiting else .scanning }
        (.scanned found)
  | fetch (batch : List InputEvent) (waiting : s.mouse = .waiting) :
      Moved s (.fetch (some batch)) { s with mouse := .handling batch 0 } (.fetched (some batch))
  | lose (waiting : s.mouse = .waiting) :
      Moved s (.fetch none) { s with mouse := .scanning } (.fetched none)
  | store (event : InputEvent) (rest : List InputEvent) (dx : Int32) (write : Inputs.Event α)
      (inputs : Inputs α) (obs : Inputs.Obs α) (handling : s.mouse = .handling (event :: rest) dx)
      (stores : store event = some write) (moved : s.inputs.step write = some (inputs, obs)) :
      Moved s .handle ⟨inputs, .handling rest (dx + event.motion)⟩
        (.handled event (some (write, obs)))
  | pass (event : InputEvent) (rest : List InputEvent) (dx : Int32)
      (handling : s.mouse = .handling (event :: rest) dx) (stores : store (α := α) event = none) :
      Moved s .handle { s with mouse := .handling rest (dx + event.motion) } (.handled event none)
  | apply (dx : Int32) (inputs : Inputs α) (obs : Inputs.Obs α)
      (handling : s.mouse = .handling [] dx)
      (moved : s.inputs.step (.mouse dx.toInt) = some (inputs, obs)) :
      Moved s .apply ⟨inputs, .waiting⟩ (.applied dx obs)

/-- Each step is one of the moves. -/
theorem step_moved {s s' : Desk α} {e : Event α} {o : Obs α} (h : s.step e = some (s', o)) :
    Moved s e s' o := by
  cases e with
  | others event =>
    rw [step] at h
    split at h
    · cases h
    next foreign =>
      obtain ⟨⟨inputs, obs⟩, moved, heq⟩ := Option.map_eq_some_iff.mp h
      cases heq
      exact .others event inputs obs (Bool.eq_false_of_not_eq_true foreign) moved
  | scan found =>
    rw [step] at h
    split at h
    next scanning => cases h; exact .scan found scanning
    · cases h
  | fetch batch =>
    simp only [step] at h
    split at h
    next batch waiting => cases h; exact .fetch batch waiting
    next waiting => cases h; exact .lose waiting
    · cases h
  | handle =>
    rw [step] at h
    split at h
    next event rest dx handling =>
      dsimp only at h
      split at h
      next write stores =>
        obtain ⟨⟨inputs, obs⟩, moved, heq⟩ := Option.map_eq_some_iff.mp h
        cases heq
        exact .store event rest dx write inputs obs handling stores moved
      next stores => cases h; exact .pass event rest dx handling stores
    · cases h
  | apply =>
    rw [step] at h
    split at h
    next dx handling =>
      obtain ⟨⟨inputs, obs⟩, moved, heq⟩ := Option.map_eq_some_iff.mp h
      cases heq
      exact .apply dx inputs obs handling moved
    · cases h

/-! ## The account of a run -/

/-- The reader and the other threads together run the inputs, so what holds of the controls in every
order of the sections holds here. -/
theorem inputs_runs {s₀ : Desk α} (runs : Runs step s₀ es os s) :
    Runs Inputs.step s₀.inputs ((os.filterMap sectionOf).map Prod.fst)
      ((os.filterMap sectionOf).map Prod.snd) s.inputs := by
  refine runs.part Desk.inputs sectionOf fun s e s' o last => ?_
  cases step_moved last with
  | others event inputs obs foreign moved => exact Or.inr ⟨event, obs, rfl, moved⟩
  | scan | fetch | lose | pass => exact Or.inl ⟨rfl, rfl⟩
  | store event rest dx write inputs obs handling stores moved =>
    exact Or.inr ⟨write, obs, rfl, moved⟩
  | apply dx inputs obs handling moved => exact Or.inr ⟨.mouse dx.toInt, obs, rfl, moved⟩

/-- The buttons are stored by the reader alone, so no other section changes what the ramp will
find. -/
theorem buttons_kept {s s' : Inputs α} {e : Inputs.Event α} {o : Inputs.Obs α}
    (moved : s.step e = some (s', o))
    (foreign : ∀ held, e ≠ .leftButton held ∧ e ≠ .rightButton held) :
    s'.leftHeld = s.leftHeld ∧ s'.rightHeld = s.rightHeld := by
  cases e with
  | leftButton held => exact absurd rfl (foreign held).1
  | rightButton held => exact absurd rfl (foreign held).2
  | mouse | gamepad | driftTick =>
    cases moved
    exact ⟨rfl, rfl⟩
  | setInput | loadLeft | loadRight | applyRamp | copy | mix =>
    simp only [Inputs.step] at moved
    split at moved <;> cases moved <;> exact ⟨rfl, rfl⟩

/-- The buttons after an event is handled are those of the events up to it. -/
theorem buttons_stored {inputs inputs' : Inputs α} {event : InputEvent} {write : Inputs.Event α}
    {obs : Inputs.Obs α} {events : List InputEvent} (stores : store event = some write)
    (moved : inputs.step write = some (inputs', obs))
    (left : inputs.leftHeld = lastHeld leftOf events)
    (right : inputs.rightHeld = lastHeld rightOf events) :
    inputs'.leftHeld = lastHeld leftOf (events ++ [event]) ∧
      inputs'.rightHeld = lastHeld rightOf (events ++ [event]) := by
  rw [lastHeld_snoc, lastHeld_snoc]
  cases event with
  | btnLeft value => cases stores; cases moved; exact ⟨rfl, right⟩
  | btnRight value => cases stores; cases moved; exact ⟨left, rfl⟩
  | relX | other => cases stores

/-- Every step keeps the reader's account. -/
theorem Read.step (h : Read os s) (moved : Moved s e s' o) : Read (os ++ [o]) s' := by
  have progress := h.progress
  cases moved with
  | others event inputs obs foreign moved =>
    have kept := buttons_kept moved fun held => by
      constructor <;> rintro rfl <;> cases foreign
    refine h.quiet rfl kept.1 kept.2 ?_
    simpa only [batchOf, motionOf, Option.toList_none, List.append_nil] using progress
  | scan found scanning =>
    rw [scanning] at progress
    cases progress with
    | scanning all applied =>
      refine h.quiet rfl rfl rfl ?_
      simp only [batchOf, motionOf, Option.toList_none, List.append_nil]
      cases found with
      | true => exact .waiting all applied
      | false => exact .scanning all applied
  | fetch batch waiting =>
    rw [waiting] at progress
    cases progress with
    | waiting all applied =>
      refine h.quiet rfl rfl rfl ?_
      simp only [batchOf, motionOf, Option.toList_none, Option.toList_some, List.append_nil]
      refine @Progress.handling _ _ _ (batches os) [] _ rfl ?_ applied
      rw [List.append_nil, all]
  | lose waiting =>
    rw [waiting] at progress
    cases progress with
    | waiting all applied =>
      refine h.quiet rfl rfl rfl ?_
      simp only [batchOf, motionOf, Option.toList_none, List.append_nil]
      exact .scanning all applied
  | store event rest dx write inputs obs handling stores moved =>
    obtain ⟨left, right⟩ := buttons_stored stores moved h.left h.right
    exact h.handle handling left right
  | pass event rest dx handling stores =>
    refine h.handle handling ?_ ?_ <;> rw [lastHeld_snoc]
    · rw [h.left]
      cases event with
      | relX | other => rfl
      | btnLeft | btnRight => cases stores
    · rw [h.right]
      cases event with
      | relX | other => rfl
      | btnLeft | btnRight => cases stores
  | apply dx inputs obs handling moved =>
    rw [handling] at progress
    have kept := buttons_kept moved fun held => by constructor <;> nofun
    refine h.quiet rfl kept.1 kept.2 ?_
    simpa only [batchOf, motionOf, Option.toList_none, Option.toList_some, List.append_nil]
      using progress.apply

/-- The account of a run. -/
theorem read_of_runs (runs : Runs step (start rng) es os s) : Read os s := by
  induction runs with
  | nil => exact ⟨rfl, rfl, .scanning rfl rfl⟩
  | snoc _ last ih => exact ih.step (step_moved last)

/-- A motion of the mouse among the steps of the inputs. -/
def moveOf : Inputs.Event α → Option Int
  | .mouse dx => some dx
  | _ => none

/-- The mouse moves by the motions applied and by nothing else: no other section is a motion of the
mouse. -/
theorem moves_eq (runs : Runs step (start rng) es os s) :
    ((os.filterMap sectionOf).map Prod.fst).filterMap moveOf = (motions os).map Int32.toInt := by
  induction runs with
  | nil => rfl
  | snoc _ last ih =>
    rw [filterMap_snoc, List.map_append, List.filterMap_append, ih, motions_snoc, List.map_append]
    congr 1
    cases step_moved last with
    | others event inputs obs foreign moved =>
      cases event with
      | mouse => cases foreign
      | _ => rfl
    | store event rest dx write inputs obs handling stores moved =>
      cases event with
      | btnLeft | btnRight => cases stores; rfl
      | relX | other => cases stores
    | scan | fetch | lose | pass | apply => rfl

/-- The sections of the inputs in a history, whoever entered them, each with what was seen of it. -/
def sections (os : List (Obs α)) : List (Inputs.Event α × Inputs.Obs α) := os.filterMap sectionOf

/-- A motion that was applied has moved the controls, between what the other sections had made of
them before and what they made of them since. -/
theorem applied_moves (runs : Runs step (start rng) es os s) {before after : List (Obs α)}
    {dx : Int32} {obs : Inputs.Obs α} (applied : os = before ++ .applied dx obs :: after) :
    ∃ inputs, Runs Inputs.step (Inputs.start rng) ((sections before).map Prod.fst)
        ((sections before).map Prod.snd) inputs ∧
      Runs Inputs.step { inputs with controls := inputs.controls.applyMouseDx dx.toInt }
        ((sections after).map Prod.fst) ((sections after).map Prod.snd) s.inputs := by
  obtain ⟨js, e, ks, t, t', -, first, moved, rest⟩ := runs.at_output applied
  refine ⟨t.inputs, inputs_runs first, ?_⟩
  have moved' : t'.inputs =
      { t.inputs with controls := t.inputs.controls.applyMouseDx dx.toInt } := by
    cases step_moved moved with
    | apply dx inputs obs handling written =>
      cases written
      rfl
  rw [← moved']
  exact inputs_runs rest

/-- **The reader loses nothing.** Whatever the other threads do and however often the mouse is
unplugged: the reader has handled the events of the batches it fetched, in order, each once, up to
the rest of the batch it is in; it has applied the motion of each batch it has finished, once. The
inputs are what the sections of all threads have made of them, in which the mouse moves by these
motions and by nothing else, and each of them has moved player 1's axis. Each button is held as the
last event about it said. -/
theorem reads_every_event (runs : Runs step (start rng) es os s) :
    Progress (batches os) (handled os) (motions os) s.mouse ∧
      Runs Inputs.step (Inputs.start rng) ((sections os).map Prod.fst)
        ((sections os).map Prod.snd) s.inputs ∧
      ((sections os).map Prod.fst).filterMap moveOf = (motions os).map Int32.toInt ∧
      (∀ before dx obs after, os = before ++ .applied dx obs :: after →
        ∃ inputs, Runs Inputs.step (Inputs.start rng) ((sections before).map Prod.fst)
            ((sections before).map Prod.snd) inputs ∧
          Runs Inputs.step { inputs with controls := inputs.controls.applyMouseDx dx.toInt }
            ((sections after).map Prod.fst) ((sections after).map Prod.snd) s.inputs) ∧
      s.inputs.leftHeld = lastHeld leftOf (handled os) ∧
      s.inputs.rightHeld = lastHeld rightOf (handled os) := by
  have read := read_of_runs runs
  exact ⟨read.progress, inputs_runs runs, moves_eq runs, fun _ _ _ _ => applied_moves runs,
    read.left, read.right⟩

/-- A batch, a disconnect, and half of another batch. -/
def twoBatches : List (Event ℚ) :=
  [.scan true, .fetch (some [.relX 40, .btnLeft 1, .relX 60]), .handle, .others .loadLeft, .handle,
    .handle, .apply, .fetch none, .scan false, .scan true, .fetch (some [.relX (-7), .btnRight 1]),
    .handle]

/-- The first batch has moved player 1's axis by its hundred counts, the second not yet. -/
theorem reads_every_event_two_batches :
    ∃ os s, Runs step (start ⟨1⟩) twoBatches os s ∧ s.mouse = .handling [.btnRight 1] (-7) ∧
      s.inputs.leftHeld = true ∧ ((sections os).map Prod.fst).filterMap moveOf = [100] ∧
      s.inputs.controls.p1 = 0.025 := by
  have ran : (run step (start ⟨1⟩) twoBatches).map
      (fun p => (p.1.mouse, handled p.2, motions p.2, (sections p.2).map Prod.fst)) =
      some (.handling [.btnRight 1] (-7), [.relX 40, .btnLeft 1, .relX 60, .relX (-7)], [100],
        [.loadLeft, .leftButton true, .mouse 100]) := by
    decide +kernel
  have moved : (run Inputs.step (Inputs.start ⟨1⟩)
      [.loadLeft, .leftButton true, .mouse 100]).map (fun p => p.1.controls.p1) =
      some (0.025 : ℚ) := by decide +kernel
  obtain ⟨os, s, runs, heq⟩ := runs_of_run ran
  obtain ⟨hmouse, hhandled, hmotions, hsections⟩ := by simpa only [Prod.mk.injEq] using heq
  obtain ⟨-, inputs, moves, -, left, -⟩ := reads_every_event runs
  rw [hsections] at inputs
  obtain ⟨_, inputs', runs', hp1⟩ := runs_of_run moved
  obtain ⟨-, rfl⟩ := inputs.deterministic runs'
  refine ⟨os, s, runs, hmouse, ?_, ?_, hp1⟩
  · rw [left, hhandled]
    decide
  · rw [moves, hmotions]
    decide

/-! ## A button that stays down -/

/-- Player 1's side after some turns of the ramp, with the buttons as they are. The turn that is
under way has found them so too. -/
structure Ramped (left right : Bool) (p1 : ℚ) (turns : Nat) (s : Inputs ℚ) : Prop where
  bounded : s.Bounded
  leftHeld : s.leftHeld = left
  rightHeld : s.rightHeld = right
  ramp : s.ramp = .idle ∨ s.ramp = .loaded left ∨
    s.ramp = .decided (mouseButtonDirection left right)
  p1 : s.controls.p1 =
    Scalar.clamp (p1 + turns * (mouseButtonDirection left right * clickRate)) (-1.0) 1.0

/-- A turn from where the turns before it have led: clamping in each of them comes to the same as
clamping once. -/
theorem ramp_turn {p1 push : ℚ} (axis : -1 ≤ p1 ∧ p1 ≤ 1) (turns : Nat) :
    Scalar.clamp (Scalar.clamp (p1 + turns * push) (-1.0) 1.0 + push) (-1.0) 1.0 =
      Scalar.clamp (p1 + (turns + 1 : Nat) * push) (-1.0) 1.0 := by
  have low : (-1.0 : ℚ) = -1 := by norm_num
  have high : (1.0 : ℚ) = 1 := by norm_num
  rw [Scalar.clamp_add_clamp (by norm_num), Nat.cast_succ, add_mul, one_mul, add_assoc]
  rw [low, high]
  rcases le_total 0 push with right | left
  · have moved : 0 ≤ turns * push := mul_nonneg (Nat.cast_nonneg _) right
    exact Or.inl ⟨right, by linarith⟩
  · have moved : turns * push ≤ 0 := mul_nonpos_of_nonneg_of_nonpos (Nat.cast_nonneg _) left
    exact Or.inr ⟨left, by linarith⟩

/-- A step in which neither the mouse nor a request moves player 1's axis. Whatever else it is, only
the end of a turn of the ramp counts. -/
theorem Ramped.step {left right : Bool} {p1 : ℚ} {turns : Nat} {s s' : Inputs ℚ}
    {e : Inputs.Event ℚ} {o : Inputs.Obs ℚ} (h : Ramped left right p1 turns s)
    (axis : -1 ≤ p1 ∧ p1 ≤ 1) (unmoved : writes e = false)
    (unposted : ∀ x, e ≠ .setInput "p1" x) (moved : s.step e = some (s', o)) :
    Ramped left right p1 (turns + if e = .applyRamp then 1 else 0) s' := by
  have bounded := h.bounded.moved (Inputs.moved_of_step moved)
  cases own : e.player1 with
  | false =>
    have kept := Inputs.sees_hand1.foreign _ _ _ _ own moved
    simp only [Inputs.hand1, Prod.mk.injEq] at kept
    obtain ⟨hp1, hleft, hright, hramp⟩ := kept
    have other : e ≠ .applyRamp := by
      rintro rfl
      cases own
    rw [if_neg other]
    refine ⟨bounded, hleft.trans h.leftHeld, hright.trans h.rightHeld, ?_, hp1.trans h.p1⟩
    rw [hramp]
    exact h.ramp
  | true =>
    cases e with
    | setInput player x =>
      obtain rfl : player = "p1" := of_decide_eq_true own
      exact absurd rfl (unposted x)
    | mouse | leftButton | rightButton => cases unmoved
    | gamepad | driftTick | copy | mix => cases own
    | loadLeft =>
      simp only [Inputs.step] at moved
      split at moved
      · cases moved
        exact ⟨bounded, h.leftHeld, h.rightHeld, Or.inr (Or.inl (congrArg _ h.leftHeld)), h.p1⟩
      · cases moved
    | loadRight =>
      simp only [Inputs.step] at moved
      split at moved
      next loaded ramp =>
        cases moved
        have same : loaded = left := by
          obtain idle | hloaded | decided := h.ramp
          · cases ramp.symm.trans idle
          · cases ramp.symm.trans hloaded
            rfl
          · cases ramp.symm.trans decided
        refine ⟨bounded, h.leftHeld, h.rightHeld, Or.inr (Or.inr ?_), h.p1⟩
        rw [same, h.rightHeld]
      · cases moved
    | applyRamp =>
      simp only [Inputs.step] at moved
      split at moved
      next direction ramp =>
        cases moved
        obtain idle | loaded | decided := h.ramp
        · cases ramp.symm.trans idle
        · cases ramp.symm.trans loaded
        · cases ramp.symm.trans decided
          refine ⟨bounded, h.leftHeld, h.rightHeld, Or.inl rfl, ?_⟩
          rw [if_pos rfl, Controls.ramp_eq h.bounded.controls, h.p1]
          exact ramp_turn axis turns
      · cases moved

/-- The turns the ramp finishes. A turn that has only loaded the buttons does not count yet. -/
def turns (es : List (Event ℚ)) : Nat := es.count (.others .applyRamp)

/-- A run in which no mouse is found and no request moves player 1's axis. The reader stays where it
looks for a pointer, so it stores and applies nothing. -/
theorem ramped_of_runs {s t : Desk ℚ} {es : List (Event ℚ)} {os : List (Obs ℚ)}
    (runs : Runs step s es os t) (bounded : s.inputs.Bounded) (idle : s.inputs.ramp = .idle)
    (unplugged : s.mouse = .scanning) (gone : .scan true ∉ es)
    (unposted : ∀ x, .others (.setInput "p1" x) ∉ es) :
    t.mouse = .scanning ∧ Ramped s.inputs.leftHeld s.inputs.rightHeld s.inputs.controls.p1
      (turns es) t.inputs := by
  induction runs with
  | nil =>
    refine ⟨unplugged, bounded, rfl, rfl, Or.inl idle, ?_⟩
    rw [turns, List.count_nil, Nat.cast_zero, zero_mul, axis_still bounded.controls.p1]
  | @snoc es os t t' e o _ last ih =>
    obtain ⟨scanning, h⟩ := ih (fun found => gone (List.mem_append_left _ found))
      fun x posted => unposted x (List.mem_append_left _ posted)
    rw [turns, List.count_append, ← turns]
    cases step_moved last with
    | others event inputs obs foreign moved =>
      have other : ∀ x, event ≠ .setInput "p1" x := by
        rintro x rfl
        exact unposted x (List.mem_append_right _ (List.mem_singleton_self _))
      refine ⟨scanning, ?_⟩
      have next := h.step bounded.controls.p1 foreign other moved
      rw [List.count_singleton]
      simpa only [beq_iff_eq, Event.others.injEq] using next
    | scan found _ =>
      cases found with
      | true => exact absurd (List.mem_append_right _ (List.mem_singleton_self _)) gone
      | false => exact ⟨rfl, h⟩
    | fetch batch waiting => cases scanning.symm.trans waiting
    | lose waiting => cases scanning.symm.trans waiting
    | store event rest dx write inputs obs handling => cases scanning.symm.trans handling
    | pass event rest dx handling => cases scanning.symm.trans handling
    | apply dx inputs obs handling => cases scanning.symm.trans handling

/-- The direction the ramp takes from the buttons as they were last heard of. -/
def lastDirection (events : List InputEvent) : ℚ :=
  mouseButtonDirection (lastHeld leftOf events) (lastHeld rightOf events)

/-- The ramp drives to one side, to the other, or not at all. -/
theorem mouseButtonDirection_cases (left right : Bool) :
    (mouseButtonDirection left right : ℚ) = -1 ∨ (mouseButtonDirection left right : ℚ) = 0 ∨
      (mouseButtonDirection left right : ℚ) = 1 := by
  cases left <;> cases right <;> norm_num [mouseButtonDirection]

/-- The inputs at the desk are within their bounds, being a run of the inputs. -/
theorem bounded_of_runs {s : Desk ℚ} {es : List (Event ℚ)} {os : List (Obs ℚ)}
    (runs : Runs step (start rng) es os s) : s.inputs.Bounded :=
  (inputs_runs runs).invariant (Inputs.start_bounded rng)
    fun _ _ _ _ bounded moved => bounded.moved (Inputs.moved_of_step moved)

/-- Sixty-seven turns lead from any place to the end: the whole way is 2, at 0.03 a turn. -/
theorem clamp_far {p1 direction : ℚ} (axis : -1 ≤ p1 ∧ p1 ≤ 1)
    (away : direction = -1 ∨ direction = 1) {n : Nat} (long : 67 ≤ n) :
    Scalar.clamp (p1 + n * (direction * clickRate)) (-1.0) 1.0 = direction := by
  have rate : (clickRate : ℚ) = 0.03 := rfl
  have far : (67 : ℚ) ≤ n := by exact_mod_cast long
  rw [Scalar.clamp_eq (by norm_num), rate]
  obtain rfl | rfl := away
  · rw [min_eq_left (by norm_num; linarith), max_eq_left (by norm_num; linarith)]
    norm_num
  · rw [min_eq_right (by norm_num; linarith), max_eq_right (by norm_num)]
    norm_num

/-- **An unplugged mouse drives on.** Once the reader has lost the mouse, and until it finds
another, the buttons stay as they were last heard of. From a state between two turns of the ramp, as
long as no request for player 1 comes: each turn moves player 1's axis by the click rate in the
direction of those buttons, whatever else happens. If one button was down alone, the axis is at its
end after at most sixty-seven turns, and stays there. That the ramp is between two turns only makes
the count exact: a turn under way may have loaded a button before it changed. -/
theorem unplugged_mouse_drives {s t : Desk ℚ} {es es' : List (Event ℚ)} {os os' : List (Obs ℚ)}
    (runs : Runs step (start rng) es os s) (unplugged : s.mouse = .scanning)
    (idle : s.inputs.ramp = .idle) (later : Runs step s es' os' t) (gone : .scan true ∉ es')
    (unposted : ∀ x, .others (.setInput "p1" x) ∉ es') :
    t.inputs.controls.p1 = Scalar.clamp
        (s.inputs.controls.p1 + turns es' * (lastDirection (handled os) * clickRate)) (-1.0) 1.0 ∧
      (lastDirection (handled os) ≠ 0 → 67 ≤ turns es' →
        t.inputs.controls.p1 = lastDirection (handled os)) := by
  have read := read_of_runs runs
  have bounded := bounded_of_runs runs
  obtain ⟨-, ramped⟩ := ramped_of_runs later bounded idle unplugged gone unposted
  have moved := ramped.p1
  rw [read.left, read.right, ← lastDirection] at moved
  refine ⟨moved, ?_⟩
  intro down long
  rw [moved]
  apply clamp_far bounded.controls.p1 _ long
  obtain left | none | right := mouseButtonDirection_cases (lastHeld leftOf (handled os))
    (lastHeld rightOf (handled os))
  · exact Or.inl left
  · exact absurd none down
  · exact Or.inr right

/-- The mouse moves, its left button goes down, and it is unplugged. -/
def pulledOut : List (Event ℚ) :=
  [.scan true, .fetch (some [.relX 100, .btnLeft 1]), .handle, .handle, .apply, .fetch none]

/-- Three turns of the ramp among other things. -/
def threeTurns : List (Event ℚ) :=
  [.others .loadLeft, .scan false, .others .loadRight, .others .applyRamp, .others .driftTick,
    .others .loadLeft, .others .loadRight, .others (.setInput "p2" .infinity), .others .applyRamp,
    .others .loadLeft, .others .loadRight, .others .applyRamp, .scan false]

/-- The hundred counts to the right, and three turns back to the left. -/
theorem unplugged_mouse_drives_three_turns :
    ∃ os os' s t, Runs step (start ⟨1⟩) pulledOut os s ∧ Runs step s threeTurns os' t ∧
      t.inputs.controls.p1 = -0.065 := by
  have ran : (run step (start ⟨1⟩) (pulledOut ++ threeTurns)).isSome = true := by decide +kernel
  obtain ⟨⟨t, whole⟩, hwhole⟩ := Option.isSome_iff_exists.mp ran
  obtain ⟨s, os, os', -, runs, later⟩ := (run_eq_some.mp hwhole).split
  have reached : (run step (start ⟨1⟩) pulledOut).map (fun p =>
      (p.1.mouse, p.1.inputs.ramp, p.1.inputs.controls.p1, lastDirection (handled p.2))) =
      some (.scanning, .idle, 0.025, -1) := by decide +kernel
  obtain ⟨os₁, s₁, runs₁, heq⟩ := runs_of_run reached
  obtain ⟨rfl, rfl⟩ := runs.deterministic runs₁
  obtain ⟨hmouse, hramp, hp1, hdirection⟩ := by simpa only [Prod.mk.injEq] using heq
  have gone : .scan true ∉ threeTurns := by decide +kernel
  have unposted : ∀ x, .others (.setInput "p1" x) ∉ threeTurns := by
    intro x hx
    simp [threeTurns] at hx
  have moved := (unplugged_mouse_drives runs hmouse hramp later gone unposted).1
  refine ⟨os, os', s, t, runs, later, ?_⟩
  have hturns : turns threeTurns = 3 := by decide +kernel
  rw [moved, hp1, hdirection, hturns]
  decide +kernel

end Desk

end Motorball.Server
