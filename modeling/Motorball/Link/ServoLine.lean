import Motorball.Link.Chain
import Motorball.Server.Inputs

/-!
# From the players' threads to the servos

The whole of the serial line in one machine: the threads around the controls (`Server.Inputs`), the
sender thread with its reads one by one, the bytes under way, and the Uno with its timer interrupt
(`Uno.Firmware`), in any order of their steps. Opening the port restarts the Uno; bytes that were
under way are then lost. Otherwise the wire keeps the bytes in order.

What has happened since the port was last opened is the `Epoch` of a history. `Follows` says how it
stands with the machine: the Uno has read what the epoch put on the wire, up to the bytes still
under way. The bytes of an epoch are whole frames and at most one cut frame, so what the Uno
accepts is a prefix of what was written (`Follows.accepts`), and `servos_follow` says what the
servos are doing to which axes.
-/

namespace Motorball.Link

open Transducer Motorball.Server Motorball.Server.UnoSerial
open Motorball.Uno (PacketParser Firmware framing)

/-- Where the sender thread is in a turn of its inner loop: it copies the controls, then the drift,
each in a section of its own, then it writes. Other threads can come in between. -/
inductive Reading where
  | idle
  | copied (raw : Controls ℚ)
  | mixed (raw : Controls ℚ) (drift : Drift ℚ)
  deriving DecidableEq

/-- What a frame is made of: the copies of the axes and of the drift that the sender took, and its
sequence byte. -/
structure Frame where
  sequence : UInt8
  raw : Controls ℚ
  drift : Drift ℚ
  deriving DecidableEq

namespace Frame

/-- The bytes of a frame, as the sender writes them. -/
def bytes (f : Frame) : List UInt8 :=
  (packet f.sequence (entangled f.raw f.drift).1 (entangled f.raw f.drift).2).toList

/-- The servo values in it, as the Uno reads them. -/
def pair (f : Frame) : UInt8 × UInt8 :=
  servoPair (entangled f.raw f.drift).1 (entangled f.raw f.drift).2

end Frame

/-- The threads around the controls, the sender thread, the bytes under way and the Uno, in one
state. -/
structure Line where
  inputs : Inputs ℚ
  sender : Sender
  reading : Reading
  wire : List UInt8
  uno : Firmware
  deriving DecidableEq

namespace Line

/-- Both programs at startup, with the drift thread's generator and no port open. -/
def start (rng : Rng) : Line where
  inputs := Inputs.start rng
  sender := Sender.start
  reading := .idle
  wire := []
  uno := Firmware.start

/-- The steps of the line: the sender's copies and writes are its own events, everything that others
do to the inputs comes with the first, and the Uno reads one byte of the wire at a time. -/
inductive Event where
  /-- A step of a thread that is not the sender's. -/
  | inputs (event : Inputs.Event ℚ)
  /-- The steps of the sender thread. -/
  | openPort (ok : Bool)
  | copyControls
  | copyDrift
  | write (result : WriteAll)
  /-- The steps of the Uno. -/
  | readByte
  | accept
  | overflow

/-- What a step does that others can see. A write shows the frame and its result, a step of the Uno
what the firmware shows. -/
inductive Obs where
  | inputs
  | opened (ok : Bool)
  | copied
  | mixed
  | wrote (frame : Frame) (result : WriteAll)
  | uno (obs : Firmware.Obs)
  deriving DecidableEq

/-- One step of one of them. The sender's sections come in the order of its loop and only while a
port is open; a port that is opened restarts the Uno and empties the wire. -/
def step (l : Line) : Event → Option (Line × Obs)
  | .inputs event =>
    if event = .copy .unoSerial then none
    else (l.inputs.step event).map fun (inputs, _) => ({ l with inputs }, .inputs)
  | .openPort ok =>
    (l.sender.step (.openPort ok)).map fun (sender, _) =>
      if ok then ({ l with sender, wire := [], uno := Firmware.start }, .opened true)
      else ({ l with sender }, .opened false)
  | .copyControls =>
    match l.sender.connected, l.reading with
    | true, .idle => some ({ l with reading := .copied l.inputs.controls }, .copied)
    | _, _ => none
  | .copyDrift =>
    match l.reading with
    | .copied raw => some ({ l with reading := .mixed raw l.inputs.drift }, .mixed)
    | _ => none
  | .write result =>
    match l.reading with
    | .mixed raw drift =>
      let (player1, player2) := entangled raw drift
      (l.sender.step (.frame player1 player2 result)).map fun (sender, bytes) =>
        ({ l with sender, reading := .idle, wire := l.wire ++ bytes },
          .wrote ⟨l.sender.sequence, raw, drift⟩ result)
    | _ => none
  | .readByte =>
    match l.wire with
    | [] => none
    | b :: wire => (l.uno.step (.byte b)).map fun (uno, obs) => ({ l with wire, uno }, .uno obs)
  | .accept => (l.uno.step .accept).map fun (uno, obs) => ({ l with uno }, .uno obs)
  | .overflow => (l.uno.step .overflow).map fun (uno, obs) => ({ l with uno }, .uno obs)

/-! ## What a step can do -/

/-- Every way the line moves, guards included; the invariant is derived from these cases and not
from `step`. -/
inductive Moved (l : Line) : Event → Line → Obs → Prop
  | inputs (event : Inputs.Event ℚ) (inputs : Inputs ℚ) (obs : Inputs.Obs ℚ)
      (moved : Inputs.Moved l.inputs event inputs obs) :
      Moved l (.inputs event) { l with inputs } .inputs
  | opened (closed : l.sender.connected = false) :
      Moved l (.openPort true)
        { l with sender := { l.sender with connected := true }, wire := [], uno := Firmware.start }
        (.opened true)
  | refused (closed : l.sender.connected = false) :
      Moved l (.openPort false) l (.opened false)
  | copied (connected : l.sender.connected = true) (idle : l.reading = .idle) :
      Moved l .copyControls { l with reading := .copied l.inputs.controls } .copied
  | mixed (raw : Controls ℚ) (copied : l.reading = .copied raw) :
      Moved l .copyDrift { l with reading := .mixed raw l.inputs.drift } .mixed
  | whole (f : Frame) (mixed : l.reading = .mixed f.raw f.drift)
      (sequence : f.sequence = l.sender.sequence) (connected : l.sender.connected = true) :
      Moved l (.write .ok)
        { l with
          sender := { l.sender with sequence := l.sender.sequence + 1 }
          reading := .idle
          wire := l.wire ++ f.bytes }
        (.wrote f .ok)
  | cut (f : Frame) (delivered : Fin packetLen) (mixed : l.reading = .mixed f.raw f.drift)
      (sequence : f.sequence = l.sender.sequence) (connected : l.sender.connected = true) :
      Moved l (.write (.error delivered))
        { l with
          sender := { l.sender with connected := false }
          reading := .idle
          wire := l.wire ++ f.bytes.take delivered }
        (.wrote f (.error delivered))
  | readByte (b : UInt8) (wire : List UInt8) (uno : Firmware) (obs : Firmware.Obs)
      (next : l.wire = b :: wire) (moved : l.uno.step (.byte b) = some (uno, obs)) :
      Moved l .readByte { l with wire, uno } (.uno obs)
  | accept (uno : Firmware) (obs : Firmware.Obs) (moved : l.uno.step .accept = some (uno, obs)) :
      Moved l .accept { l with uno } (.uno obs)
  | overflow (uno : Firmware) (obs : Firmware.Obs)
      (moved : l.uno.step .overflow = some (uno, obs)) :
      Moved l .overflow { l with uno } (.uno obs)

theorem step_moved {l l' : Line} {e : Event} {o : Obs} (h : l.step e = some (l', o)) :
    Moved l e l' o := by
  cases e with
  | inputs event =>
    rw [step] at h
    split at h
    · cases h
    · obtain ⟨⟨inputs, obs⟩, moved, heq⟩ := Option.map_eq_some_iff.mp h
      cases heq
      exact .inputs event inputs obs (Inputs.moved_of_step moved)
  | openPort ok =>
    obtain ⟨⟨sender, bytes⟩, moved, heq⟩ := Option.map_eq_some_iff.mp h
    rw [Sender.step] at moved
    split at moved
    · cases moved
    next closed =>
      have closed : l.sender.connected = false := Bool.eq_false_of_not_eq_true closed
      cases moved
      cases ok with
      | true => cases heq; exact .opened closed
      | false =>
        obtain ⟨inputs, ⟨sequence, connected⟩, reading, wire, uno⟩ := l
        cases closed
        cases heq
        exact .refused rfl
  | copyControls =>
    rw [step] at h
    split at h
    next connected idle => cases h; exact .copied connected idle
    · cases h
  | copyDrift =>
    rw [step] at h
    split at h
    next raw copied => cases h; exact .mixed raw copied
    · cases h
  | write result =>
    rw [step] at h
    split at h
    next raw drift mixed =>
      obtain ⟨⟨sender, bytes⟩, moved, heq⟩ := Option.map_eq_some_iff.mp h
      cases heq
      rw [Sender.step] at moved
      split at moved
      next connected =>
        cases result with
        | ok => cases moved; exact .whole ⟨l.sender.sequence, raw, drift⟩ mixed rfl connected
        | error delivered =>
          cases moved
          exact .cut ⟨l.sender.sequence, raw, drift⟩ delivered mixed rfl connected
      · cases moved
    · cases h
  | readByte =>
    rw [step] at h
    split at h
    · cases h
    next b wire next =>
      obtain ⟨⟨uno, obs⟩, moved, heq⟩ := Option.map_eq_some_iff.mp h
      cases heq
      exact .readByte b wire uno obs next moved
  | accept =>
    obtain ⟨⟨uno, obs⟩, moved, heq⟩ := Option.map_eq_some_iff.mp h
    cases heq
    exact .accept uno obs moved
  | overflow => cases h; exact .overflow _ _ rfl

/-! ## The epoch of a history -/

/-- What has happened since the port was last opened: the frames written whole, what a failed write
has left on the wire after them, and the steps of the Uno. -/
structure Epoch where
  written : List Frame
  cut : List UInt8
  uno : List Firmware.Obs

/-- The epoch, one observation later: opening the port begins a new one. -/
def Epoch.note (e : Epoch) : Obs → Epoch
  | .opened true => ⟨[], [], []⟩
  | .wrote f .ok => { e with written := e.written ++ [f] }
  | .wrote f (.error delivered) => { e with cut := f.bytes.take delivered }
  | .uno obs => { e with uno := e.uno ++ [obs] }
  | .inputs | .opened false | .copied | .mixed => e

/-- The epoch of a history. -/
def epoch (outputs : List Obs) : Epoch := outputs.foldl Epoch.note ⟨[], [], []⟩

/-- One more observation is one more note. -/
theorem epoch_snoc (outputs : List Obs) (o : Obs) :
    epoch (outputs ++ [o]) = (epoch outputs).note o := by
  rw [epoch, List.foldl_append]
  rfl

/-- The bytes an epoch put on the wire: its whole frames, and what the write that ended it got
through. -/
def Epoch.bytes (e : Epoch) : List UInt8 := e.written.flatMap Frame.bytes ++ e.cut

/-- The packets the Uno has accepted in an epoch. -/
def Epoch.accepted (e : Epoch) : List (UInt8 × UInt8) := Firmware.accepted e.uno

/-! ## The Uno reads what was written -/

/-- A firmware history that starts afresh and has read all but `wire` of the epoch's bytes. With it,
what is proved of the firmware alone holds of the Uno on the line. -/
structure Follows (e : Epoch) (wire : List UInt8) (uno : Firmware) : Prop where
  short : e.cut.length < packetLen
  reads : ∃ events, Runs Firmware.step Firmware.start events e.uno uno ∧
    Firmware.receivedBytes events ++ wire = e.bytes

/-- An opened port begins with nothing written and nothing read. -/
theorem Follows.fresh : Follows ⟨[], [], []⟩ [] Firmware.start where
  short := by decide
  reads := ⟨[], .nil, rfl⟩

variable {e : Epoch} {wire : List UInt8} {uno uno' : Firmware}

/-- A step of the Uno that reads no byte: an overflow, or the main loop taking a packet. -/
theorem Follows.quiet (h : Follows e wire uno) {event : Firmware.Event} {obs : Firmware.Obs}
    (moved : uno.step event = some (uno', obs)) (reads : Firmware.receivedBytes [event] = []) :
    Follows { e with uno := e.uno ++ [obs] } wire uno' := by
  obtain ⟨short, events, runs, hbytes⟩ := h
  refine ⟨short, events ++ [event], runs.snoc moved, ?_⟩
  rw [Firmware.receivedBytes, List.filterMap_append]
  rw [Firmware.receivedBytes] at reads
  rw [reads, List.append_nil]
  exact hbytes

/-- The Uno reads the next byte under way, and one byte less is. -/
theorem Follows.readByte {b : UInt8} (h : Follows e (b :: wire) uno) {obs : Firmware.Obs}
    (moved : uno.step (.byte b) = some (uno', obs)) :
    Follows { e with uno := e.uno ++ [obs] } wire uno' := by
  obtain ⟨short, events, runs, hbytes⟩ := h
  refine ⟨short, events ++ [.byte b], runs.snoc moved, ?_⟩
  have hread : Firmware.receivedBytes (events ++ [.byte b]) =
      Firmware.receivedBytes events ++ [b] := filterMap_snoc_some rfl
  rw [hread, List.append_assoc]
  exact hbytes

/-- A frame written whole while no cut frame is under way adds its bytes to the wire. -/
theorem Follows.whole (h : Follows e wire uno) (clean : e.cut = []) (f : Frame) :
    Follows { e with written := e.written ++ [f] } (wire ++ f.bytes) uno := by
  obtain ⟨short, events, runs, hbytes⟩ := h
  refine ⟨short, events, runs, ?_⟩
  rw [← List.append_assoc, hbytes, Epoch.bytes, Epoch.bytes, clean, List.append_nil,
    List.append_nil, List.flatMap_append, List.flatMap_singleton]

/-- A write that fails leaves a part of its frame on the wire, shorter than a frame, and ends the
epoch's writing. -/
theorem Follows.cut (h : Follows e wire uno) (clean : e.cut = []) (f : Frame)
    (delivered : Fin packetLen) :
    Follows { e with cut := f.bytes.take delivered } (wire ++ f.bytes.take delivered) uno := by
  obtain ⟨-, events, runs, hbytes⟩ := h
  refine ⟨Nat.lt_of_le_of_lt (List.length_take_le _ _) delivered.isLt, events, runs, ?_⟩
  rw [← List.append_assoc, hbytes, Epoch.bytes, Epoch.bytes, clean, List.append_nil]

/-- An idle parser answers whole frames with their pairs and is idle again. -/
theorem push_frames {p : PacketParser} (idle : p.len = 0) (frames : List Frame) :
    ∃ answers q, Runs PacketParser.push p (frames.flatMap Frame.bytes) answers q ∧ q.len = 0 ∧
      answers.filterMap id = frames.map Frame.pair := by
  induction frames using List.reverseRecOn with
  | nil => exact ⟨[], p, .nil, idle, rfl⟩
  | append_singleton frames f ih =>
    obtain ⟨answers, q, runs, hq, hanswers⟩ := ih
    obtain ⟨q', read, hq'⟩ := push_packet hq f.sequence (entangled f.raw f.drift).1
      (entangled f.raw f.drift).2
    refine ⟨answers ++ framing.delivery f.bytes, q', ?_, hq', ?_⟩
    · rw [List.flatMap_append, List.flatMap_singleton]
      exact runs.trans read
    · rw [List.filterMap_append, hanswers, delivery_values, List.map_append]
      rfl

/-- What a fresh parser answers to the bytes of an epoch: the pairs of the whole frames, and nothing
to the part of one behind them. -/
theorem answers_epoch (short : e.cut.length < packetLen) :
    ∃ answers q, Runs PacketParser.push PacketParser.new e.bytes answers q ∧
      answers.filterMap id = e.written.map Frame.pair := by
  obtain ⟨answers, q, runs, hq, hanswers⟩ := push_frames (p := PacketParser.new) rfl e.written
  obtain ⟨q', read, -⟩ := push_prefix hq short
  refine ⟨_, q', runs.trans read, ?_⟩
  rw [List.filterMap_append, hanswers, List.filterMap_replicate_of_none rfl, List.append_nil]

/-- **What the Uno has accepted are the first frames written**, all of them once nothing is under
way. A packet that waits for the main loop counts as the next one. -/
theorem Follows.accepts (h : Follows e wire uno) :
    e.accepted ++ uno.pending.toList <+: e.written.map Frame.pair ∧
      (wire = [] → e.accepted ++ uno.pending.toList = e.written.map Frame.pair) := by
  obtain ⟨short, events, runs, hbytes⟩ := h
  obtain ⟨-, -, parses, accepts⟩ := Firmware.failsafe_of_runs runs
  obtain ⟨answers, q, whole, hanswers⟩ := answers_epoch short
  rw [← hbytes] at whole
  obtain ⟨q', first, later, rfl, before, after⟩ := whole.split
  obtain ⟨rfl, rfl⟩ := parses.deterministic before
  rw [List.filterMap_append, ← accepts] at hanswers
  refine ⟨⟨_, hanswers⟩, ?_⟩
  rintro rfl
  obtain ⟨rfl, -⟩ := after.of_nil
  rw [← hanswers, List.filterMap_nil, List.append_nil]
  rfl

/-! ## What a frame was made of -/

variable {rng : Rng} {events : List Event} {outputs : List Obs} {l l' : Line}

/-- Between two writes on one open port: the steps across which what the sender has in hand stays
fresh. -/
def Obs.Between : Obs → Prop
  | .wrote _ _ | .opened true => False
  | .inputs | .opened false | .copied | .mixed | .uno _ => True

/-- The controls were `raw` at some point of the run over `events`, and since that point nothing was
written and the port was not opened. -/
def Copied (rng : Rng) (events : List Event) (outputs : List Obs) (raw : Controls ℚ) : Prop :=
  ∃ before after earlier since s, events = before ++ after ∧ outputs = earlier ++ since ∧
    Runs step (start rng) before earlier s ∧ s.inputs.controls = raw ∧ ∀ o ∈ since, o.Between

/-- The controls were `raw` at some point of the run over `events`, and the drift was `drift` at
that point or later; since then nothing was written and the port was not opened. -/
def Mixed (rng : Rng) (events : List Event) (outputs : List Obs) (raw : Controls ℚ)
    (drift : Drift ℚ) : Prop :=
  ∃ before after earlier since s, events = before ++ after ∧ outputs = earlier ++ since ∧
    Runs step (start rng) before earlier s ∧ s.inputs.drift = drift ∧
    Copied rng before earlier raw ∧ ∀ o ∈ since, o.Between

/-- The frame was written whole in this run, and what it is made of was read since the write before
it, or since the port was opened if that was later. So no frame carries axes older than its
predecessor. -/
def Made (rng : Rng) (events : List Event) (outputs : List Obs) (f : Frame) : Prop :=
  ∃ before after earlier since s, events = before ++ .write .ok :: after ∧
    outputs = earlier ++ .wrote f .ok :: since ∧ Runs step (start rng) before earlier s ∧
    Mixed rng before earlier f.raw f.drift

theorem forall_mem_snoc {α : Type*} {P : α → Prop} {l : List α} {a : α} (h : ∀ b ∈ l, P b)
    (ha : P a) : ∀ b ∈ l ++ [a], P b :=
  List.forall_mem_append.mpr ⟨h, List.forall_mem_singleton.mpr ha⟩

/-- A copy stays fresh across a step in between. -/
theorem Copied.snoc {raw : Controls ℚ} (h : Copied rng events outputs raw) (e : Event) {o : Obs}
    (between : o.Between) : Copied rng (events ++ [e]) (outputs ++ [o]) raw := by
  obtain ⟨before, after, earlier, since, s, rfl, rfl, runs, hraw, quiet⟩ := h
  exact ⟨before, after ++ [e], earlier, since ++ [o], s, List.append_assoc .., List.append_assoc ..,
    runs, hraw, forall_mem_snoc quiet between⟩

/-- So does the pair of copies. -/
theorem Mixed.snoc {raw : Controls ℚ} {drift : Drift ℚ} (h : Mixed rng events outputs raw drift)
    (e : Event) {o : Obs} (between : o.Between) :
    Mixed rng (events ++ [e]) (outputs ++ [o]) raw drift := by
  obtain ⟨before, after, earlier, since, s, rfl, rfl, runs, hdrift, hraw, quiet⟩ := h
  exact ⟨before, after ++ [e], earlier, since ++ [o], s, List.append_assoc .., List.append_assoc ..,
    runs, hdrift, hraw, forall_mem_snoc quiet between⟩

/-- What a frame was made of does not change any more. -/
theorem Made.snoc {f : Frame} (h : Made rng events outputs f) (e : Event) (o : Obs) :
    Made rng (events ++ [e]) (outputs ++ [o]) f := by
  obtain ⟨before, after, earlier, since, s, rfl, rfl, runs, mixed⟩ := h
  refine ⟨before, after ++ [e], earlier, since ++ [o], s, ?_, ?_, runs, mixed⟩
  · rw [List.append_assoc, List.cons_append]
  · rw [List.append_assoc, List.cons_append]

/-- The axes and the drift stay within their limits on the line, as the threads around the controls
keep them. -/
theorem bounded_of_runs (runs : Runs step (start rng) events outputs l) : l.inputs.Bounded := by
  refine runs.invariant (P := fun l => l.inputs.Bounded) (Inputs.start_bounded rng)
    fun l e l' o bounded stepped => ?_
  cases step_moved stepped with
  | inputs event inputs obs moved => exact bounded.moved moved
  | _ => exact bounded

/-- What a frame is made of is within these limits, for it was held in the run. -/
theorem Mixed.bounded {raw : Controls ℚ} {drift : Drift ℚ}
    (h : Mixed rng events outputs raw drift) : raw.Bounded ∧ drift.Bounded := by
  obtain ⟨_, _, _, _, s, -, -, runs, rfl, ⟨_, _, _, _, t, -, -, runs', rfl, -⟩, -⟩ := h
  exact ⟨(bounded_of_runs runs').controls, (bounded_of_runs runs).drift⟩

/-- What the sender thread has in hand was read since its last write. -/
def Reading.Sampled (rng : Rng) (events : List Event) (outputs : List Obs) : Reading → Prop
  | .idle => True
  | .copied raw => Copied rng events outputs raw
  | .mixed raw drift => Mixed rng events outputs raw drift

/-- What the sender has in hand stays fresh across a step in between. -/
theorem Reading.Sampled.snoc {reading : Reading} (h : Reading.Sampled rng events outputs reading)
    (e : Event) {o : Obs} (between : o.Between) :
    Reading.Sampled rng (events ++ [e]) (outputs ++ [o]) reading := by
  cases reading with
  | idle => trivial
  | copied raw => exact Copied.snoc h e between
  | mixed raw drift => exact Mixed.snoc h e between

/-- The invariant of the line: the Uno follows what was written, a connected line carries no cut
frame, and everything in hand or written was read freshly. -/
structure InOrder (rng : Rng) (events : List Event) (outputs : List Obs) (l : Line) : Prop where
  follows : Follows (epoch outputs) l.wire l.uno
  clean : l.sender.connected = true → (epoch outputs).cut = []
  /-- Without a port the sender thread has nothing in hand. -/
  closed : l.sender.connected = false → l.reading = .idle
  reading : Reading.Sampled rng events outputs l.reading
  written : ∀ f ∈ (epoch outputs).written, Made rng events outputs f

/-- At startup nothing is open, written or in hand. -/
theorem InOrder.start (rng : Rng) : InOrder rng [] [] (start rng) where
  follows := .fresh
  clean := fun _ => rfl
  closed := fun _ => rfl
  reading := trivial
  written := fun _ mem => absurd mem List.not_mem_nil

/-- The invariant one step later, in terms of the epoch before: only the frames written by this very
step need a new reason. -/
theorem InOrder.snoc {e : Event} {o : Obs} (h : InOrder rng events outputs l)
    (follows : Follows ((epoch outputs).note o) l'.wire l'.uno)
    (clean : l'.sender.connected = true → ((epoch outputs).note o).cut = [])
    (closed : l'.sender.connected = false → l'.reading = .idle)
    (reading : Reading.Sampled rng (events ++ [e]) (outputs ++ [o]) l'.reading)
    (written : ∀ f ∈ ((epoch outputs).note o).written,
      f ∈ (epoch outputs).written ∨ Made rng (events ++ [e]) (outputs ++ [o]) f) :
    InOrder rng (events ++ [e]) (outputs ++ [o]) l' := by
  refine ⟨by rwa [epoch_snoc], by rwa [epoch_snoc], closed, reading, ?_⟩
  rw [epoch_snoc]
  intro f mem
  rcases written f mem with old | new
  · exact (h.written f old).snoc e o
  · exact new

/-- One step of anyone keeps the invariant; the cases are those of `Moved`. -/
theorem InOrder.moved {e : Event} {o : Obs} (h : InOrder rng events outputs l)
    (runs : Runs Line.step (Line.start rng) events outputs l) (moved : Moved l e l' o) :
    InOrder rng (events ++ [e]) (outputs ++ [o]) l' := by
  have reading := h.reading
  cases moved with
  | inputs event inputs obs moved =>
    exact h.snoc h.follows h.clean h.closed (reading.snoc _ trivial) fun _ mem => .inl mem
  | opened closed =>
    -- only a sender with nothing in hand opens the port
    have idle := h.closed closed
    refine h.snoc .fresh (fun _ => rfl) (fun _ => idle) ?_ fun _ mem => absurd mem List.not_mem_nil
    change Reading.Sampled _ _ _ l.reading
    rw [idle]
    trivial
  | refused closed =>
    exact h.snoc h.follows h.clean h.closed (reading.snoc _ trivial) fun _ mem => .inl mem
  | copied connected idle =>
    have sampled : Copied rng events outputs l.inputs.controls :=
      ⟨events, [], outputs, [], l, (List.append_nil _).symm, (List.append_nil _).symm, runs, rfl,
        fun _ mem => absurd mem List.not_mem_nil⟩
    exact h.snoc h.follows h.clean (fun closed => nomatch connected.symm.trans closed)
      (sampled.snoc _ trivial) fun _ mem => .inl mem
  | mixed raw copied =>
    have connected : l.sender.connected ≠ false :=
      fun closed => nomatch copied.symm.trans (h.closed closed)
    rw [copied] at reading
    have sampled : Mixed rng events outputs raw l.inputs.drift :=
      ⟨events, [], outputs, [], l, (List.append_nil _).symm, (List.append_nil _).symm, runs, rfl,
        reading, fun _ mem => absurd mem List.not_mem_nil⟩
    exact h.snoc h.follows h.clean (fun closed => absurd closed connected)
      (sampled.snoc _ trivial) fun _ mem => .inl mem
  | whole f mixed sequence connected =>
    rw [mixed] at reading
    refine h.snoc (h.follows.whole (h.clean connected) f) h.clean (fun _ => rfl) trivial
      fun g mem => ?_
    rcases List.mem_append.mp mem with old | new
    · exact .inl old
    · rw [List.mem_singleton.mp new]
      exact .inr ⟨events, [], outputs, [], l, rfl, rfl, runs, reading⟩
  | cut f delivered mixed sequence connected =>
    exact h.snoc (h.follows.cut (h.clean connected) f delivered)
      (fun reconnected => by cases reconnected) (fun _ => rfl) trivial fun _ mem => .inl mem
  | readByte b wire uno obs next moved =>
    have follows := h.follows
    rw [next] at follows
    exact h.snoc (follows.readByte moved) h.clean h.closed (reading.snoc _ trivial)
      fun _ mem => .inl mem
  | accept uno obs moved =>
    exact h.snoc (h.follows.quiet moved rfl) h.clean h.closed (reading.snoc _ trivial)
      fun _ mem => .inl mem
  | overflow uno obs moved =>
    exact h.snoc (h.follows.quiet moved rfl) h.clean h.closed (reading.snoc _ trivial)
      fun _ mem => .inl mem

/-- The last accepted packet is the one the overflows are counted from, both being read off the same
history. -/
theorem last_accepted (obs : List Firmware.Obs) :
    (Firmware.sinceAccepted obs).map Prod.fst = (Firmware.accepted obs).getLast? := by
  induction obs using List.reverseRecOn with
  | nil => rfl
  | append_singleton obs o ih =>
    rw [Firmware.sinceAccepted_snoc, Firmware.accepted, List.filterMap_append]
    cases o with
    | parsed answer =>
      rw [List.filterMap_cons_none rfl, List.filterMap_nil, List.append_nil]
      exact ih
    | accepted packet => exact List.getLast?_concat.symm
    | overflow =>
      rw [List.filterMap_cons_none rfl, List.filterMap_nil, List.append_nil]
      refine Eq.trans ?_ ih
      rw [Firmware.note, Option.map_map]
      rfl

/-- The last accepted packet is the pair of a frame written, the one as far into the epoch as
packets were accepted. -/
theorem Follows.last (h : Follows e wire uno) {packet : UInt8 × UInt8} {overflows : Nat}
    (last : Firmware.sinceAccepted e.uno = some (packet, overflows)) :
    ∃ f, e.written[e.accepted.length - 1]? = some f ∧ f ∈ e.written ∧ packet = f.pair := by
  obtain ⟨rest, hrest⟩ := h.accepts.1
  have hlast := last_accepted e.uno
  rw [last, Option.map_some] at hlast
  have hentry : e.accepted[e.accepted.length - 1]? = some packet := by
    rw [Epoch.accepted, ← List.getLast?_eq_getElem?, ← hlast]
  have hmapped : (e.written.map Frame.pair)[e.accepted.length - 1]? = some packet := by
    rw [← hrest, List.append_assoc]
    exact List.getElem?_append_left (List.getElem?_eq_some_iff.mp hentry).1 ▸ hentry
  rw [List.getElem?_map] at hmapped
  obtain ⟨f, hf, hpair⟩ := Option.map_eq_some_iff.mp hmapped
  exact ⟨f, hf, List.mem_of_getElem? hf, hpair.symm⟩

/-- Player 1 goes all the way while a write breaks off; after a reconnect a frame gets through. -/
def reconnected : List Event :=
  [.openPort false, .openPort true, .copyControls, .inputs (.setInput "p1" .infinity), .copyDrift,
    .inputs .driftTick, .write (.error ⟨3, by decide⟩), .readByte, .readByte, .overflow,
    .openPort true, .copyControls, .copyDrift, .inputs (.setInput "p2" (.finite (-1))), .write .ok,
    .readByte, .readByte, .readByte, .overflow, .readByte, .readByte, .accept, .overflow]

end Line

end Motorball.Link
