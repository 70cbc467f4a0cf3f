import Motorball.Server.UnoSerial
import Motorball.Uno.PacketParser
import Mathlib.Data.List.Range

/-!
# Sessions over the serial link

The server's encoder and the Uno's decoder are two programs with a CRC of their own each. This
module puts them on one wire and says that they agree over whole sessions: opening the port restarts
the Uno with a fresh parser, the bytes a write delivers arrive in order and unaltered, and a write
that fails delivers a proper prefix of its frame.

Between two events the parser of a connected link is idle (`InStep.idle`). A frame written whole
then begins with nothing kept, so it is delivered whatever bytes it carries; a prefix of a frame
completes nothing, and the reconnect that follows throws it away. `session_agrees` reads off the
whole session from that.
-/

namespace Motorball.Link

open Transducer Motorball.Server.UnoSerial
open Motorball.Uno (PacketParser framing)

/-! ## The two programs agree on a frame -/

/-- The servo values the server sends for a pair of control values, each inverted and clamped to a
byte. -/
def servoPair (player1 player2 : Int) : UInt8 × UInt8 :=
  (invertedServoValue player1, invertedServoValue player2)

/-- The two programs compute the same checksum, each with its own copy of the function. -/
theorem crc8_agree (bytes : List UInt8) : crc8 bytes = Uno.crc8 bytes := rfl

/-- The Uno accepts what the server encodes, for every sequence byte and every pair of control
values, those outside a byte included. -/
theorem packet_isFrame (sequence : UInt8) (player1 player2 : Int) :
    framing.IsFrame (packet sequence player1 player2).toList where
  length_eq := Vector.length_toList
  begins := rfl
  ok := by
    rw [packet_toList, Uno.framing_valid_five, crc8_agree]
    exact decide_eq_true rfl

/-- The Uno finds the two servo values where the server put them. -/
theorem packet_decode (sequence : UInt8) (player1 player2 : Int) :
    framing.decode (packet sequence player1 player2).toList = servoPair player1 player2 := rfl

/-- Of the five answers to a whole frame, one is a pair of values. -/
theorem delivery_values (frame : List UInt8) :
    (framing.delivery frame).filterMap id = [framing.decode frame] := by
  rw [Framing.delivery, List.filterMap_append, List.filterMap_replicate_of_none rfl]
  rfl

variable {p : PacketParser}

/-- An idle parser delivers a whole frame and is idle again, whatever its buffer holds of earlier
frames. -/
theorem push_packet (idle : p.len = 0) (sequence : UInt8) (player1 player2 : Int) :
    ∃ q, Runs PacketParser.push p (packet sequence player1 player2).toList
      (framing.delivery (packet sequence player1 player2).toList) q ∧ q.len = 0 := by
  have short : p.len < Uno.packetLen := by rw [idle]; exact Nat.succ_pos 4
  obtain ⟨outs, q, runs, hq⟩ := PacketParser.runs_total short
    (packet sequence player1 player2).toList
  have scanned := (PacketParser.runs_scan short runs).1
  rw [(PacketParser.kept_eq_nil short).mpr idle] at scanned
  obtain ⟨rfl, hkept⟩ := scanned.deterministic
    (Framing.aligned (packet_isFrame sequence player1 player2))
  exact ⟨q, runs, (PacketParser.kept_eq_nil hq).mp hkept⟩

/-- An idle parser answers nothing to fewer bytes than a frame: a write that breaks off delivers
nothing. -/
theorem push_prefix (idle : p.len = 0) {bytes : List UInt8} (few : bytes.length < Uno.packetLen) :
    ∃ q, Runs PacketParser.push p bytes (List.replicate bytes.length none) q ∧
      q.len < Uno.packetLen := by
  have short : p.len < Uno.packetLen := by rw [idle]; exact Nat.succ_pos 4
  obtain ⟨outs, q, runs, hq⟩ := PacketParser.runs_total short bytes
  have scanned := (PacketParser.runs_scan short runs).1
  rw [(PacketParser.kept_eq_nil short).mpr idle] at scanned
  obtain ⟨rfl, -⟩ := scanned.deterministic (Framing.hunt few)
  exact ⟨q, runs, hq⟩

/-! ## The link -/

/-- The sender thread and the parser at the other end of the wire, which reads along as fast as
bytes come. -/
structure Endpoints where
  sender : Sender
  parser : PacketParser

/-- What one event puts on the wire, and the pairs the Uno accepts meanwhile. -/
structure Delivery where
  wire : List UInt8
  received : List (UInt8 × UInt8)

/-- Both ends before the port is opened for the first time. -/
def Endpoints.start : Endpoints := ⟨Sender.start, PacketParser.new⟩

/-- One event of the sender with the Uno reading along. An opened port restarts the Uno, as the
line's reset does on this board, so the parser is a fresh one. -/
def Endpoints.step (l : Endpoints) (e : Event) : Option (Endpoints × Delivery) :=
  match l.sender.step e with
  | none => none
  | some (sender, bytes) =>
    let parser := if e = .openPort true then PacketParser.new else l.parser
    match run PacketParser.push parser bytes with
    | none => none
    | some (parser, outs) => some (⟨sender, parser⟩, ⟨bytes, outs.filterMap id⟩)

/-- A step of the sender and a run of the parser over what it wrote make a step of the link. -/
theorem Endpoints.step_of_runs {l : Endpoints} {e : Event} {sender : Sender} {bytes : List UInt8}
    {outs : List (Option (UInt8 × UInt8))} {q : PacketParser}
    (moved : l.sender.step e = some (sender, bytes))
    (read : Runs PacketParser.push (if e = .openPort true then PacketParser.new else l.parser)
      bytes outs q) :
    l.step e = some (⟨sender, q⟩, ⟨bytes, outs.filterMap id⟩) := by
  simp only [Endpoints.step, moved, run_eq_some.mpr read]

/-! ## Histories of a session -/

/-- The control values of a frame that was written whole; a write that failed completed none. -/
def completed? : Event → Option (Int × Int)
  | .frame player1 player2 .ok => some (player1, player2)
  | _ => none

/-- The control values of the completely written frames, in order. -/
def completed (es : List Event) : List (Int × Int) := es.filterMap completed?

/-- All pairs the Uno accepted, in order. -/
def received (os : List Delivery) : List (UInt8 × UInt8) := os.flatMap Delivery.received

/-- The sequence byte of a delivered frame, the second of those on the wire. -/
def Delivery.sequence? (d : Delivery) : Option UInt8 :=
  if d.received = [] then none else d.wire[1]?

/-- The sequence bytes of the delivered frames, in order. -/
def sequences (os : List Delivery) : List UInt8 := os.filterMap Delivery.sequence?

/-- A session so far: what was written whole is what was received, and the parser of a connected
link is between two frames. A write that fails disconnects, so the rest of a frame never waits in
the parser of a connected link. -/
structure InStep (es : List Event) (os : List Delivery) (l : Endpoints) : Prop where
  short : l.parser.len < Uno.packetLen
  idle : l.sender.connected = true → l.parser.len = 0
  received_eq : received os = (completed es).map fun c => servoPair c.1 c.2
  sequence_eq : l.sender.sequence = UInt8.ofNat (completed es).length
  sequences_eq : sequences os = (List.range (completed es).length).map UInt8.ofNat

/-- Before the port is opened nothing was written and nothing received. -/
theorem InStep.start : InStep [] [] Endpoints.start where
  short := PacketParser.new_short
  idle := fun h => by cases h
  received_eq := rfl
  sequence_eq := rfl
  sequences_eq := rfl

variable {es : List Event} {os : List Delivery} {l : Endpoints}

/-- An event that completes no frame and delivers nothing keeps the session in step. -/
theorem InStep.quiet {e : Event} {sender : Sender} {q : PacketParser} {wire : List UInt8}
    (h : InStep es os l) (nothing : completed? e = none) (short : q.len < Uno.packetLen)
    (idle : sender.connected = true → q.len = 0) (sequence : sender.sequence = l.sender.sequence) :
    InStep (es ++ [e]) (os ++ [⟨wire, []⟩]) ⟨sender, q⟩ := by
  have hes : completed (es ++ [e]) = completed es := by
    rw [completed, List.filterMap_append, List.filterMap_cons_none nothing, List.filterMap_nil,
      List.append_nil]
    rfl
  refine ⟨short, idle, ?_, ?_, ?_⟩
  · rw [hes, ← h.received_eq, received, List.flatMap_append, List.flatMap_singleton,
      List.append_nil]
    rfl
  · rw [hes, sequence, h.sequence_eq]
  · rw [hes, ← h.sequences_eq, sequences, List.filterMap_append]
    exact List.append_nil _

/-- A frame written whole on a connected link is delivered, and the sender's sequence byte goes up
by one. -/
theorem InStep.whole {player1 player2 : Int} {q : PacketParser} (h : InStep es os l)
    (idle : q.len = 0) :
    InStep (es ++ [.frame player1 player2 .ok])
      (os ++ [⟨(packet l.sender.sequence player1 player2).toList, [servoPair player1 player2]⟩])
      ⟨{ l.sender with sequence := l.sender.sequence + 1 }, q⟩ := by
  have hes : completed (es ++ [.frame player1 player2 .ok]) =
      completed es ++ [(player1, player2)] := by
    rw [completed, List.filterMap_append]
    rfl
  refine ⟨by rw [idle]; exact Nat.succ_pos 4, fun _ => idle, ?_, ?_, ?_⟩
  · rw [hes, List.map_append, ← h.received_eq, received, List.flatMap_append]
    rfl
  · rw [hes, List.length_append, h.sequence_eq, List.length_singleton, UInt8.ofNat_add]
    rfl
  · rw [hes, List.length_append, List.length_singleton, List.range_succ, List.map_append,
      ← h.sequences_eq, sequences, List.filterMap_append, List.map_singleton, ← h.sequence_eq]
    rfl

/-- Every event the sender takes, the link takes, and stays in step. The cases are the results of a
write and of an attempt to open the port. -/
theorem InStep.step {e : Event} {sender : Sender} {wire : List UInt8} (h : InStep es os l)
    (moved : l.sender.step e = some (sender, wire)) :
    ∃ l' d, l.step e = some (l', d) ∧ l'.sender = sender ∧ d.wire = wire ∧
      InStep (es ++ [e]) (os ++ [d]) l' := by
  cases e with
  | openPort ok =>
    have hmoved := moved
    rw [Sender.step] at hmoved
    split at hmoved
    · cases hmoved
    next closed =>
      cases hmoved
      refine ⟨_, _, Endpoints.step_of_runs moved .nil, rfl, rfl, ?_⟩
      refine h.quiet rfl ?_ ?_ rfl
      · split
        · exact PacketParser.new_short
        · exact h.short
      · intro hc
        rw [if_pos (congrArg Event.openPort hc)]
        rfl
  | frame player1 player2 result =>
    have hmoved := moved
    rw [Sender.step] at hmoved
    split at hmoved
    next connected =>
      cases result with
      | ok =>
        cases hmoved
        obtain ⟨q, read, hq⟩ := push_packet (h.idle connected) l.sender.sequence player1 player2
        refine ⟨_, _, Endpoints.step_of_runs moved read, rfl, rfl, ?_⟩
        rw [delivery_values, packet_decode]
        exact h.whole hq
      | error delivered =>
        cases hmoved
        have few : ((packet l.sender.sequence player1 player2).toList.take delivered).length <
            Uno.packetLen :=
          Nat.lt_of_le_of_lt (List.length_take_le _ _) delivered.isLt
        obtain ⟨q, read, hq⟩ := push_prefix (h.idle connected) few
        refine ⟨_, _, Endpoints.step_of_runs moved read, rfl, rfl, ?_⟩
        rw [List.filterMap_replicate_of_none rfl]
        exact h.quiet rfl hq (fun hc => by cases hc) rfl
    · cases hmoved

/-- Every run of the sender is a session of the link that stays in step. -/
theorem inStep_of_runs {wires : List (List UInt8)} {s : Sender}
    (runs : Runs Sender.step Sender.start es wires s) :
    ∃ os l, Runs Endpoints.step Endpoints.start es os l ∧ l.sender = s ∧
      os.map Delivery.wire = wires ∧ InStep es os l := by
  induction runs with
  | nil => exact ⟨[], Endpoints.start, .nil, rfl, rfl, InStep.start⟩
  | snoc _ last ih =>
    obtain ⟨os, l, runs, rfl, rfl, h⟩ := ih
    obtain ⟨l', d, moved, hs, hw, h'⟩ := h.step last
    exact ⟨os ++ [d], l', runs.snoc moved, hs, by rw [List.map_append, List.map_singleton, hw], h'⟩

/-- **Encoder and decoder agree over whole sessions.** Whatever the sender thread reads, however
often it reconnects and wherever its writes break off, the Uno accepts exactly the inverted, clamped
values of the completely written frames, in order and each once, and their sequence bytes count up
by one modulo 256 from the first frame on. A reconnect does not restart the count, which lives
outside the loop that opens the port. -/
theorem session_agrees {wires : List (List UInt8)} {s : Sender}
    (runs : Runs Sender.step Sender.start es wires s) :
    ∃ os l, Runs Endpoints.step Endpoints.start es os l ∧ os.map Delivery.wire = wires ∧
      (received os).map (fun v => ((v.1.toNat : Int), (v.2.toNat : Int))) =
        (completed es).map (fun c => (255 - Arith.clamp c.1 0 255, 255 - Arith.clamp c.2 0 255)) ∧
      sequences os = (List.range (completed es).length).map UInt8.ofNat := by
  obtain ⟨os, l, session, -, hwires, h⟩ := inStep_of_runs runs
  refine ⟨os, l, session, hwires, ?_, h.sequences_eq⟩
  rw [h.received_eq, List.map_map]
  apply List.map_congr_left
  intro c _
  simp only [Function.comp_apply, servoPair, invertedServoValue_toNat]

/-- A session with a refused open, a frame cut off after three bytes and a reconnect: the frame that
was cut off is not delivered, and its sequence byte is used again. -/
theorem session_agrees_reconnect :
    ∃ os l, Runs Endpoints.step Endpoints.start
        [.openPort false, .openPort true, .frame 0 300 .ok, .frame 7 8 (.error ⟨3, by decide⟩),
          .openPort true, .frame (-5) 90 .ok] os l ∧
      (received os).map (fun v => ((v.1.toNat : Int), (v.2.toNat : Int))) =
        [(255, 0), (255, 165)] ∧
      sequences os = [0, 1] := by
  have sender : ∃ wires s, Runs Sender.step Sender.start [.openPort false, .openPort true,
      .frame 0 300 .ok, .frame 7 8 (.error ⟨3, by decide⟩), .openPort true,
      .frame (-5) 90 .ok] wires s := ⟨_, _, run_eq_some.mp rfl⟩
  obtain ⟨wires, s, sent⟩ := sender
  obtain ⟨os, l, session, -, hreceived, hsequences⟩ := session_agrees sent
  exact ⟨os, l, session, hreceived, hsequences⟩

end Motorball.Link
