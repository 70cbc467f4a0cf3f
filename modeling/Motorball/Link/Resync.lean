import Motorball.Link.Session

/-!
# Realignment after line noise

Noise can leave the parser in the middle of a packet, and the frames that follow then arrive across
the window it is filling. A window that fails its check is thrown away whole: a sync byte inside it
is not tried again, only its last byte is. So the parser finds the frame boundary as soon as one
frame carries no sync byte behind its first one (`one_frame_resync`), but frames that do carry one
can keep it off the boundary (`recovers_iff`, `constant_value_derails`).
-/

namespace Motorball.Link

open Transducer Motorball.Server.UnoSerial
open Motorball.Uno (PacketParser framing)

/-- The arguments of one call of `packet`: what the server sends in one frame, with any sequence
byte and any control values. -/
structure Sent where
  sequence : UInt8
  player1 : Int
  player2 : Int

/-- The five bytes of the frame on the wire. -/
def Sent.bytes (f : Sent) : List UInt8 := (packet f.sequence f.player1 f.player2).toList

/-- The servo values that the Uno finds in them. -/
def Sent.pair (f : Sent) : UInt8 × UInt8 := servoPair f.player1 f.player2

/-- What the server encodes is a frame in the sense of the parser: five bytes, the sync byte first
and a checksum that fits. -/
theorem Sent.isFrame (f : Sent) : framing.IsFrame f.bytes :=
  packet_isFrame f.sequence f.player1 f.player2

theorem Sent.delivery (f : Sent) :
    framing.delivery f.bytes = [none, none, none, none, some f.pair] := rfl

/-- The same of a sequence of frames, as the scanner's theorems ask for it. -/
theorem bytes_isFrame {frames : List Sent} : ∀ g ∈ frames.map Sent.bytes, framing.IsFrame g := by
  intro g hg
  obtain ⟨f, _, rfl⟩ := List.mem_map.mp hg
  exact f.isFrame

variable {noise : List UInt8} {outs₀ : List (Option (UInt8 × UInt8))} {p : PacketParser}

/-- What the parser answers to a sequence of frames, as a run of the scanner that keeps the bytes of
the parser's buffer; what holds of any scanner then holds of this one. -/
theorem push_frames (reached : Runs PacketParser.push PacketParser.new noise outs₀ p)
    (frames : List Sent) :
    ∃ outs q, Runs PacketParser.push p (frames.flatMap Sent.bytes) outs q ∧
      q.len < Uno.packetLen ∧ p.kept.length < framing.length ∧
      Runs framing.step p.kept (frames.map Sent.bytes).flatten outs q.kept := by
  have short := (PacketParser.runs_scan PacketParser.new_short reached).2
  obtain ⟨outs, q, runs, hq⟩ := PacketParser.runs_total short (frames.flatMap Sent.bytes)
  have scanned := (PacketParser.runs_scan short runs).1
  rw [List.flatMap_def] at scanned
  exact ⟨outs, q, runs, hq, by rw [PacketParser.kept_length short]; exact short, scanned⟩

/-- **One-frame resynchronisation.** Whatever the parser has received, of a nonempty sequence of
frames with no sync byte behind the first one it delivers every frame from the second on, answers
nothing else to them, and is idle at the end. The first frame can be lost to the noise before it,
and without an in-band sync byte it is the only one: the next search for a sync byte ends at a
boundary. -/
theorem one_frame_resync (reached : Runs PacketParser.push PacketParser.new noise outs₀ p)
    {frames : List Sent} (nonempty : frames ≠ [])
    (free : ∀ f ∈ frames, sync ∉ f.bytes.tail) :
    ∃ outs q, Runs PacketParser.push p (frames.flatMap Sent.bytes) outs q ∧ q.len = 0 ∧
      outs.drop packetLen =
        frames.tail.flatMap fun f => [none, none, none, none, some f.pair] := by
  obtain ⟨outs, q, runs, hq, short, scanned⟩ := push_frames reached frames
  obtain ⟨f, fs, rfl⟩ := List.exists_cons_of_ne_nil nonempty
  have all : ∀ g ∈ (f :: fs).map Sent.bytes, framing.IsFrame g := bytes_isFrame
  obtain ⟨hkept, hrest⟩ := Framing.realigned short all (free f List.mem_cons_self) scanned
  refine ⟨outs, q, runs, (PacketParser.kept_eq_nil hq).mp hkept, ?_⟩
  simp only [List.flatMap_map, Sent.delivery] at hrest
  exact hrest

/-- Two frames after noise that begins a packet: the first is lost, since the parser takes its bytes
for the rest of that packet, and the second is delivered. -/
theorem one_frame_resync_after_noise :
    ∃ outs q, Runs PacketParser.push ⟨#v[0xA5, 0, 0, 0, 0], 3⟩
        (List.flatMap Sent.bytes [⟨0, 0, 255⟩, ⟨1, 12, 34⟩]) outs q ∧ q.len = 0 ∧
      outs.drop packetLen = [none, none, none, none, some (243, 221)] :=
  one_frame_resync (run_eq_some.mp (by decide : run PacketParser.push PacketParser.new
    [0xA5, 0, 0] = some (⟨#v[0xA5, 0, 0, 0, 0], 3⟩, [none, none, none]))) (by decide)
    (by decide +kernel)

/-- Frames across which realignment can fail carry a sync byte behind the first one, each of them
but the last. -/
theorem derailed_inband (reached : Runs PacketParser.push PacketParser.new noise outs₀ p)
    {before after : List Sent} {f : Sent} (later : after ≠ [])
    (derailed : framing.Derailed p.kept ((before ++ f :: after).map Sent.bytes)) :
    sync ∈ f.bytes.tail := by
  obtain ⟨g, fs, rfl⟩ := List.exists_cons_of_ne_nil later
  obtain ⟨_, _, _, _, short, _⟩ := push_frames reached []
  have all : ∀ h ∈ (before ++ f :: g :: fs).map Sent.bytes, framing.IsFrame h := bytes_isFrame
  rw [List.map_append, List.map_cons, List.map_cons] at derailed all
  exact Framing.derailed_tail all short derailed

/-- Six heartbeat frames, with consecutive sequence bytes as the sender counts them and any control
values. -/
def heartbeats (sequence : UInt8) (player1 player2 : Fin 6 → Int) : List Sent :=
  List.ofFn fun i => ⟨sequence + UInt8.ofNat i, player1 i, player2 i⟩

/-- **When the link recovers within six frames.** Six back-to-back frames after any noise deliver
one of their number exactly when the windows that the parser fills do not straddle the beginning of
each of them. The condition speaks of the bytes the parser has kept and of the bytes of the frames;
it is not always met, because a sync byte is not escaped inside a frame. -/
theorem recovers_iff (reached : Runs PacketParser.push PacketParser.new noise outs₀ p)
    (sequence : UInt8) (player1 player2 : Fin 6 → Int) :
    ∃ outs q, Runs PacketParser.push p
        ((heartbeats sequence player1 player2).flatMap Sent.bytes) outs q ∧
      ((∃ i : Fin 6, outs[i * packetLen + (packetLen - 1)]? =
          some (some (servoPair (player1 i) (player2 i)))) ↔
        ¬ framing.Derailed p.kept ((heartbeats sequence player1 player2).map Sent.bytes)) := by
  obtain ⟨outs, q, runs, _, short, scanned⟩ :=
    push_frames reached (heartbeats sequence player1 player2)
  refine ⟨outs, q, runs, ?_⟩
  have sent : ∀ i : Fin 6, ((heartbeats sequence player1 player2).map Sent.bytes)[(i : Nat)]? =
      some (Sent.bytes ⟨sequence + UInt8.ofNat i, player1 i, player2 i⟩) := by
    intro i
    rw [heartbeats, List.getElem?_map, List.getElem?_ofFn, dif_pos i.isLt]
    rfl
  rw [← Framing.none_delivered_iff bytes_isFrame short scanned]
  constructor
  · rintro ⟨i, hi⟩ lost
    exact lost i _ (sent i) hi
  · intro recovers
    by_contra lost
    refine recovers fun i f hf delivers => lost ?_
    have hlt := (List.getElem?_eq_some_iff.mp hf).1
    rw [heartbeats, List.length_map, List.length_ofFn] at hlt
    rw [show i = ((⟨i, hlt⟩ : Fin 6) : Nat) from rfl, sent, Option.some.injEq] at hf
    subst hf
    exact ⟨⟨i, hlt⟩, delivers⟩

/-- A steady control value of 90, let go for one frame. -/
def released : Fin 6 → Int := fun i => if i = 2 then 0 else 90

/-- After noise that begins a packet, frames that carry the sync byte as their first payload byte
keep the parser off the boundary until one of them does not. The third one here does not, so by
`derailed_inband` the six are not all lost. -/
theorem recovers_after_noise :
    ∃ p outs q, Runs PacketParser.push PacketParser.new [0xA5, 0, 0] [none, none, none] p ∧
      Runs PacketParser.push p
        ((heartbeats 0 released fun _ => 0).flatMap Sent.bytes) outs q ∧
      ¬ framing.Derailed p.kept ((heartbeats 0 released fun _ => 0).map Sent.bytes) ∧
      ∃ i : Fin 6, outs[i * packetLen + (packetLen - 1)]? =
        some (some (servoPair (released i) 0)) := by
  have noise : run PacketParser.push PacketParser.new [0xA5, 0, 0] =
      some (⟨#v[0xA5, 0, 0, 0, 0], 3⟩, [none, none, none]) := by decide
  have reached := run_eq_some.mp noise
  have free : sync ∉ (Sent.bytes ⟨2, 0, 0⟩).tail := by decide +kernel
  have parts : heartbeats 0 released (fun _ => 0) =
      [⟨0, 90, 0⟩, ⟨1, 90, 0⟩] ++ ⟨2, 0, 0⟩ :: [⟨3, 90, 0⟩, ⟨4, 90, 0⟩, ⟨5, 90, 0⟩] := rfl
  have recovers : ¬ framing.Derailed _ ((heartbeats 0 released fun _ => 0).map Sent.bytes) :=
    fun derailed => free (derailed_inband reached (List.cons_ne_nil _ _) (parts ▸ derailed))
  obtain ⟨outs, q, runs, delivers⟩ := recovers_iff reached 0 released fun _ => 0
  exact ⟨_, outs, q, reached, runs, recovers, delivers.mpr recovers⟩

/-- A steady control value of 90 is sent as the sync byte. After three bytes of noise none of six
frames that carry it is delivered. -/
theorem constant_value_derails :
    ∃ p q outs, Runs PacketParser.push PacketParser.new [0xA5, 0, 0] [none, none, none] p ∧
      Runs PacketParser.push p
        ((heartbeats 0 (fun _ => 90) (fun _ => 0)).flatMap Sent.bytes) outs q ∧
      ∀ i : Fin 6, outs[i * packetLen + (packetLen - 1)]? ≠ some (some (servoPair 90 0)) := by
  have noise : run PacketParser.push PacketParser.new [0xA5, 0, 0] =
      some (⟨#v[0xA5, 0, 0, 0, 0], 3⟩, [none, none, none]) := by decide
  have silent : (run PacketParser.push ⟨#v[0xA5, 0, 0, 0, 0], 3⟩
      ((heartbeats 0 (fun _ => 90) (fun _ => 0)).flatMap Sent.bytes)).map Prod.snd =
      some (List.replicate 30 none) := by decide +kernel
  obtain ⟨outs, q, runs, rfl⟩ := runs_of_run silent
  exact ⟨_, q, _, run_eq_some.mp noise, runs, by decide⟩

end Motorball.Link
