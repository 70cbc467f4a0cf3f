import Motorball.Server.Controls
import Motorball.Link.Session
import Motorball.Uno.Firmware

/-!
# From the axes to the servos

The whole way of a control value: the server mixes the two players' axes with the drift, rounds and
clamps, inverts and frames; the Uno parses, checks and scales. `chain` runs both programs, the
firmware on the bytes of the packet and its section on the pair it completes. An idle firmware
programs `pulse` of either value (`chain_eq`), which falls as the value rises (`pulse_antitone`), so
what a player's axis does to the two servos is decided by the mixing alone (`chain_fair`).
-/

namespace Motorball.Link

open Transducer Motorball.Server Motorball.Server.UnoSerial
open Motorball.Uno (PacketParser Firmware framing)

/-- Main waits for the first byte of a packet and has none to program: the state the firmware starts
in and comes back to after every packet. -/
structure Idle (u : Firmware) : Prop where
  parser : u.parser.len = 0
  pending : u.pending = none

/-- The registers (OCR1A, OCR1B) once the firmware has received a packet of the mixed values and
programmed it: the server's mixing, its packet, the parser and the conversion to timer counts, one
after the other. -/
def chain (u : Firmware) (sequence : UInt8) (raw : Controls ℚ) (drift : Drift ℚ) :
    Option (UInt16 × UInt16) :=
  let (n1, n2) := entangled raw drift
  let events := (packet sequence n1 n2).toList.map Firmware.Event.byte ++ [.accept]
  (run Firmware.step u events).map fun (u, _) => (u.ocr1a, u.ocr1b)

/-! ## The firmware on one packet -/

variable {u u' : Firmware} {p q : PacketParser}

/-- While the parser answers nothing, reading changes nothing but the parser, so what a run of the
parser says holds of the firmware's run over the same bytes. -/
theorem listens (waiting : u.pending = none) {bytes : List UInt8}
    {answers : List (Option (UInt8 × UInt8))}
    (read : Runs PacketParser.push u.parser bytes answers q)
    (silent : ∀ answer ∈ answers, answer = none) :
    ∃ outputs, Runs Firmware.step u (bytes.map .byte) outputs { u with parser := q } := by
  induction read with
  | nil => exact ⟨[], .nil⟩
  | @snoc bytes answers q q' b answer _ pushed ih =>
    obtain ⟨outputs, runs⟩ := ih fun a ha => silent a (List.mem_append_left _ ha)
    obtain rfl : answer = none :=
      silent answer (List.mem_append_right _ (List.mem_singleton_self _))
    refine ⟨outputs ++ [.parsed none], ?_⟩
    rw [List.map_append, List.map_singleton]
    refine runs.snoc ?_
    simp only [Firmware.step, waiting, pushed]

/-- An idle firmware that reads a packet and gets to its main loop programs the pair of the packet,
inverted as the server sends it. -/
theorem programs (idle : Idle u) (sequence : UInt8) (player1 player2 : Int) :
    ∃ outputs q, Runs Firmware.step u
      ((packet sequence player1 player2).toList.map Firmware.Event.byte ++ [.accept]) outputs
      (({ u with parser := q } : Firmware).accept (servoPair player1 player2)) := by
  obtain ⟨q, read, -⟩ := push_packet idle.parser sequence player1 player2
  have hframe := packet_toList sequence player1 player2
  have hdelivery : framing.delivery (packet sequence player1 player2).toList =
      List.replicate 4 none ++ [some (servoPair player1 player2)] := rfl
  rw [hdelivery, hframe] at read
  have whole : Runs PacketParser.push u.parser
      ([sync, sequence, invertedServoValue player1, invertedServoValue player2] ++
        [crc8 [sync, sequence, invertedServoValue player1, invertedServoValue player2]])
      (List.replicate 4 none ++ [some (servoPair player1 player2)]) q := read
  obtain ⟨q', answers, answer, heq, first, pushed⟩ := whole.last_step
  obtain ⟨rfl, hanswer⟩ := List.append_inj' heq rfl
  cases hanswer
  obtain ⟨outputs, listened⟩ := listens idle.pending first fun _ => List.eq_of_mem_replicate
  refine ⟨outputs ++ [.parsed (some (servoPair player1 player2))] ++
    [.accepted (servoPair player1 player2)], q, ?_⟩
  rw [hframe]
  have completed : Firmware.step { u with parser := q' }
      (.byte (crc8 [sync, sequence, invertedServoValue player1, invertedServoValue player2])) =
      some ({ u with parser := q, pending := some (servoPair player1 player2) },
        .parsed (some (servoPair player1 player2))) := by
    simp only [Firmware.step, idle.pending, pushed]
  exact (listened.snoc completed).snoc rfl

/-! ## The pulse of a value -/

/-- What the Uno makes of a control value the server sends: the server inverts the value for the
mounting of the servos, the firmware scales it to timer counts. -/
def pulse (value : Int) : UInt16 := Uno.servoCounts (invertedServoValue value)

/-- A higher value is a shorter pulse or the same one, since the inversion turns the order around
and the scaling keeps it. -/
theorem pulse_antitone {v w : Int} (le : v ≤ w) : pulse w ≤ pulse v := by
  rw [UInt16.le_iff_toNat_le]
  have hv := invertedServoValue_toNat v
  have hw := invertedServoValue_toNat w
  have clamped : Arith.clamp v 0 255 ≤ Arith.clamp w 0 255 :=
    max_le_max le_rfl (min_le_min le le_rfl)
  rw [pulse, pulse, Uno.servoCounts_toNat, Uno.servoCounts_toNat]
  have inverted : (invertedServoValue w).toNat ≤ (invertedServoValue v).toNat := by omega
  exact Nat.add_le_add_left (Nat.div_le_div_right (Nat.mul_le_mul_right _ inverted)) _

/-! ## The chain -/

/-- The chain is the mixing followed by one pulse for each player; the sequence byte and what the
firmware was left with do not occur in it. -/
theorem chain_eq (idle : Idle u) (sequence : UInt8) (raw : Controls ℚ) (drift : Drift ℚ) :
    chain u sequence raw drift =
      some (pulse (entangled raw drift).1, pulse (entangled raw drift).2) := by
  obtain ⟨outputs, q, runs⟩ :=
    programs idle sequence (entangled raw drift).1 (entangled raw drift).2
  simp only [chain, run_eq_some.mpr runs, Option.map_some]
  rfl

/-- The mixing treats the players alike: exchanging axes and drifts exchanges the two values. -/
theorem entangled_swap (raw : Controls ℚ) (drift : Drift ℚ) :
    entangled ⟨raw.p2, raw.p1⟩ ⟨drift.p2, drift.p1⟩ = (entangled raw drift).swap := rfl

/-- A player's axis raises their own value and lowers the opponent's, or leaves them where rounding
or the limits do. -/
theorem entangled_mono_p1 (raw : Controls ℚ) {x : ℚ} (le : raw.p1 ≤ x) (drift : Drift ℚ) :
    (entangled raw drift).1 ≤ (entangled { raw with p1 := x } drift).1 ∧
      (entangled { raw with p1 := x } drift).2 ≤ (entangled raw drift).2 := by
  simp only [entangled_eq]
  constructor
  · apply clampValue_mono
    linarith
  · apply clampValue_mono
    linarith

/-- The same of the second player, by exchanging the two. -/
theorem entangled_mono_p2 (raw : Controls ℚ) {y : ℚ} (le : raw.p2 ≤ y) (drift : Drift ℚ) :
    (entangled raw drift).2 ≤ (entangled { raw with p2 := y } drift).2 ∧
      (entangled { raw with p2 := y } drift).1 ≤ (entangled raw drift).1 := by
  exact entangled_mono_p1 ⟨raw.p2, raw.p1⟩ le ⟨drift.p2, drift.p1⟩

/-- **The control chain is monotone and fair.** Whatever the axes and the drifts: an idle firmware
programs both servos, and which pulses does not depend on the sequence byte or on what it was left
with; a player who moves up never lengthens the pulse of their own servo and never shortens the
opponent's; and exchanging the players exchanges the servos. Only idleness is asked of the firmware,
for in the middle of a packet the frame would be read as its rest. -/
theorem chain_fair (idle : Idle u) (idle' : Idle u') (sequence sequence' : UInt8)
    (raw : Controls ℚ) (drift : Drift ℚ) :
    ∃ ocr1a ocr1b, chain u sequence raw drift = some (ocr1a, ocr1b) ∧
      chain u' sequence' raw drift = some (ocr1a, ocr1b) ∧
      (∀ x, raw.p1 ≤ x → ∃ ocr1a' ocr1b',
        chain u' sequence' { raw with p1 := x } drift = some (ocr1a', ocr1b') ∧
          ocr1a' ≤ ocr1a ∧ ocr1b ≤ ocr1b') ∧
      (∀ y, raw.p2 ≤ y → ∃ ocr1a' ocr1b',
        chain u' sequence' { raw with p2 := y } drift = some (ocr1a', ocr1b') ∧
          ocr1a ≤ ocr1a' ∧ ocr1b' ≤ ocr1b) ∧
      chain u' sequence' ⟨raw.p2, raw.p1⟩ ⟨drift.p2, drift.p1⟩ = some (ocr1b, ocr1a) := by
  refine ⟨_, _, chain_eq idle .., chain_eq idle' .., ?_, ?_, ?_⟩
  · intro x le
    obtain ⟨own, opponent⟩ := entangled_mono_p1 raw le drift
    exact ⟨_, _, chain_eq idle' .., pulse_antitone own, pulse_antitone opponent⟩
  · intro y le
    obtain ⟨own, opponent⟩ := entangled_mono_p2 raw le drift
    exact ⟨_, _, chain_eq idle' .., pulse_antitone opponent, pulse_antitone own⟩
  · rw [chain_eq idle', entangled_swap]
    rfl

/-- The firmware between two packets, with one left in its buffer, to be compared with the one that
has just started. -/
def leftover : Firmware := { Firmware.start with parser := ⟨#v[0xA5, 1, 2, 3, 4], 0⟩ }

/-- Player 1 pushes all the way from half of it, against a player 2 at the other end; then the two
change places. -/
theorem chain_fair_pushed :
    ∃ ocr1a ocr1b ocr1a' ocr1b',
      chain Firmware.start 7 ⟨0.5, -1⟩ ⟨3, -4⟩ = some (ocr1a, ocr1b) ∧
      chain leftover 8 ⟨1, -1⟩ ⟨3, -4⟩ = some (ocr1a', ocr1b') ∧
      ocr1a' ≤ ocr1a ∧ ocr1b ≤ ocr1b' ∧
      chain leftover 8 ⟨-1, 0.5⟩ ⟨-4, 3⟩ = some (ocr1b, ocr1a) := by
  have idle : Idle Firmware.start := ⟨rfl, rfl⟩
  have idle' : Idle leftover := ⟨rfl, rfl⟩
  obtain ⟨ocr1a, ocr1b, now, -, pushed, -, exchanged⟩ :=
    chain_fair idle idle' 7 8 ⟨0.5, -1⟩ ⟨3, -4⟩
  obtain ⟨ocr1a', ocr1b', further, own, opponent⟩ := pushed 1 (by norm_num)
  exact ⟨ocr1a, ocr1b, ocr1a', ocr1b', now, further, own, opponent, exchanged⟩

end Motorball.Link
