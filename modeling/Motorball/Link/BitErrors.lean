import Motorball.Link.Session

/-!
# Bit errors on the serial link

What the checksum of a frame is good for. The bits of a frame behind its sync byte are flipped in
some places; an idle parser then reads a frame whose checksum fits only if the flipped bits leave no
residue (`valid_flip_iff`). The polynomial has an even number of terms, a constant one among them,
and no power of two below the thirty-second leaves the residue of the first, so every error of an
odd number of bits, of two bits, or of bits that span no more than a byte is found
(`corrupted_rejected`).
-/

namespace Motorball.Link

open Transducer Motorball.Server.UnoSerial
open Motorball.Uno (PacketParser framing)

/-- A frame with some bits behind its sync byte flipped: noise on the serial line that leaves the
byte the parser searches for alone. The bits are numbered from the most significant one of the
sequence byte. -/
def flip (bits : Finset (Fin (8 * 4))) (frame : List UInt8) : List UInt8 :=
  frame.take 1 ++ List.zipWith (· ^^^ ·) (frame.drop 1) (Crc.pattern 4 bits)

/-- The errors that an eight-bit checksum with this polynomial is made for: an odd number of flipped
bits, two of them wherever they are, or any that lie within eight consecutive positions, as one
disturbance of the line leaves them. -/
def Found (bits : Finset (Fin (8 * 4))) : Prop :=
  Odd bits.card ∨ bits.card = 2 ∨ ∀ p ∈ bits, ∀ q ∈ bits, (q : Nat) < p + 8

variable {bits : Finset (Fin (8 * 4))} {p : PacketParser}

/-- An error pattern covers the four bytes behind the sync byte. -/
theorem pattern_length : (Crc.pattern 4 bits).length = 4 := by
  rw [Crc.pattern, List.length_map, List.length_range]

theorem flip_length {frame : List UInt8} (h : frame.length = packetLen) :
    (flip bits frame).length = packetLen := by
  rw [flip, List.length_append, List.length_take, List.length_zipWith, List.length_drop, h,
    pattern_length]
  rfl

/-- A flipped frame, byte by byte: it still opens with the sync byte, so that an idle parser takes
its five bytes for one frame. -/
theorem flip_packet (sequence : UInt8) (player1 player2 : Int) :
    ∃ s x y c, flip bits (packet sequence player1 player2).toList = [sync, s, x, y, c] := by
  have length : (flip bits (packet sequence player1 player2).toList).length = packetLen :=
    flip_length Vector.length_toList
  match hflip : flip bits (packet sequence player1 player2).toList, length with
  | [a, s, x, y, c], _ =>
    have begins := congrArg List.head? hflip
    cases begins
    exact ⟨s, x, y, c, rfl⟩

/-- Flipping is adding the pattern byte by byte, with a zero for the sync byte; in this form the
linearity of the checksum applies. -/
theorem flip_cons (b : UInt8) (rest : List UInt8) :
    flip bits (b :: rest) = List.zipWith (· ^^^ ·) (b :: rest) (0 :: Crc.pattern 4 bits) := by
  rw [List.zipWith_cons_cons, UInt8.xor_zero]
  rfl

/-- A whole packet, its checksum included, has no residue: this is what the server computes the last
byte for. -/
theorem residue_packet (sequence : UInt8) (player1 player2 : Int) :
    Crc.residue 0x07 (packet sequence player1 player2).toList = 0 := by
  rw [packet_toList]
  exact (Crc.crc8_eq_iff [sync, sequence, invertedServoValue player1,
    invertedServoValue player2] _).mp rfl

/-- A window passes the parser's check exactly when it has no residue. -/
theorem valid_iff {w : List UInt8} (length : w.length = packetLen) :
    framing.valid w = true ↔ Crc.residue 0x07 w = 0 := by
  match w, length with
  | [a, q, x, y, c], _ =>
    rw [Uno.framing_valid_five, decide_eq_true_iff]
    exact Crc.crc8_eq_iff [a, q, x, y] c

/-- The checksum of a flipped frame fits exactly when the flipped bits alone leave no residue,
whatever the values in the frame were. -/
theorem valid_flip_iff (sequence : UInt8) (player1 player2 : Int) :
    framing.valid (flip bits (packet sequence player1 player2).toList) = true ↔
      Crc.residue 0x07 (Crc.pattern 4 bits) = 0 := by
  have whole := residue_packet sequence player1 player2
  rw [valid_iff (flip_length Vector.length_toList)]
  rw [packet_toList] at whole ⊢
  rw [flip_cons, Crc.residue_xor (by rw [List.length_cons (a := 0), pattern_length]; rfl), whole,
    UInt8.zero_xor, Crc.residue_zero_cons]

/-- The errors that the checksum is made for leave a residue, since the polynomial has an even
number of terms, a period above 32 and degree eight. -/
theorem Found.residue (nonempty : bits.Nonempty) (found : Found bits) :
    Crc.residue 0x07 (Crc.pattern 4 bits) ≠ 0 := by
  rcases found with odd | two | burst
  · exact Crc.residue_odd (by decide) odd
  · exact Crc.residue_pair (by decide) (by decide +kernel) two
  · exact Crc.residue_burst (by decide) nonempty burst

/-- **Corrupted frames are rejected.** The checksum is linear on byte lists of one length, on both
ends of the link; and a frame in which bits behind the sync byte are flipped, an odd number of them,
two, or some within eight consecutive positions, gets no answer from an idle parser. The parser has
to be idle, for otherwise the five bytes would not be one frame to it; what its buffer holds does
not matter. -/
theorem corrupted_rejected (idle : p.len = 0) (sequence : UInt8) (player1 player2 : Int)
    (nonempty : bits.Nonempty) (found : Found bits) :
    (∀ x y : List UInt8, x.length = y.length →
      crc8 (List.zipWith (· ^^^ ·) x y) = crc8 x ^^^ crc8 y ∧
        Uno.crc8 (List.zipWith (· ^^^ ·) x y) = Uno.crc8 x ^^^ Uno.crc8 y) ∧
    ∃ q, Runs PacketParser.push p (flip bits (packet sequence player1 player2).toList)
      (List.replicate packetLen none) q := by
  refine ⟨fun x y same => ⟨Crc.crc8_xor same, Crc.crc8_xor same⟩, ?_⟩
  have short : p.len < Uno.packetLen := by rw [idle]; exact Nat.succ_pos 4
  obtain ⟨outs, q, runs, -⟩ := PacketParser.runs_total short
    (flip bits (packet sequence player1 player2).toList)
  have scanned := (PacketParser.runs_scan short runs).1
  rw [(PacketParser.kept_eq_nil short).mpr idle] at scanned
  have bad : framing.valid (flip bits (packet sequence player1 player2).toList) = false := by
    rw [Bool.eq_false_iff, ne_eq, valid_flip_iff]
    exact found.residue nonempty
  obtain ⟨s, x, y, c, hflip⟩ : ∃ s x y c,
      flip bits (packet sequence player1 player2).toList = [sync, s, x, y, c] :=
    flip_packet sequence player1 player2
  rw [hflip] at bad scanned runs ⊢
  obtain ⟨rfl, -⟩ := scanned.deterministic (framing.refused (l := [s, x, y]) rfl bad)
  exact ⟨q, runs⟩

/-- Two bits of the first control value flipped, which the parser takes for a packet and drops when
the checksum comes. -/
theorem corrupted_rejected_two_bits :
    ∃ q, Runs PacketParser.push PacketParser.new
      (flip {8, 12} (packet 0 300 128).toList) (List.replicate packetLen none) q :=
  (corrupted_rejected rfl 0 300 128 (by decide) (Or.inr (Or.inl (by decide)))).2

end Motorball.Link
