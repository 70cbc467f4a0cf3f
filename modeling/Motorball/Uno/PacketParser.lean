import Motorball.Library.Framing
import Motorball.Library.Crc
import Mathlib.Tactic.IntervalCases

/-!
# The Uno's packet parser

`PacketParser` of `unoservodriver/src/main.rs`: a five-byte buffer that is filled one received byte
at a time and never cleared. `push` is translated with its indexing: a write past the buffer would
panic, and the model answers `none` there. `push_scan` says that no such write happens and that a
push is one step of the general frame scanner (`Framing.scan`) on the part of the buffer in use;
everything else in the buffer is left over from earlier frames and decides nothing.
-/

namespace Motorball.Uno

open Transducer

/-- The byte a frame begins with. It is not escaped where it occurs inside one. -/
def sync : UInt8 := 0xA5
/-- The bytes of a frame: sync byte, sequence byte, the two players' values and the checksum. -/
def packetLen : Nat := 5

/-- The checksum of the firmware, CRC-8 with polynomial `0x07`. -/
def crc8 (bytes : List UInt8) : UInt8 := Crc.crc8 0x07 bytes

/-- The parser's buffer and how much of it is in use. What lies behind `len` is left from earlier
packets and is never read. -/
structure PacketParser where
  bytes : Vector UInt8 packetLen
  len : Nat
  deriving DecidableEq

namespace PacketParser

/-- The parser before the first byte. -/
def new : PacketParser := ⟨Vector.replicate packetLen 0, 0⟩

/-- One received byte: outside a packet everything but a sync byte is dropped, and a packet is
answered with its two values when its checksum fits. `none` is the panic of a write outside
`bytes`. -/
def push (p : PacketParser) (byte : UInt8) : Option (PacketParser × Option (UInt8 × UInt8)) :=
  if p.len = 0 then
    if byte = sync then some (⟨p.bytes.set 0 byte, 1⟩, none) else some (p, none)
  else if h : p.len < packetLen then
    let bytes := p.bytes.set p.len byte
    let len := p.len + 1
    if len < packetLen then some (⟨bytes, len⟩, none)
    else if crc8 (bytes.toList.take (packetLen - 1)) = bytes[packetLen - 1] then
      some (⟨bytes, 0⟩, some (bytes[2], bytes[3]))
    -- a failed packet whose last byte is a sync byte starts the next one with it
    else if byte = sync then some (⟨bytes.set 0 sync, 1⟩, none)
    else some (⟨bytes, 0⟩, none)
  else none

/-- The part of the buffer in use, `bytes[..len]`, which is all that later answers depend on. -/
def kept (p : PacketParser) : List UInt8 := p.bytes.toList.take p.len

end PacketParser

/-- The frames of the serial link, as the general scanner sees them: which windows pass the check,
and the values in them. -/
def framing : Framing UInt8 (UInt8 × UInt8) where
  sync := sync
  length := packetLen
  two_le := by decide
  valid w := crc8 (w.take (packetLen - 1)) = w.getD (packetLen - 1) 0
  decode w := (w.getD 2 0, w.getD 3 0)

theorem framing_valid_five (a q x y c : UInt8) :
    framing.valid [a, q, x, y, c] = decide (crc8 [a, q, x, y] = c) := rfl

namespace PacketParser

/-! ## A push is one step of the scanner -/

/-- The part in use has as many bytes as the parser counts. -/
theorem kept_length {p : PacketParser} (short : p.len < packetLen) : p.kept.length = p.len := by
  rw [kept, List.length_take, Vector.length_toList]
  exact Nat.min_eq_left (Nat.le_of_lt short)

/-- Nothing is in use exactly when the parser is idle. -/
theorem kept_eq_nil {p : PacketParser} (short : p.len < packetLen) : p.kept = [] ↔ p.len = 0 := by
  rw [← List.length_eq_zero_iff, kept_length short]

/-- Writing the next byte extends the part in use by it. -/
theorem take_set (bytes : Vector UInt8 packetLen) {len : Nat} (h : len < packetLen)
    (byte : UInt8) : (bytes.set len byte h).toList.take (len + 1) =
      bytes.toList.take len ++ [byte] := by
  have hlen : len < bytes.toList.length := by rwa [Vector.length_toList]
  rw [Vector.toList_set, List.take_add_one, List.take_set_of_le (Nat.le_refl len),
    List.getElem?_set_self hlen]
  rfl

theorem toList_getD (bytes : Vector UInt8 packetLen) {i : Nat} (h : i < packetLen) :
    bytes.toList.getD i 0 = bytes[i] := by
  rw [List.getD_eq_getElem?_getD, Vector.getElem?_toList, Vector.getElem?_eq_getElem h]
  rfl

/-- The scanner's check of a full buffer is the comparison that `push` makes. -/
theorem framing_valid (bytes : Vector UInt8 packetLen) :
    framing.valid bytes.toList = decide (crc8 (bytes.toList.take (packetLen - 1)) =
      bytes[packetLen - 1]) := by
  rw [← toList_getD bytes (by decide)]
  rfl

/-- The values the scanner finds in it are those that `push` answers. -/
theorem framing_decode (bytes : Vector UInt8 packetLen) :
    framing.decode bytes.toList = (bytes[2], bytes[3]) := by
  rw [← toList_getD bytes (by decide), ← toList_getD bytes (by decide)]
  rfl

/-- A buffer restarted by a sync byte holds that byte. -/
theorem kept_restart (bytes : Vector UInt8 packetLen) :
    kept ⟨bytes.set 0 sync, 1⟩ = framing.opened sync := take_set bytes (by decide) sync

/-- **A push never leaves the buffer and is one step of the scanner.** -/
theorem push_scan {p : PacketParser} (short : p.len < packetLen) (byte : UInt8) :
    ∃ p' o, p.push byte = some (p', o) ∧ p'.len < packetLen ∧
      framing.scan p.kept byte = (p'.kept, o) := by
  by_cases idle : p.len = 0
  · rw [(kept_eq_nil short).mpr idle, Framing.scan_idle, push, if_pos idle]
    by_cases hb : byte = sync
    · subst hb
      exact ⟨_, _, if_pos rfl, Nat.one_lt_succ_succ 3, by rw [kept_restart]⟩
    · refine ⟨p, none, if_neg hb, short, ?_⟩
      rw [(kept_eq_nil short).mpr idle, Framing.opened_of_ne hb]
  · have hkept : p.kept ≠ [] := fun e => idle ((kept_eq_nil short).mp e)
    have hlen := kept_length short
    have extended := take_set p.bytes short byte
    rw [push, if_neg idle, dif_pos short]
    by_cases room : p.len + 1 < packetLen
    · refine ⟨⟨p.bytes.set p.len byte, p.len + 1⟩, none, if_pos room, room, ?_⟩
      rw [Framing.scan_collect hkept (by rw [hlen]; exact room), kept, kept, extended]
    · have full : p.len + 1 = packetLen := Nat.le_antisymm short (Nat.le_of_not_lt room)
      have whole : p.kept ++ [byte] = (p.bytes.set p.len byte).toList := by
        rw [kept, ← extended, full, List.take_of_length_le (by rw [Vector.length_toList])]
      have hfull : p.kept.length + 1 = framing.length := by rw [hlen]; exact full
      generalize p.bytes.set p.len byte = bytes at whole
      have hvalid : framing.valid (p.kept ++ [byte]) = decide
          (crc8 (bytes.toList.take (packetLen - 1)) = bytes[packetLen - 1]) := by
        rw [whole, framing_valid]
      simp only [if_neg room]
      by_cases crc : crc8 (bytes.toList.take (packetLen - 1)) = bytes[packetLen - 1]
      · refine ⟨⟨bytes, 0⟩, some (bytes[2], bytes[3]), if_pos crc, Nat.succ_pos 4, ?_⟩
        rw [Framing.scan_accept hkept hfull (by rw [hvalid]; exact decide_eq_true crc), whole,
          framing_decode]
        rfl
      · rw [Framing.scan_reject hkept hfull (by rw [hvalid]; exact decide_eq_false crc), if_neg crc]
        by_cases hb : byte = sync
        · subst hb
          exact ⟨_, _, if_pos rfl, Nat.one_lt_succ_succ 3, by rw [kept_restart]⟩
        · refine ⟨_, _, if_neg hb, Nat.succ_pos 4, ?_⟩
          rw [Framing.opened_of_ne hb]
          rfl

/-! ## Runs of the parser -/

theorem new_short : new.len < packetLen := by decide

variable {p q : PacketParser} {bytes : List UInt8} {outs : List (Option (UInt8 × UInt8))}

/-- **A run of the parser is a run of the scanner** on the part of the buffer in use. -/
theorem runs_scan (short : p.len < packetLen) (runs : Runs push p bytes outs q) :
    Runs framing.step p.kept bytes outs q.kept ∧ q.len < packetLen := by
  have matched : ∀ p t b p' o, p.kept = t ∧ p.len < packetLen → push p b = some (p', o) →
      ∃ t', framing.step t b = some (t', o) ∧ p'.kept = t' ∧ p'.len < packetLen := by
    rintro p t b p' o ⟨rfl, hp⟩ pushed
    obtain ⟨p₂, o₂, pushed₂, hp₂, scanned⟩ := push_scan hp b
    rw [pushed] at pushed₂
    cases pushed₂
    exact ⟨p'.kept, congrArg some scanned, rfl, hp₂⟩
  obtain ⟨t, run, hkept, hshort⟩ := runs.simulate ⟨rfl, short⟩ matched
  exact ⟨hkept ▸ run, hshort⟩

/-- The parser takes every byte and answers it: no input makes it panic. -/
theorem runs_total (short : p.len < packetLen) (bytes : List UInt8) :
    ∃ outs q, Runs push p bytes outs q ∧ q.len < packetLen :=
  exists_runs (P := fun p => p.len < packetLen) short (fun _ b hp =>
    let ⟨p', o, pushed, hp', _⟩ := push_scan hp b
    ⟨p', o, pushed, hp'⟩) bytes

/-- A valid window is a sync byte, a sequence byte, the two values and their checksum. -/
theorem valid_window {w : List UInt8} (length : w.length = packetLen)
    (begins : w.head? = some sync) (valid : framing.valid w = true) :
    ∃ q, w = [sync, q, (framing.decode w).1, (framing.decode w).2,
      crc8 [sync, q, (framing.decode w).1, (framing.decode w).2]] := by
  match w, length with
  | [a, q, x, y, c], _ =>
    cases begins
    rw [framing_valid_five] at valid
    have hc : crc8 [sync, q, x, y] = c := of_decide_eq_true valid
    exact ⟨q, by rw [← hc]; rfl⟩

/-- **The parser is sound on any input.** Whatever bytes arrive, every push stays inside the buffer;
between pushes `len` is below the packet length and the part of the buffer in use is the last `len`
bytes received, from a sync byte on; an accepted pair was received last, framed by a sync byte, a
sequence byte and its checksum; and no byte belongs to two accepted packets. Nothing is assumed of
the bytes, which can be noise, the rest of a broken frame or a sync byte in the wrong place. -/
theorem parser_sound (bytes : List UInt8) :
    ∃ outs p, Runs push new bytes outs p ∧ p.len < packetLen ∧
      (0 < p.len → p.kept = bytes.drop (bytes.length - p.len) ∧ p.kept.head? = some sync) ∧
      (∀ i x y, outs[i]? = some (some (x, y)) →
        ∃ q, [sync, q, x, y, crc8 [sync, q, x, y]] <:+ bytes.take (i + 1)) ∧
      (∀ i j v w, outs[i]? = some (some v) → outs[j]? = some (some w) → i < j →
        i + packetLen ≤ j) := by
  obtain ⟨outs, p, runs, short⟩ := runs_total new_short bytes
  have sound := Framing.sound_of_runs (runs_scan new_short runs).1
  have hlen := kept_length short
  refine ⟨outs, p, runs, short, fun pos => ⟨?_, ?_⟩, ?_, sound.apart⟩
  · rw [List.suffix_iff_eq_drop.mp sound.suffix, hlen]
  · obtain ⟨b, rest, hcons⟩ := List.exists_cons_of_length_pos (hlen ▸ pos)
    rw [hcons, List.head?_cons, sound.begins b (by rw [hcons]; rfl)]
    rfl
  · intro i x y accepted
    obtain ⟨w, suffix, length, begins, valid, decoded⟩ := sound.window i (x, y) accepted
    obtain ⟨q, hw⟩ := valid_window length begins valid
    rw [← decoded] at hw
    exact ⟨q, hw ▸ suffix⟩

end PacketParser

end Motorball.Uno
