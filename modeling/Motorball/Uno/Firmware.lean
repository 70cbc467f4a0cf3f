import Motorball.Uno.PacketParser
import Motorball.Library.Arith

/-!
# The Uno firmware and its servo failsafe

`main` and the `TIMER1_OVF` interrupt of `unoservodriver/src/main.rs`. Main reads a byte and pushes
it into the parser; when that completes a packet it enters an interrupt-free section that programs
both servos. The interrupt can come between any two of these, also between the push and the
section (`pending` holds the packet there), but not inside the section or inside itself.

A packet is accepted when its section runs. `Failsafe` relates the five pieces of state that the two
contexts share to the history: the registers and the LED are what `programmed` says of the last
accepted packet and the overflows since, and the eight-bit counter is that number of overflows as
far as it can count.
-/

namespace Motorball.Uno

open Transducer

/-- The counts of the shortest pulse. A count is half a microsecond of the timer, so this is one
millisecond, and the centre is one and a half. -/
def minCounts : UInt16 := 2000
def centreCounts : UInt16 := 3000
def countRange : UInt16 := 2000
/-- The overflows without a packet after which the servos are centred: one comes with each servo
frame, fifty in a second. -/
def timeoutFrames : Nat := 13

/-- A servo value as timer counts, computed in 32 bits, so the product cannot overflow. -/
def servoCounts (value : UInt8) : UInt16 :=
  minCounts + (value.toUInt32 * countRange.toUInt32 / 255).toUInt16

/-- A pulse width within what a servo accepts, one to two milliseconds. -/
def InRange (counts : UInt16) : Prop := 2000 ≤ counts.toNat ∧ counts.toNat ≤ 4000

/-- The conversion in natural numbers, without the widths of the machine. -/
theorem servoCounts_toNat (value : UInt8) :
    (servoCounts value).toNat = 2000 + value.toNat * 2000 / 255 := by
  have h := value.toNat_lt
  simp only [servoCounts, minCounts, countRange, UInt16.toNat_add, UInt32.toNat_toUInt16,
    UInt32.toNat_div, UInt32.toNat_mul, UInt8.toNat_toUInt32, UInt16.toNat_toUInt32,
    UInt16.toNat_ofNat, UInt32.toNat_ofNat, Nat.reducePow, Nat.reduceMod]
  have hprod : value.toNat * 2000 % 4294967296 = value.toNat * 2000 :=
    Nat.mod_eq_of_lt (by omega)
  have hquot : value.toNat * 2000 / 255 % 65536 = value.toNat * 2000 / 255 :=
    Nat.mod_eq_of_lt (by omega)
  rw [hprod, hquot]
  omega

theorem servoCounts_inRange (value : UInt8) : InRange (servoCounts value) := by
  have h := value.toNat_lt
  rw [InRange, servoCounts_toNat]
  omega

theorem centreCounts_inRange : InRange centreCounts := ⟨by decide, by decide⟩

/-- What main shares with the interrupt handler, each of which has it to itself while it runs. -/
structure ReceiverState where
  statusLed : Bool
  framesSinceValid : Nat
  deriving DecidableEq

/-- The firmware: main's parser, the packet main is about to program, the shared receiver state and
the two compare registers. -/
structure Firmware where
  parser : PacketParser
  pending : Option (UInt8 × UInt8)
  receiver : ReceiverState
  ocr1a : UInt16
  ocr1b : UInt16
  deriving DecidableEq

namespace Firmware

/-- The state main has set up when it enables interrupts. -/
def start : Firmware where
  parser := PacketParser.new
  pending := none
  receiver := ⟨false, timeoutFrames⟩
  ocr1a := centreCounts
  ocr1b := centreCounts

/-- The interrupt-free section of main: both registers, the counter and the LED change together as
far as the handler can see. -/
def accept (u : Firmware) (packet : UInt8 × UInt8) : Firmware :=
  { u with
    pending := none
    receiver := ⟨true, 0⟩
    ocr1a := servoCounts packet.1
    ocr1b := servoCounts packet.2 }

/-- The `TIMER1_OVF` handler. The counter saturates, so that a long silence does not look like a
fresh packet again. -/
def timer1Ovf (u : Firmware) : Firmware :=
  let frames := Arith.saturatingAdd 8 u.receiver.framesSinceValid 1
  if timeoutFrames ≤ frames then
    { u with receiver := ⟨false, frames⟩, ocr1a := centreCounts, ocr1b := centreCounts }
  else { u with receiver := { u.receiver with framesSinceValid := frames } }

/-- The atomic steps of main and of the timer, in any order. -/
inductive Event where
  /-- Main reads a byte and pushes it. -/
  | byte (b : UInt8)
  /-- Main's interrupt-free section. -/
  | accept
  /-- The timer overflows. -/
  | overflow

/-- What happened: the parser's answer to a byte, the packet a section programmed, an overflow. -/
inductive Obs where
  | parsed (answer : Option (UInt8 × UInt8))
  | accepted (packet : UInt8 × UInt8)
  | overflow
  deriving DecidableEq

/-- One atomic step. Main reads no byte while a packet waits for its section. -/
def step (u : Firmware) : Event → Option (Firmware × Obs)
  | .byte b =>
    match u.pending with
    | some _ => none
    | none =>
      match u.parser.push b with
      | none => none
      | some (parser, answer) => some ({ u with parser, pending := answer }, .parsed answer)
  | .accept => u.pending.map fun packet => (u.accept packet, .accepted packet)
  | .overflow => some (u.timer1Ovf, .overflow)

/-! ## Histories -/

/-- The last accepted packet and the overflows since, one observation later; the parser's answers do
not count. -/
def note : Option ((UInt8 × UInt8) × Nat) → Obs → Option ((UInt8 × UInt8) × Nat)
  | _, .accepted packet => some (packet, 0)
  | last, .overflow => last.map fun l => (l.1, l.2 + 1)
  | last, .parsed _ => last

/-- The last accepted packet of a history and the number of overflows since, without the counter's
saturation. -/
def sinceAccepted (os : List Obs) : Option ((UInt8 × UInt8) × Nat) := os.foldl note none

/-- The bytes received. -/
def receivedBytes (es : List Event) : List UInt8 :=
  es.filterMap fun | .byte b => some b | _ => none

/-- The parser's answers to them, one for each byte. -/
def answers (os : List Obs) : List (Option (UInt8 × UInt8)) :=
  os.filterMap fun | .parsed answer => some answer | _ => none

/-- The accepted packets, in the order main programmed them. -/
def accepted (os : List Obs) : List (UInt8 × UInt8) :=
  os.filterMap fun | .accepted packet => some packet | _ => none

/-- What the registers and the LED should be: the last packet's for less than the timeout, and
centred and dark otherwise, also before the first packet. -/
def programmed : Option ((UInt8 × UInt8) × Nat) → UInt16 × UInt16 × Bool
  | some (packet, overflows) =>
    if overflows < timeoutFrames then (servoCounts packet.1, servoCounts packet.2, true)
    else (centreCounts, centreCounts, false)
  | none => (centreCounts, centreCounts, false)

/-- The counter as the history has it: the overflows since the last packet, up to 255, and past the
timeout while there was no packet. -/
def Counts (frames : Nat) : Option ((UInt8 × UInt8) × Nat) → Prop
  | some (_, overflows) => frames = min overflows 255
  | none => timeoutFrames ≤ frames ∧ frames ≤ 255

/-- The invariant of the firmware: counter, registers and LED are functions of the history, and the
accepted packets are the parser's. -/
structure Failsafe (es : List Event) (os : List Obs) (u : Firmware) : Prop where
  counts : Counts u.receiver.framesSinceValid (sinceAccepted os)
  outputs : (u.ocr1a, u.ocr1b, u.receiver.statusLed) = programmed (sinceAccepted os)
  parses : Runs PacketParser.push PacketParser.new (receivedBytes es) (answers os) u.parser
  /-- What was accepted is what the parser answered, the waiting packet apart. -/
  accepts : accepted os ++ u.pending.toList = (answers os).filterMap id

/-- At startup there was no packet, and the counter is past the timeout already. -/
theorem Failsafe.start : Failsafe [] [] start where
  counts := ⟨Nat.le_refl _, by decide⟩
  outputs := rfl
  parses := .nil
  accepts := rfl

theorem sinceAccepted_snoc (os : List Obs) (o : Obs) :
    sinceAccepted (os ++ [o]) = note (sinceAccepted os) o := by
  rw [sinceAccepted, List.foldl_append]
  rfl

/-- The handler below the timeout only counts. -/
theorem timer1Ovf_below {u : Firmware}
    (h : Arith.saturatingAdd 8 u.receiver.framesSinceValid 1 < timeoutFrames) :
    u.timer1Ovf = { u with receiver := { u.receiver with
      framesSinceValid := Arith.saturatingAdd 8 u.receiver.framesSinceValid 1 } } :=
  if_neg (Nat.not_le_of_lt h)

/-- From the timeout on it centres both servos and darkens the LED, at every overflow anew. -/
theorem timer1Ovf_past {u : Firmware}
    (h : timeoutFrames ≤ Arith.saturatingAdd 8 u.receiver.framesSinceValid 1) :
    u.timer1Ovf = { u with
      receiver := ⟨false, Arith.saturatingAdd 8 u.receiver.framesSinceValid 1⟩
      ocr1a := centreCounts
      ocr1b := centreCounts } :=
  if_pos h

/-- An overflow moves the counter, the registers and the LED as it moves the history. -/
theorem timer1Ovf_follows {u : Firmware} {last : Option ((UInt8 × UInt8) × Nat)}
    (counts : Counts u.receiver.framesSinceValid last)
    (outputs : (u.ocr1a, u.ocr1b, u.receiver.statusLed) = programmed last) :
    Counts u.timer1Ovf.receiver.framesSinceValid (note last .overflow) ∧
      (u.timer1Ovf.ocr1a, u.timer1Ovf.ocr1b, u.timer1Ovf.receiver.statusLed) =
        programmed (note last .overflow) := by
  have hsum : Arith.saturatingAdd 8 u.receiver.framesSinceValid 1 =
      min (u.receiver.framesSinceValid + 1) 255 := rfl
  have htimeout : timeoutFrames = 13 := rfl
  cases last with
  | none =>
    obtain ⟨low, high⟩ := counts
    have past : timeoutFrames ≤ Arith.saturatingAdd 8 u.receiver.framesSinceValid 1 := by omega
    have small : Arith.saturatingAdd 8 u.receiver.framesSinceValid 1 ≤ 255 := by omega
    rw [timer1Ovf_past past]
    exact ⟨⟨past, small⟩, rfl⟩
  | some l =>
    obtain ⟨packet, overflows⟩ := l
    have counts : u.receiver.framesSinceValid = min overflows 255 := counts
    have counts' : Arith.saturatingAdd 8 u.receiver.framesSinceValid 1 =
        min (overflows + 1) 255 := by omega
    by_cases past : timeoutFrames ≤ Arith.saturatingAdd 8 u.receiver.framesSinceValid 1
    · rw [timer1Ovf_past past]
      exact ⟨counts', (if_neg (by omega)).symm⟩
    · have hbelow : overflows + 1 < timeoutFrames := by omega
      rw [timer1Ovf_below (Nat.lt_of_not_le past)]
      refine ⟨counts', ?_⟩
      rw [programmed, if_pos (Nat.lt_of_succ_lt hbelow)] at outputs
      exact outputs.trans (if_pos hbelow).symm

variable {es : List Event} {os : List Obs} {u : Firmware}

/-- One step of main or of the timer keeps the invariant. The counter matters only against the
timeout, which it reaches long before it saturates. -/
theorem Failsafe.step {e : Event} {u' : Firmware} {o : Obs} (h : Failsafe es os u)
    (moved : u.step e = some (u', o)) : Failsafe (es ++ [e]) (os ++ [o]) u' := by
  obtain ⟨counts, outputs, parses, accepts⟩ := h
  cases e with
  | byte b =>
    rw [Firmware.step] at moved
    split at moved
    · cases moved
    next idle =>
      split at moved
      · cases moved
      next parser answer pushed =>
        cases moved
        rw [idle, Option.toList_none, List.append_nil] at accepts
        have hes : receivedBytes (es ++ [.byte b]) = receivedBytes es ++ [b] :=
          filterMap_snoc_some rfl
        have hos : answers (os ++ [.parsed answer]) = answers os ++ [answer] :=
          filterMap_snoc_some rfl
        have hacc : accepted (os ++ [.parsed answer]) = accepted os := filterMap_snoc_none rfl
        refine ⟨by rwa [sinceAccepted_snoc], by rwa [sinceAccepted_snoc], ?_, ?_⟩
        · rw [hes, hos]
          exact parses.snoc pushed
        · rw [hos, hacc, filterMap_snoc, ← accepts]
          rfl
  | accept =>
    obtain ⟨packet, hpending, heq⟩ := Option.map_eq_some_iff.mp moved
    cases heq
    rw [hpending] at accepts
    have hes : receivedBytes (es ++ [.accept]) = receivedBytes es := filterMap_snoc_none rfl
    have hos : answers (os ++ [.accepted packet]) = answers os := filterMap_snoc_none rfl
    have hacc : accepted (os ++ [.accepted packet]) = accepted os ++ [packet] :=
      filterMap_snoc_some rfl
    refine ⟨by rw [sinceAccepted_snoc]; rfl, by rw [sinceAccepted_snoc]; rfl, ?_, ?_⟩
    · rw [hes, hos]
      exact parses
    · rw [hos, ← accepts, hacc]
      exact List.append_nil _
  | overflow =>
    cases moved
    have hes : receivedBytes (es ++ [.overflow]) = receivedBytes es := filterMap_snoc_none rfl
    have hos : answers (os ++ [.overflow]) = answers os := filterMap_snoc_none rfl
    have hacc : accepted (os ++ [.overflow]) = accepted os := filterMap_snoc_none rfl
    obtain ⟨counts, outputs⟩ := timer1Ovf_follows counts outputs
    have kept : u.timer1Ovf.parser = u.parser ∧ u.timer1Ovf.pending = u.pending := by
      unfold timer1Ovf
      dsimp only
      split <;> exact ⟨rfl, rfl⟩
    refine ⟨by rwa [sinceAccepted_snoc], by rwa [sinceAccepted_snoc], ?_, ?_⟩
    · rw [hes, hos, kept.1]
      exact parses
    · rw [hos, hacc, kept.2]
      exact accepts

/-- The invariant holds after every run, by induction on the run. -/
theorem failsafe_of_runs (runs : Runs step start es os u) : Failsafe es os u := by
  induction runs with
  | nil => exact Failsafe.start
  | snoc _ last ih => exact ih.step last

/-- Whatever the history, the registers it asks for are within the range of the servos. -/
theorem programmed_inRange (last : Option ((UInt8 × UInt8) × Nat)) :
    InRange (programmed last).1 ∧ InRange (programmed last).2.1 := by
  cases last with
  | none => exact ⟨centreCounts_inRange, centreCounts_inRange⟩
  | some l =>
    obtain ⟨packet, overflows⟩ := l
    by_cases fresh : overflows < timeoutFrames
    · rw [programmed, if_pos fresh]
      exact ⟨servoCounts_inRange _, servoCounts_inRange _⟩
    · rw [programmed, if_neg fresh]
      exact ⟨centreCounts_inRange, centreCounts_inRange⟩

/-- **The servo failsafe.** Whatever bytes arrive and wherever the overflows fall, the accepted
packets are those the parser answered, the one still waiting apart; while fewer overflows than the
timeout have come since the last of them, the registers are its servo counts and the LED is lit;
otherwise both registers are centred and the LED is dark; and no register ever leaves the range of
the servos. The overflow may fall between a packet's last byte and its section, which is why the
packet that waits is not among the accepted ones yet. -/
theorem servo_failsafe (runs : Runs step start es os u) :
    (∃ answered, Runs PacketParser.push PacketParser.new (receivedBytes es) answered u.parser ∧
      accepted os ++ u.pending.toList = answered.filterMap id) ∧
    (∀ packet overflows, sinceAccepted os = some (packet, overflows) →
      overflows < timeoutFrames → u.ocr1a = servoCounts packet.1 ∧
        u.ocr1b = servoCounts packet.2 ∧ u.receiver.statusLed = true) ∧
    ((∀ packet overflows, sinceAccepted os = some (packet, overflows) →
      timeoutFrames ≤ overflows) → u.ocr1a = centreCounts ∧ u.ocr1b = centreCounts ∧
        u.receiver.statusLed = false) ∧
    InRange u.ocr1a ∧ InRange u.ocr1b := by
  obtain ⟨-, outputs, parses, accepts⟩ := failsafe_of_runs runs
  refine ⟨⟨_, parses, accepts⟩, ?_, ?_, ?_⟩
  · intro packet overflows hlast fresh
    rw [hlast, programmed, if_pos fresh] at outputs
    simpa only [Prod.mk.injEq] using outputs
  · intro stale
    have hcentre : programmed (sinceAccepted os) = (centreCounts, centreCounts, false) := by
      cases hlast : sinceAccepted os with
      | none => rfl
      | some l => exact if_neg (Nat.not_lt_of_le (stale l.1 l.2 hlast))
    rw [hcentre] at outputs
    simpa only [Prod.mk.injEq] using outputs
  · have range := programmed_inRange (sinceAccepted os)
    rw [← outputs] at range
    exact range

/-- One packet, with overflows before it, before its section and after it, is what the servos stand
by at the end. -/
theorem servo_failsafe_one_packet :
    ∃ u, Runs step start
        [.overflow, .byte 0xA5, .byte 0, .byte 10, .overflow, .byte 20, .byte 95, .overflow,
          .accept, .overflow]
        [.overflow, .parsed none, .parsed none, .parsed none, .overflow, .parsed none,
          .parsed (some (10, 20)), .overflow, .accepted (10, 20), .overflow] u ∧
      u.ocr1a = servoCounts 10 ∧ u.ocr1b = servoCounts 20 ∧ u.receiver.statusLed = true := by
  have runs : Runs step start
      [.overflow, .byte 0xA5, .byte 0, .byte 10, .overflow, .byte 20, .byte 95, .overflow,
        .accept, .overflow]
      [.overflow, .parsed none, .parsed none, .parsed none, .overflow, .parsed none,
        .parsed (some (10, 20)), .overflow, .accepted (10, 20), .overflow]
      ⟨⟨#v[0xA5, 0, 10, 20, 95], 0⟩, none, ⟨true, 1⟩, 2078, 2156⟩ :=
    run_eq_some.mp (by decide +kernel)
  exact ⟨_, runs, (servo_failsafe runs).2.1 (10, 20) 1 rfl (by decide)⟩

end Firmware

end Motorball.Uno
