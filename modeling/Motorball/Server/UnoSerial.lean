import Motorball.Library.Arith
import Motorball.Library.Crc

/-!
# The serial transmitter of the server

`piwebserver/src/uno_serial.rs`: the encoder `packet`, and the sender thread of `spawn` as a step
function. The thread opens the port again and again until it succeeds; with the port open it writes
one frame after another until a write fails. The sequence byte counts the frames that were written
whole; it lives outside both loops, so it survives a reconnect.
-/

namespace Motorball.Server.UnoSerial

def sync : UInt8 := 0xA5
def packetLen : Nat := 5
def servoMax : Int := 255

/-- The checksum of the packets, in the polynomial 0x07 and from zero on. The Uno has its own copy
of it, which is the same function. -/
def crc8 (bytes : List UInt8) : UInt8 := Crc.crc8 0x07 bytes

/-- `inverted_servo_value`: the servos turn the other way round, and a value beyond a byte goes to
the nearer end. -/
def invertedServoValue (value : Int) : UInt8 :=
  UInt8.ofInt (servoMax - Arith.clamp value 0 servoMax)

/-- `packet`: the sync byte, the sequence number, the two servo values and the checksum of those
four. -/
def packet (sequence : UInt8) (player1 player2 : Int) : Vector UInt8 packetLen :=
  let frame : Vector UInt8 packetLen :=
    #v[sync, sequence, invertedServoValue player1, invertedServoValue player2, 0]
  frame.set (packetLen - 1) (crc8 (frame.toList.take (packetLen - 1)))

/-- The bytes of a packet, with the checksum put where the source leaves room for it. -/
theorem packet_toList (sequence : UInt8) (player1 player2 : Int) :
    (packet sequence player1 player2).toList =
      [sync, sequence, invertedServoValue player1, invertedServoValue player2,
        crc8 [sync, sequence, invertedServoValue player1, invertedServoValue player2]] := rfl

/-- The inverted value as a number: the cast to a byte loses nothing. -/
theorem invertedServoValue_toNat (value : Int) :
    ((invertedServoValue value).toNat : Int) = 255 - Arith.clamp value 0 255 := by
  have h := Arith.clamp_mem value (show (0 : Int) ≤ 255 by decide)
  rw [invertedServoValue, servoMax, UInt8.ofInt, UInt8.toNat_ofNat']
  omega

/-! ## The sender thread -/

/-- What `write_all` does with a frame: every byte is delivered, or some first bytes are and then it
fails. Which of the two, and how many bytes, is up to the operating system. -/
inductive WriteAll where
  | ok
  | error (delivered : Fin packetLen)
  deriving DecidableEq

inductive Event where
  /-- `serialport::open`, and whether it succeeds. -/
  | openPort (ok : Bool)
  /-- One turn of the inner loop: the values read, and how the write goes. -/
  | frame (player1 player2 : Int) (result : WriteAll)
  deriving DecidableEq

/-- The sender's own state; `connected` says which of its two loops it is in, the one that opens the
port or the one that writes to it. -/
structure Sender where
  sequence : UInt8
  connected : Bool
  deriving DecidableEq

/-- The thread before its first attempt to open the port. The sequence number outlives every
reconnect, as it belongs to the outer loop. -/
def Sender.start : Sender := ⟨0, false⟩

/-- The bytes a write puts on the wire. A broken write may leave the beginning of a packet there,
without its checksum. -/
def WriteAll.delivered (frame : Vector UInt8 packetLen) : WriteAll → List UInt8
  | .ok => frame.toList
  | .error delivered => frame.toList.take delivered

/-- One step of the thread: the next state and the bytes delivered. `none` when the event does not
belong to the loop the thread is in. -/
def Sender.step (s : Sender) : Event → Option (Sender × List UInt8)
  | .openPort ok => if s.connected then none else some ({ s with connected := ok }, [])
  | .frame player1 player2 result =>
    if s.connected then
      let bytes := result.delivered (packet s.sequence player1 player2)
      match result with
      | .ok => some ({ s with sequence := s.sequence + 1 }, bytes)
      | .error _ => some ({ s with connected := false }, bytes)
    else none

end Motorball.Server.UnoSerial
