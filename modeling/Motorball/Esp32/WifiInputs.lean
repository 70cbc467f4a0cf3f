import Mathlib.Tactic.Common

/-!
# Polling the server

`poll_server` of `esp32motorball/src/wifi_inputs.rs`. The HTTP client is not part of the repository:
what a poll comes to is an `Exchange`, with one constructor or value for each place where the code
leaves. `motorAction_start_iff` says that there is one way to a running motor.
-/

namespace Motorball.Esp32

/-- What the server commands the ball to do. -/
inductive MotorAction where
  | stop
  | start
  deriving DecidableEq

/-- The LED blinks while the server can be understood. -/
inductive LedAction where
  | off
  | blink
  deriving DecidableEq

/-- What a poll comes to, for the motors and for the LED. -/
structure ServerResult where
  motorAction : MotorAction
  ledAction : LedAction
  deriving DecidableEq

/-- Whether the ball has a connection to send requests over. -/
inductive HttpConnection where
  | notConnected
  | connected
  deriving DecidableEq

/-- A response: whether its status is a success, and its body unless reading that fails. -/
structure Response where
  successful : Bool
  body : Option (List UInt8)
  deriving DecidableEq

/-- What a request over a connection comes to, by the step at which it ended. -/
inductive Exchange where
  | requestFailed
  | sendFailed
  | responded (response : Response)
  deriving DecidableEq

/-- The characters that `str::trim` removes. -/
def isWhiteSpace (c : Char) : Bool :=
  (0x09 ≤ c.val && c.val ≤ 0x0D) || c.val == 0x20 || c.val == 0x85 || c.val == 0xA0 ||
    c.val == 0x1680 || (0x2000 ≤ c.val && c.val ≤ 0x200A) || c.val == 0x2028 || c.val == 0x2029 ||
    c.val == 0x202F || c.val == 0x205F || c.val == 0x3000

/-- `str::trim`: white space is removed at both ends. -/
def trim (s : String) : String :=
  String.ofList ((s.toList.dropWhile isWhiteSpace).reverse.dropWhile isWhiteSpace).reverse

/-- `core::str::from_utf8`, which refuses bytes that are no text. -/
def fromUtf8 (bytes : List UInt8) : Option String := String.fromUTF8? bytes.toByteArray

/-- What the text of a body commands. A text that is neither of the two stops the motor and darkens
the LED. -/
def command (text : String) : ServerResult :=
  if text = "1" then ⟨.start, .blink⟩
  else if text = "0" then ⟨.stop, .blink⟩
  else ⟨.stop, .off⟩

/-- One poll of the server. Every way in which it can fail ends in the same result, the motor
stopped and the LED dark. -/
def pollServer : HttpConnection → Exchange → ServerResult
  | .notConnected, _ => ⟨.stop, .off⟩
  | .connected, .requestFailed => ⟨.stop, .off⟩
  | .connected, .sendFailed => ⟨.stop, .off⟩
  | .connected, .responded response =>
    if response.successful then
      match response.body with
      | none => ⟨.stop, .off⟩
      | some body =>
        match fromUtf8 body with
        | none => ⟨.stop, .off⟩
        | some text => command (trim text)
    else ⟨.stop, .off⟩

/-- A successful response was read whose body is UTF-8 and, when trimmed, `text`: the only way a
command gets through. -/
def Reads (http : HttpConnection) (exchange : Exchange) (text : String) : Prop :=
  http = .connected ∧ ∃ body s, exchange = .responded ⟨true, some body⟩ ∧
    fromUtf8 body = some s ∧ trim s = text

/-- The poll failed somewhere: one case for each place where it can, an unknown command included. -/
inductive Failed : HttpConnection → Exchange → Prop
  | notConnected (exchange : Exchange) : Failed .notConnected exchange
  | request (http : HttpConnection) : Failed http .requestFailed
  | send (http : HttpConnection) : Failed http .sendFailed
  | status (http : HttpConnection) (body : Option (List UInt8)) :
      Failed http (.responded ⟨false, body⟩)
  | body (http : HttpConnection) (successful : Bool) : Failed http (.responded ⟨successful, none⟩)
  | utf8 (http : HttpConnection) (successful : Bool) (body : List UInt8)
      (invalid : fromUtf8 body = none) : Failed http (.responded ⟨successful, some body⟩)
  | unknown (http : HttpConnection) (successful : Bool) (body : List UInt8) (text : String)
      (decoded : fromUtf8 body = some text) (one : trim text ≠ "1")
      (zero : trim text ≠ "0") : Failed http (.responded ⟨successful, some body⟩)

variable {http : HttpConnection} {exchange : Exchange}

/-- Only the text "1" commands the ball to move. -/
theorem command_start_iff {text : String} : (command text).motorAction = .start ↔ text = "1" := by
  unfold command
  split
  next one => exact ⟨fun _ => one, fun _ => rfl⟩
  next other =>
    refine ⟨fun started => ?_, fun one => absurd one other⟩
    split at started <;> cases started

/-- The motor is to run exactly if a successful response reads "1"; every other outcome stops it. -/
theorem motorAction_start_iff :
    (pollServer http exchange).motorAction = .start ↔ Reads http exchange "1" := by
  constructor
  · intro started
    unfold pollServer at started
    split at started
    · cases started
    · cases started
    · cases started
    next response =>
      split at started
      next successful =>
        split at started
        · cases started
        next body read =>
          split at started
          · cases started
          next text decoded =>
            obtain ⟨_, _⟩ := response
            cases successful
            cases read
            exact ⟨rfl, body, text, rfl, decoded, command_start_iff.mp started⟩
      · cases started
  · rintro ⟨rfl, body, text, rfl, decoded, one⟩
    simp only [pollServer, if_true, decoded]
    exact command_start_iff.mpr one

/-- A poll that fails stops the motor, wherever it failed. -/
theorem stop_of_failed (failed : Failed http exchange) :
    (pollServer http exchange).motorAction = .stop := by
  cases h : (pollServer http exchange).motorAction with
  | stop => rfl
  | start =>
    obtain ⟨connected, body, text, rfl, decoded, one⟩ := motorAction_start_iff.mp h
    cases failed with
    | notConnected => cases connected
    | utf8 _ _ _ invalid => cases invalid.symm.trans decoded
    | unknown _ _ _ _ decoded' other =>
      cases decoded'.symm.trans decoded
      exact absurd one other

end Motorball.Esp32
