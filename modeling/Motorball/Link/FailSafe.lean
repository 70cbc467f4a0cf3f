import Motorball.Esp32.MainLoop
import Motorball.Server.System

/-!
# The server and the ball

Two programs that share a wireless link: the server's threads, one step at a time as in
`Server.System`, and the main loop of the ESP32, which polls, reads the tilt, drives the motors and
the LED, with any steps of the server in between. A poll gets what it gets (`Reply`): a response
that `api_motor` has served, any of them, as it was sent; or anything else, a loss, a failure, a
status or bytes that no server sent.

The loop keeps no command from one turn to the next. `Heard` says so: the result it is about to act
on is that of the last poll, and nothing but steps of the server and the tilt has come since. So the
pins say what that poll has read (`fail_safe`).
-/

namespace Motorball.Link

open Transducer Motorball.Esp32
open Motorball.Server (System HttpResponse)

/-- Where the main loop of the ball is in its turn: it polls, reads the tilt sensor, drives the
motors and then its LED, in this order and with the result of the one poll. -/
inductive Turn where
  | polling
  | polled (result : ServerResult)
  | tilted (result : ServerResult) (tilt : TiltSensation)
  | driven (result : ServerResult)
  deriving DecidableEq

/-- The result the loop is about to drive the motors with, between the poll and the drive. -/
def Turn.pending : Turn → Option ServerResult
  | .polled result | .tilted result _ => some result
  | .polling | .driven _ => none

/-- Both programs, and the responses of `api_motor` in the order they were served, from which the
network may hand any to the ball at any later time. -/
structure Radio where
  server : System
  responses : List HttpResponse
  http : HttpConnection
  hardware : HardwareControls
  turn : Turn
  deriving DecidableEq

/-- What a poll gets: the `k`-th response that was served, as it was sent, however late, or anything
else that a network can make of a request, failures included. -/
inductive Reply where
  | unaltered (k : Nat)
  | other (exchange : Exchange)
  deriving DecidableEq

/-- A response of the server as an HTTP client receives it: the status as success or not, and the
bytes of the body. -/
def asReceived : HttpResponse → Response
  | .ok body => ⟨true, some body.toUTF8.data.toList⟩
  | .badRequest body => ⟨false, some body.toUTF8.data.toList⟩

/-- The response of `api_motor`, if a step of the server was one. -/
def servedBy : System.Obs → Option HttpResponse
  | .served response => some response
  | _ => none

namespace Radio

/-- Both programs at startup: the server as it is given, the ball with its motors off and about to
poll. -/
def start (server : System) (http : HttpConnection) (tiltSensor : Bool) : Radio where
  server := server
  responses := []
  http := http
  hardware := initialiseHardware tiltSensor
  turn := .polling

/-- The steps of the two programs. They interleave freely; the ball's come in the order of its
loop. -/
inductive Event (α : Type) where
  /-- A step of the server. -/
  | server (event : System.Event)
  /-- The steps of a turn of the main loop. -/
  | pollServer (reply : Reply)
  | readTiltSensor (reading : Option (Measurement α))
  | driveMotors
  | driveLed (millis : Nat)

/-- What a step does that others can see: for a poll, what it asked for and what came of it; for a
drive, the levels of the two motor pins. -/
inductive Obs where
  | server (obs : System.Obs)
  | polled (reply : Reply) (exchange : Exchange)
  | tilted
  | drove (motorLeft motorRight : Bool)
  | lit (led : Bool)
  deriving DecidableEq

/-- What the ball's HTTP client makes of a reply; there is none for a response that has not been
served. -/
def exchange (r : Radio) : Reply → Option Exchange
  | .unaltered k => r.responses[k]?.map fun response => .responded (asReceived response)
  | .other exchange => some exchange

variable {α : Type} [Scalar α]

/-- One step of either program. A step of the ball that is not the next of its turn does not
exist. -/
def step (r : Radio) : Event α → Option (Radio × Obs)
  | .server event =>
    (r.server.step event).map fun (server, obs) =>
      ({ r with server, responses := r.responses ++ (servedBy obs).toList }, .server obs)
  | .pollServer reply =>
    match r.turn with
    | .polling =>
      (r.exchange reply).map fun exchange =>
        ({ r with turn := .polled (pollServer r.http exchange) }, .polled reply exchange)
    | _ => none
  | .readTiltSensor reading =>
    match r.turn with
    | .polled result =>
      some ({ r with turn := .tilted result (readTiltSensor r.hardware reading) }, .tilted)
    | _ => none
  | .driveMotors =>
    match r.turn with
    | .tilted result tilt =>
      let hardware := driveMotors r.hardware result.motorAction tilt
      some ({ r with hardware, turn := .driven result },
        .drove hardware.motorLeft hardware.motorRight)
    | _ => none
  | .driveLed millis =>
    match r.turn with
    | .driven result =>
      let hardware := driveLed r.hardware result.ledAction millis
      some ({ r with hardware, turn := .polling }, .lit hardware.led)
    | _ => none

/-! ## What a step can do -/

/-- Every way the two programs move, guards included; the invariants below are derived from these
and not from `step`. -/
inductive Moved (r : Radio) : Event α → Radio → Obs → Prop
  | server (event : System.Event) (server : System) (obs : System.Obs)
      (moved : System.Moved r.server event server obs) :
      Moved r (.server event)
        { r with server, responses := r.responses ++ (servedBy obs).toList } (.server obs)
  | poll (reply : Reply) (exchange : Exchange) (polling : r.turn = .polling)
      (got : r.exchange reply = some exchange) :
      Moved r (.pollServer reply) { r with turn := .polled (pollServer r.http exchange) }
        (.polled reply exchange)
  | tilt (reading : Option (Measurement α)) (result : ServerResult) (tilt : TiltSensation)
      (polled : r.turn = .polled result) :
      Moved r (.readTiltSensor reading) { r with turn := .tilted result tilt } .tilted
  | drive (result : ServerResult) (tilt : TiltSensation) (hardware : HardwareControls)
      (tilted : r.turn = .tilted result tilt)
      (driven : hardware = driveMotors r.hardware result.motorAction tilt) :
      Moved r .driveMotors { r with hardware, turn := .driven result }
        (.drove hardware.motorLeft hardware.motorRight)
  | light (millis : Nat) (result : ServerResult) (hardware : HardwareControls)
      (driven : r.turn = .driven result)
      (lit : hardware = driveLed r.hardware result.ledAction millis) :
      Moved r (.driveLed millis) { r with hardware, turn := .polling } (.lit hardware.led)

theorem step_moved {r r' : Radio} {event : Event α} {obs : Obs}
    (h : r.step event = some (r', obs)) : Moved r event r' obs := by
  cases event with
  | server event =>
    obtain ⟨⟨server, obs⟩, moved, heq⟩ := Option.map_eq_some_iff.mp h
    cases heq
    exact .server event server obs (System.step_moved moved)
  | pollServer reply =>
    simp only [step] at h
    split at h
    next polling =>
      obtain ⟨exchange, got, heq⟩ := Option.map_eq_some_iff.mp h
      cases heq
      exact .poll reply exchange polling got
    · cases h
  | readTiltSensor reading =>
    simp only [step] at h
    split at h
    next result polled => cases h; exact .tilt reading result _ polled
    · cases h
  | driveMotors =>
    simp only [step] at h
    split at h
    next result tilt tilted => cases h; exact .drive result tilt _ tilted rfl
    · cases h
  | driveLed millis =>
    simp only [step] at h
    split at h
    next result driven => cases h; exact .light millis result _ driven rfl
    · cases h

/-! ## Histories -/

/-- The responses of `api_motor` so far. -/
def served (outputs : List Obs) : List HttpResponse :=
  outputs.filterMap fun | .server obs => servedBy obs | _ => none

/-- A step between a poll and the drive that follows it: the tilt sensor's, or any of the
server's. -/
def Obs.Between : Obs → Prop
  | .server _ | .tilted => True
  | .polled _ _ | .drove _ _ | .lit _ => False

/-- The last poll came to `exchange`, and the loop has not driven the motors since. What was got
unaltered had been served before the poll, so it is no prophecy. -/
structure Polled (outputs earlier : List Obs) (reply : Reply) (exchange : Exchange)
    (since : List Obs) : Prop where
  split : outputs = earlier ++ .polled reply exchange :: since
  between : ∀ obs ∈ since, obs.Between
  got : ∀ k, reply = .unaltered k → ∃ response, (served earlier)[k]? = some response ∧
    exchange = .responded (asReceived response)

/-- What the two programs have seen of each other: the responses are those in the history, and a
pending result is what the ball made of the last poll. -/
structure Heard (http : HttpConnection) (outputs : List Obs) (r : Radio) : Prop where
  http_eq : r.http = http
  responses : r.responses = served outputs
  pending : ∀ result, r.turn.pending = some result → ∃ earlier reply exchange since,
    Polled outputs earlier reply exchange since ∧ result = pollServer http exchange

variable {http : HttpConnection} {outputs : List Obs} {r : Radio}

/-- A step of the server adds the response it served, if it served one. -/
theorem served_server (outputs : List Obs) (obs : System.Obs) :
    served (outputs ++ [.server obs]) = served outputs ++ (servedBy obs).toList :=
  filterMap_snoc _ _ _

/-- A step in between keeps the poll the last one. -/
theorem Polled.snoc {earlier since : List Obs} {reply : Reply} {exchange : Exchange}
    (polled : Polled outputs earlier reply exchange since) {obs : Obs} (between : obs.Between) :
    Polled (outputs ++ [obs]) earlier reply exchange (since ++ [obs]) where
  split := by rw [polled.split, List.append_assoc, List.cons_append]
  between := by
    intro obs' mem
    rcases List.mem_append.mp mem with old | new
    · exact polled.between obs' old
    · rw [List.mem_singleton.mp new]
      exact between
  got := polled.got

/-- At startup nothing has been served and nothing is pending. -/
theorem heard_start (server : System) (http : HttpConnection) (tiltSensor : Bool) :
    Heard http [] (start server http tiltSensor) where
  http_eq := rfl
  responses := rfl
  pending := by
    intro result pending
    cases pending

/-- A step between a poll and the drive leaves the pending result alone. -/
theorem Heard.between {r' : Radio} {obs : Obs} (heard : Heard http outputs r)
    (http' : r'.http = r.http) (responses : r'.responses = served (outputs ++ [obs]))
    (same : r'.turn.pending = r.turn.pending) (between : obs.Between) :
    Heard http (outputs ++ [obs]) r' where
  http_eq := http'.trans heard.http_eq
  responses := responses
  pending := by
    intro result pending
    rw [same] at pending
    obtain ⟨earlier, reply, exchange, since, polled, hresult⟩ := heard.pending result pending
    exact ⟨earlier, reply, exchange, since ++ [obs], polled.snoc between, hresult⟩

/-- Once the motors are driven nothing is pending until the next poll. -/
theorem Heard.acted {r' : Radio} {obs : Obs} (heard : Heard http outputs r)
    (http' : r'.http = r.http) (responses : r'.responses = served (outputs ++ [obs]))
    (acted : r'.turn.pending = none) : Heard http (outputs ++ [obs]) r' where
  http_eq := http'.trans heard.http_eq
  responses := responses
  pending := by
    intro result pending
    rw [acted] at pending
    cases pending

omit [Scalar α] in
/-- One step of either program keeps the record: a poll sets the pending result, a drive uses it up,
and everything else is in between. -/
theorem Heard.moved {event : Event α} {r' : Radio} {obs : Obs} (heard : Heard http outputs r)
    (moved : Moved r event r' obs) : Heard http (outputs ++ [obs]) r' := by
  cases moved with
  | server event server obs moved =>
    refine heard.between rfl ?_ rfl trivial
    rw [served_server, heard.responses]
  | poll reply exchange polling got =>
    refine ⟨heard.http_eq, heard.responses.trans (filterMap_snoc_none rfl).symm, ?_⟩
    · intro result pending
      cases pending
      refine ⟨outputs, reply, exchange, [], ⟨rfl, ?_, ?_⟩, by rw [heard.http_eq]⟩
      · intro obs mem
        cases mem
      · rintro k rfl
        obtain ⟨response, hresponse, rfl⟩ := Option.map_eq_some_iff.mp got
        rw [heard.responses] at hresponse
        exact ⟨response, hresponse, rfl⟩
  | tilt reading result tilt polled =>
    refine heard.between rfl (heard.responses.trans (filterMap_snoc_none rfl).symm) ?_ trivial
    rw [polled]
    rfl
  | drive result tilt hardware tilted driven =>
    exact heard.acted rfl (heard.responses.trans (filterMap_snoc_none rfl).symm) rfl
  | light millis result hardware driven lit =>
    exact heard.acted rfl (heard.responses.trans (filterMap_snoc_none rfl).symm) rfl

variable {server : System} {tiltSensor : Bool} {events : List (Event α)}

/-- The record holds after every run of the two programs, by induction on the run. -/
theorem heard_of_runs (runs : Runs step (start server http tiltSensor) events outputs r) :
    Heard http outputs r := by
  induction runs with
  | nil => exact heard_start server http tiltSensor
  | snoc _ last ih => exact ih.moved (step_moved last)

/-! ## The fail-safe -/

/-- The `k`-th request to `api_motor`, counted from zero, was served while the motor was `motor`. -/
def ServedAt (r₀ : Radio) (events : List (Event α)) (k : Nat) (motor : Server.MotorAction) : Prop :=
  ∃ before after outputs r, events = before ++ .server .apiMotor :: after ∧
    Runs step r₀ before outputs r ∧ (served outputs).length = k ∧ r.server.motor = motor

/-- A response that was served was served while the motor was what it says: cut the run at that
request and read the motor there. -/
theorem servedAt_of_served (runs : Runs step (start server http tiltSensor) events outputs r)
    {earlier later : List Obs} (split : outputs = earlier ++ later) {k : Nat}
    {response : HttpResponse} (h : (served earlier)[k]? = some response) :
    ∃ motor, ServedAt (start server http tiltSensor) events k motor ∧
      response = .ok (toString motor.asNum) := by
  obtain ⟨before, obs, after, rfl, isServed, count⟩ := filterMap_getElem? h
  cases obs with
  | server obs =>
    rw [List.append_assoc, List.cons_append] at split
    obtain ⟨js, event, ks, s, s', rfl, first, moved, -⟩ := runs.at_output split
    have inverted := step_moved moved
    cases inverted with
    | server serverEvent server' _ serverMoved =>
      cases serverMoved with
      | apiMotor =>
        cases isServed
        exact ⟨s.server.motor, ⟨js, ks, before, s, rfl, first, count, rfl⟩, rfl⟩
      | _ => cases isServed
  | polled | tilted | drove | lit => cases isServed

/-- A response that says "1" was served while the motor was running, since a stopped one is served
as "0". -/
theorem reads_received {motor : Server.MotorAction}
    (reads : Reads http (.responded (asReceived (.ok (toString motor.asNum)))) "1") :
    motor = .start := by
  cases motor with
  | start => rfl
  | stop =>
    obtain ⟨-, body, text, heq, decoded, one⟩ := reads
    cases heq
    have zero : fromUtf8 (toString (Server.MotorAction.stop).asNum).toUTF8.data.toList =
        some "0" := by decide +kernel
    cases decoded.symm.trans zero
    exact absurd one (by decide +kernel)

omit [Scalar α] in
/-- The pins follow the result the loop was about to act on; the tilt only decides which of the two
is high. -/
theorem drove_iff {event : Event α} {r' : Radio} {left right : Bool}
    (moved : Moved r event r' (.drove left right)) :
    ∃ result, r.turn.pending = some result ∧
      ((left = true ∨ right = true) ↔ result.motorAction = .start) := by
  cases moved with
  | drive result tilt hardware tilted driven =>
    refine ⟨result, by rw [tilted]; rfl, ?_⟩
    rw [driven]
    exact driveMotors_high_iff ..

/-- **The motors run only on a command that has just been read.** Whatever the server does and
whatever the network makes of the requests: each time the ball has driven its motors, the last poll
was of the same turn of its loop, and a pin is high exactly if that poll was a success and read "1".
If it failed anywhere, both pins are low. If what it read had come unaltered from `api_motor`, then
a pin is high only if the motor was running when that request was served, and both are low if it was
stopped. Nothing is assumed of the network, which may delay, repeat or forge responses; the motor
state is the one at the instant of serving, not of driving. -/
theorem fail_safe (runs : Runs step (start server http tiltSensor) events outputs r)
    {before after : List Obs} {left right : Bool}
    (drove : outputs = before ++ .drove left right :: after) :
    ∃ earlier reply exchange since, before = earlier ++ .polled reply exchange :: since ∧
      (∀ obs ∈ since, obs.Between) ∧
      ((left = true ∨ right = true) ↔ Reads http exchange "1") ∧
      (Failed http exchange → left = false ∧ right = false) ∧
      ∀ k, reply = .unaltered k → ∃ motor, ServedAt (start server http tiltSensor) events k motor ∧
        exchange = .responded (asReceived (.ok (toString motor.asNum))) ∧
        (left = true ∨ right = true → motor = .start) ∧
        (motor = .stop → left = false ∧ right = false) := by
  obtain ⟨js, event, ks, s, s', hevents, first, moved, -⟩ := runs.at_output drove
  obtain ⟨result, pending, pins⟩ := drove_iff (step_moved moved)
  obtain ⟨earlier, reply, exchange, since, polled, rfl⟩ :=
    (heard_of_runs first).pending result pending
  rw [motorAction_start_iff] at pins
  have low : ¬Reads http exchange "1" → left = false ∧ right = false := by
    intro silent
    rw [← pins, not_or, Bool.not_eq_true, Bool.not_eq_true] at silent
    exact silent
  refine ⟨earlier, reply, exchange, since, polled.split, polled.between, pins, ?_, ?_⟩
  · intro failed
    apply low
    intro reads
    cases (stop_of_failed failed).symm.trans (motorAction_start_iff.mpr reads)
  · intro k unaltered
    obtain ⟨response, hresponse, hexchange⟩ := polled.got k unaltered
    have split : outputs = earlier ++ (.polled reply exchange :: since ++
        .drove left right :: after) := by
      rw [drove, polled.split, List.append_assoc]
    obtain ⟨motor, servedAt, rfl⟩ := servedAt_of_served runs split hresponse
    have started : Reads http exchange "1" → motor = .start := by
      rw [hexchange]
      exact reads_received
    refine ⟨motor, servedAt, hexchange, fun high => started (pins.mp high), ?_⟩
    rintro rfl
    exact low fun reads => by cases started reads

/-- The server starts a game and serves one request, and the motor is stopped while the ball acts on
the response. -/
def oneTurn : List (Event ℚ) :=
  [.server (.startGame 0), .server (.startMotor 0), .server .apiMotor, .pollServer (.unaltered 0),
    .server (.setMotor "stop"), .readTiltSensor none, .driveMotors]

/-- The ball moves on the response it has read, although the motor is stopped by then; it will stop
on its next turn. -/
theorem fail_safe_one_turn :
    ∃ before r, Runs step (start (System.start (some 60) 0 1) .connected false) oneTurn
        (before ++ [.drove true true]) r ∧
      ∃ earlier reply exchange since, before = earlier ++ .polled reply exchange :: since ∧
        Reads .connected exchange "1" := by
  have ran : (run step (start (System.start (some 60) 0 1) .connected false) oneTurn).map
      (fun p => p.2.getLast?) = some (some (.drove true true)) := by decide +kernel
  obtain ⟨outputs, r, runs, hlast⟩ := runs_of_run ran
  obtain ⟨before, rfl⟩ := List.getLast?_eq_some_iff.mp hlast
  obtain ⟨earlier, reply, exchange, since, split, -, pins, -⟩ := fail_safe runs rfl
  exact ⟨before, r, runs, earlier, reply, exchange, since, split, pins.mp (.inl rfl)⟩

end Radio

end Motorball.Link
