import Motorball.Link.FailSafe
import Motorball.Server.Schedule

/-!
# The ball moves in games

The schedule of the games (`Server.Schedule`) and the radio link (`Link.FailSafe`) put together.
Among the steps of the link are those of the server, and they are a run of the server by themselves
(`server_runs`), so what holds of a punctual server holds at the instant at which it serves a
response. `moves_in_games` says what a ball that moves on such a response proves: that a game was on
when the response was served, or had been until a moment before, or that a request had started the
motor by hand.
-/

namespace Motorball.Link.Radio

open Transducer Motorball.Esp32 Motorball.Server.System
open Motorball.Server (System HttpResponse fromSecs chaosSeconds)

variable {α : Type} [Scalar α]

/-! ## The server's part of a run -/

/-- The server's part of a history of the link. -/
def serverEvents (events : List (Event α)) : List System.Event :=
  events.filterMap fun | .server event => some event | _ => none

/-- What the server's steps did, in the same order. -/
def serverObs (outputs : List Obs) : List System.Obs :=
  outputs.filterMap fun | .server obs => some obs | _ => none

variable {server : System} {http : HttpConnection} {tiltSensor : Bool}
  {events : List (Event α)} {outputs : List Obs} {r : Radio}

/-- The server's steps in a run of the link are a run of the server alone, so that what holds of
every run of the server holds here. -/
theorem server_runs (runs : Runs step (start server http tiltSensor) events outputs r) :
    Runs System.step server (serverEvents events) (serverObs outputs) r.server := by
  induction runs with
  | nil => exact .nil
  | @snoc events outputs r r' event obs _ last ih =>
    cases event with
    | server event =>
      obtain ⟨⟨server', obs'⟩, moved, heq⟩ := Option.map_eq_some_iff.mp last
      cases heq
      rw [serverEvents, serverObs, filterMap_snoc, filterMap_snoc]
      exact ih.snoc moved
    | pollServer | readTiltSensor | driveMotors | driveLed =>
      cases step_moved last
      rw [serverEvents, serverObs, filterMap_snoc, filterMap_snoc]
      simp only [Option.toList_none, List.append_nil]
      exact ih

omit [Scalar α] in
/-- The server's part of two histories in a row. -/
theorem serverEvents_append (events later : List (Event α)) :
    serverEvents (events ++ later) = serverEvents events ++ serverEvents later :=
  List.filterMap_append ..

/-! ## The ball and the games -/

/-- A game is on, or was three periods ago, or a request to the motor's own route has started it
since. The countdown thread may take one period to see the game's end, one to see the chaos phase's,
and one to write the stop. -/
def GameOn (parsed : Option UInt64) (period : Nat) (outputs : List Obs) (clock : Nat) : Prop :=
  (∃ opened, lastStart (serverObs outputs) = some opened ∧
    clock < timeUp parsed opened + fromSecs chaosSeconds + 3 * period) ∨
    postedStart (serverObs outputs) = true

variable {parsed : Option UInt64} {clock period : Nat} {seed : UInt64}

/-- A punctual server has its motor started only while a game is on. The starts have to be prompt: a
start whose motor section comes after its own game's end would leave the motor on with no game. -/
theorem started_in_game
    (runs : Runs step (start (System.start parsed clock seed) http tiltSensor) events outputs r)
    (punctual : Punctual period (serverEvents events))
    (prompt : EachStep System.step (System.start parsed clock seed) (serverEvents events) Prompt)
    (started : r.server.motor = .start) : GameOn parsed period outputs r.server.clock := by
  by_contra off
  rw [GameOn, not_or] at off
  obtain ⟨idle, unposted⟩ := off
  have long : ∀ opened, lastStart (serverObs outputs) = some opened →
      timeUp parsed opened + fromSecs chaosSeconds + 3 * period ≤ r.server.clock := by
    intro opened last
    by_contra within
    exact idle ⟨opened, last, Nat.lt_of_not_le within⟩
  obtain ⟨ended, performed⟩ := rests_of_runs (server_runs runs) punctual long
  have stopped := (settled_of_runs (server_runs runs) prompt).stopped ended performed
    (Bool.eq_false_of_not_eq_true unposted)
  cases stopped.symm.trans started

/-- **The ball moves in games.** Take any interleaving of a punctual server, whose starts write the
motor within ten seconds, and the ball. Each time the ball has driven a pin high, the last poll was
of the same turn and read "1"; and if it read the `k`-th response of `api_motor` unaltered, then
that response was served while the motor was started and a game was on: less than three periods past
the chaos phase of the game started last, or after a request that started the motor by hand. A
forged response is left to `Motorball.Link.Radio.fail_safe`: the ball cannot tell it from the
server's. -/
theorem moves_in_games
    (runs : Runs step (start (System.start parsed clock seed) http tiltSensor) events outputs r)
    (punctual : Punctual period (serverEvents events))
    (prompt : EachStep System.step (System.start parsed clock seed) (serverEvents events) Prompt)
    {before after : List Obs} {left right : Bool}
    (drove : outputs = before ++ .drove left right :: after) (high : left = true ∨ right = true) :
    ∃ earlier reply exchange since, before = earlier ++ .polled reply exchange :: since ∧
      (∀ obs ∈ since, obs.Between) ∧ Reads http exchange "1" ∧
      ∀ k, reply = .unaltered k → ∃ first rest outs q, events = first ++ .server .apiMotor :: rest ∧
        Runs step (start (System.start parsed clock seed) http tiltSensor) first outs q ∧
        (served outs).length = k ∧ q.server.motor = .start ∧
        GameOn parsed period outs q.server.clock := by
  obtain ⟨js, event, ks, s, s', hevents, first, moved, -⟩ := runs.at_output drove
  obtain ⟨result, pending, pins⟩ := drove_iff (step_moved moved)
  obtain ⟨earlier, reply, exchange, since, polled, rfl⟩ :=
    (heard_of_runs first).pending result pending
  have reads : Reads http exchange "1" := motorAction_start_iff.mp (pins.mp high)
  refine ⟨earlier, reply, exchange, since, polled.split, polled.between, reads, ?_⟩
  intro k unaltered
  obtain ⟨response, hresponse, hexchange⟩ := polled.got k unaltered
  have split : outputs = earlier ++ (.polled reply exchange :: since ++
      .drove left right :: after) := by
    rw [drove, polled.split, List.append_assoc]
  obtain ⟨motor, ⟨first, rest, outs, q, rfl, run, count, rfl⟩, rfl⟩ :=
    servedAt_of_served runs split hresponse
  rw [hexchange] at reads
  have started := reads_received reads
  rw [serverEvents_append] at punctual prompt
  exact ⟨first, rest, outs, q, rfl, run, count, started,
    started_in_game run punctual.of_append prompt.of_append started⟩

/-- The ball polls in the chaos phase of a game of one second. -/
def inChaos : List (Event ℚ) :=
  [.server (.startGame 0), .server (.startMotor 0), .server (.advance (fromSecs 1)), .server .tick,
    .server .choose, .server .perform, .server (.advance (fromSecs 1)), .server .tick,
    .server .choose, .server .perform, .server .apiMotor, .pollServer (.unaltered 0),
    .readTiltSensor (some ⟨-0.5, 0.2⟩), .driveMotors]

/-- The response that a poll got. -/
def replyOf : Obs → Option Reply
  | .polled reply _ => some reply
  | _ => none

/-- The ball moves on a response that was served with the motor started, in the game's chaos phase:
the game of one second is over when the ball asks, and the countdown thread switches the motor on
and off. -/
theorem moves_in_games_chaos :
    ∃ before r, Runs step (start (System.start (some 1) 0 1) .connected true) inChaos
        (before ++ [.drove false true]) r ∧
      (∃ earlier reply exchange since, before = earlier ++ .polled reply exchange :: since ∧
        Reads .connected exchange "1") ∧
      ∃ first rest outs q, inChaos = first ++ .server .apiMotor :: rest ∧
        Runs step (start (System.start (some 1) 0 1) .connected true) first outs q ∧
        q.server.motor = .start ∧ GameOn (some 1) (fromSecs 1) outs q.server.clock := by
  have ran : (run step (start (System.start (some 1) 0 1) .connected true) inChaos).map
      (fun p => (p.2.getLast?, p.2.filterMap replyOf)) =
      some (some (.drove false true), [.unaltered 0]) := by decide +kernel
  obtain ⟨outputs, r, runs, heq⟩ := runs_of_run ran
  obtain ⟨hlast, replies⟩ := Prod.mk.inj heq
  obtain ⟨before, rfl⟩ := List.getLast?_eq_some_iff.mp hlast
  have punctual : Punctual (fromSecs 1) (serverEvents inChaos) := by decide +kernel
  have prompt : EachStep System.step (System.start (some 1) 0 1) (serverEvents inChaos) Prompt := by
    decide +kernel
  obtain ⟨earlier, reply, exchange, since, split, -, reads, service⟩ :=
    moves_in_games runs punctual prompt rfl (.inr rfl)
  have polled : reply ∈ [Reply.unaltered 0] := by
    rw [← replies, List.mem_filterMap]
    exact ⟨.polled reply exchange, by simp [split], rfl⟩
  obtain ⟨first, rest, outs, q, events, ran, -, started, on⟩ :=
    service 0 (List.mem_singleton.mp polled)
  exact ⟨before, r, runs, ⟨earlier, reply, exchange, since, split, reads⟩, first, rest, outs, q,
    events, ran, started, on⟩

end Motorball.Link.Radio
