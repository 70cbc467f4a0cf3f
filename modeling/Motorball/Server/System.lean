import Motorball.Library.Transducer
import Motorball.Server.Countdown

/-!
# The server's threads around the countdown and the motor

Every thread that touches the countdown or the motor, interleaved at its critical sections:

- any number of `start_game` calls, each a section under the countdown lock and then one under the
  motor lock (`calls` holds those between the two);
- the countdown thread, which reads the clock, then decides under the countdown lock, then performs
  its update under the motor lock (`phase`, with the clock reading it works with);
- requests to `/motor/{action}` and `/api/motor`, and reads of the countdown status.

The clock moves between sections, by any amount, and between the two clock readings of a
`start_game` call while that holds the countdown lock. A step that panics is refused. `Moved` lists
what each step can do.
-/

namespace Motorball.Server

open Transducer

/-- An HTTP response: its kind and its body. Nothing else of a response is computed by the
handlers. -/
inductive HttpResponse where
  | ok (body : String)
  | badRequest (body : String)
  deriving DecidableEq

/-- A `start_game` call between its two sections: when the first was, and the status it returns,
which it holds from then on. -/
structure StartCall where
  since : Nat
  status : CountdownStatus
  deriving DecidableEq

/-- Where the countdown thread is in its loop: before its clock reading, before its section under
the countdown lock, or before the one under the motor lock. -/
inductive Phase where
  | idle
  | ticked (now : Nat)
  | decided (now : Nat) (update : Update)
  deriving DecidableEq

/-- The update that is decided and not yet performed. It may be overtaken by any section of the
other threads. -/
def Phase.pending : Phase → Option Update
  | .decided _ update => some update
  | .idle | .ticked _ => none

/-- The shared state of the server around the countdown and the motor, with what the threads hold
between their sections: the calls, and the countdown thread's generator, next change and place in
its loop. -/
structure System where
  clock : Nat
  countdown : Countdown
  motor : MotorAction
  calls : List StartCall
  rng : Rng
  nextMotorChange : Nat
  phase : Phase
  deriving DecidableEq

namespace System

/-- The server at startup: the game length it read, the clock, and the time its generator is seeded
with. -/
def start (parsed : Option UInt64) (clock : Nat) (seed : UInt64) : System where
  clock := clock
  countdown := Countdown.initial (gameSeconds parsed)
  motor := .stop
  calls := []
  rng := Rng.fromTime seed
  nextMotorChange := clock
  phase := .idle

/-- The sections of the threads, and time. An order of them is an interleaving. -/
inductive Event where
  /-- Time passes. -/
  | advance (elapsed : Nat)
  /-- The countdown section of a `start_game` call, and the time between its two clock readings. -/
  | startGame (lasted : Nat)
  /-- The motor section of a `start_game` call. -/
  | startMotor (call : Nat)
  /-- The countdown thread reads the clock. -/
  | tick
  /-- Its section under the countdown lock. -/
  | choose
  /-- Its section under the motor lock. -/
  | perform
  /-- A request to `/motor/{action}`. -/
  | setMotor (action : String)
  /-- `current_countdown`, for `/api/countdown`, the logger or the display. -/
  | currentCountdown
  /-- A request to `/api/motor`. -/
  | apiMotor
  deriving DecidableEq

/-- What is seen of a step: what it read, decided or answered. The laws of the countdown and the
motor are about the lists of these. -/
inductive Obs where
  | advanced
  | started (now : Nat) (status : CountdownStatus)
  | motorStarted (status : CountdownStatus)
  | ticked (now : Nat)
  | chosen (now : Nat) (update : Update)
  | performed (update : Update) (motor : MotorAction)
  | requested (action : Option MotorAction) (response : HttpResponse)
  | reported (status : CountdownStatus)
  | served (response : HttpResponse)
  deriving DecidableEq

/-- The action that a request to `/motor/{action}` names; `set_motor` takes the two words as they
stand and refuses every other. -/
def parseAction (action : String) : Option MotorAction :=
  if action = "start" then some .start else if action = "stop" then some .stop else none

/-- One section of one thread. It refuses what cannot happen: a call that does not wait, the thread
out of its order, and whatever panics. -/
def step (s : System) : Event → Option (System × Obs)
  | .advance elapsed => some ({ s with clock := s.clock + elapsed }, .advanced)
  | .startGame lasted =>
    let later := s.clock + lasted
    match startGame s.clock later s.countdown with
    | (_, none) => none
    | (countdown, some status) =>
      some ({ s with clock := later, countdown, calls := s.calls ++ [⟨s.clock, status⟩] },
        .started s.clock status)
  | .startMotor call =>
    match s.calls[call]? with
    | none => none
    | some c =>
      some ({ s with motor := .start, calls := s.calls.eraseIdx call }, .motorStarted c.status)
  | .tick =>
    match s.phase with
    | .idle => some ({ s with phase := .ticked s.clock }, .ticked s.clock)
    | _ => none
  | .choose =>
    match s.phase with
    | .ticked now =>
      match chooseUpdate now s.nextMotorChange s.countdown with
      | (_, none) => none
      | (countdown, some .none) =>
        some ({ s with countdown, phase := .idle }, .chosen now .none)
      | (countdown, some update) =>
        some ({ s with countdown, phase := .decided now update }, .chosen now update)
    | _ => none
  | .perform =>
    match s.phase with
    | .decided now update =>
      (performUpdate now s.motor s.rng s.nextMotorChange update).map
        fun (motor, rng, nextMotorChange) =>
          ({ s with motor, rng, nextMotorChange, phase := .idle }, .performed update motor)
    | _ => none
  | .setMotor action =>
    match parseAction action with
    | some new =>
      some ({ s with motor := new }, .requested (some new) (.ok (toString new.asNum)))
    | none => some (s, .requested none (.badRequest "unknown motor action (use start|stop)"))
  | .currentCountdown => some (s, .reported (countdownStatus s.countdown s.clock))
  | .apiMotor => some (s, .served (.ok (toString s.motor.asNum)))

/-! ## What a step can do -/

/-- The deadline of the game is ahead of `now`, or there is none. -/
def Unexpired (deadline : Option Nat) (now : Nat) : Prop := ∀ d, deadline = some d → now < d

/-- Every way the system moves, with its guards. Invariants are proved by the cases of this, so that
no proof but `step_moved` opens `step`. -/
inductive Moved (s : System) : Event → System → Obs → Prop
  | advance (elapsed : Nat) :
      Moved s (.advance elapsed) { s with clock := s.clock + elapsed } .advanced
  | startGame (lasted : Nat) (status : CountdownStatus) (countdown : Countdown)
      (opened : countdown =
        { s.countdown with
          deadline := some (s.clock + fromSecs s.countdown.durationSeconds)
          chaosDeadline := none
          game := Arith.saturatingAdd 64 s.countdown.game 1 })
      (shown : status = countdownStatus countdown (s.clock + lasted)) :
      Moved s (.startGame lasted)
        { s with
          clock := s.clock + lasted, countdown, calls := s.calls ++ [⟨s.clock, status⟩] }
        (.started s.clock status)
  | startMotor (call : Nat) (c : StartCall) (waits : s.calls[call]? = some c) :
      Moved s (.startMotor call) { s with motor := .start, calls := s.calls.eraseIdx call }
        (.motorStarted c.status)
  | tick (idle : s.phase = .idle) :
      Moved s .tick { s with phase := .ticked s.clock } (.ticked s.clock)
  | startChaos (now deadline : Nat) (ticked : s.phase = .ticked now)
      (runs : s.countdown.deadline = some deadline) (expired : deadline ≤ now) :
      Moved s .choose
        { s with
          countdown := { s.countdown with
            deadline := none, chaosDeadline := some (now + fromSecs chaosSeconds) }
          phase := .decided now (.startChaos s.countdown.game) }
        (.chosen now (.startChaos s.countdown.game))
  | finishChaos (now deadline : Nat) (ticked : s.phase = .ticked now)
      (unexpired : Unexpired s.countdown.deadline now)
      (chaos : s.countdown.chaosDeadline = some deadline) (expired : deadline ≤ now) :
      Moved s .choose
        { s with
          countdown := { s.countdown with chaosDeadline := none }
          phase := .decided now (.finishChaos s.countdown.game) }
        (.chosen now (.finishChaos s.countdown.game))
  | changeMotor (now deadline : Nat) (ticked : s.phase = .ticked now)
      (unexpired : Unexpired s.countdown.deadline now)
      (chaos : s.countdown.chaosDeadline = some deadline) (going : now < deadline)
      (due : s.nextMotorChange ≤ now) :
      Moved s .choose { s with phase := .decided now .changeMotor } (.chosen now .changeMotor)
  | noUpdate (now : Nat) (ticked : s.phase = .ticked now)
      (unexpired : Unexpired s.countdown.deadline now)
      (unfinished : Unexpired s.countdown.chaosDeadline now) :
      Moved s .choose { s with phase := .idle } (.chosen now .none)
  | performRandom (now interval : Nat) (update : Update) (rng : Rng)
      (decided : s.phase = .decided now update) (random : update.IsRandom)
      (drawn : interval = (nextChaosInterval (randomMotorAction s.rng).2).1) :
      Moved s .perform
        { s with motor := (randomMotorAction s.rng).1, rng,
                 nextMotorChange := now + interval, phase := .idle }
        (.performed update (randomMotorAction s.rng).1)
  | performFinish (now game : Nat) (decided : s.phase = .decided now (.finishChaos game)) :
      Moved s .perform { s with motor := .stop, phase := .idle }
        (.performed (.finishChaos game) .stop)
  | performNone (now : Nat) (decided : s.phase = .decided now .none) :
      Moved s .perform { s with phase := .idle } (.performed .none s.motor)
  | setMotor (action : String) (new : MotorAction) (parsed : parseAction action = some new) :
      Moved s (.setMotor action) { s with motor := new }
        (.requested (some new) (.ok (toString new.asNum)))
  | refuseMotor (action : String) (parsed : parseAction action = none) :
      Moved s (.setMotor action) s
        (.requested none (.badRequest "unknown motor action (use start|stop)"))
  | currentCountdown :
      Moved s .currentCountdown s (.reported (countdownStatus s.countdown s.clock))
  | apiMotor : Moved s .apiMotor s (.served (.ok (toString s.motor.asNum)))

/-- A start that does not panic: the deadline is a game's length ahead of the first clock reading,
and the status is that of the new countdown at the second. -/
theorem startGame_spec {now later : Nat} {countdown c : Countdown} {status : CountdownStatus}
    (h : Server.startGame now later countdown = (c, some status)) :
    c = { countdown with
      deadline := some (now + fromSecs countdown.durationSeconds)
      chaosDeadline := none
      game := Arith.saturatingAdd 64 countdown.game 1 } ∧ status = countdownStatus c later := by
  rw [Server.startGame] at h
  dsimp only at h
  split at h
  · cases h
  next deadline added =>
    cases h
    exact ⟨by rw [after_eq_some added], rfl⟩

/-- What the countdown thread's section can choose. The deadlines are asked in the order of the
source, so each case excludes those before it. -/
theorem chooseUpdate_spec {now next : Nat} {countdown c : Countdown} {update : Update}
    (h : chooseUpdate now next countdown = (c, some update)) :
    (∃ d, countdown.deadline = some d ∧ d ≤ now ∧ update = .startChaos countdown.game ∧
        c = { countdown with
          deadline := none, chaosDeadline := some (now + fromSecs chaosSeconds) }) ∨
      Unexpired countdown.deadline now ∧
        ((∃ d, countdown.chaosDeadline = some d ∧ d ≤ now ∧
            update = .finishChaos countdown.game ∧ c = { countdown with chaosDeadline := none }) ∨
          (∃ d, countdown.chaosDeadline = some d ∧ now < d ∧ next ≤ now ∧
            update = .changeMotor ∧ c = countdown) ∨
          (Unexpired countdown.chaosDeadline now ∧ update = .none ∧ c = countdown)) := by
  have unexpired : ∀ {o : Option Nat}, ¬(o.any fun d => decide (d ≤ now)) = true →
      Unexpired o now := by
    rintro o h d rfl
    simpa using h
  rw [chooseUpdate] at h
  split at h
  next expired =>
    obtain ⟨d, hd, hle⟩ := (Option.any_eq_true _ _).mp expired
    refine Or.inl ⟨d, hd, of_decide_eq_true hle, ?_⟩
    split at h
    · cases h
    next deadline added =>
      cases h
      exact ⟨rfl, by rw [after_eq_some added]⟩
  next running =>
    refine Or.inr ⟨unexpired running, ?_⟩
    split at h
    next expired =>
      obtain ⟨d, hd, hle⟩ := (Option.any_eq_true _ _).mp expired
      cases h
      exact Or.inl ⟨d, hd, of_decide_eq_true hle, rfl, rfl⟩
    next going =>
      split at h
      next due =>
        obtain ⟨d, hd⟩ := Option.isSome_iff_exists.mp due.1
        cases h
        exact Or.inr (Or.inl ⟨d, hd, unexpired going d hd, due.2, rfl, rfl⟩)
      · cases h
        exact Or.inr (Or.inr ⟨unexpired going, rfl, rfl⟩)

/-- **Each step is one of the moves.** This is the inversion of `step`, and the only place where its
branches are gone through. -/
theorem step_moved {s s' : System} {e : Event} {o : Obs} (h : s.step e = some (s', o)) :
    Moved s e s' o := by
  cases e with
  | advance elapsed => cases h; exact .advance elapsed
  | startGame lasted =>
    simp only [step] at h
    split at h
    · cases h
    next countdown status opened =>
      cases h
      obtain ⟨rfl, rfl⟩ := startGame_spec opened
      exact .startGame lasted _ _ rfl rfl
  | startMotor call =>
    rw [step] at h
    split at h
    · cases h
    next c waits =>
      cases h
      exact .startMotor call c waits
  | tick =>
    rw [step] at h
    split at h
    next idle => cases h; exact .tick idle
    · cases h
  | choose =>
    rw [step] at h
    split at h
    next now ticked =>
      cases hc : chooseUpdate now s.nextMotorChange s.countdown with
      | mk countdown result =>
        cases result with
        | none => rw [hc] at h; cases h
        | some update =>
          rw [hc] at h
          obtain ⟨d, runs, expired, rfl, rfl⟩ | ⟨unexpired, rest⟩ := chooseUpdate_spec hc
          · cases h
            exact .startChaos now d ticked runs expired
          · obtain ⟨d, chaos, expired, rfl, rfl⟩ | ⟨d, chaos, going, due, rfl, rfl⟩ |
              ⟨unfinished, rfl, rfl⟩ := rest
            · cases h
              exact .finishChaos now d ticked unexpired chaos expired
            · cases h
              exact .changeMotor now d ticked unexpired chaos going due
            · cases h
              exact .noUpdate now ticked unexpired unfinished
    · cases h
  | perform =>
    rw [step] at h
    split at h
    next now update decided =>
      obtain ⟨⟨motor, rng, next⟩, performed, heq⟩ := Option.map_eq_some_iff.mp h
      cases heq
      cases update with
      | none => cases performed; exact .performNone now decided
      | finishChaos game => cases performed; exact .performFinish now game decided
      | startChaos game =>
        obtain ⟨next', added, heq⟩ := Option.map_eq_some_iff.mp performed
        cases heq
        rw [after_eq_some added]
        exact .performRandom now _ _ _ decided trivial rfl
      | changeMotor =>
        obtain ⟨next', added, heq⟩ := Option.map_eq_some_iff.mp performed
        cases heq
        rw [after_eq_some added]
        exact .performRandom now _ _ _ decided trivial rfl
    · cases h
  | setMotor action =>
    rw [step] at h
    split at h
    next new parsed => cases h; exact .setMotor action new parsed
    next parsed => cases h; exact .refuseMotor action parsed
  | currentCountdown => cases h; exact .currentCountdown
  | apiMotor => cases h; exact .apiMotor

end System

end Motorball.Server
