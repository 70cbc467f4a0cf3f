import Motorball.Server.Lifecycle

/-!
# The motor, between the games and the countdown thread

Two laws of the motor over every interleaving.

A running game should have its motor started. `running_motor_iff` says when it has: a running game
finds it stopped exactly when the countdown thread performs a Stop that it decided before the game
was started, after the start had written the motor (`LateStop`).

A motor should be stopped once the chaos phase is over. `stopped_after_chaos` says that it is, as
long as each `start_game` call writes the motor within the length of a chaos phase.
-/

namespace Motorball.Server.System

open Transducer

variable {es : List Event} {os : List Obs} {s s' : System} {e : Event} {o : Obs}
  {parsed : Option UInt64} {clock : Nat} {seed : UInt64}

/-- No `start_game` call and no iteration of the countdown thread is between its two sections. In
between, the motor may well lag behind the countdown. -/
def Quiescent (s : System) : Prop := s.calls = [] ∧ s.phase.pending = none

/-! ## A running game -/

/-- A running game has its motor started, wherever no section is outstanding. -/
def MotorRuns (s : System) : Prop :=
  Quiescent s → s.countdown.deadline.isSome → s.motor = .start

/-- Performing the update with this generator writes Stop: the end of a chaos phase always does, a
random change if the draw is even. -/
def WritesStop (rng : Rng) : Update → Prop
  | .startChaos _ | .changeMotor => (randomMotorAction rng).1 = .stop
  | .finishChaos _ => True
  | .none => False

instance (rng : Rng) (update : Update) : Decidable (WritesStop rng update) :=
  match update with
  | .startChaos _ | .changeMotor =>
    inferInstanceAs (Decidable ((randomMotorAction rng).1 = .stop))
  | .finishChaos _ => isTrue trivial
  | .none => isFalse id

/-- The countdown thread writes Stop while a game runs and no start is left to write Start. It had
decided to before that game, and does not look at the number in its update. -/
def LateStop (s : System) (e : Event) : Prop :=
  e = .perform ∧ s.calls = [] ∧ s.countdown.deadline.isSome ∧
    ∃ update ∈ s.phase.pending, WritesStop s.rng update

instance (s : System) (e : Event) : Decidable (LateStop s e) :=
  inferInstanceAs (Decidable (e = .perform ∧ s.calls = [] ∧ s.countdown.deadline.isSome ∧
    ∃ update ∈ s.phase.pending, WritesStop s.rng update))

/-- Outside a late Stop and a motor request, a running game keeps its motor started once every start
has written it. This is stronger than `MotorRuns`, which asks nothing while an update is pending,
and so it can be carried through a run. -/
theorem started_step (h : s.countdown.deadline.isSome → s.calls = [] → s.motor = .start)
    (unrequested : ∀ action, e ≠ .setMotor action) (timely : ¬LateStop s e)
    (moved : Moved s e s' o) :
    s'.countdown.deadline.isSome → s'.calls = [] → s'.motor = .start := by
  cases moved with
  | startGame =>
    intro _ hcalls
    exact absurd hcalls (by simp)
  | startMotor =>
    intro _ _
    rfl
  | startChaos =>
    intro hsome
    cases hsome
  | performRandom now interval update rng decided random drawn =>
    intro hsome hcalls
    by_contra stopped
    have stop : (randomMotorAction s.rng).1 = .stop := by
      cases hm : (randomMotorAction s.rng).1 with
      | stop => rfl
      | start => exact absurd hm stopped
    refine timely ⟨rfl, hcalls, hsome, update, by rw [decided]; rfl, ?_⟩
    cases update with
    | startChaos | changeMotor => exact stop
    | finishChaos | none => exact random.elim
  | performFinish now game decided =>
    intro hsome hcalls
    exact absurd ⟨rfl, hcalls, hsome, .finishChaos game, by rw [decided]; rfl, trivial⟩ timely
  | setMotor action => exact absurd rfl (unrequested action)
  | refuseMotor action => exact absurd rfl (unrequested action)
  | advance | tick | finishChaos | changeMotor | noUpdate | performNone | currentCountdown
  | apiMotor => exact h

/-- A late Stop leaves a running game without its motor, and with no section left that would start
it. -/
theorem late_stop_stops (late : LateStop s e) (moved : Moved s e s' o) : ¬MotorRuns s' := by
  obtain ⟨rfl, hcalls, hsome, update, hpending, stops⟩ := late
  intro runs
  cases moved with
  | performRandom now interval update' rng decided random drawn =>
    rw [decided] at hpending
    cases hpending
    have started := runs ⟨hcalls, rfl⟩ hsome
    cases update with
    | startChaos | changeMotor => exact nomatch stops.symm.trans started
    | finishChaos | none => exact random
  | performFinish now game decided => exact nomatch runs ⟨hcalls, rfl⟩ hsome
  | performNone now decided =>
    rw [decided] at hpending
    cases hpending
    exact stops

/-- **When a running game has its motor.** In a run without motor requests, every state in which no
section is outstanding and a game runs has the motor started, exactly when no step of the run is a
late Stop. With motor requests there is nothing to say: one may stop the motor at any time. -/
theorem running_motor_iff (runs : Runs step (start parsed clock seed) es os s)
    (unrequested : ∀ action, .setMotor action ∉ es) :
    Always step (start parsed clock seed) es MotorRuns ↔
      EachStep step (start parsed clock seed) es fun s e => ¬LateStop s e := by
  constructor
  · rintro always before e after ps t rfl first late
    obtain ⟨t', o, moved, whole⟩ := runs.step_at first
    exact late_stop_stops late (step_moved moved)
      (always (before ++ [e]) after _ t' (by rw [List.append_assoc]; rfl) whole)
  · rintro timely before after ps t rfl first quiescent hsome
    have meets : EachStep step (start parsed clock seed) before
        fun s e => ¬LateStop s e ∧ ∀ action, e ≠ .setMotor action := by
      intro b e a ps' u heq hu
      refine ⟨timely.of_append b e a ps' u heq hu, ?_⟩
      rintro action rfl
      exact unrequested action (by rw [← heq]; simp)
    exact meets.invariant
      (P := fun s => s.countdown.deadline.isSome → s.calls = [] → s.motor = .start) first
      (fun hsome => nomatch hsome)
      (fun _ _ _ _ h hq hstep => started_step h hq.2 hq.1 (step_moved hstep)) hsome quiescent.1

/-- A game played to its end has no late Stop. -/
theorem running_motor_one_game :
    Always step (start (some 1) 0 1) oneGame MotorRuns := by
  obtain ⟨os, s, runs, -⟩ := runs_of_run
    (by decide +kernel : (run step (start (some 1) 0 1) oneGame).map (fun _ => ()) = some ())
  exact (running_motor_iff runs (by simp [oneGame])).mpr (by decide +kernel)

/-- The countdown thread decides to finish the chaos phase of a game, the next game is started, and
the thread writes its Stop. -/
def lateFinish : List Event :=
  [.startGame 0, .startMotor 0, .advance (fromSecs 1), .tick, .choose, .perform,
    .advance (fromSecs 10), .tick, .choose, .startGame 0, .startMotor 0, .perform]

/-- The second game runs with its motor stopped. -/
theorem late_finish_stops_next_game :
    ∃ os s, Runs step (start (some 1) 0 1) lateFinish os s ∧
      (∀ action, .setMotor action ∉ lateFinish) ∧ Quiescent s ∧
      s.countdown.deadline = some (fromSecs 12) ∧ s.countdown.game = 2 ∧ s.motor = .stop := by
  have played : (run step (start (some 1) 0 1) lateFinish).map
      (fun p => (p.1.calls, p.1.phase.pending, p.1.countdown, p.1.motor)) =
      some ([], none, ⟨1, some (fromSecs 12), none, 2⟩, .stop) := by decide +kernel
  obtain ⟨os, s, runs, heq⟩ := runs_of_run played
  obtain ⟨hcalls, hpending, hcountdown, hmotor⟩ := by simpa only [Prod.mk.injEq] using heq
  refine ⟨os, s, runs, by simp [lateFinish], ⟨hcalls, hpending⟩, ?_, ?_, hmotor⟩
  · rw [hcountdown]
  · rw [hcountdown]

/-! ## After the chaos phase -/

/-- Neither a game nor a chaos phase is on. The countdown thread may still have its last update to
perform. -/
def Over (c : Countdown) : Prop := c.deadline = none ∧ c.chaosDeadline = none

instance (c : Countdown) : Decidable (Over c) :=
  inferInstanceAs (Decidable (c.deadline = none ∧ c.chaosDeadline = none))

/-- Whether a request has started the motor since the last end of a chaos phase, one observation
later. The Stop at that end takes back what was requested before. -/
def notePosted : Bool → Obs → Bool
  | _, .performed (.finishChaos _) _ => false
  | _, .requested (some .start) _ => true
  | posted, _ => posted

/-- A request has started the motor since the last end of a chaos phase, or since startup. -/
def postedStart (os : List Obs) : Bool := os.foldl notePosted false

/-- The requests, one observation later. -/
theorem postedStart_snoc (os : List Obs) (o : Obs) :
    postedStart (os ++ [o]) = notePosted (postedStart os) o := List.foldl_concat ..

/-- A `start_game` call writes the motor less than a chaos phase after it has set the deadline. A
slower one would start the motor after its own game had ended. -/
def Prompt (s : System) : Event → Prop
  | .startMotor call => ∀ c ∈ s.calls[call]?, s.clock < c.since + fromSecs chaosSeconds
  | _ => True

instance (s : System) (e : Event) : Decidable (Prompt s e) :=
  match e with
  | .startMotor call => inferInstanceAs
      (Decidable (∀ c ∈ s.calls[call]?, s.clock < c.since + fromSecs chaosSeconds))
  | .advance _ | .startGame _ | .tick | .choose | .perform | .setMotor _ | .currentCountdown
  | .apiMotor => isTrue trivial

/-- A pending call began no later than the game's deadline, and a chaos phase before the end of the
present or the last one. So a prompt call writes the motor before that end. -/
structure InTime (clock : Nat) (countdown : Countdown) (c : StartCall) : Prop where
  begun : c.since ≤ clock
  running : ∀ d, countdown.deadline = some d → c.since ≤ d
  chaotic : ∀ d, countdown.chaosDeadline = some d → c.since + fromSecs chaosSeconds ≤ d
  ended : Over countdown → c.since + fromSecs chaosSeconds ≤ clock

/-- Time does not put a pending call out of time. -/
theorem InTime.later {countdown : Countdown} {c : StartCall} (h : InTime clock countdown c)
    {clock' : Nat} (later : clock ≤ clock') : InTime clock' countdown c where
  begun := Nat.le_trans h.begun later
  running := h.running
  chaotic := h.chaotic
  ended ho := Nat.le_trans (h.ended ho) later

/-- A new game is ahead of every call, the call that starts it included. -/
theorem InTime.startGame {c : StartCall} (begun : c.since ≤ clock) {countdown : Countdown}
    {d : Nat} (deadline : countdown.deadline = some d) (ahead : c.since ≤ d)
    (chaos : countdown.chaosDeadline = none) : InTime clock countdown c where
  begun := begun
  running d' hd := by
    cases deadline.symm.trans hd
    exact ahead
  chaotic _ hd := nomatch chaos.symm.trans hd
  ended ho := nomatch ho.1.symm.trans deadline

theorem InTime.startChaos {countdown : Countdown} {c : StartCall} (h : InTime clock countdown c)
    {now d : Nat} (runs : countdown.deadline = some d) (expired : d ≤ now) :
    InTime clock { countdown with
      deadline := none, chaosDeadline := some (now + fromSecs chaosSeconds) } c where
  begun := h.begun
  running _ hd := nomatch hd
  chaotic d' hd := by
    cases hd
    exact Nat.add_le_add_right (Nat.le_trans (h.running d runs) expired) _
  ended ho := nomatch ho.2

theorem InTime.finishChaos {countdown : Countdown} {c : StartCall} (h : InTime clock countdown c)
    {d : Nat} (chaos : countdown.chaosDeadline = some d) (expired : d ≤ clock) :
    InTime clock { countdown with chaosDeadline := none } c where
  begun := h.begun
  running := h.running
  chaotic _ hd := nomatch hd
  ended _ := Nat.le_trans (h.chaotic d chaos) expired

/-- The invariant of the motor after the chaos phase. -/
structure Settled (os : List Obs) (s : System) : Prop where
  calls : ∀ c ∈ s.calls, InTime s.clock s.countdown c
  /-- Only the end of a chaos phase can be waiting when none is on. -/
  pending : Over s.countdown → ∀ update ∈ s.phase.pending, ∃ game, update = .finishChaos game
  stopped : Over s.countdown → s.phase.pending = none → postedStart os = false →
    s.motor = .stop

theorem Settled.start (parsed : Option UInt64) (clock : Nat) (seed : UInt64) :
    Settled [] (start parsed clock seed) where
  calls _ h := nomatch h
  pending _ _ h := nomatch h
  stopped _ _ _ := rfl

/-- A move that leaves the countdown, the calls and the thread's update alone, and the motor too
unless it is started by hand. -/
theorem Settled.quiet (h : Settled os s) (clock : s.clock ≤ s'.clock)
    (countdown : s'.countdown = s.countdown) (calls : s'.calls = s.calls)
    (pending : s'.phase.pending = s.phase.pending)
    (motor : postedStart (os ++ [o]) = false →
      s'.motor = .stop ∨ postedStart os = false ∧ s'.motor = s.motor) :
    Settled (os ++ [o]) s' := by
  refine ⟨?_, ?_, ?_⟩
  · rw [calls, countdown]
    intro c hc
    exact (h.calls c hc).later clock
  · rw [countdown, pending]
    exact h.pending
  · rw [countdown, pending]
    intro ended hpending unposted
    rcases motor unposted with stopped | ⟨unposted', same⟩
    · exact stopped
    · rw [same]
      exact h.stopped ended hpending unposted'

theorem Settled.step (h : Settled os s) (ticks : ∀ now, s.phase = .ticked now → now ≤ s.clock)
    (prompt : Prompt s e) (moved : Moved s e s' o) : Settled (os ++ [o]) s' := by
  cases moved with
  | advance elapsed =>
    refine h.quiet (Nat.le_add_right _ _) rfl rfl rfl fun unposted => Or.inr ⟨?_, rfl⟩
    rwa [postedStart_snoc] at unposted
  | refuseMotor | currentCountdown | apiMotor =>
    refine h.quiet (Nat.le_refl _) rfl rfl rfl fun unposted => Or.inr ⟨?_, rfl⟩
    rwa [postedStart_snoc] at unposted
  | setMotor action new parsed =>
    refine h.quiet (Nat.le_refl _) rfl rfl rfl fun unposted => Or.inl ?_
    rw [postedStart_snoc] at unposted
    cases new with
    | start => cases unposted
    | stop => rfl
  | tick idle =>
    refine h.quiet (Nat.le_refl _) rfl rfl (by rw [idle]; rfl) fun unposted => Or.inr ⟨?_, rfl⟩
    rwa [postedStart_snoc] at unposted
  | noUpdate now ticked unexpired unfinished =>
    refine h.quiet (Nat.le_refl _) rfl rfl (by rw [ticked]; rfl) fun unposted => Or.inr ⟨?_, rfl⟩
    rwa [postedStart_snoc] at unposted
  | startGame lasted status countdown opened shown =>
    have running : ¬Over countdown := by
      rw [opened]
      intro ho
      cases ho.1
    refine ⟨?_, fun ho => absurd ho running, fun ho => absurd ho running⟩
    intro c hc
    have begun : c.since ≤ s.clock := by
      rcases List.mem_append.mp hc with old | new
      · exact (h.calls c old).begun
      · rw [List.mem_singleton.mp new]
    rw [opened]
    exact InTime.startGame (Nat.le_trans begun (Nat.le_add_right _ _)) rfl
      (Nat.le_trans begun (Nat.le_add_right _ _)) rfl
  | startMotor call c waits =>
    refine ⟨?_, h.pending, ?_⟩
    · intro c' hc
      exact h.calls c' (List.mem_of_mem_eraseIdx hc)
    · intro ended
      have late := (h.calls c (List.mem_of_getElem? waits)).ended ended
      exact absurd (prompt c waits) (Nat.not_lt_of_le late)
  | startChaos now d ticked runs expired =>
    refine ⟨?_, fun ho => (nomatch ho.2), fun ho => (nomatch ho.2)⟩
    intro c hc
    exact (h.calls c hc).startChaos runs expired
  | finishChaos now d ticked unexpired chaos expired =>
    refine ⟨?_, fun _ update hu => ?_, fun _ hnone => nomatch hnone⟩
    · intro c hc
      exact (h.calls c hc).finishChaos chaos (Nat.le_trans expired (ticks now ticked))
    · cases hu
      exact ⟨_, rfl⟩
  | changeMotor now d ticked unexpired chaos going due =>
    have on : ¬Over s.countdown := fun ho => nomatch ho.2.symm.trans chaos
    exact ⟨h.calls, fun ho => absurd ho on, fun ho => absurd ho on⟩
  | performRandom now interval update rng decided random drawn =>
    have on : ¬Over s.countdown := by
      intro ho
      obtain ⟨game, rfl⟩ := h.pending ho update (by rw [decided]; rfl)
      exact random
    exact ⟨h.calls, fun ho => absurd ho on, fun ho => absurd ho on⟩
  | performFinish now game decided =>
    exact ⟨h.calls, fun _ _ hu => (nomatch hu), fun _ _ _ => rfl⟩
  | performNone now decided =>
    have on : ¬Over s.countdown := by
      intro ho
      obtain ⟨game, hgame⟩ := h.pending ho .none (by rw [decided]; rfl)
      exact nomatch hgame
    exact ⟨h.calls, fun ho => absurd ho on, fun ho => absurd ho on⟩

theorem settled_of_runs (runs : Runs step (start parsed clock seed) es os s)
    (prompt : EachStep step (start parsed clock seed) es Prompt) : Settled os s := by
  induction runs with
  | nil => exact Settled.start parsed clock seed
  | snoc before last ih =>
    exact (ih prompt.of_append).step (paced_of_runs before).ticked (prompt.last before)
      (step_moved last)

/-- **The motor is stopped when the chaos phase ends.** In a run whose `start_game` calls write the
motor within ten seconds, a state in which neither a game nor a chaos phase is on, and the countdown
thread has nothing left to perform, has the motor stopped, unless a request has started it since the
last end of a chaos phase. Without the bound on the calls one that has waited through its whole game
would start the motor after the end. -/
theorem stopped_after_chaos (runs : Runs step (start parsed clock seed) es os s)
    (prompt : EachStep step (start parsed clock seed) es Prompt)
    (ended : s.countdown.deadline = none ∧ s.countdown.chaosDeadline = none)
    (performed : s.phase.pending = none) : s.motor = .stop ∨ postedStart os = true := by
  cases posted : postedStart os with
  | false => exact Or.inl ((settled_of_runs runs prompt).stopped ended performed posted)
  | true => exact Or.inr rfl

/-- At the end of a whole game and its chaos phase nothing is on and the motor rests. -/
theorem stopped_after_one_game :
    ∃ os s, Runs step (start (some 1) 0 1) oneGame os s ∧ Over s.countdown ∧
      (s.motor = .stop ∨ postedStart os = true) := by
  have played : (run step (start (some 1) 0 1) oneGame).map
      (fun p => (p.1.countdown.deadline, p.1.countdown.chaosDeadline, p.1.phase.pending)) =
      some (none, none, none) := by decide +kernel
  obtain ⟨os, s, runs, heq⟩ := runs_of_run played
  obtain ⟨hdeadline, hchaos, hpending⟩ := by simpa only [Prod.mk.injEq] using heq
  exact ⟨os, s, runs, ⟨hdeadline, hchaos⟩,
    stopped_after_chaos runs (by decide +kernel) ⟨hdeadline, hchaos⟩ hpending⟩

end Motorball.Server.System
