import Motorball.Server.MotorLaws
import Motorball.Server.StatusLaws
import Mathlib.Data.List.Infix

/-!
# The schedule of a game

The countdown thread sleeps between its turns, and nothing in the program says for how long it may
be kept waiting. This module says what the server keeps to when the clock is known to stay within
some `period` of the thread's last clock reading (`Punctual`): a bound on the environment, the one
thing that is assumed of it.

`OnSchedule` is the invariant. The deadlines of the countdown are those of the game started last, up
to a period for the chaos phase, and the thread's last turn is never a period past a deadline that
it has not acted on. From it come the state that is reported at each time (`keeps_schedule`) and the
time from which the motor rests (`comes_to_rest`).
-/

namespace Motorball.Server.System

open Transducer

/-! ## How long the thread has waited -/

/-- The time since the countdown thread last read the clock, one event later. A `start_game` section
takes time too. -/
def noteWait (waited : Nat) : Event → Nat
  | .advance elapsed => waited + elapsed
  | .startGame lasted => waited + lasted
  | .tick => 0
  | _ => waited

/-- The time since the countdown thread last read the clock, or since startup. -/
def sinceTick (es : List Event) : Nat := es.foldl noteWait 0

/-- The countdown thread never waits longer than `period` for its next turn. Its sleep of a tenth of
a second is no bound on that: the thread may be kept from a lock or from a processor. -/
def Punctual (period : Nat) (es : List Event) : Prop :=
  ∀ before, before <+: es → sinceTick before ≤ period

instance (period : Nat) (es : List Event) : Decidable (Punctual period es) :=
  decidable_of_iff (∀ before ∈ es.inits, sinceTick before ≤ period) (by
    simp only [Punctual, List.mem_inits])

/-- The wait, one event later. -/
theorem sinceTick_snoc (es : List Event) (e : Event) :
    sinceTick (es ++ [e]) = noteWait (sinceTick es) e := List.foldl_concat ..

/-- A run is punctual all along, so its beginnings are. -/
theorem Punctual.of_append {period : Nat} {es es' : List Event} (h : Punctual period (es ++ es')) :
    Punctual period es :=
  fun before initial => h before (initial.trans (List.prefix_append _ _))

variable {es : List Event} {os : List Obs} {s s' : System} {e : Event} {o : Obs}
  {parsed : Option UInt64} {clock period turn turn' length : Nat} {seed : UInt64}

/-! ## The invariant -/

/-- The game started last: when. All deadlines are counted from there. -/
def lastStart (os : List Obs) : Option Nat := (starts os).getLast?.map Prod.fst

/-- The clock reading the thread works with is `turn`. -/
def TurnOf (turn : Nat) : Phase → Prop
  | .idle => True
  | .ticked now | .decided now _ => now = turn

/-- The thread has nothing to do at `turn` for a deadline: that is still ahead, or has passed within
the last period and the thread is about to see it. -/
structure Ahead (period turn : Nat) (phase : Phase) (deadline : Nat) : Prop where
  near : turn < deadline + period
  seen : (∀ now, phase ≠ .ticked now) → turn < deadline

/-- The invariant of a punctual server whose games last `length`, after the thread's turn of the
clock reading `turn`. -/
structure OnSchedule (period length : Nat) (os : List Obs) (turn : Nat) (s : System) : Prop where
  past : turn ≤ s.clock
  phase : TurnOf turn s.phase
  kept : length = fromSecs s.countdown.durationSeconds
  numbered : ∀ opened, lastStart os = some opened → 0 < s.countdown.game
  running : ∀ d, s.countdown.deadline = some d →
    (∃ opened, lastStart os = some opened ∧ d = opened + length) ∧ Ahead period turn s.phase d
  chaotic : ∀ c, s.countdown.chaosDeadline = some c →
    (∃ opened began, lastStart os = some opened ∧ c = began + fromSecs chaosSeconds ∧
      opened + length ≤ began ∧ began < opened + length + period ∧ began ≤ turn) ∧
      Ahead period turn s.phase c
  finished : Over s.countdown → ∀ opened, lastStart os = some opened →
    opened + length + fromSecs chaosSeconds ≤ turn ∧
      (s.phase.pending ≠ none →
        turn < opened + length + fromSecs chaosSeconds + 2 * period)
  unplayed : lastStart os = none → Over s.countdown ∧ s.phase.pending = none

/-- At startup no game has been started, and the thread's last turn counts as having been then. -/
theorem OnSchedule.start (parsed : Option UInt64) (clock : Nat) (seed : UInt64) :
    OnSchedule period (fromSecs (gameSeconds parsed)) [] clock (start parsed clock seed) where
  past := Nat.le_refl _
  phase := trivial
  kept := rfl
  numbered _ h := nomatch h
  running _ h := nomatch h
  chaotic _ h := nomatch h
  finished _ _ h := nomatch h
  unplayed _ := ⟨⟨rfl, rfl⟩, rfl⟩

/-- Only a start changes which game was started last. -/
theorem lastStart_snoc (quiet : startOf o = none) : lastStart (os ++ [o]) = lastStart os := by
  rw [lastStart, starts, filterMap_snoc_none quiet]
  rfl

/-- A move that leaves the countdown alone, and the thread where it was in its turn. The clock may
go on. -/
theorem OnSchedule.quiet (h : OnSchedule period length os turn s) (quiet : startOf o = none)
    (clock : s.clock ≤ s'.clock) (countdown : s'.countdown = s.countdown)
    (phase : s'.phase = s.phase) : OnSchedule period length (os ++ [o]) turn s' := by
  refine ⟨Nat.le_trans h.past clock, by rw [phase]; exact h.phase, by rw [countdown]; exact h.kept,
    ?_, ?_, ?_, ?_, ?_⟩ <;> rw [lastStart_snoc quiet]
  · rw [countdown]
    exact h.numbered
  · rw [countdown, phase]
    exact h.running
  · rw [countdown, phase]
    exact h.chaotic
  · rw [countdown, phase]
    exact h.finished
  · rw [countdown, phase]
    exact h.unplayed

/-- A move that ends a turn of the thread without touching the countdown, which it may do when both
deadlines are ahead. -/
theorem OnSchedule.settle (h : OnSchedule period length os turn s) (quiet : startOf o = none)
    (clock : s'.clock = s.clock) (countdown : s'.countdown = s.countdown)
    (phase : s'.phase = .idle)
    (running : ∀ d, s.countdown.deadline = some d → turn < d)
    (chaotic : ∀ c, s.countdown.chaosDeadline = some c → turn < c) :
    OnSchedule period length (os ++ [o]) turn s' := by
  refine ⟨by rw [clock]; exact h.past, by rw [phase]; trivial, by rw [countdown]; exact h.kept,
    ?_, ?_, ?_, ?_, ?_⟩ <;> rw [lastStart_snoc quiet]
  · rw [countdown]
    exact h.numbered
  · rw [countdown]
    intro d hd
    exact ⟨(h.running d hd).1, (h.running d hd).2.near, fun _ => running d hd⟩
  · rw [countdown]
    intro c hc
    exact ⟨(h.chaotic c hc).1, (h.chaotic c hc).2.near, fun _ => chaotic c hc⟩
  · rw [countdown, phase]
    intro ended opened last
    exact ⟨(h.finished ended opened last).1, fun pending => absurd rfl pending⟩
  · rw [countdown, phase]
    intro unplayed
    exact ⟨(h.unplayed unplayed).1, rfl⟩

/-- The end of a turn that had something to perform. The deadlines were seen to when it was
decided. -/
theorem OnSchedule.performed (h : OnSchedule period length os turn s) {now : Nat} {update : Update}
    (decided : s.phase = .decided now update) (quiet : startOf o = none)
    (clock : s'.clock = s.clock) (countdown : s'.countdown = s.countdown)
    (phase : s'.phase = .idle) : OnSchedule period length (os ++ [o]) turn s' := by
  have acted : ∀ now, s.phase ≠ .ticked now := fun _ ticked => nomatch decided.symm.trans ticked
  exact h.settle quiet clock countdown phase (fun d hd => (h.running d hd).2.seen acted)
    fun c hc => (h.chaotic c hc).2.seen acted

/-- A new game, whose length is not zero: its deadline is then ahead of any turn of the thread so
far. -/
theorem OnSchedule.startGame (h : OnSchedule period length os turn s) (positive : 0 < length)
    {countdown : Countdown} {calls : List StartCall} {status : CountdownStatus} (lasted : Nat)
    (opened : countdown = { s.countdown with
      deadline := some (s.clock + fromSecs s.countdown.durationSeconds)
      chaosDeadline := none
      game := Arith.saturatingAdd 64 s.countdown.game 1 }) :
    OnSchedule period length (os ++ [.started s.clock status]) turn
      { s with clock := s.clock + lasted, countdown, calls } := by
  have last : lastStart (os ++ [.started s.clock status]) = some s.clock := by
    rw [lastStart, starts_snoc, startOf, Option.toList_some, List.getLast?_concat]
    rfl
  have past := h.past
  have kept := h.kept
  refine ⟨Nat.le_add_right_of_le past, h.phase, by rw [opened]; exact kept, ?_, ?_, ?_, ?_, ?_⟩
  · intro _ _
    rw [opened]
    exact Nat.lt_min.mpr ⟨Nat.succ_pos _, by decide⟩
  · intro d hd
    rw [opened] at hd
    cases hd
    rw [← kept]
    exact ⟨⟨s.clock, last, rfl⟩, by omega, fun _ => by omega⟩
  · intro c hc
    rw [opened] at hc
    cases hc
  · intro ended
    rw [opened] at ended
    cases ended.1
  · intro unplayed
    rw [last] at unplayed
    cases unplayed

/-- The thread reads the clock, at most a period after its last turn. A deadline that has passed has
done so since then, and so by less than a period. -/
theorem OnSchedule.tick (h : OnSchedule period length os turn s)
    (late : s.clock ≤ turn + period) (idle : s.phase = .idle) :
    OnSchedule period length (os ++ [.ticked s.clock]) s.clock
      { s with phase := .ticked s.clock } := by
  have past := h.past
  have resting : ∀ now, s.phase ≠ .ticked now := fun now ticked => nomatch idle.symm.trans ticked
  refine ⟨Nat.le_refl _, rfl, h.kept, ?_, ?_, ?_, ?_, ?_⟩ <;> rw [lastStart_snoc rfl]
  · exact h.numbered
  · intro d hd
    have seen := (h.running d hd).2.seen resting
    exact ⟨(h.running d hd).1, by omega, fun ticked => absurd rfl (ticked _)⟩
  · intro c hc
    obtain ⟨⟨opened, began, last, rfl, after, within, begun⟩, ahead⟩ := h.chaotic c hc
    have seen := ahead.seen resting
    exact ⟨⟨opened, began, last, rfl, after, within, by omega⟩, by omega,
      fun ticked => absurd rfl (ticked _)⟩
  · intro ended opened last
    have ended := (h.finished ended opened last).1
    exact ⟨by omega, fun pending => absurd rfl pending⟩
  · intro unplayed
    exact ⟨(h.unplayed unplayed).1, rfl⟩

/-- The thread finds the game's deadline passed, by less than a period, and the chaos phase is
counted from the reading it works with. -/
theorem OnSchedule.startChaos (h : OnSchedule period length os turn s) {d : Nat}
    (runs : s.countdown.deadline = some d) (expired : d ≤ turn) :
    OnSchedule period length (os ++ [.chosen turn (.startChaos s.countdown.game)]) turn
      { s with
        countdown := { s.countdown with
          deadline := none, chaosDeadline := some (turn + fromSecs chaosSeconds) }
        phase := .decided turn (.startChaos s.countdown.game) } := by
  obtain ⟨⟨opened, last, rfl⟩, ahead⟩ := h.running d runs
  have near := ahead.near
  have phase : 0 < fromSecs chaosSeconds := by decide
  refine ⟨h.past, rfl, h.kept, ?_, ?_, ?_, ?_, ?_⟩ <;> rw [lastStart_snoc rfl]
  · exact h.numbered
  · intro d hd
    cases hd
  · intro c hc
    cases hc
    exact ⟨⟨opened, turn, last, rfl, expired, near, Nat.le_refl _⟩, by omega, fun _ => by omega⟩
  · intro ended
    cases ended.2
  · intro unplayed
    cases unplayed.symm.trans last

/-- The thread finds the chaos phase over; that it began within a period after the game is what
bounds its end. -/
theorem OnSchedule.finishChaos (h : OnSchedule period length os turn s)
    (exclusive : s.countdown.deadline = none ∨ s.countdown.chaosDeadline = none) {c : Nat}
    (chaos : s.countdown.chaosDeadline = some c) (expired : c ≤ turn) :
    OnSchedule period length (os ++ [.chosen turn (.finishChaos s.countdown.game)]) turn
      { s with
        countdown := { s.countdown with chaosDeadline := none }
        phase := .decided turn (.finishChaos s.countdown.game) } := by
  obtain ⟨⟨opened, began, last, rfl, after, within, begun⟩, ahead⟩ := h.chaotic c chaos
  have near := ahead.near
  refine ⟨h.past, rfl, h.kept, ?_, ?_, ?_, ?_, ?_⟩ <;> rw [lastStart_snoc rfl]
  · exact h.numbered
  · intro d hd
    rcases exclusive with hnone | hnone
    · cases hnone.symm.trans hd
    · cases hnone.symm.trans chaos
  · intro c hc
    cases hc
  · intro _ opened' last'
    cases last.symm.trans last'
    exact ⟨by omega, fun _ => by omega⟩
  · intro unplayed
    cases unplayed.symm.trans last

/-- The thread decides to change the motor in the chaos phase. -/
theorem OnSchedule.changeMotor (h : OnSchedule period length os turn s)
    (unexpired : Unexpired s.countdown.deadline turn) {c : Nat}
    (chaos : s.countdown.chaosDeadline = some c) (going : turn < c) :
    OnSchedule period length (os ++ [.chosen turn .changeMotor]) turn
      { s with phase := .decided turn .changeMotor } := by
  refine ⟨h.past, rfl, h.kept, ?_, ?_, ?_, ?_, ?_⟩ <;> rw [lastStart_snoc rfl]
  · exact h.numbered
  · intro d hd
    exact ⟨(h.running d hd).1, (h.running d hd).2.near, fun _ => unexpired d hd⟩
  · intro c' hc
    cases chaos.symm.trans hc
    exact ⟨(h.chaotic c chaos).1, (h.chaotic c chaos).2.near, fun _ => going⟩
  · intro ended
    cases ended.2.symm.trans chaos
  · intro unplayed
    cases (h.unplayed unplayed).1.2.symm.trans chaos

/-- Every step but the clock reading leaves the schedule with the turn it had. -/
theorem OnSchedule.step (h : OnSchedule period length os turn s) (positive : 0 < length)
    (exclusive : s.countdown.deadline = none ∨ s.countdown.chaosDeadline = none)
    (moved : Moved s e s' o) (ticks : e ≠ .tick) :
    OnSchedule period length (os ++ [o]) turn s' := by
  have phase := h.phase
  cases moved with
  | advance elapsed => exact h.quiet rfl (Nat.le_add_right _ _) rfl rfl
  | startMotor | setMotor | refuseMotor | currentCountdown | apiMotor =>
    exact h.quiet rfl (Nat.le_refl _) rfl rfl
  | tick => exact absurd rfl ticks
  | startGame lasted status countdown opened shown => exact h.startGame positive lasted opened
  | startChaos now d ticked runs expired =>
    rw [ticked] at phase
    cases phase
    exact h.startChaos runs expired
  | finishChaos now d ticked unexpired chaos expired =>
    rw [ticked] at phase
    cases phase
    exact h.finishChaos exclusive chaos expired
  | changeMotor now d ticked unexpired chaos going due =>
    rw [ticked] at phase
    cases phase
    exact h.changeMotor unexpired chaos going
  | noUpdate now ticked unexpired unfinished =>
    rw [ticked] at phase
    cases phase
    exact h.settle rfl rfl rfl rfl unexpired unfinished
  | performRandom now interval update rng decided random drawn =>
    exact h.performed decided rfl rfl rfl rfl
  | performFinish now game decided =>
    exact h.performed decided rfl rfl rfl rfl
  | performNone now decided =>
    exact h.performed decided rfl rfl rfl rfl

/-- A punctual run keeps the schedule, with the clock ahead of the thread's last turn by the time it
has waited. -/
theorem onSchedule_of_runs (runs : Runs step (start parsed clock seed) es os s)
    (punctual : Punctual period es) :
    ∃ turn, OnSchedule period (fromSecs (gameSeconds parsed)) os turn s ∧
      s.clock = turn + sinceTick es := by
  have positive : 0 < fromSecs (gameSeconds parsed) := by
    have h := gameSeconds_pos parsed
    rw [fromSecs]
    omega
  induction runs with
  | nil => exact ⟨clock, .start parsed clock seed, rfl⟩
  | @snoc es os s s' e o before last ih =>
    obtain ⟨turn, h, hclock⟩ := ih punctual.of_append
    have waited := punctual.of_append es List.prefix_rfl
    have moved := step_moved last
    rw [sinceTick_snoc]
    cases moved with
    | tick idle => exact ⟨s.clock, h.tick (by omega) idle, rfl⟩
    | advance elapsed =>
      exact ⟨turn, h.quiet rfl (Nat.le_add_right _ _) rfl rfl, by
        rw [noteWait, ← Nat.add_assoc, ← hclock]⟩
    | startGame lasted status countdown opened =>
      exact ⟨turn, h.startGame positive lasted opened, by
        rw [noteWait, ← Nat.add_assoc, ← hclock]⟩
    | startMotor | startChaos | finishChaos | changeMotor | noUpdate | performRandom
    | performFinish | performNone | setMotor | refuseMotor | currentCountdown | apiMotor =>
      have other := h.step positive (exclusive_of_runs before) (step_moved last) (by rintro ⟨⟩)
      exact ⟨turn, other, hclock⟩

/-! ## What the schedule says -/

/-- When the time of a game is up. -/
def timeUp (parsed : Option UInt64) (opened : Nat) : Nat := opened + fromSecs (gameSeconds parsed)

/-- **A game is reported on schedule.** In a punctual run, whatever the interleaving: the game
started last is reported running exactly until its time is up, in chaos from two periods later at
the latest until ten seconds after it, and finished from a period past those. Two periods, because
the game may end just after a turn, and the section that begins the chaos phase waits for a lock
after the clock is read. -/
theorem keeps_schedule (runs : Runs step (start parsed clock seed) es os s)
    (punctual : Punctual period es) {opened : Nat} (last : lastStart os = some opened) :
    ((countdownStatus s.countdown s.clock).state = .running ↔ s.clock < timeUp parsed opened) ∧
      (timeUp parsed opened + 2 * period ≤ s.clock →
        s.clock < timeUp parsed opened + fromSecs chaosSeconds →
        (countdownStatus s.countdown s.clock).state = .chaos) ∧
      (timeUp parsed opened + fromSecs chaosSeconds + period ≤ s.clock →
        (countdownStatus s.countdown s.clock).state = .finished) := by
  obtain ⟨turn, h, hclock⟩ := onSchedule_of_runs runs punctual
  have waited := punctual es List.prefix_rfl
  have shown := countdownStatus_state (exclusive_of_runs runs) (h.numbered opened last) s.clock
  rw [shown, Countdown.stage, timeUp]
  cases hd : s.countdown.deadline with
  | some d =>
    obtain ⟨⟨opened', last', rfl⟩, ahead⟩ := h.running d hd
    cases last.symm.trans last'
    have near := ahead.near
    dsimp only [Stage.shown]
    split
    next before => exact ⟨⟨fun _ => before, fun _ => rfl⟩, by omega, by omega⟩
    next expired =>
      exact ⟨⟨fun running => (by cases running), by omega⟩, by omega, fun _ => rfl⟩
  | none =>
    cases hc : s.countdown.chaosDeadline with
    | some c =>
      obtain ⟨⟨opened', began, last', rfl, after, within, begun⟩, ahead⟩ := h.chaotic c hc
      cases last.symm.trans last'
      have past := h.past
      dsimp only [Stage.shown]
      split
      next going => exact ⟨⟨fun running => (by cases running), by omega⟩, fun _ _ => rfl, by omega⟩
      next expired => exact ⟨⟨fun running => (by cases running), by omega⟩, by omega, fun _ => rfl⟩
    | none =>
      have ended := (h.finished ⟨hd, hc⟩ opened last).1
      have past := h.past
      exact ⟨⟨fun running => (by cases running), by omega⟩, by omega, fun _ => rfl⟩

/-- Three periods after the chaos phase of the last game should have ended, nothing is on and
nothing waits to be performed: one for each of the two deadlines to be seen, and one for the last
update to be performed. -/
theorem rests_of_runs (runs : Runs step (start parsed clock seed) es os s)
    (punctual : Punctual period es)
    (long : ∀ opened, lastStart os = some opened →
      timeUp parsed opened + fromSecs chaosSeconds + 3 * period ≤ s.clock) :
    Over s.countdown ∧ s.phase.pending = none := by
  obtain ⟨turn, h, hclock⟩ := onSchedule_of_runs runs punctual
  have waited := punctual es List.prefix_rfl
  have ended : Over s.countdown := by
    constructor
    · by_contra running
      obtain ⟨d, hd⟩ := Option.ne_none_iff_exists'.mp running
      obtain ⟨⟨opened, last, rfl⟩, ahead⟩ := h.running d hd
      have reached := long opened last
      have near := ahead.near
      rw [timeUp] at reached
      omega
    · by_contra chaotic
      obtain ⟨c, hc⟩ := Option.ne_none_iff_exists'.mp chaotic
      obtain ⟨⟨opened, began, last, rfl, after, within, begun⟩, ahead⟩ := h.chaotic c hc
      have reached := long opened last
      have near := ahead.near
      rw [timeUp] at reached
      omega
  refine ⟨ended, ?_⟩
  cases hlast : lastStart os with
  | none => exact (h.unplayed hlast).2
  | some opened =>
    by_contra waits
    have late := (h.finished ended opened hlast).2 waits
    have reached := long opened hlast
    rw [timeUp] at reached
    omega

/-- **The motor comes to rest.** In a punctual run whose `start_game` calls write the motor within
ten seconds, three periods after the chaos phase of the last game should have ended nothing is on,
nothing waits to be performed, and the motor is stopped unless a request has started it since the
last end of a chaos phase. The bound on the calls is of their own (`Prompt`): they do not wait for
the countdown thread. -/
theorem comes_to_rest (runs : Runs step (start parsed clock seed) es os s)
    (punctual : Punctual period es)
    (prompt : EachStep step (start parsed clock seed) es Prompt)
    (long : ∀ opened, lastStart os = some opened →
      timeUp parsed opened + fromSecs chaosSeconds + 3 * period ≤ s.clock) :
    Over s.countdown ∧ s.phase.pending = none ∧ (s.motor = .stop ∨ postedStart os = true) := by
  obtain ⟨ended, performed⟩ := rests_of_runs runs punctual long
  refine ⟨ended, performed, ?_⟩
  cases posted : postedStart os with
  | false => exact Or.inl ((settled_of_runs runs prompt).stopped ended performed posted)
  | true => exact Or.inr rfl

/-- A game of one second whose chaos phase the thread looks at every two seconds: as far as five
seconds after the start, and the rest of it. -/
def slowChaos : List Event :=
  [.startGame 0, .startMotor 0, .advance (fromSecs 1), .tick, .choose, .perform,
    .advance (fromSecs 2), .tick, .choose, .perform, .advance (fromSecs 2)]

/-- The rest of that chaos phase, with the end of it seen late. -/
def slowEnd : List Event :=
  [.tick, .choose, .perform, .advance (fromSecs 2), .tick, .choose, .perform,
    .advance (fromSecs 2), .tick, .choose, .perform, .advance (fromSecs 2), .tick, .choose,
    .perform, .advance (fromSecs 2), .tick, .choose, .advance (fromSecs 2), .tick, .choose,
    .advance (fromSecs 2)]

/-- Two seconds between turns are slow enough for the chaos phase to begin late, and it is reported
by then. -/
theorem keeps_schedule_slow_chaos :
    ∃ os s, Runs step (start (some 1) 0 1) slowChaos os s ∧
      (countdownStatus s.countdown s.clock).state = .chaos := by
  have played : (run step (start (some 1) 0 1) slowChaos).map
      (fun p => (lastStart p.2, p.1.clock)) = some (some 0, fromSecs 5) := by decide +kernel
  obtain ⟨os, s, runs, heq⟩ := runs_of_run played
  obtain ⟨last, hclock⟩ := by simpa only [Prod.mk.injEq] using heq
  have punctual : Punctual (fromSecs 2) slowChaos := by decide +kernel
  refine ⟨os, s, runs, (keeps_schedule runs punctual last).2.1 ?_ ?_⟩ <;> rw [hclock] <;> decide

/-- However slow, the motor has come to rest in the end. -/
theorem comes_to_rest_slow_end :
    ∃ os s, Runs step (start (some 1) 0 1) (slowChaos ++ slowEnd) os s ∧ Over s.countdown ∧
      (s.motor = .stop ∨ postedStart os = true) := by
  have played : (run step (start (some 1) 0 1) (slowChaos ++ slowEnd)).map
      (fun p => (lastStart p.2, p.1.clock)) = some (some 0, fromSecs 17) := by decide +kernel
  obtain ⟨os, s, runs, heq⟩ := runs_of_run played
  obtain ⟨last, hclock⟩ := by simpa only [Prod.mk.injEq] using heq
  have punctual : Punctual (fromSecs 2) (slowChaos ++ slowEnd) := by decide +kernel
  have long : ∀ opened, lastStart os = some opened →
      timeUp (some 1) opened + fromSecs chaosSeconds + 3 * fromSecs 2 ≤ s.clock := by
    intro opened last'
    cases last.symm.trans last'
    rw [hclock]
    decide
  obtain ⟨ended, -, motor⟩ := comes_to_rest runs punctual (by decide +kernel) long
  exact ⟨os, s, runs, ended, motor⟩

end Motorball.Server.System
