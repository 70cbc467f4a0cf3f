import Motorball.Server.System
import Mathlib.Data.List.Nodup
import Mathlib.Data.List.Perm.Basic

/-!
# The life of a game

What the observations of a run say of the games: which were started and when, when the chaos phase
of each began and ended, and when the motor was changed at random. `Lawful` and `Spaced` say what
each decision of the countdown thread owes to the observations before it.

Two invariants carry this. `Timeline` relates the countdown to the games of the history; `Paced`
relates the thread's own variable and the clock readings it works with to the random changes.
`Lifecycle` is what both say together.
-/

namespace Motorball.Server.System

open Transducer

/-! ## The games of a history -/

/-- A game was started: the instant and its number. The instant is the one its deadline is counted
from. -/
def startOf : Obs → Option (Nat × Nat)
  | .started now status => some (now, status.game)
  | _ => none

/-- A chaos phase was begun: the clock reading of the decision and the game. The reading was taken
before the lock. -/
def chaosOf : Obs → Option (Nat × Nat)
  | .chosen now (.startChaos game) => some (now, game)
  | _ => none

/-- A chaos phase was ended: the clock reading of the decision, and the game it belongs to. -/
def finishOf : Obs → Option (Nat × Nat)
  | .chosen now (.finishChaos game) => some (now, game)
  | _ => none

/-- A random motor change was decided, be it the one that begins a chaos phase or one within it. -/
def randomOf : Obs → Option Nat
  | .chosen now (.startChaos _) | .chosen now .changeMotor => some now
  | _ => none

/-- The status that the countdown section of a `start_game` call computes. -/
def openingOf : Obs → Option CountdownStatus
  | .started _ status => some status
  | _ => none

/-- The status that a `start_game` call returns, after its motor section. -/
def returnOf : Obs → Option CountdownStatus
  | .motorStarted status => some status
  | _ => none

/-- The games of a history, with their instants, in the order of the countdown sections. -/
def starts (os : List Obs) : List (Nat × Nat) := os.filterMap startOf
/-- The chaos phases begun in a history. -/
def chaosStarts (os : List Obs) : List (Nat × Nat) := os.filterMap chaosOf
/-- The chaos phases ended in a history. -/
def chaosFinishes (os : List Obs) : List (Nat × Nat) := os.filterMap finishOf
/-- The clock readings of the random changes of a history. That they are apart is said of these, as
the performing may come later. -/
def randomChanges (os : List Obs) : List Nat := os.filterMap randomOf
/-- The statuses that `start_game` calls have computed, in the order in which they held the lock. -/
def openings (os : List Obs) : List CountdownStatus := os.filterMap openingOf
/-- The statuses that `start_game` calls have returned, in the order in which they wrote the motor,
which may be another. -/
def returns (os : List Obs) : List CountdownStatus := os.filterMap returnOf

/-- The games of a history, one observation later. -/
theorem starts_snoc (os : List Obs) (o : Obs) :
    starts (os ++ [o]) = starts os ++ (startOf o).toList := filterMap_snoc _ _ _

/-- The chaos phases begun, one observation later. -/
theorem chaosStarts_snoc (os : List Obs) (o : Obs) :
    chaosStarts (os ++ [o]) = chaosStarts os ++ (chaosOf o).toList := filterMap_snoc _ _ _

/-- The chaos phases ended, one observation later. -/
theorem chaosFinishes_snoc (os : List Obs) (o : Obs) :
    chaosFinishes (os ++ [o]) = chaosFinishes os ++ (finishOf o).toList := filterMap_snoc _ _ _

/-- The random changes, one observation later. -/
theorem randomChanges_snoc (os : List Obs) (o : Obs) :
    randomChanges (os ++ [o]) = randomChanges os ++ (randomOf o).toList := filterMap_snoc _ _ _

/-- The statuses computed, one observation later. -/
theorem openings_snoc (os : List Obs) (o : Obs) :
    openings (os ++ [o]) = openings os ++ (openingOf o).toList := filterMap_snoc _ _ _

/-- The statuses returned, one observation later. -/
theorem returns_snoc (os : List Obs) (o : Obs) :
    returns (os ++ [o]) = returns os ++ (returnOf o).toList := filterMap_snoc _ _ _

/-- A part of a history starts no more games than the whole, so the bound on the starts goes through
an induction over the run. -/
theorem few_of_append {os ps : List Obs} {n : Nat} (few : (starts (os ++ ps)).length < n) :
    (starts os).length < n := by
  rw [starts, List.filterMap_append, List.length_append] at few
  exact Nat.lt_of_le_of_lt (Nat.le_add_right _ _) few

/-- No game after this one has been started. -/
def Latest (game : Nat) (before : List Obs) : Prop := ∀ start ∈ starts before, start.2 ≤ game

/-- What a decision of the countdown thread owes to the history: the game's time is up before its
chaos phase begins, the ten seconds of that phase before it ends, a change in between belongs to
the phase begun last and not yet ended, and none of these comes once a later game has started. -/
def Lawful (duration : Nat) (before : List Obs) : Obs → Prop
  | .chosen now (.startChaos game) =>
    (∃ opened, (opened, game) ∈ starts before ∧ opened + fromSecs duration ≤ now) ∧
      Latest game before
  | .chosen now (.finishChaos game) =>
    (∃ began, (began, game) ∈ chaosStarts before ∧ began + fromSecs chaosSeconds ≤ now) ∧
      Latest game before
  | .chosen _ .changeMotor =>
    ∃ began game, (chaosStarts before).getLast? = some (began, game) ∧
      (∀ finish ∈ chaosFinishes before, finish.2 ≠ game) ∧ Latest game before
  | _ => True

/-- A random motor change comes at least 200 milliseconds after every earlier one, also across
games: the thread keeps the instant of its next change when a game is restarted. -/
def Spaced (before : List Obs) (o : Obs) : Prop :=
  ∀ now, randomOf o = some now →
    ∀ earlier ∈ randomChanges before, earlier + fromMillis chaosMinIntervalMs ≤ now

/-- The life of the games of a run, up to the state it has reached: what the countdown guarantees to
its readers and to the motor, whatever the order of the sections. -/
structure Lifecycle (duration : Nat) (os : List Obs) (s : System) : Prop where
  /-- The two deadlines are never both set. -/
  exclusive : s.countdown.deadline = none ∨ s.countdown.chaosDeadline = none
  game : s.countdown.game = (starts os).length
  /-- The games are numbered from one on in the order of their starts. -/
  numbered : (starts os).map Prod.snd = List.range' 1 (starts os).length
  /-- Each call returns the status of its own countdown section: those computed are those that
  were returned and those that calls between their sections hold. -/
  answered : (openings os).Perm (s.calls.map StartCall.status ++ returns os)
  /-- No two calls return the same game number. -/
  distinct : ((returns os).map CountdownStatus.game).Nodup
  kept : s.countdown.durationSeconds = duration
  chaosOnce : ((chaosStarts os).map Prod.snd).Nodup
  finishOnce : ((chaosFinishes os).map Prod.snd).Nodup
  lawful : Justified (Lawful duration) os
  spaced : Justified Spaced os

/-! ## The countdown and the history -/

/-- The invariant of the countdown, over the games opened, the chaos phases begun and those ended.
It is about lists, so each of the three sections that write the countdown has one lemma. -/
structure Timeline (duration : Nat) (opened began ended : List (Nat × Nat)) (c : Countdown) :
    Prop where
  exclusive : c.deadline = none ∨ c.chaosDeadline = none
  game : c.game = opened.length
  numbered : opened.map Prod.snd = List.range' 1 opened.length
  kept : c.durationSeconds = duration
  /-- A set deadline is that of the latest game, whose chaos phase has not begun. -/
  running : ∀ d, c.deadline = some d →
    (∃ at₀, (at₀, c.game) ∈ opened ∧ d = at₀ + fromSecs duration) ∧
      (∀ chaos ∈ began, chaos.2 < c.game) ∧ ∀ finish ∈ ended, finish.2 < c.game
  /-- A set chaos deadline is that of the phase begun last, which has not ended. -/
  chaotic : ∀ d, c.chaosDeadline = some d →
    (∃ at₀, began.getLast? = some (at₀, c.game) ∧ d = at₀ + fromSecs chaosSeconds) ∧
      ∀ finish ∈ ended, finish.2 < c.game
  beganBound : ∀ chaos ∈ began, chaos.2 ≤ c.game
  endedBound : ∀ finish ∈ ended, finish.2 ≤ c.game
  chaosOnce : (began.map Prod.snd).Nodup
  finishOnce : (ended.map Prod.snd).Nodup

namespace Timeline

variable {duration now : Nat} {opened began ended : List (Nat × Nat)} {c : Countdown}

/-- Before the first game nothing has been opened. -/
theorem initial : Timeline duration [] [] [] (Countdown.initial duration) where
  exclusive := Or.inl rfl
  game := rfl
  numbered := rfl
  kept := rfl
  running _ h := nomatch h
  chaotic _ h := nomatch h
  beganBound _ h := nomatch h
  endedBound _ h := nomatch h
  chaosOnce := List.nodup_nil
  finishOnce := List.nodup_nil

/-- The games opened are numbered up to the present one. -/
theorem latest (h : Timeline duration opened began ended c) :
    ∀ start ∈ opened, start.2 ≤ c.game := by
  intro start hmem
  have hgame : start.2 ∈ opened.map Prod.snd := List.mem_map_of_mem hmem
  rw [h.numbered, List.mem_range'_1] at hgame
  have hlen := h.game
  omega

/-- A game whose number is new to a list of games is appended to it without repetition. That it is
new is known from the bounds, as numbers only grow. -/
theorem nodup_snoc {games : List (Nat × Nat)} {game : Nat} (once : (games.map Prod.snd).Nodup)
    (below : ∀ g ∈ games, g.2 < game) : ((games ++ [(now, game)]).map Prod.snd).Nodup := by
  rw [List.map_append, List.map_singleton, ← List.concat_eq_append]
  apply List.Nodup.concat _ once
  intro hmem
  obtain ⟨g, hg, heq⟩ := List.mem_map.mp hmem
  exact absurd heq (Nat.ne_of_lt (below g hg))

/-- A start opens the next game and takes both deadlines of the one before, whatever stage that was
in. -/
theorem startGame (h : Timeline duration opened began ended c) :
    Timeline duration (opened ++ [(now, c.game + 1)]) began ended
      { c with
        deadline := some (now + fromSecs c.durationSeconds)
        chaosDeadline := none
        game := c.game + 1 } where
  exclusive := Or.inr rfl
  game := by rw [List.length_append, List.length_singleton, h.game]
  numbered := by
    rw [List.map_append, h.numbered, List.length_append, List.length_singleton, h.game,
      List.range'_1_concat, Nat.add_comm 1]
    rfl
  kept := h.kept
  running d hd := by
    cases hd
    rw [h.kept]
    exact ⟨⟨now, List.mem_append_right _ (List.mem_singleton.mpr rfl), rfl⟩,
      fun chaos hc => Nat.lt_succ_of_le (h.beganBound chaos hc),
      fun finish hf => Nat.lt_succ_of_le (h.endedBound finish hf)⟩
  chaotic _ hd := nomatch hd
  beganBound chaos hc := Nat.le_succ_of_le (h.beganBound chaos hc)
  endedBound finish hf := Nat.le_succ_of_le (h.endedBound finish hf)
  chaosOnce := h.chaosOnce
  finishOnce := h.finishOnce

/-- The chaos phase of the present game begins; none had begun for it while its deadline was set. -/
theorem startChaos (h : Timeline duration opened began ended c) {d : Nat}
    (runs : c.deadline = some d) :
    Timeline duration opened (began ++ [(now, c.game)]) ended
      { c with deadline := none, chaosDeadline := some (now + fromSecs chaosSeconds) } where
  exclusive := Or.inl rfl
  game := h.game
  numbered := h.numbered
  kept := h.kept
  running _ hd := nomatch hd
  chaotic d' hd := by
    cases hd
    exact ⟨⟨now, List.getLast?_concat, rfl⟩, (h.running d runs).2.2⟩
  beganBound chaos hc := by
    rcases List.mem_append.mp hc with hc | hc
    · exact h.beganBound chaos hc
    · rw [List.mem_singleton.mp hc]
  endedBound := h.endedBound
  chaosOnce := nodup_snoc h.chaosOnce (h.running d runs).2.1
  finishOnce := h.finishOnce

/-- The chaos phase of the present game ends; none had ended for it while its chaos deadline was
set. -/
theorem finishChaos (h : Timeline duration opened began ended c) {d : Nat}
    (chaos : c.chaosDeadline = some d) :
    Timeline duration opened began (ended ++ [(now, c.game)])
      { c with chaosDeadline := none } where
  exclusive := Or.inr rfl
  game := h.game
  numbered := h.numbered
  kept := h.kept
  running d' hd := by
    rcases h.exclusive with hnone | hnone
    · exact nomatch hnone.symm.trans hd
    · exact nomatch hnone.symm.trans chaos
  chaotic _ hd := nomatch hd
  beganBound := h.beganBound
  endedBound finish hf := by
    rcases List.mem_append.mp hf with hf | hf
    · exact h.endedBound finish hf
    · rw [List.mem_singleton.mp hf]
  chaosOnce := h.chaosOnce
  finishOnce := nodup_snoc h.finishOnce (h.chaotic d chaos).2

end Timeline

variable {duration : Nat} {es : List Event} {os : List Obs} {s s' : System} {e : Event} {o : Obs}

/-- The countdown of a state is in line with the history, and the history is lawful. -/
structure Timely (duration : Nat) (os : List Obs) (s : System) : Prop where
  timeline : Timeline duration (starts os) (chaosStarts os) (chaosFinishes os) s.countdown
  lawful : Justified (Lawful duration) os

/-- A move that opens no game and begins or ends no chaos phase, and that owes nothing to the
history or pays it. -/
theorem Timely.quiet (h : Timely duration os s) (countdown : s'.countdown = s.countdown)
    (start : startOf o = none) (chaos : chaosOf o = none) (finish : finishOf o = none)
    (lawful : Lawful duration os o) : Timely duration (os ++ [o]) s' where
  timeline := by
    rw [starts, chaosStarts, chaosFinishes, filterMap_snoc_none start, filterMap_snoc_none chaos,
      filterMap_snoc_none finish, countdown]
    exact h.timeline
  lawful := justified_snoc.mpr ⟨h.lawful, lawful⟩

/-- The number of starts leaves room for one more game number. The counter of the source saturates,
and would give the last number twice. -/
theorem next_game (game : Nat) (room : game + 1 < 2 ^ 64) :
    Arith.saturatingAdd 64 game 1 = game + 1 := by
  rw [Arith.saturatingAdd]
  omega

/-- Every move keeps the countdown in line. The three that write it are the lemmas of `Timeline`,
and a change of the motor in between is lawful by the chaos deadline that is set. -/
theorem Timely.step (h : Timely duration os s) (moved : Moved s e s' o)
    (few : (starts (os ++ [o])).length < 2 ^ 64) : Timely duration (os ++ [o]) s' := by
  obtain ⟨timeline, lawful⟩ := h
  cases moved with
  | startGame lasted status countdown opened shown =>
    have room : s.countdown.game + 1 < 2 ^ 64 := by
      rw [timeline.game]
      rwa [starts_snoc, List.length_append] at few
    rw [next_game _ room] at opened
    have hgame : status.game = s.countdown.game + 1 := by
      rw [shown, countdownStatus_game, opened]
    refine ⟨?_, justified_snoc.mpr ⟨lawful, trivial⟩⟩
    rw [starts_snoc, chaosStarts_snoc, chaosFinishes_snoc, opened, startOf, hgame]
    simpa only [chaosOf, finishOf, Option.toList_none, Option.toList_some, List.append_nil]
      using timeline.startGame
  | startChaos now d ticked runs expired =>
    refine ⟨?_, justified_snoc.mpr ⟨lawful, ?_, timeline.latest⟩⟩
    · rw [starts_snoc, chaosStarts_snoc, chaosFinishes_snoc]
      simpa only [startOf, chaosOf, finishOf, Option.toList_none, Option.toList_some,
        List.append_nil] using timeline.startChaos runs
    · obtain ⟨at₀, hstart, rfl⟩ := (timeline.running d runs).1
      exact ⟨at₀, hstart, expired⟩
  | finishChaos now d ticked unexpired chaos expired =>
    refine ⟨?_, justified_snoc.mpr ⟨lawful, ?_, timeline.latest⟩⟩
    · rw [starts_snoc, chaosStarts_snoc, chaosFinishes_snoc]
      simpa only [startOf, chaosOf, finishOf, Option.toList_none, Option.toList_some,
        List.append_nil] using timeline.finishChaos chaos
    · obtain ⟨at₀, hlast, rfl⟩ := (timeline.chaotic d chaos).1
      exact ⟨at₀, List.mem_of_getLast? hlast, expired⟩
  | changeMotor now d ticked unexpired chaos going due =>
    obtain ⟨⟨at₀, hlast, -⟩, unended⟩ := timeline.chaotic d chaos
    exact Timely.quiet ⟨timeline, lawful⟩ rfl rfl rfl rfl
      ⟨at₀, s.countdown.game, hlast, fun finish hf => Nat.ne_of_lt (unended finish hf),
        timeline.latest⟩
  | advance | startMotor | tick | noUpdate | performRandom | performFinish | performNone
  | setMotor | refuseMotor | currentCountdown | apiMotor =>
    exact Timely.quiet ⟨timeline, lawful⟩ rfl rfl rfl rfl trivial

/-- The countdown of a run is in line with its history. -/
theorem timely_of_runs {parsed : Option UInt64} {clock : Nat} {seed : UInt64}
    (runs : Runs step (start parsed clock seed) es os s) (few : (starts os).length < 2 ^ 64) :
    Timely (gameSeconds parsed) os s := by
  induction runs with
  | nil => exact ⟨Timeline.initial, .nil⟩
  | snoc _ last ih => exact (ih (few_of_append few)).step (step_moved last) few

/-! ## The pace of the random changes -/

/-- The invariant of the countdown thread's own variable and of the clock readings it works with.
The variable survives restarts, and says too little while a change waits to be performed; hence the
cases. -/
structure Paced (os : List Obs) (s : System) : Prop where
  past : ∀ change ∈ randomChanges os, change ≤ s.clock
  ticked : ∀ now, s.phase = .ticked now → now ≤ s.clock
  /-- While a random change waits to be performed, no decided change is later. -/
  latest : ∀ now update, s.phase = .decided now update → update.IsRandom →
    ∀ change ∈ randomChanges os, change ≤ now
  /-- Otherwise the next change is not due before the last one is 200 milliseconds past. -/
  due : (∀ now update, s.phase = .decided now update → ¬update.IsRandom) →
    ∀ change ∈ randomChanges os, change + fromMillis chaosMinIntervalMs ≤ s.nextMotorChange
  /-- Nor does a running game expire before. -/
  running : ∀ d, s.countdown.deadline = some d →
    ∀ change ∈ randomChanges os, change + fromMillis chaosMinIntervalMs ≤ d
  positive : 0 < s.countdown.durationSeconds
  spaced : Justified Spaced os

/-- At startup nothing has been changed, and the first change is due at once. -/
theorem Paced.start (parsed : Option UInt64) (clock : Nat) (seed : UInt64) :
    Paced [] (start parsed clock seed) where
  past _ h := nomatch h
  ticked _ h := nomatch h
  latest _ _ h := nomatch h
  due _ _ h := nomatch h
  running _ h := nomatch h
  positive := gameSeconds_pos parsed
  spaced := .nil

/-- Where the countdown thread waits for the clock, its next change is not due too early. -/
theorem Paced.due_of_ticked (h : Paced os s) {now : Nat} (ticked : s.phase = .ticked now) :
    ∀ change ∈ randomChanges os, change + fromMillis chaosMinIntervalMs ≤ s.nextMotorChange :=
  h.due fun _ _ decided => nomatch ticked.symm.trans decided

/-- A move that decides no random change and leaves the game's deadline alone. -/
theorem Paced.quiet (h : Paced os s) (silent : randomOf o = none)
    (clock : s.clock ≤ s'.clock) (deadline : s'.countdown.deadline = s.countdown.deadline)
    (kept : s'.countdown.durationSeconds = s.countdown.durationSeconds)
    (ticked : ∀ now, s'.phase = .ticked now → now ≤ s'.clock)
    (latest : ∀ now update, s'.phase = .decided now update → update.IsRandom →
      ∀ change ∈ randomChanges os, change ≤ now)
    (due : (∀ now update, s'.phase = .decided now update → ¬update.IsRandom) →
      ∀ change ∈ randomChanges os, change + fromMillis chaosMinIntervalMs ≤ s'.nextMotorChange) :
    Paced (os ++ [o]) s' := by
  have same : randomChanges (os ++ [o]) = randomChanges os := filterMap_snoc_none silent
  refine ⟨?_, ticked, by rwa [same], by rwa [same], ?_, by rw [kept]; exact h.positive,
    justified_snoc.mpr ⟨h.spaced, fun now ho => nomatch silent.symm.trans ho⟩⟩
  · rw [same]
    intro change hc
    exact Nat.le_trans (h.past change hc) clock
  · rw [same, deadline]
    exact h.running

/-- A move that leaves the countdown thread alone as well. -/
theorem Paced.idle (h : Paced os s) (silent : randomOf o = none) (clock : s.clock ≤ s'.clock)
    (countdown : s'.countdown = s.countdown) (phase : s'.phase = s.phase)
    (next : s'.nextMotorChange = s.nextMotorChange) : Paced (os ++ [o]) s' := by
  refine h.quiet silent clock (by rw [countdown]) (by rw [countdown]) ?_ ?_ ?_
  · rw [phase]
    intro now ticked
    exact Nat.le_trans (h.ticked now ticked) clock
  · rw [phase]
    exact h.latest
  · rw [phase, next]
    exact h.due

/-- A random change is decided at a clock reading that every earlier change is 200 milliseconds
before. -/
theorem Paced.change (h : Paced os s) {now : Nat} (random : randomOf o = some now)
    (ticked : s.phase = .ticked now) {update : Update}
    (decided : s'.phase = .decided now update) (isRandom : update.IsRandom)
    (clock : s'.clock = s.clock) (deadline : s'.countdown.deadline = none)
    (kept : s'.countdown.durationSeconds = s.countdown.durationSeconds)
    (apart : ∀ change ∈ randomChanges os, change + fromMillis chaosMinIntervalMs ≤ now) :
    Paced (os ++ [o]) s' := by
  have grown : ∀ change ∈ randomChanges (os ++ [o]), change ≤ now := by
    intro change hc
    rw [randomChanges_snoc, random] at hc
    rcases List.mem_append.mp hc with hc | hc
    · exact Nat.le_trans (Nat.le_add_right _ _) (apart change hc)
    · exact Nat.le_of_eq (List.mem_singleton.mp hc)
  refine ⟨?_, ?_, ?_, ?_, ?_, by rw [kept]; exact h.positive, justified_snoc.mpr ⟨h.spaced, ?_⟩⟩
  · intro change hc
    rw [clock]
    exact Nat.le_trans (grown change hc) (h.ticked now ticked)
  · intro now' h'
    cases decided.symm.trans h'
  · intro now' update' h' _
    cases decided.symm.trans h'
    exact grown
  · intro none'
    exact absurd isRandom (none' now update decided)
  · intro d hd
    cases deadline.symm.trans hd
  · intro now' ho
    cases random.symm.trans ho
    exact apart

/-- Every move keeps the pace. A game may only expire a second after it was started, so its chaos
phase begins 200 milliseconds after any change before it. -/
theorem Paced.step (h : Paced os s)
    (exclusive : s.countdown.deadline = none ∨ s.countdown.chaosDeadline = none)
    (moved : Moved s e s' o) : Paced (os ++ [o]) s' := by
  cases moved with
  | advance elapsed => exact h.idle rfl (Nat.le_add_right _ _) rfl rfl rfl
  | startMotor | setMotor | refuseMotor | currentCountdown | apiMotor =>
    exact h.idle rfl (Nat.le_refl _) rfl rfl rfl
  | startGame lasted status countdown opened shown =>
    have same : randomChanges (os ++ [.started s.clock status]) = randomChanges os :=
      filterMap_snoc_none rfl
    have clock : s.clock ≤ s.clock + lasted := Nat.le_add_right _ _
    refine ⟨by rw [same]; exact fun change hc => Nat.le_trans (h.past change hc) clock,
      fun now ticked => Nat.le_trans (h.ticked now ticked) clock, by rw [same]; exact h.latest,
      by rw [same]; exact h.due, ?_, by rw [opened]; exact h.positive,
      justified_snoc.mpr ⟨h.spaced, fun _ ho => by cases ho⟩⟩
    rw [same, opened]
    intro d hd change hc
    cases hd
    have past := h.past change hc
    have positive := h.positive
    simp only [fromMillis, fromSecs, chaosMinIntervalMs]
    omega
  | tick idle =>
    refine h.quiet rfl (Nat.le_refl _) rfl rfl ?_ ?_ ?_
    · intro now ticked
      cases ticked
      exact Nat.le_refl _
    · intro _ _ decided
      cases decided
    · intro _
      apply h.due
      intro _ _ decided
      cases idle.symm.trans decided
  | startChaos now d ticked runs expired =>
    exact h.change rfl ticked rfl trivial rfl rfl rfl
      (fun change hc => Nat.le_trans (h.running d runs change hc) expired)
  | changeMotor now d ticked unexpired chaos going due =>
    have stopped : s.countdown.deadline = none := by
      rcases exclusive with hnone | hnone
      · exact hnone
      · cases hnone.symm.trans chaos
    exact h.change rfl ticked rfl trivial rfl stopped rfl
      (fun change hc => Nat.le_trans (h.due_of_ticked ticked change hc) due)
  | finishChaos now d ticked unexpired chaos expired =>
    refine h.quiet rfl (Nat.le_refl _) rfl rfl (fun _ h' => by cases h')
      (fun now' update' decided random => ?_) (fun _ => h.due_of_ticked ticked)
    cases decided
    exact random.elim
  | noUpdate now ticked unexpired unfinished =>
    exact h.quiet rfl (Nat.le_refl _) rfl rfl (fun _ h' => by cases h')
      (fun _ _ h' => by cases h') (fun _ => h.due_of_ticked ticked)
  | performRandom now interval update rng decided random drawn =>
    refine h.quiet rfl (Nat.le_refl _) rfl rfl (fun _ h' => by cases h')
      (fun _ _ h' => by cases h') (fun _ change hc => ?_)
    have wide := (nextChaosInterval_mem (randomMotorAction s.rng).2).1
    rw [← drawn] at wide
    exact Nat.add_le_add (h.latest now update decided random change hc) wide
  | performFinish now game decided =>
    refine h.quiet rfl (Nat.le_refl _) rfl rfl (fun _ h' => by cases h')
      (fun _ _ h' => by cases h') (fun _ => h.due fun now' update' decided' => ?_)
    cases decided.symm.trans decided'
    exact id
  | performNone now decided =>
    refine h.quiet rfl (Nat.le_refl _) rfl rfl (fun _ h' => by cases h')
      (fun _ _ h' => by cases h') (fun _ => h.due fun now' update' decided' => ?_)
    cases decided.symm.trans decided'
    exact id

/-! ## The life cycle -/

/-- The two deadlines are never both set. This needs no bound on the number of games. -/
theorem exclusive_step (h : s.countdown.deadline = none ∨ s.countdown.chaosDeadline = none)
    (moved : Moved s e s' o) :
    s'.countdown.deadline = none ∨ s'.countdown.chaosDeadline = none := by
  cases moved with
  | startGame lasted status countdown opened shown => exact Or.inr (by rw [opened])
  | startChaos => exact Or.inl rfl
  | finishChaos => exact Or.inr rfl
  | advance | startMotor | tick | changeMotor | noUpdate | performRandom | performFinish
  | performNone | setMotor | refuseMotor | currentCountdown | apiMotor => exact h

variable {parsed : Option UInt64} {clock : Nat} {seed : UInt64}

/-- The two deadlines are never both set, in any run. -/
theorem exclusive_of_runs (runs : Runs step (start parsed clock seed) es os s) :
    s.countdown.deadline = none ∨ s.countdown.chaosDeadline = none :=
  runs.invariant (P := fun s => s.countdown.deadline = none ∨ s.countdown.chaosDeadline = none)
    (Or.inl rfl) fun _ _ _ _ h moved => exclusive_step h (step_moved moved)

/-- The pace of a run, by induction; which deadline is set is known of every state of it. -/
theorem paced_of_runs (runs : Runs step (start parsed clock seed) es os s) : Paced os s := by
  induction runs with
  | nil => exact Paced.start parsed clock seed
  | snoc before last ih => exact ih.step (exclusive_of_runs before) (step_moved last)

/-- A call that writes the motor returns the status it has held since its countdown section. The
calls may overtake each other in between, so the two lists agree up to order. -/
theorem answered_of_runs (runs : Runs step (start parsed clock seed) es os s) :
    (openings os).Perm (s.calls.map StartCall.status ++ returns os) := by
  induction runs with
  | nil => exact List.Perm.refl []
  | snoc _ last ih =>
    rw [openings_snoc, returns_snoc]
    cases step_moved last with
    | startGame lasted status countdown opened shown =>
      simp only [openingOf, returnOf, Option.toList_some, Option.toList_none, List.append_nil,
        List.map_append]
      refine (ih.append_right _).trans ?_
      rw [List.append_assoc, List.append_assoc]
      exact List.perm_append_comm.append_left _
    | startMotor call c waits =>
      obtain ⟨inside, rfl⟩ := List.getElem?_eq_some_iff.mp waits
      simp only [openingOf, returnOf, Option.toList_some, Option.toList_none, List.append_nil]
      have held := (List.getElem_cons_eraseIdx_perm inside).map StartCall.status
      refine ih.trans ((held.symm.append_right _).trans ?_)
      rw [← List.append_assoc]
      exact (List.perm_append_singleton _ _).symm
    | advance | tick | startChaos | finishChaos | changeMotor | noUpdate | performRandom
    | performFinish | performNone | setMotor | refuseMotor | currentCountdown | apiMotor =>
      simpa only [openingOf, returnOf, Option.toList_none, List.append_nil] using ih

/-- The games of the statuses computed are those of the starts. -/
theorem openings_game (os : List Obs) :
    (openings os).map CountdownStatus.game = (starts os).map Prod.snd := by
  rw [openings, starts, List.map_filterMap, List.map_filterMap]
  congr
  funext o
  cases o <;> rfl

/-- **The life of the games.** In a run of any interleaving that starts fewer games than there are
game numbers, at most one deadline is set, the game number counts the starts and tells them apart,
every call returns the number of its own start, the game length never changes, each game's chaos
phase begins at most once, after its time is up, and ends at most once, ten seconds later; no
decision is taken for a game once a later one has started; and the random motor changes are 200
milliseconds apart. From 2 ^ 64 starts on the counter stands still, and games would share a
number. -/
theorem lifecycle (runs : Runs step (start parsed clock seed) es os s)
    (few : (starts os).length < 2 ^ 64) : Lifecycle (gameSeconds parsed) os s := by
  obtain ⟨timeline, lawful⟩ := timely_of_runs runs few
  have answered := answered_of_runs runs
  have opened : ((openings os).map CountdownStatus.game).Nodup := by
    rw [openings_game, timeline.numbered]
    exact List.nodup_range'
  have once := (answered.map CountdownStatus.game).nodup_iff.mp opened
  rw [List.map_append] at once
  exact {
    exclusive := timeline.exclusive
    game := timeline.game
    numbered := timeline.numbered
    answered := answered
    distinct := once.of_append_right
    kept := timeline.kept
    chaosOnce := timeline.chaosOnce
    finishOnce := timeline.finishOnce
    lawful := lawful
    spaced := (paced_of_runs runs).spaced }

/-- A game of one second and its chaos phase, with one random change inside. -/
def oneGame : List Event :=
  [.startGame 0, .startMotor 0, .advance (fromSecs 1), .tick, .choose, .perform,
    .advance (fromSecs 1), .tick, .choose, .perform, .advance (fromSecs 9), .tick, .choose,
    .perform]

/-- The changes and the end of that game are where they should be, and the general law says so of
every order of the sections. -/
theorem lifecycle_one_game :
    ∃ os s, Runs step (start (some 1) 0 1) oneGame os s ∧
      randomChanges os = [fromSecs 1, fromSecs 2] ∧ chaosFinishes os = [(fromSecs 11, 1)] ∧
      Lifecycle 1 os s := by
  have played : (run step (start (some 1) 0 1) oneGame).map
      (fun p => (randomChanges p.2, chaosFinishes p.2, starts p.2)) =
      some ([fromSecs 1, fromSecs 2], [(fromSecs 11, 1)], [(0, 1)]) := by decide +kernel
  obtain ⟨os, s, runs, heq⟩ := runs_of_run played
  obtain ⟨hrandom, hfinish, hstarts⟩ := by simpa only [Prod.mk.injEq] using heq
  exact ⟨os, s, runs, hrandom, hfinish, lifecycle runs (by rw [hstarts]; decide)⟩

end Motorball.Server.System
