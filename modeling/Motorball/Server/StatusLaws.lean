import Motorball.Server.Lifecycle

/-!
# The states a game is reported in

Readers of the countdown see a game running, then in chaos, then finished, in this order but for one
gap: the status compares the deadline with the reader's own clock, the chaos phase begins only when
the countdown thread next looks. A read in between reports the game finished; a later read can
report it in chaos. `reports_forward_iff` says that nothing else ever takes a report back.

`Stage` is the life of one game, without the clock. The countdown moves along it (`Follows`), and
what is reported is what the stage shows at the reader's instant.
-/

namespace Motorball.Server

/-! ## Stages -/

/-- Where a game stands. The deadlines are part of it, since what a reader is told depends on them
and on the reader's own clock. -/
inductive Stage where
  | running (deadline : Nat)
  | chaos (deadline : Nat)
  | finished

namespace Stage

/-- The order in which a game passes through its stages. A deadline that is set is never moved
within a game, only taken away. -/
def Precedes : Stage → Stage → Prop
  | running d, running d' => d = d'
  | running _, chaos _ | running _, finished | chaos _, finished | finished, finished => True
  | chaos d, chaos d' => d = d'
  | chaos _, running _ | finished, running _ | finished, chaos _ => False

/-- A game that has not moved is where it was. -/
theorem Precedes.refl (a : Stage) : a.Precedes a := by
  cases a with
  | running | chaos => exact Eq.refl _
  | finished => trivial

/-- The order composes, so it need only be proved of single steps. -/
theorem Precedes.trans {a b c : Stage} (h : a.Precedes b) (h' : b.Precedes c) : a.Precedes c := by
  cases a <;> cases b <;> cases c <;> simp_all [Precedes]

/-- What a reader whose clock shows `now` is told. Past the deadline a running game is told to be
finished, until its chaos phase has begun. -/
def shown (now : Nat) : Stage → GameState
  | running d => if now < d then .running else .finished
  | chaos d => if now < d then .chaos else .finished
  | finished => .finished

end Stage

/-- The order in which a game should be reported: running, then chaos, then finished. Idle comes
before every game. -/
def GameState.rank : GameState → Nat
  | .idle => 0
  | .running => 1
  | .chaos => 2
  | .finished => 3

/-- A later stage at a later instant is not shown as an earlier state, unless it is a chaos phase
after an expired game. -/
theorem Stage.Precedes.shown {a b : Stage} (h : a.Precedes b) {now now' : Nat}
    (later : now ≤ now') :
    (a.shown now).rank ≤ (b.shown now').rank ∨
      ∃ d d', a = running d ∧ d ≤ now ∧ b = chaos d' ∧ now' < d' := by
  cases a with
  | running d =>
    cases b with
    | running d' =>
      left
      cases h
      by_cases before : now' < d
      · simp only [Stage.shown, before, Nat.lt_of_le_of_lt later before, if_true, Nat.le_refl]
      · by_cases expired : now < d <;> simp [Stage.shown, before, expired, GameState.rank]
    | chaos d' =>
      by_cases expired : d ≤ now
      · by_cases going : now' < d'
        · exact Or.inr ⟨d, d', rfl, expired, rfl, going⟩
        · left
          simp [Stage.shown, going, Nat.not_lt_of_le expired, GameState.rank]
      · left
        by_cases going : now' < d' <;>
          simp [Stage.shown, going, Nat.lt_of_not_le expired, GameState.rank]
    | finished =>
      left
      by_cases before : now < d <;> simp [Stage.shown, before, GameState.rank]
  | chaos d =>
    left
    cases b with
    | running => exact h.elim
    | chaos d' =>
      cases h
      by_cases before : now' < d
      · simp only [Stage.shown, before, Nat.lt_of_le_of_lt later before, if_true, Nat.le_refl]
      · by_cases expired : now < d <;> simp [Stage.shown, before, expired, GameState.rank]
    | finished => by_cases before : now < d <;> simp [Stage.shown, before, GameState.rank]
  | finished =>
    left
    cases b with
    | running | chaos => exact h.elim
    | finished => exact Nat.le_refl _

/-- The stage of the countdown's game, by which deadline is set; both never are. -/
def Countdown.stage (c : Countdown) : Stage :=
  match c.deadline, c.chaosDeadline with
  | some d, _ => .running d
  | none, some d => .chaos d
  | none, none => .finished

/-- The status shows the stage, once a game has been started. The hypotheses rule out what no run
leads to: two deadlines at once, and a state other than idle with no game. -/
theorem countdownStatus_state {c : Countdown}
    (exclusive : c.deadline = none ∨ c.chaosDeadline = none)
    (played : 0 < c.game) (now : Nat) : (countdownStatus c now).state = c.stage.shown now := by
  obtain ⟨duration, deadline, chaosDeadline, game⟩ := c
  have played : 0 < game := played
  rcases exclusive with hnone | hnone <;> cases hnone
  · cases chaosDeadline with
    | none => simp [countdownStatus, Countdown.stage, Stage.shown, played]
    | some d =>
      by_cases going : now < d <;>
        simp [countdownStatus, Countdown.stage, Stage.shown, played, going, Option.filter]
  · cases deadline with
    | none => simp [countdownStatus, Countdown.stage, Stage.shown, played]
    | some d =>
      by_cases going : now < d <;>
        simp [countdownStatus, Countdown.stage, Stage.shown, played, going, Option.filter]

namespace System

open Transducer

variable {es : List Event} {os : List Obs} {s s' t u : System} {e : Event} {o : Obs}
  {parsed : Option UInt64} {clock : Nat} {seed : UInt64}

/-! ## The countdown moves along the stages -/

/-- A later state of the system: a later game, or the same game at the same or a later stage. The
clock has not gone back either way. -/
def Follows (s t : System) : Prop :=
  s.clock ≤ t.clock ∧
    (s.countdown.game < t.countdown.game ∨
      s.countdown.game = t.countdown.game ∧ s.countdown.stage.Precedes t.countdown.stage)

/-- A state follows itself, where no step has been made. -/
theorem Follows.refl (s : System) : Follows s s :=
  ⟨Nat.le_refl _, Or.inr ⟨rfl, Stage.Precedes.refl _⟩⟩

/-- States that follow one another, over any number of steps. -/
theorem Follows.trans (h : Follows s t) (h' : Follows t u) : Follows s u := by
  obtain ⟨clock, games⟩ := h
  obtain ⟨clock', games'⟩ := h'
  refine ⟨Nat.le_trans clock clock', ?_⟩
  rcases games with earlier | ⟨same, stages⟩
  · left
    rcases games' with earlier' | ⟨same', -⟩
    · exact Nat.lt_trans earlier earlier'
    · exact same' ▸ earlier
  · rcases games' with earlier' | ⟨same', stages'⟩
    · exact Or.inl (same ▸ earlier')
    · exact Or.inr ⟨same.trans same', stages.trans stages'⟩

/-- A move that leaves the countdown alone. -/
theorem Follows.quiet (clock : s.clock ≤ s'.clock) (countdown : s'.countdown = s.countdown) :
    Follows s s' :=
  ⟨clock, Or.inr ⟨by rw [countdown], by rw [countdown]; exact Stage.Precedes.refl _⟩⟩

/-- Every step leads to a state that follows. A start needs room for its number: at the last of them
the count stays, and a new game would go by the number of the old one. -/
theorem follows_step (moved : Moved s e s' o)
    (room : ∀ lasted, e = .startGame lasted → s.countdown.game + 1 < 2 ^ 64) : Follows s s' := by
  cases moved with
  | startGame lasted status countdown opened shown =>
    refine ⟨Nat.le_add_right _ _, Or.inl ?_⟩
    rw [opened]
    show s.countdown.game < Arith.saturatingAdd 64 s.countdown.game 1
    rw [next_game _ (room lasted rfl)]
    exact Nat.lt_succ_self _
  | startChaos now d ticked runs expired =>
    refine ⟨Nat.le_refl _, Or.inr ⟨rfl, ?_⟩⟩
    simp only [Countdown.stage, runs]
    trivial
  | finishChaos now d ticked unexpired chaos expired =>
    refine ⟨Nat.le_refl _, Or.inr ⟨rfl, ?_⟩⟩
    cases hdeadline : s.countdown.deadline with
    | none => simp only [Countdown.stage, hdeadline, chaos]; trivial
    | some d' => simp only [Countdown.stage, hdeadline]; exact Eq.refl _
  | advance elapsed => exact Follows.quiet (Nat.le_add_right _ _) rfl
  | startMotor | tick | changeMotor | noUpdate | performRandom | performFinish | performNone
  | setMotor | refuseMotor | currentCountdown | apiMotor =>
    exact Follows.quiet (Nat.le_refl _) rfl

/-- What comes after a state of a run follows it. -/
theorem follows_of_runs {js : List Event} {ps : List Obs}
    (first : Runs step (start parsed clock seed) es os s) (rest : Runs step s js ps t)
    (few : (starts (os ++ ps)).length < 2 ^ 64) : Follows s t := by
  induction rest with
  | nil => exact Follows.refl s
  | @snoc js ps u t e o before last ih =>
    rw [← List.append_assoc] at few
    refine (ih (few_of_append few)).trans (follows_step (step_moved last) ?_)
    rintro lasted rfl
    have counted := (timely_of_runs (first.trans before) (few_of_append few)).timeline.game
    cases step_moved last with
    | startGame =>
      rw [counted]
      rwa [starts_snoc, List.length_append] at few

/-! ## Reports -/

/-- The status a reader was given, whoever read it: the route, the logger or the display. -/
def reportOf : Obs → Option CountdownStatus
  | .reported status => some status
  | _ => none

/-- All that readers were given in a run, in the order of the reads. -/
def reports (os : List Obs) : List CountdownStatus := os.filterMap reportOf

/-- The reports of one and the same game run forward: running, then chaos, then finished. Nothing is
asked between different games, nor of reports before the first one. -/
def Forward (reports : List CountdownStatus) : Prop :=
  reports.Pairwise fun earlier later =>
    0 < earlier.game → earlier.game = later.game → earlier.state.rank ≤ later.state.rank

/-- The game has expired and its chaos phase has not begun: the countdown thread has yet to look. -/
def Gap (s : System) : Prop := ∃ d, s.countdown.deadline = some d ∧ d ≤ s.clock

/-- The chaos phase is on, and its deadline ahead, so a reader is told of it. -/
def InChaos (s : System) : Prop := ∃ d, s.countdown.chaosDeadline = some d ∧ s.clock < d

/-- The countdown is read in the gap of a game, and again in the chaos phase of the same game. All
of this is said of the states before the two reads, not of what they report. -/
def Relapse (s₀ : System) (es : List Event) : Prop :=
  ∃ before between after os ps s t,
    es = before ++ .currentCountdown :: (between ++ .currentCountdown :: after) ∧
      Runs step s₀ before os s ∧ Runs step s (.currentCountdown :: between) ps t ∧
      Gap s ∧ InChaos t ∧ t.countdown.game = s.countdown.game

/-- A read changes nothing and reports the status of the state. -/
theorem reported_inv {status : CountdownStatus} (moved : Moved s e s' (.reported status)) :
    e = .currentCountdown ∧ s' = s ∧ status = countdownStatus s.countdown s.clock := by
  cases moved with
  | currentCountdown => exact ⟨rfl, rfl, rfl⟩

/-- A report was made at some point of the run. -/
theorem mem_reports {status : CountdownStatus} (h : status ∈ reports os) :
    ∃ before after, os = before ++ .reported status :: after := by
  obtain ⟨o, ho, heq⟩ := List.mem_filterMap.mp h
  obtain ⟨before, after, rfl⟩ := List.append_of_mem ho
  cases o with
  | reported status' => cases heq; exact ⟨before, after, rfl⟩
  | _ => cases heq

/-- Two reads of a run: the second does not report an earlier state of the same game, unless the
game relapses in between. -/
theorem reads_forward {js : List Event} {ps : List Obs}
    (first : Runs step (start parsed clock seed) es os s) (rest : Runs step s js ps t)
    (few : (starts (os ++ ps)).length < 2 ^ 64)
    (played : 0 < (countdownStatus s.countdown s.clock).game)
    (same : (countdownStatus s.countdown s.clock).game =
      (countdownStatus t.countdown t.clock).game) :
    (countdownStatus s.countdown s.clock).state.rank ≤
        (countdownStatus t.countdown t.clock).state.rank ∨
      Gap s ∧ InChaos t := by
  rw [countdownStatus_game] at played
  rw [countdownStatus_game, countdownStatus_game] at same
  have exclusive := exclusive_of_runs first
  have exclusive' := exclusive_of_runs (first.trans rest)
  rw [countdownStatus_state exclusive played, countdownStatus_state exclusive' (same ▸ played)]
  obtain ⟨later, earlier | ⟨-, stages⟩⟩ := follows_of_runs first rest few
  · exact absurd same (Nat.ne_of_lt earlier)
  · refine (stages.shown later).imp_right ?_
    rintro ⟨d, d', hs, expired, ht, going⟩
    constructor
    · refine ⟨d, ?_, expired⟩
      unfold Countdown.stage at hs
      split at hs <;> simp_all
    · refine ⟨d', ?_, going⟩
      unfold Countdown.stage at ht
      split at ht <;> simp_all

/-- The reports of a run, one observation later. -/
theorem reports_snoc (os : List Obs) (o : Obs) :
    reports (os ++ [o]) = reports os ++ (reportOf o).toList := filterMap_snoc _ _ _

/-- The rule for the reports of a run: what holds of any two reads of it, made in the states `u` and
`v`, holds of its reports pairwise. Later proofs are then about two states of a run and not about
lists. -/
theorem reports_pairwise {P : CountdownStatus → CountdownStatus → Prop} {s₀ : System}
    (runs : Runs step s₀ es os s)
    (pairs : ∀ before between after ps qs rs u v,
      es = before ++ .currentCountdown :: (between ++ .currentCountdown :: after) →
      os = ps ++ qs ++ rs → Runs step s₀ before ps u →
      Runs step u (.currentCountdown :: between) qs v →
      P (countdownStatus u.countdown u.clock) (countdownStatus v.countdown v.clock)) :
    (reports os).Pairwise P := by
  induction runs with
  | nil => exact List.Pairwise.nil
  | @snoc es os v v' e o first last ih =>
    have old : (reports os).Pairwise P := by
      apply ih
      intro before between after ps qs rs u w hes hos
      apply pairs before between (after ++ [e]) ps qs (rs ++ [o]) u w
      · rw [hes]; simp
      · rw [hos]; simp
    rw [reports_snoc]
    refine List.pairwise_append.mpr ⟨old, ?_, ?_⟩
    · cases reportOf o with
      | none => exact List.Pairwise.nil
      | some status => exact List.pairwise_singleton _ _
    · intro earlier hearlier later hlater
      cases o with
      | reported status =>
        cases List.mem_singleton.mp hlater
        obtain ⟨rfl, rfl, rfl⟩ := reported_inv (step_moved last)
        obtain ⟨ps, qs, rfl⟩ := mem_reports hearlier
        obtain ⟨before, i, between, u, u', rfl, reached, read, rest⟩ := first.at_output rfl
        obtain ⟨rfl, rfl, rfl⟩ := reported_inv (step_moved read)
        exact pairs before between [] ps (_ :: qs) [_] _ _ (by simp) rfl reached
          (Runs.cons read rest)
      | _ => cases hlater

/-- The game number stays within 64 bits, and never decreases. -/
theorem game_step (bounded : s.countdown.game < 2 ^ 64) (moved : Moved s e s' o) :
    s'.countdown.game < 2 ^ 64 ∧ s.countdown.game ≤ s'.countdown.game := by
  cases moved with
  | startGame lasted status countdown opened shown =>
    rw [opened]
    simp only [Arith.saturatingAdd]
    omega
  | advance | startMotor | tick | startChaos | finishChaos | changeMotor | noUpdate
  | performRandom | performFinish | performNone | setMotor | refuseMotor | currentCountdown
  | apiMotor => exact ⟨bounded, Nat.le_refl _⟩

/-- The game number over a whole run. -/
theorem game_of_runs {js : List Event} {ps : List Obs} (bounded : s.countdown.game < 2 ^ 64)
    (rest : Runs step s js ps t) :
    t.countdown.game < 2 ^ 64 ∧ s.countdown.game ≤ t.countdown.game := by
  induction rest with
  | nil => exact ⟨bounded, Nat.le_refl _⟩
  | snoc _ last ih =>
    obtain ⟨bounded', grown⟩ := game_step ih.1 (step_moved last)
    exact ⟨bounded', Nat.le_trans ih.2 grown⟩

/-- No reader is ever given an earlier game after a later one. -/
theorem reports_sorted (runs : Runs step (start parsed clock seed) es os s) :
    (reports os).Pairwise fun earlier later => earlier.game ≤ later.game := by
  apply reports_pairwise runs
  intro before between after ps qs rs u v _ _ first rest
  rw [countdownStatus_game, countdownStatus_game]
  have bounded := (game_of_runs (Nat.two_pow_pos 64) first).1
  exact (game_of_runs bounded rest).2

/-- Without a relapse the reports run forward: the one way back that the stages leave open is the
relapse. -/
theorem forward_of_runs (runs : Runs step (start parsed clock seed) es os s)
    (few : (starts os).length < 2 ^ 64) (steady : ¬Relapse (start parsed clock seed) es) :
    Forward (reports os) := by
  apply reports_pairwise runs
  intro before between after ps qs rs u v hes hos first rest played same
  rw [hos] at few
  rcases reads_forward first rest (few_of_append few) played same with forward | ⟨gap, chaos⟩
  · exact forward
  · rw [countdownStatus_game, countdownStatus_game] at same
    exact absurd ⟨before, between, after, ps, qs, u, v, hes, first, rest, gap, chaos, same.symm⟩
      steady

/-- A game whose deadline is set has been started, and so has a number. -/
theorem game_pos_of_running (runs : Runs step (start parsed clock seed) es os s)
    (few : (starts os).length < 2 ^ 64) {d : Nat} (running : s.countdown.deadline = some d) :
    0 < s.countdown.game := by
  obtain ⟨timeline, -⟩ := timely_of_runs runs few
  obtain ⟨⟨at₀, opened, -⟩, -⟩ := timeline.running d running
  rw [timeline.game]
  exact List.length_pos_of_mem opened

/-- In its gap a game is reported finished. -/
theorem Gap.reported (gap : Gap s)
    (exclusive : s.countdown.deadline = none ∨ s.countdown.chaosDeadline = none)
    (played : 0 < s.countdown.game) :
    (countdownStatus s.countdown s.clock).state = .finished := by
  obtain ⟨d, running, expired⟩ := gap
  rw [countdownStatus_state exclusive played, Countdown.stage, running]
  exact if_neg (Nat.not_lt_of_le expired)

/-- In its chaos phase a game is reported so. -/
theorem InChaos.reported (inChaos : InChaos s)
    (exclusive : s.countdown.deadline = none ∨ s.countdown.chaosDeadline = none)
    (played : 0 < s.countdown.game) :
    (countdownStatus s.countdown s.clock).state = .chaos := by
  obtain ⟨d, chaos, going⟩ := inChaos
  have stopped : s.countdown.deadline = none := by
    rcases exclusive with hnone | hnone
    · exact hnone
    · exact nomatch hnone.symm.trans chaos
  rw [countdownStatus_state exclusive played, Countdown.stage, stopped, chaos]
  exact if_pos going

/-- A relapse reports the game finished and then in chaos. -/
theorem not_forward_of_relapse (runs : Runs step (start parsed clock seed) es os s)
    (few : (starts os).length < 2 ^ 64) (relapse : Relapse (start parsed clock seed) es) :
    ¬Forward (reports os) := by
  obtain ⟨before, between, after, os₁, ps, u, v, rfl, first, middle, gap, chaos, same⟩ := relapse
  have hsplit : before ++ .currentCountdown :: (between ++ .currentCountdown :: after) =
      (before ++ .currentCountdown :: between) ++ .currentCountdown :: after := by simp
  rw [hsplit] at runs
  obtain ⟨v', os₂, qs, rfl, reached, rest⟩ := runs.split
  obtain ⟨rfl, rfl⟩ := (first.trans middle).deterministic reached
  obtain ⟨w, o, qs', rfl, read, -⟩ := rest.first_step
  obtain ⟨w', o', ps', rfl, read', -⟩ := middle.first_step
  cases step_moved read with
  | currentCountdown =>
    cases step_moved read' with
    | currentCountdown =>
      have both : List.Sublist
          ([countdownStatus u.countdown u.clock] ++ [countdownStatus v.countdown v.clock])
          (reports (os₁ ++ .reported (countdownStatus u.countdown u.clock) :: ps' ++
            .reported (countdownStatus v.countdown v.clock) :: qs')) := by
        rw [reports, List.filterMap_append]
        refine List.Sublist.append (List.singleton_sublist.mpr ?_)
          (List.singleton_sublist.mpr ?_)
        · exact List.mem_filterMap.mpr
            ⟨.reported (countdownStatus u.countdown u.clock), by simp, rfl⟩
        · exact List.mem_filterMap.mpr
            ⟨.reported (countdownStatus v.countdown v.clock), by simp, rfl⟩
      have fewFirst := few_of_append (few_of_append few)
      have played := game_pos_of_running first fewFirst gap.choose_spec.1
      have shownFirst := gap.reported (exclusive_of_runs first) played
      have shownLater := chaos.reported (exclusive_of_runs reached) (same ▸ played)
      intro forward
      have pair := (List.pairwise_cons.mp (List.Pairwise.sublist both forward)).1 _
        (List.mem_singleton.mpr rfl)
      rw [countdownStatus_game, countdownStatus_game, shownFirst, shownLater] at pair
      exact absurd (pair played same.symm) (by decide)

/-- **When the public state never goes backwards.** In a run that starts fewer games than there are
game numbers, the reports of each game run forward exactly when the game is not read in its gap and
again in its chaos phase. The bound on the starts is what makes a number stand for one game; the
counter saturates. -/
theorem reports_forward_iff (runs : Runs step (start parsed clock seed) es os s)
    (few : (starts os).length < 2 ^ 64) :
    Forward (reports os) ↔ ¬Relapse (start parsed clock seed) es :=
  ⟨fun forward relapse => not_forward_of_relapse runs few relapse forward,
    forward_of_runs runs few⟩

/-- A game read when it runs, in its chaos phase and after it. -/
def readGame : List Event :=
  [.startGame 0, .startMotor 0, .currentCountdown, .advance (fromSecs 1), .tick, .choose, .perform,
    .currentCountdown, .advance (fromSecs 10), .currentCountdown]

/-- The reads are not in the gap, so the reports run forward. -/
theorem reports_forward_read_game :
    ∃ os s, Runs step (start (some 1) 0 1) readGame os s ∧
      (reports os).map CountdownStatus.state = [.running, .chaos, .finished] ∧
      ¬Relapse (start (some 1) 0 1) readGame := by
  have played : (run step (start (some 1) 0 1) readGame).map
      (fun p => (reports p.2, starts p.2)) =
      some ([⟨.running, 1, 1, 1⟩, ⟨.chaos, 10, 1, 1⟩, ⟨.finished, 0, 1, 1⟩], [(0, 1)]) := by
    decide +kernel
  obtain ⟨os, s, runs, heq⟩ := runs_of_run played
  obtain ⟨hreports, hstarts⟩ := by simpa only [Prod.mk.injEq] using heq
  refine ⟨os, s, runs, by rw [hreports]; rfl, (reports_forward_iff runs ?_).mp ?_⟩
  · rw [hstarts]; decide
  · rw [hreports, Forward]; decide

/-- A game read when it has expired, before the countdown thread looks, and after. -/
def gapRead : List Event :=
  [.startGame 0, .startMotor 0, .advance (fromSecs 1), .currentCountdown, .tick, .choose, .perform,
    .currentCountdown]

/-- It is reported finished, and then in chaos. -/
theorem gap_read_goes_back :
    ∃ os s, Runs step (start (some 1) 0 1) gapRead os s ∧
      reports os = [⟨.finished, 0, 1, 1⟩, ⟨.chaos, 10, 1, 1⟩] ∧ ¬Forward (reports os) := by
  have played : (run step (start (some 1) 0 1) gapRead).map (fun p => reports p.2) =
      some [⟨.finished, 0, 1, 1⟩, ⟨.chaos, 10, 1, 1⟩] := by decide +kernel
  obtain ⟨os, s, runs, hreports⟩ := runs_of_run played
  exact ⟨os, s, runs, hreports, by rw [hreports, Forward]; decide⟩

end System

end Motorball.Server
