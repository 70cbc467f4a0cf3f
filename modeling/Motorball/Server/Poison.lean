import Motorball.Server.System

/-!
# Panics under the countdown lock

`System` leaves a step out where the source would panic. Here such a step is taken: the thread that
panics is gone, what it had written stays, and a lock it held is poisoned, so that every later
`lock().unwrap()` of it panics too.

Two sections hold the countdown lock where they add to an instant: `start_game`, which adds the game
length, and the countdown thread, which adds the length of the chaos phase. The game length is any
64-bit number of seconds from one on, and an instant has only 63 bits for them, so `start_game` can
panic, with the game number already counted up (`start_game_poisons`). `start_game_safe_iff` says
that no lock is lost exactly when these two sums fit.
-/

namespace Motorball.Server

open Transducer

/-- The server with its panics. A section that panics with a lock held poisons it, and every later
`lock().unwrap()` of it panics as well. -/
structure Guarded where
  system : System
  /-- A thread has panicked with the countdown lock held. -/
  poisoned : Bool
  /-- The countdown thread has panicked. -/
  halted : Bool
  deriving DecidableEq

/-- What a step comes to: its observation, or a panic of the thread that made it. -/
inductive Outcome where
  | done (o : System.Obs)
  | panicked
  deriving DecidableEq

namespace Guarded

open Motorball.Server.System (Event)

/-- The server at startup: no lock is poisoned, and the countdown thread runs. -/
def start (parsed : Option UInt64) (clock : Nat) (seed : UInt64) : Guarded :=
  ⟨System.start parsed clock seed, false, false⟩

/-- A step that does not panic. The threads' own model is `System.step`, which refuses what
panics. -/
def quietly (g : Guarded) (e : Event) : Option (Guarded × Outcome) :=
  (g.system.step e).map fun p => ({ g with system := p.1 }, .done p.2)

/-- One step, panics included. A start that overflows leaves the game counted up behind it, and a
chaos phase that does leaves the deadline taken away. -/
def step (g : Guarded) : Event → Option (Guarded × Outcome)
  | .startGame lasted =>
    if g.poisoned then some (g, .panicked)
    else
      let later := g.system.clock + lasted
      match Server.startGame g.system.clock later g.system.countdown with
      | (countdown, none) =>
        some ({ g with system := { g.system with countdown }, poisoned := true }, .panicked)
      | (_, some _) => g.quietly (.startGame lasted)
  | .currentCountdown =>
    if g.poisoned then some (g, .panicked) else g.quietly .currentCountdown
  | .tick => if g.halted then none else g.quietly .tick
  | .choose =>
    match g.halted, g.system.phase with
    | false, .ticked now =>
      if g.poisoned then some ({ g with halted := true }, .panicked)
      else
        match chooseUpdate now g.system.nextMotorChange g.system.countdown with
        | (countdown, none) =>
          some (⟨{ g.system with countdown }, true, true⟩, .panicked)
        | (_, some _) => g.quietly .choose
    | _, _ => none
  | .perform =>
    match g.halted, g.system.phase with
    | false, .decided now update =>
      match performUpdate now g.system.motor g.system.rng g.system.nextMotorChange update with
      -- The motor is written before the sum that panics; its lock is free again by then.
      | none =>
        some ({ g with
          system := { g.system with motor := (randomMotorAction g.system.rng).1 }
          halted := true }, .panicked)
      | some _ => g.quietly .perform
    | _, _ => none
  | .advance elapsed => g.quietly (.advance elapsed)
  | .startMotor call => g.quietly (.startMotor call)
  | .setMotor action => g.quietly (.setMotor action)
  | .apiMotor => g.quietly .apiMotor

/-- The sections that take the countdown lock. The motor has a lock of its own, which no section
panics under while it holds it. -/
def Locks : Event → Prop
  | .startGame _ | .choose | .currentCountdown => True
  | _ => False

/-- A step leaves the countdown lock whole: it does not poison it, it finds it unpoisoned if it
takes it, and a `start_game` that panics has left the countdown as it was. -/
def Unharmed (g : Guarded) (e : Event) : Prop :=
  ∀ g' o, g.step e = some (g', o) → g'.poisoned = false ∧ (Locks e → o ≠ .panicked) ∧
    ∀ lasted, e = .startGame lasted → o = .panicked → g'.system.countdown = g.system.countdown

/-- The deadlines a step sets under the lock are representable: that of a game that is started, and
that of a chaos phase when the time of the game is up. -/
def Fits (g : Guarded) : Event → Prop
  | .startGame _ =>
    g.system.clock + fromSecs g.system.countdown.durationSeconds < instantLimit
  | .choose => ∀ now, g.halted = false → g.system.phase = .ticked now →
      ∀ deadline, g.system.countdown.deadline = some deadline → deadline ≤ now →
        now + fromSecs chaosSeconds < instantLimit
  | _ => True

variable {g g' : Guarded} {e : Event} {o : Outcome}

/-- A step that panics writes the countdown or the motor at most. -/
theorem step_cases (h : g.step e = some (g', o)) :
    g.quietly e = some (g', o) ∨
      o = .panicked ∧ ∃ countdown motor, g'.system = { g.system with countdown, motor } := by
  cases e with
  | advance | startMotor | setMotor | apiMotor => exact Or.inl h
  | startGame =>
    simp only [step] at h
    split at h
    · cases h
      exact Or.inr ⟨rfl, _, _, rfl⟩
    · split at h
      · cases h
        exact Or.inr ⟨rfl, _, _, rfl⟩
      · exact Or.inl h
  | currentCountdown =>
    simp only [step] at h
    split at h
    · cases h
      exact Or.inr ⟨rfl, _, _, rfl⟩
    · exact Or.inl h
  | tick =>
    simp only [step] at h
    split at h
    · cases h
    · exact Or.inl h
  | choose =>
    simp only [step] at h
    split at h
    · split at h
      · cases h
        exact Or.inr ⟨rfl, _, _, rfl⟩
      · split at h
        · cases h
          exact Or.inr ⟨rfl, _, _, rfl⟩
        · exact Or.inl h
    · cases h
  | perform =>
    simp only [step] at h
    split at h
    · split at h
      · cases h
        exact Or.inr ⟨rfl, _, _, rfl⟩
      · exact Or.inl h
    · cases h

/-- A step that does not panic leaves the lock whole, and touches the countdown only as it
should. -/
theorem quietly_unharmed (clean : g.poisoned = false) (h : g.quietly e = some (g', o)) :
    g'.poisoned = false ∧ (Locks e → o ≠ .panicked) ∧
      ∀ lasted, e = .startGame lasted → o = .panicked →
        g'.system.countdown = g.system.countdown := by
  obtain ⟨⟨s, obs⟩, -, heq⟩ := Option.map_eq_some_iff.mp h
  cases heq
  refine ⟨clean, ?_, ?_⟩
  · intro _ panicked
    cases panicked
  · intro _ _ panicked
    cases panicked

/-- The game length is added to the clock exactly when it fits. -/
theorem startGame_none_iff (now later : Nat) (countdown : Countdown) :
    (Server.startGame now later countdown).2 = none ↔
      ¬now + fromSecs countdown.durationSeconds < instantLimit := by
  rw [Server.startGame, after]
  split
  next deadline h =>
    split at h
    next fits => cases h
    next none' => exact iff_of_true rfl none'
  next deadline h =>
    split at h
    next fits => exact iff_of_false (by simp) (not_not_intro fits)
    next none' => cases h

/-- The chaos phase is added to the thread's clock reading exactly when it fits. -/
theorem chooseUpdate_none_iff (now next : Nat) (countdown : Countdown) :
    (chooseUpdate now next countdown).2 = none ↔
      ¬∀ deadline, countdown.deadline = some deadline → deadline ≤ now →
        now + fromSecs chaosSeconds < instantLimit := by
  rw [chooseUpdate, after]
  split
  next expired =>
    obtain ⟨d, hd, hle⟩ := (Option.any_eq_true _ _).mp expired
    have due := of_decide_eq_true hle
    split
    next deadline h =>
      split at h
      next fits => cases h
      next none' => exact iff_of_true rfl fun fits => none' (fits d hd due)
    next deadline h =>
      split at h
      next fits => exact iff_of_false (by simp) (not_not_intro fun _ _ _ => fits)
      next none' => cases h
  next running =>
    have unexpired : ∀ d, countdown.deadline = some d → ¬d ≤ now := by
      intro d hd hle
      exact running ((Option.any_eq_true _ _).mpr ⟨d, hd, decide_eq_true hle⟩)
    refine iff_of_false ?_ (not_not_intro fun d hd hle => absurd hle (unexpired d hd))
    split
    · simp
    · split <;> simp

/-- Where the server steps as without panics it is unharmed. -/
theorem unharmed_of_quietly (clean : g.poisoned = false) (quiet : g.step e = g.quietly e) :
    Unharmed g e :=
  fun _ _ moved => quietly_unharmed clean (quiet ▸ moved)

/-- A step of an unpoisoned server leaves the lock whole exactly when what it sets fits. Of a
poisoned one there is nothing to say; no run that has been unharmed so far leads to it. -/
theorem unharmed_iff (clean : g.poisoned = false) (e : Event) : Unharmed g e ↔ Fits g e := by
  cases e with
  | startGame lasted =>
    have sum := startGame_none_iff g.system.clock (g.system.clock + lasted) g.system.countdown
    rcases hs : Server.startGame g.system.clock (g.system.clock + lasted) g.system.countdown with
      ⟨countdown, _ | status⟩
    · rw [hs] at sum
      refine iff_of_false ?_ (sum.mp rfl)
      intro unharmed
      have moved : g.step (.startGame lasted) =
          some ({ g with system := { g.system with countdown }, poisoned := true }, .panicked) := by
        simp [step, clean, hs]
      cases (unharmed _ _ moved).1
    · rw [hs] at sum
      refine iff_of_true (unharmed_of_quietly clean ?_) (by simpa [Fits] using sum)
      simp [step, clean, hs]
  | choose =>
    cases ready : g.halted with
    | true =>
      refine iff_of_true ?_ fun _ running => by cases ready.symm.trans running
      intro g' o moved
      simp [step, ready] at moved
    | false =>
      cases phase : g.system.phase with
      | idle | decided =>
        refine iff_of_true ?_ fun _ _ ticked => by cases phase.symm.trans ticked
        intro g' o moved
        simp [step, ready, phase] at moved
      | ticked now =>
        have sum := chooseUpdate_none_iff now g.system.nextMotorChange g.system.countdown
        have fits : Fits g .choose ↔ ∀ deadline, g.system.countdown.deadline = some deadline →
            deadline ≤ now → now + fromSecs chaosSeconds < instantLimit := by
          simp [Fits, ready, phase]
        rw [fits]
        rcases hc : chooseUpdate now g.system.nextMotorChange g.system.countdown with
          ⟨countdown, _ | update⟩
        · rw [hc] at sum
          refine iff_of_false ?_ (sum.mp rfl)
          intro unharmed
          have moved : g.step .choose =
              some (⟨{ g.system with countdown }, true, true⟩, .panicked) := by
            simp [step, ready, phase, clean, hc]
          cases (unharmed _ _ moved).1
        · rw [hc] at sum
          refine iff_of_true (unharmed_of_quietly clean ?_) (by simpa using sum)
          simp [step, ready, phase, clean, hc]
  | currentCountdown =>
    exact iff_of_true (unharmed_of_quietly clean (by simp [step, clean])) trivial
  | tick =>
    refine iff_of_true ?_ trivial
    cases running : g.halted with
    | false => exact unharmed_of_quietly clean (by simp [step, running])
    | true =>
      intro g' o moved
      simp [step, running] at moved
  | perform =>
    refine iff_of_true ?_ trivial
    intro g' o moved
    rw [step] at moved
    split at moved
    · split at moved
      · cases moved
        exact ⟨clean, fun locks => locks.elim, fun _ start => by cases start⟩
      · exact quietly_unharmed clean moved
    · cases moved
  | advance | startMotor | setMotor | apiMotor =>
    exact iff_of_true (unharmed_of_quietly clean rfl) trivial

/-- **Starting a game breaks nothing exactly when the deadlines fit.** In every run each step leaves
the lock whole if and only if each finds room for the deadline it sets. The condition is on the
state before the step: the clock, the game length that `main` accepted without a bound, and the
deadlines. -/
theorem start_game_safe_iff (parsed : Option UInt64) (clock : Nat) (seed : UInt64)
    (es : List Event) :
    EachStep step (start parsed clock seed) es Unharmed ↔
      EachStep step (start parsed clock seed) es Fits :=
  eachStep_congr (P := fun g => g.poisoned = false) rfl (fun _ e clean => unharmed_iff clean e)
    fun _ _ g' o _ unharmed moved => (unharmed g' o moved).1

/-- A game length of `2 ^ 63` seconds. The start panics, with the game counted up, and the next
read of the countdown panics too. -/
theorem start_game_poisons :
    ∃ g, Runs step (start (some 0x8000000000000000) 0 1) [.startGame 0, .currentCountdown]
        [.panicked, .panicked] g ∧
      g.poisoned = true ∧ g.system.countdown.game = 1 ∧
      ¬EachStep step (start (some 0x8000000000000000) 0 1) [.startGame 0, .currentCountdown]
        Unharmed := by
  have played : (run step (start (some 0x8000000000000000) 0 1)
      [.startGame 0, .currentCountdown]).map
        (fun p => (p.2, p.1.poisoned, p.1.system.countdown.game)) =
      some ([.panicked, .panicked], true, 1) := by decide +kernel
  obtain ⟨os, g, runs, heq⟩ := runs_of_run played
  simp only [Prod.mk.injEq] at heq
  obtain ⟨rfl, hpoisoned, hgame⟩ := heq
  refine ⟨g, runs, hpoisoned, hgame, ?_⟩
  intro unharmed
  have first := (unharmed_iff rfl (.startGame 0)).mp (eachStep_cons.mp unharmed).1
  exact absurd first
    (by decide : ¬0 + fromSecs (gameSeconds (some 0x8000000000000000)) < instantLimit)

end Guarded

end Motorball.Server
