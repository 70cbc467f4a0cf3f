import Motorball.Server.Poison

/-!
# After a panic under the countdown lock

What is left of the server once its countdown lock is poisoned: the clock, the requests to the motor
and what was already decided. `Left` lists it, `Frozen` is the account of a run from there on, and
`nothing_starts_after_a_panic` says that no game starts, ends or is shown again, so that the motor
is in the hands of the requests alone.
-/

namespace Motorball.Server.Guarded

open Transducer
open Motorball.Server.System (Event Moved step_moved parseAction)

variable {g g' t t' : Guarded} {e : Event} {es es' : List Event} {o : Outcome}
  {os os' : List Outcome} {parsed : Option UInt64} {clock : Nat} {seed : UInt64}

/-! ## The steps that are left -/

/-- Every way a poisoned server moves. Time goes on, the motor is written, and whoever comes for the
countdown panics. -/
inductive Left (g : Guarded) : Event → Guarded → Outcome → Prop
  | quiet (e : Event) (system : System) (obs : System.Obs) (unlocked : ¬Locks e)
      (running : e = .perform → g.halted = false) (moved : Moved g.system e system obs) :
      Left g e { g with system } (.done obs)
  | startGame (lasted : Nat) : Left g (.startGame lasted) g .panicked
  | currentCountdown : Left g .currentCountdown g .panicked
  | halt : Left g .choose { g with halted := true } .panicked
  | performHalt (now : Nat) (update : Update) (motor : MotorAction) (running : g.halted = false)
      (decided : g.system.phase = .decided now update) :
      Left g .perform { g with system := { g.system with motor }, halted := true } .panicked

/-- Each step of a poisoned server is one of these moves. -/
theorem step_left (poisoned : g.poisoned = true) (h : g.step e = some (g', o)) : Left g e g' o := by
  have quietly : ∀ {e g' o}, ¬Locks e → (e = .perform → g.halted = false) →
      g.quietly e = some (g', o) → Left g e g' o := by
    intro e g' o unlocked running h
    obtain ⟨⟨system, obs⟩, moved, heq⟩ := Option.map_eq_some_iff.mp h
    cases heq
    exact .quiet e system obs unlocked running (step_moved moved)
  cases e with
  | startGame lasted =>
    rw [step, if_pos poisoned] at h
    cases h
    exact .startGame lasted
  | currentCountdown =>
    rw [step, if_pos poisoned] at h
    cases h
    exact .currentCountdown
  | tick =>
    rw [step] at h
    split at h
    · cases h
    · exact quietly id (by rintro ⟨⟩) h
  | choose =>
    rw [step] at h
    split at h
    · rw [if_pos poisoned] at h
      cases h
      exact .halt
    · cases h
  | perform =>
    rw [step] at h
    split at h
    next now update running decided =>
      split at h
      · cases h
        exact .performHalt now update _ running decided
      · exact quietly id (fun _ => running) h
    · cases h
  | advance | startMotor | setMotor | apiMotor => exact quietly id (by rintro ⟨⟩) h

/-- A panic under the lock poisons it; finding it poisoned leaves it so. -/
theorem poisoned_of_panic (locks : Locks e) (h : g.step e = some (g', .panicked)) :
    g'.poisoned = true := by
  have loud : ∀ {g'}, g.quietly e ≠ some (g', .panicked) := by
    intro g' quiet
    obtain ⟨_, -, heq⟩ := Option.map_eq_some_iff.mp quiet
    cases heq
  cases e with
  | startGame =>
    simp only [step] at h
    split at h
    next poisoned =>
      cases h
      exact poisoned
    · split at h
      · cases h
        rfl
      · exact absurd h loud
  | currentCountdown =>
    rw [step] at h
    split at h
    next poisoned =>
      cases h
      exact poisoned
    · exact absurd h loud
  | choose =>
    rw [step] at h
    split at h
    · split at h
      next poisoned =>
        cases h
        exact poisoned
      · split at h
        · cases h
          rfl
        · exact absurd h loud
    · cases h
  | advance | startMotor | tick | perform | setMotor | apiMotor => exact absurd locks id

/-! ## The account of a run -/

/-- The command that a request gives. The motor's routes do not touch the countdown lock, so they
still work. -/
def commandOf : Event → Option MotorAction
  | .setMotor action => parseAction action
  | _ => none

/-- The last command that requests have given, if any has been. -/
def lastCommand (es : List Event) : Option MotorAction := (es.filterMap commandOf).getLast?

/-- The second section of a `start_game` call, which takes the motor lock alone. -/
def finishes : Event → Bool
  | .startMotor _ => true
  | _ => false

/-- The update that the countdown thread has still to perform: one that it decided before it found
the lock poisoned. -/
def owed (g : Guarded) : Option Update := if g.halted then none else g.system.phase.pending

/-- What a poisoned server has done since it was `g`. The calls and the update that were past the
lock are counted off, as each writes the motor once. -/
structure Frozen (g : Guarded) (es : List Event) (os : List Outcome) (t : Guarded) : Prop where
  poisoned : t.poisoned = true
  countdown : t.system.countdown = g.system.countdown
  panics : List.Forall₂ (fun e o => Locks e → o = .panicked) es os
  calls : es.countP finishes + t.system.calls.length = g.system.calls.length
  performs : es.count .perform + t.owed.toList.length ≤ g.owed.toList.length
  halted : .choose ∈ es → t.halted = true
  motor : g.system.calls = [] → g.owed = none →
    t.system.motor = (lastCommand es).getD g.system.motor

/-- The last command, one event later. -/
theorem lastCommand_snoc (es : List Event) (e : Event) :
    lastCommand (es ++ [e]) = (commandOf e).or (lastCommand es) := by
  rw [lastCommand, filterMap_snoc]
  cases commandOf e with
  | none => rw [Option.toList_none, List.append_nil, Option.none_or, lastCommand]
  | some action => rw [Option.toList_some, List.getLast?_concat, Option.some_or]

/-- A step that writes no motor but by request. -/
theorem Frozen.quiet (h : Frozen g es os t) (poisoned : t'.poisoned = t.poisoned)
    (countdown : t'.system.countdown = t.system.countdown) (panics : Locks e → o = .panicked)
    (open' : finishes e = false) (calls : t'.system.calls = t.system.calls)
    (unperformed : e ≠ .perform) (owed : t'.owed.toList.length ≤ t.owed.toList.length)
    (halted : e = .choose ∨ t.halted = true → t'.halted = true)
    (motor : t'.system.motor = (commandOf e).getD t.system.motor) :
    Frozen g (es ++ [e]) (os ++ [o]) t' where
  poisoned := poisoned.trans h.poisoned
  countdown := countdown.trans h.countdown
  panics := forall₂_snoc.mpr ⟨h.panics, panics⟩
  calls := by
    rw [List.countP_append, List.countP_singleton, open', calls]
    exact h.calls
  performs := by
    rw [List.count_append, List.count_singleton, if_neg (by simpa using unperformed)]
    exact Nat.le_trans (Nat.add_le_add_left owed _) h.performs
  halted chosen := by
    rw [List.mem_append, List.mem_singleton] at chosen
    exact halted (chosen.symm.imp Eq.symm h.halted)
  motor none' idle := by
    rw [motor, lastCommand_snoc, h.motor none' idle]
    cases commandOf e <;> rfl

/-- The update that was owed is performed, or panics when the next change is beyond the clock.
Either way it is not owed any more. -/
theorem Frozen.perform (h : Frozen g es os t) (poisoned : t'.poisoned = t.poisoned)
    (countdown : t'.system.countdown = t.system.countdown)
    (calls : t'.system.calls = t.system.calls) (halted : t.halted = true → t'.halted = true)
    (decided : t.owed ≠ none) (performed : t'.owed = none) :
    Frozen g (es ++ [.perform]) (os ++ [o]) t' where
  poisoned := poisoned.trans h.poisoned
  countdown := countdown.trans h.countdown
  panics := forall₂_snoc.mpr ⟨h.panics, False.elim⟩
  calls := by
    rw [List.countP_append, List.countP_singleton, if_neg (by decide), calls]
    exact h.calls
  performs := by
    obtain ⟨update, owed⟩ := Option.ne_none_iff_exists'.mp decided
    have performs := h.performs
    rw [owed, Option.toList_some, List.length_singleton] at performs
    rw [List.count_append, List.count_singleton_self, performed]
    exact performs
  halted chosen := by
    rw [List.mem_append, List.mem_singleton] at chosen
    exact halted (h.halted (chosen.resolve_right nofun))
  motor _ idle := by
    -- Nothing was owed at the start, so nothing is now.
    have performs := h.performs
    rw [idle, Option.toList_none, List.length_nil] at performs
    refine absurd ?_ decided
    rw [← Option.toList_eq_nil_iff, ← List.length_eq_zero_iff]
    omega

/-- A `start_game` call that was past the lock writes the motor, and is one less. -/
theorem Frozen.startMotor (h : Frozen g es os t) {call : Nat} {c : StartCall}
    (waits : t.system.calls[call]? = some c) :
    Frozen g (es ++ [.startMotor call]) (os ++ [o])
      { t with system := { t.system with
        motor := .start, calls := t.system.calls.eraseIdx call } } where
  poisoned := h.poisoned
  countdown := h.countdown
  panics := forall₂_snoc.mpr ⟨h.panics, False.elim⟩
  calls := by
    have inside := (List.getElem?_eq_some_iff.mp waits).1
    have erased := List.length_eraseIdx_of_lt inside
    have calls := h.calls
    rw [List.countP_append, List.countP_singleton]
    show es.countP finishes + 1 + (t.system.calls.eraseIdx call).length = _
    omega
  performs := by
    rw [List.count_append, List.count_singleton, if_neg (by simp)]
    exact h.performs
  halted chosen := by
    rw [List.mem_append, List.mem_singleton] at chosen
    exact h.halted (chosen.resolve_right nofun)
  motor none' _ := by
    have inside := (List.getElem?_eq_some_iff.mp waits).1
    have calls := h.calls
    rw [none', List.length_nil] at calls
    omega

/-- Every move of a poisoned server adds to the account. -/
theorem Frozen.step (h : Frozen g es os t) (left : Left t e t' o) :
    Frozen g (es ++ [e]) (os ++ [o]) t' := by
  cases left with
  | startGame | currentCountdown =>
    exact h.quiet rfl rfl (fun _ => rfl) rfl rfl nofun (Nat.le_refl _)
      (fun halted => halted.resolve_left nofun) rfl
  | halt =>
    exact h.quiet rfl rfl (fun _ => rfl) rfl rfl nofun (Nat.zero_le _) (fun _ => rfl) rfl
  | performHalt now update motor running decided =>
    refine h.perform rfl rfl rfl (fun _ => rfl) ?_ rfl
    rw [owed, running, decided]
    exact nofun
  | quiet e system obs unlocked running moved =>
    cases moved with
    | startGame | startChaos | finishChaos | changeMotor | noUpdate | currentCountdown =>
      exact absurd trivial unlocked
    | advance | apiMotor =>
      exact h.quiet rfl rfl False.elim rfl rfl nofun (Nat.le_refl _)
        (fun halted => halted.resolve_left nofun) rfl
    | setMotor action new parsed | refuseMotor action parsed =>
      exact h.quiet rfl rfl False.elim rfl rfl nofun (Nat.le_refl _)
        (fun halted => halted.resolve_left nofun) (by rw [commandOf, parsed]; rfl)
    | tick idle =>
      refine h.quiet rfl rfl False.elim rfl rfl nofun ?_ (fun halted => halted.resolve_left nofun)
        rfl
      rw [owed]
      split <;> exact Nat.zero_le _
    | startMotor call c waits => exact h.startMotor waits
    | performRandom now _ _ _ decided | performFinish now _ decided | performNone now decided =>
      have alive := running rfl
      refine h.perform rfl rfl rfl id ?_ ?_
      · rw [owed, alive, decided]
        exact nofun
      · rw [owed, alive]
        rfl

/-- The account of a whole run after the panic. -/
theorem frozen_of_runs (poisoned : g.poisoned = true) (runs : Runs step g es os t) :
    Frozen g es os t := by
  induction runs with
  | nil =>
    exact ⟨poisoned, rfl, .nil, Nat.zero_add _, Nat.le_of_eq (Nat.zero_add _), nofun,
      fun _ _ => rfl⟩
  | snoc _ last ih => exact ih.step (step_left ih.poisoned last)

/-- **Nothing starts after a panic.** Once a section has panicked with the countdown lock, then
whatever comes: the countdown stays as it was left, and every section under its lock panics, so that
no game starts, ends or is shown again. The motor is still written by the calls that were past the
lock, each once, and by the update that was decided, once; with none of these it is what the last
request has made of it. The run up to the panic may be any; that the lock is poisoned is concluded
from it. -/
theorem nothing_starts_after_a_panic
    (runs : Runs step (start parsed clock seed) (es ++ [e]) (os ++ [.panicked]) g) (locks : Locks e)
    (later : Runs step g es' os' t) :
    t.system.countdown = g.system.countdown ∧
      List.Forall₂ (fun e o => Locks e → o = .panicked) es' os' ∧
      (.choose ∈ es' → t.halted = true) ∧
      es'.countP finishes + t.system.calls.length = g.system.calls.length ∧
      es'.count .perform + t.owed.toList.length ≤ g.owed.toList.length ∧
      (g.system.calls = [] → g.owed = none →
        t.system.motor = (lastCommand es').getD g.system.motor) := by
  obtain ⟨s, os₁, o, heq, first, moved⟩ := runs.last_step
  obtain ⟨-, heq⟩ := List.append_inj' heq rfl
  cases heq
  have h := frozen_of_runs (poisoned_of_panic locks moved) later
  exact ⟨h.countdown, h.panics, h.halted, h.calls, h.performs, h.motor⟩

/-- A server that was to start a game of `2 ^ 63` seconds, with the motor started by hand. -/
def overflowed : Guarded :=
  ⟨⟨0, ⟨0x8000000000000000, none, none, 1⟩, .start, [], Rng.fromTime 1, 0, .idle⟩, true, false⟩

/-- An hour after that start the motor still runs, since nobody is left to end the game. -/
theorem nothing_starts_after_a_panic_motor_on :
    ∃ os t, Runs step (start (some 0x8000000000000000) 0 1)
        ([.setMotor "start"] ++ [.startGame 0])
        ([.done (.requested (some .start) (.ok "1"))] ++ [.panicked]) overflowed ∧
      Runs step overflowed [.advance (fromSecs 3600), .tick, .choose, .startGame 0] os t ∧
      t.halted = true ∧ t.system.motor = .start ∧
      t.system.countdown = overflowed.system.countdown := by
  have played : (run step (start (some 0x8000000000000000) 0 1)
      ([.setMotor "start"] ++ [.startGame 0])).map (fun p => (p.2, p.1)) =
      some ([.done (.requested (some .start) (.ok "1"))] ++ [.panicked], overflowed) := by
    decide +kernel
  obtain ⟨os, g, runs, heq⟩ := runs_of_run played
  obtain ⟨rfl, rfl⟩ := by simpa only [Prod.mk.injEq] using heq
  have waited : (run step overflowed
      [.advance (fromSecs 3600), .tick, .choose, .startGame 0]).map (fun _ => ()) = some () := by
    decide +kernel
  obtain ⟨os', t, later, -⟩ := runs_of_run waited
  obtain ⟨countdown, -, halted, -, -, motor⟩ := nothing_starts_after_a_panic runs trivial later
  exact ⟨os', t, runs, later, halted (by decide), motor rfl rfl, countdown⟩

end Motorball.Server.Guarded
