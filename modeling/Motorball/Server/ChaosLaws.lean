import Motorball.Library.BitLinear
import Motorball.Server.RngLaws

/-!
# The chaos phase keeps switching

The countdown thread calls its generator twice for each random change: once for the motor command
and once for the time to the next change. So the commands of a run are every other call, from the
seed on (`commands_eq`). The low bit of those calls determines the state after 64 of them, and
only zero stays where it is; both are computed (`turns_independent`, `moves_independent`). From that
no run ever shows 64 random stops in a row, and none more than 64 random starts.
-/

namespace Motorball.Server

open Transducer

/-! ## The turns of a generator -/

namespace Rng

/-- What two calls make of the bits of a state: one for the command of a random change, and one for
the interval after it. -/
def turn (x : BitVec 64) : BitVec 64 :=
  Xorshift.xorshift 13 7 17 (Xorshift.xorshift 13 7 17 x)

/-- A turn is linear over the bits, being two calls, each of which is. -/
theorem turn_linear : BitLinear.Linear turn :=
  (Xorshift.xorshift_linear (by decide) (by decide) (by decide)).comp
    (Xorshift.xorshift_linear (by decide) (by decide) (by decide))

/-- The low bits of 64 turns determine the state. Computed once, over the 64 units: no two states
show the same 64 commands. -/
theorem turns_independent :
    BitLinear.independent 64 ((BitLinear.units 64).map (BitLinear.observe turn 0 64)) = true := by
  decide +kernel

/-- Only zero is left where it is by a turn, again by computing with the units. -/
theorem moves_independent :
    BitLinear.independent 64 ((BitLinear.units 64).map fun x => turn x ^^^ x) = true := by
  decide +kernel

/-- Every other state of a generator, in bits, which is how the commands see it. -/
theorem iterate_next_bits (rng : Rng) (i : Nat) :
    (next^[2 * i] rng).next.state.toBitVec = turn^[i] rng.next.state.toBitVec := by
  induction i with
  | zero => rfl
  | succ i ih =>
    rw [Function.iterate_succ_apply', ← ih, Nat.mul_succ, Nat.add_comm,
      Function.iterate_add_apply]
    rfl

end Rng

/-- A command is to start exactly when the low bit of the drawn state is set. -/
theorem randomMotorAction_start_iff (rng : Rng) :
    (randomMotorAction rng).1 = .start ↔ rng.next.state.toBitVec.getLsbD 0 = true := by
  have low : rng.next.state &&& 1 = 0 ↔ rng.next.state.toBitVec.getLsbD 0 = false := by
    rw [← UInt64.toBitVec_inj, UInt64.toBitVec_and]
    have h := BitVec.and_one_eq_setWidth_ofBool_getLsbD (x := rng.next.state.toBitVec)
    cases hb : rng.next.state.toBitVec.getLsbD 0 with
    | false =>
      rw [hb] at h
      exact iff_of_true h rfl
    | true =>
      rw [hb] at h
      refine iff_of_false ?_ (by decide)
      intro zero
      cases h.symm.trans zero
  have drawn : (randomMotorAction rng).1 = if rng.next.state &&& 1 = 0 then .stop else .start := rfl
  rw [drawn]
  split
  next zero => exact iff_of_false (by decide) (by rw [low.mp zero]; decide)
  next one =>
    refine iff_of_true rfl ?_
    rw [← Bool.not_eq_false]
    exact fun zero => one (low.mpr zero)

/-! ## The commands of a run -/

/-- The command of a random change that was performed. The stop at the end of a chaos phase is drawn
by nobody and does not count. -/
def commandOf : System.Obs → Option MotorAction
  | .performed (.startChaos _) motor | .performed .changeMotor motor => some motor
  | _ => none

/-- The random commands, in the order they were performed, over all chaos phases of a run. -/
def commands (os : List System.Obs) : List MotorAction := os.filterMap commandOf

/-- The `i`-th random command of a generator, with an interval drawn after each. -/
def command (rng : Rng) (i : Nat) : MotorAction := (randomMotorAction (Rng.next^[2 * i] rng)).1

/-- The commands so far are the first of the generator's, and the next one is to come. The invariant
that ties the history to the generator. -/
structure Commanded (rng : Rng) (os : List System.Obs) (s : System) : Prop where
  commands_eq : commands os = (List.range (commands os).length).map (command rng)
  rng_eq : s.rng = Rng.next^[2 * (commands os).length] rng

variable {rng : Rng} {os : List System.Obs} {s s' : System} {e : System.Event} {o : System.Obs}

/-- A step that performs no random change leaves the generator alone. -/
theorem Commanded.quiet (h : Commanded rng os s) (silent : commandOf o = none)
    (same : s'.rng = s.rng) : Commanded rng (os ++ [o]) s' := by
  have hos : commands (os ++ [o]) = commands os := filterMap_snoc_none silent
  exact ⟨by rw [hos]; exact h.commands_eq, by rw [hos, same]; exact h.rng_eq⟩

/-- A random change performs the next command of the generator and draws twice. -/
theorem Commanded.drawn (h : Commanded rng os s)
    (drawn : commandOf o = some (randomMotorAction s.rng).1)
    (twice : s'.rng = Rng.next^[2] s.rng) : Commanded rng (os ++ [o]) s' := by
  have hos : commands (os ++ [o]) = commands os ++ [command rng (commands os).length] := by
    rw [command, ← h.rng_eq]
    exact filterMap_snoc_some drawn
  have hlen : (commands (os ++ [o])).length = (commands os).length + 1 := by
    rw [hos, List.length_append]
    rfl
  refine ⟨?_, ?_⟩
  · rw [hlen, List.range_succ, List.map_append, ← h.commands_eq, hos]
    rfl
  · rw [hlen, twice, h.rng_eq, ← Function.iterate_add_apply, Nat.mul_succ, Nat.add_comm]

/-- Every step is of one of the two kinds. -/
theorem Commanded.step (h : Commanded rng os s) (moved : s.step e = some (s', o)) :
    Commanded rng (os ++ [o]) s' := by
  cases e with
  | perform =>
    rw [System.step] at moved
    split at moved
    next now update decided =>
      obtain ⟨⟨motor, rng', next⟩, performed, heq⟩ := Option.map_eq_some_iff.mp moved
      cases heq
      cases update with
      | startChaos | changeMotor =>
        obtain ⟨_, -, heq⟩ := Option.map_eq_some_iff.mp performed
        cases heq
        exact h.drawn rfl rfl
      | finishChaos | none =>
        cases performed
        exact h.quiet rfl rfl
    · cases moved
  | advance | startGame | startMotor | tick | choose | setMotor | currentCountdown | apiMotor =>
    cases System.step_moved moved
    all_goals exact h.quiet rfl rfl

/-- The commands of a run are the first of the generator that the clock seeded, however the threads
interleave. -/
theorem commanded_of_runs {parsed : Option UInt64} {clock : Nat} {seed : UInt64}
    {es : List System.Event} (runs : Runs System.step (System.start parsed clock seed) es os s) :
    Commanded (Rng.fromTime seed) os s := by
  induction runs with
  | nil => exact ⟨rfl, rfl⟩
  | snoc _ last ih => exact ih.step last

/-! ## No command for ever -/

/-- A command some turns further on, by the bits of the state in between. -/
theorem command_eq_start_iff (rng : Rng) (b i : Nat) : command rng (b + i) = .start ↔
    (Rng.turn^[i] (Rng.next^[2 * b] rng).next.state.toBitVec).getLsbD 0 = true := by
  rw [command, randomMotorAction_start_iff, Nat.mul_add, Nat.add_comm (2 * b),
    Function.iterate_add_apply, Rng.iterate_next_bits]

/-- The state at a command is not zero, of which the independence says nothing. -/
theorem alive_bits {rng : Rng} (live : rng.Live) (b : Nat) :
    (Rng.next^[2 * b] rng).next.state.toBitVec ≠ 0 := by
  intro zero
  have dead := live (2 * b + 1)
  rw [Function.iterate_succ_apply'] at dead
  exact dead (UInt64.toBitVec_inj.mp zero)

/-- The commands of a run hold both actions wherever enough of them stand together. After 64 stops
in a row the 64 bits would all be unset, and the state zero; after 65 starts two states in a row
would show the same 64 bits, and so be the same. -/
theorem windows_mixed {parsed : Option UInt64} {clock : Nat} {seed : UInt64}
    {es : List System.Event} (runs : Runs System.step (System.start parsed clock seed) es os s)
    {before window after : List MotorAction} (split : commands os = before ++ window ++ after) :
    (64 ≤ window.length → .start ∈ window) ∧ (64 < window.length → .stop ∈ window) := by
  have drawn := (commanded_of_runs runs).commands_eq
  have at_ : ∀ i < window.length,
      window[i]? = some (command (Rng.fromTime seed) (before.length + i)) := by
    intro i hi
    have inside : before.length + i < (commands os).length := by
      rw [split, List.length_append, List.length_append]
      omega
    have hget : (commands os)[before.length + i]? = window[i]? := by
      rw [split, List.append_assoc, List.getElem?_append_right (Nat.le_add_right _ _),
        Nat.add_sub_cancel_left, List.getElem?_append_left hi]
    rw [← hget, drawn, List.getElem?_map, List.getElem?_range inside]
    rfl
  have alive := alive_bits (Rng.fromTime_live seed) before.length
  constructor
  · intro long
    obtain ⟨i, hi, seen⟩ := BitLinear.exists_seen Rng.turn_linear Rng.turns_independent alive
    have start := (command_eq_start_iff _ _ _).mpr seen
    exact List.mem_of_getElem? (start ▸ at_ i (Nat.lt_of_lt_of_le hi long))
  · intro long
    obtain ⟨i, hi, unseen⟩ := BitLinear.exists_unseen Rng.turn_linear Rng.turns_independent
      Rng.moves_independent alive
    have stop : command (Rng.fromTime seed) (before.length + i) = .stop := by
      cases hc : command (Rng.fromTime seed) (before.length + i) with
      | stop => rfl
      | start => cases unseen.symm.trans ((command_eq_start_iff _ _ _).mp hc)
    exact List.mem_of_getElem? (stop ▸ at_ i (Nat.lt_of_le_of_lt hi long))

/-- Performing an update leaves in the motor the command that it is observed with. -/
theorem motor_of_performed {update : Update} {motor : MotorAction}
    (moved : System.Moved s e s' (.performed update motor)) : s'.motor = motor := by
  cases moved <;> rfl

/-- **The chaos phase keeps switching.** Whatever the seed and however the threads interleave, of
any 64 random commands in a row one is to start, and of any 65 one is to stop; and each command that
is observed is the one the motor was left with when its update was performed. -/
theorem chaos_keeps_switching {parsed : Option UInt64} {clock : Nat} {seed : UInt64}
    {es : List System.Event} (runs : Runs System.step (System.start parsed clock seed) es os s) :
    (∀ before window after, commands os = before ++ window ++ after →
      (64 ≤ window.length → .start ∈ window) ∧ (64 < window.length → .stop ∈ window)) ∧
    (∀ past update motor rest, os = past ++ .performed update motor :: rest →
      ∃ before after t, es = before ++ after ∧
        Runs System.step (System.start parsed clock seed) before
          (past ++ [.performed update motor]) t ∧ t.motor = motor) := by
  refine ⟨fun before window after split => windows_mixed runs split, ?_⟩
  intro past update motor rest answered
  obtain ⟨js, e, ks, t, t', rfl, first, last, -⟩ := runs.at_output answered
  refine ⟨js ++ [e], ks, t', ?_, first.snoc last, motor_of_performed (System.step_moved last)⟩
  rw [List.append_assoc, List.singleton_append]

/-- Six games of a second, with thirteen random commands each, so that the windows of the theorem
are reached. -/
def sixGames : List System.Event :=
  (List.replicate 6 (
    [.startGame 0, .startMotor 0, .advance (fromSecs 1), .tick, .choose, .perform] ++
    (List.replicate 12 [.advance (fromMillis 800), .tick, .choose, .perform]).flatten ++
    [.advance (fromMillis 400), .tick, .choose, .perform])).flatten

/-- Both actions are among the commands of the six games, by the general law. -/
theorem chaos_keeps_switching_six_games :
    ∃ os s, Runs System.step (System.start (some 1) 0 1) sixGames os s ∧
      (commands os).length = 78 ∧ .start ∈ commands os ∧ .stop ∈ commands os := by
  have played : (run System.step (System.start (some 1) 0 1) sixGames).map
      (fun p => (commands p.2).length) = some 78 := by decide +kernel
  obtain ⟨os, s, runs, hlen⟩ := runs_of_run played
  have split : commands os = [] ++ commands os ++ [] := by
    rw [List.nil_append, List.append_nil]
  obtain ⟨start, stop⟩ := (chaos_keeps_switching runs).1 _ _ _ split
  exact ⟨os, s, runs, hlen, start (by rw [hlen]; decide), stop (by rw [hlen]; decide)⟩

end Motorball.Server
