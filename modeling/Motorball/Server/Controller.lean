import Mathlib.Data.Set.Card
import Motorball.Server.Controls
import Motorball.Server.HoldToStart
import Motorball.Server.Lifecycle

/-!
# Games started by the controller

The part of `spawn_gamepad_reader` that starts games: a turn of the reader samples the West button
of the first gamepad, and when the detector fires the reader calls `start_game`, whose two sections
are interleaved with those of every other thread. `Console` is the server with that reader.

The server's part of a run is a run of the server, and the samples are a run of the detector. So the
laws of the two hold of the whole, and what is left is the account between them: `Accounted` keeps
the games the reader has opened apart by five seconds, and `one_game_for_each_hold` sums up.
-/

namespace Motorball.Server

open Transducer
open Motorball.Server.System (startOf starts starts_snoc)

section Button

variable {α : Type} [Scalar α]

def hardPressThreshold : α := 0.75

/-- `hard_pressed` of a button, from its data if there is any. A half pressed button is not
pressed. -/
def hardPressed (data : Option α) : Bool := data.any fun value => hardPressThreshold ≤ value

end Button

/-- Where the gamepad reader is in its loop: sampling, about to start a game, or within its own
`start_game`. -/
inductive Turn where
  | sampling
  | fired
  /-- Between the two sections of `start_game`, with the place of its call among those waiting. -/
  | starting (call : Nat)
  deriving DecidableEq

/-- The games the detector has asked for and the reader has not yet opened, at most one, as the
reader samples no more until it has. -/
def Turn.owed : Turn → Nat
  | .fired => 1
  | .sampling | .starting _ => 0

/-- Whether a section is that of the reader's own call, which no other thread can make. -/
def Turn.owns : Turn → System.Event → Bool
  | .starting call, .startMotor finished => finished = call
  | _, _ => false

/-- The reader's place after a section of another thread: a call that is done leaves the list, and
those behind it move up. -/
def Turn.after (turn : Turn) : System.Event → Turn
  | .startMotor finished =>
    match turn with
    | .starting call => .starting (if finished < call then call - 1 else call)
    | .sampling | .fired => turn
  | _ => turn

/-- The server with the thread that reads the gamepad, as far as that one starts games; what it does
to the axes is in `Inputs`. -/
structure Console where
  system : System
  westHold : HoldToStart
  turn : Turn
  deriving DecidableEq

namespace Console

/-- Both at startup: no game, and no button held. -/
def start (parsed : Option UInt64) (clock : Nat) (seed : UInt64) : Console :=
  ⟨System.start parsed clock seed, HoldToStart.default, .sampling⟩

/-- The steps of the reader, and those of all others. Time passes among the latter. -/
inductive Event (α : Type) where
  /-- A section of another thread, or time passing. -/
  | others (event : System.Event)
  /-- The reader samples the first gamepad there is, whose West button may have data. -/
  | sample (pad : Option (Option α))
  /-- The two sections of the reader's `start_game` call, the first with the time between its two
  clock readings. -/
  | startGame (lasted : Nat)
  | startMotor
  deriving DecidableEq

/-- What is seen of a step, and who has made it. -/
inductive Obs where
  | others (event : System.Event) (obs : System.Obs)
  | sampled (pressed : Bool) (now : Nat) (fired : Bool)
  | reader (event : System.Event) (obs : System.Obs)
  deriving DecidableEq

variable {α : Type} [Scalar α]

/-- One step. The reader samples only between its calls, and its own call is a `start_game` like any
other, queued with the rest. -/
def step (s : Console) : Event α → Option (Console × Obs)
  | .others event =>
    if s.turn.owns event then none
    else (s.system.step event).map fun (system, obs) =>
      ({ s with system, turn := s.turn.after event }, .others event obs)
  | .sample pad =>
    match s.turn with
    | .sampling =>
      let pressed := pad.elim false hardPressed
      let (westHold, fired) := s.westHold.update pressed s.system.clock
      some ({ s with westHold, turn := if fired then .fired else .sampling },
        .sampled pressed s.system.clock fired)
    | _ => none
  | .startGame lasted =>
    match s.turn with
    | .fired => (s.system.step (.startGame lasted)).map fun (system, obs) =>
        ({ s with system, turn := .starting s.system.calls.length },
          .reader (.startGame lasted) obs)
    | _ => none
  | .startMotor =>
    match s.turn with
    | .starting call => (s.system.step (.startMotor call)).map fun (system, obs) =>
        ({ s with system, turn := .sampling }, .reader (.startMotor call) obs)
    | _ => none

/-! ## What a step can do -/

/-- Every way the console moves, with its guards. -/
inductive Moved (s : Console) : Event α → Console → Obs → Prop
  | others (event : System.Event) (system : System) (obs : System.Obs)
      (foreign : s.turn.owns event = false) (moved : s.system.step event = some (system, obs)) :
      Moved s (.others event) { s with system, turn := s.turn.after event } (.others event obs)
  | sample (pad : Option (Option α)) (pressed fired : Bool) (westHold : HoldToStart)
      (sampling : s.turn = .sampling) (read : pressed = pad.elim false hardPressed)
      (updated : s.westHold.update pressed s.system.clock = (westHold, fired)) :
      Moved s (.sample pad) { s with westHold, turn := if fired then .fired else .sampling }
        (.sampled pressed s.system.clock fired)
  | startGame (lasted : Nat) (system : System) (obs : System.Obs) (fired : s.turn = .fired)
      (moved : s.system.step (.startGame lasted) = some (system, obs)) :
      Moved s (.startGame lasted) { s with system, turn := .starting s.system.calls.length }
        (.reader (.startGame lasted) obs)
  | startMotor (call : Nat) (system : System) (obs : System.Obs)
      (starting : s.turn = .starting call)
      (moved : s.system.step (.startMotor call) = some (system, obs)) :
      Moved s .startMotor { s with system, turn := .sampling } (.reader (.startMotor call) obs)

/-- Each step is one of the moves. -/
theorem step_moved {s s' : Console} {e : Event α} {o : Obs} (h : s.step e = some (s', o)) :
    Moved s e s' o := by
  cases e with
  | others event =>
    rw [step] at h
    split at h
    · cases h
    next foreign =>
      obtain ⟨⟨system, obs⟩, moved, heq⟩ := Option.map_eq_some_iff.mp h
      cases heq
      exact .others event system obs (Bool.eq_false_of_not_eq_true foreign) moved
  | sample pad =>
    rw [step] at h
    split at h
    next sampling => cases h; exact .sample pad _ _ _ sampling rfl rfl
    · cases h
  | startGame lasted =>
    rw [step] at h
    split at h
    next fired =>
      obtain ⟨⟨system, obs⟩, moved, heq⟩ := Option.map_eq_some_iff.mp h
      cases heq
      exact .startGame lasted system obs fired moved
    · cases h
  | startMotor =>
    rw [step] at h
    split at h
    next call starting =>
      obtain ⟨⟨system, obs⟩, moved, heq⟩ := Option.map_eq_some_iff.mp h
      cases heq
      exact .startMotor call system obs starting moved
    · cases h

/-! ## The parts of a run -/

/-- A section of the server, whoever entered it. -/
def sectionOf : Obs → Option (System.Event × System.Obs)
  | .others event obs | .reader event obs => some (event, obs)
  | .sampled .. => none

/-- A sample, and whether the detector fired at it. -/
def sampleOf : Obs → Option ((Bool × Nat) × Bool)
  | .sampled pressed now fired => some ((pressed, now), fired)
  | .others .. | .reader .. => none

/-- When the reader has opened a game. -/
def openingOf : Obs → Option Nat
  | .reader _ obs => (startOf obs).map Prod.fst
  | .others .. | .sampled .. => none

/-- When another thread has. -/
def requestOf : Obs → Option Nat
  | .others _ obs => (startOf obs).map Prod.fst
  | .reader .. | .sampled .. => none

/-- Whether the button is pressed, as a turn of the reader finds it: not if there is no gamepad, nor
if the button has no data. -/
def readOf : Event α → Option Bool
  | .sample pad => some (pad.elim false hardPressed)
  | .others _ | .startGame _ | .startMotor => none

/-- The server's sections of a history, whoever entered them. -/
def sections (os : List Obs) : List System.Obs := (os.filterMap sectionOf).map Prod.snd
/-- The samples of a history with the clock they were taken at, which is what the detector is
fed. -/
def samples (os : List Obs) : List (Bool × Nat) := (os.filterMap sampleOf).map Prod.fst
/-- The detector's answers. -/
def fires (os : List Obs) : List Bool := (os.filterMap sampleOf).map Prod.snd
/-- The instants at which the reader has opened games. -/
def openings (os : List Obs) : List Nat := os.filterMap openingOf
/-- The instants at which others have. -/
def requests (os : List Obs) : List Nat := os.filterMap requestOf

variable {parsed : Option UInt64} {clock : Nat} {seed : UInt64} {es : List (Event α)}
  {os : List Obs} {s s' : Console} {e : Event α} {o : Obs}

/-- The server's sections are a run of the server, so what holds of the countdown holds here. The
reader's call is among them. -/
theorem system_runs (runs : Runs step (start parsed clock seed) es os s) :
    Runs System.step (System.start parsed clock seed) ((os.filterMap sectionOf).map Prod.fst)
      (sections os) s.system := by
  refine runs.part Console.system sectionOf fun s e s' o last => ?_
  cases step_moved last with
  | others event system obs foreign moved => exact Or.inr ⟨event, obs, rfl, moved⟩
  | sample => exact Or.inl ⟨rfl, rfl⟩
  | startGame lasted system obs fired moved =>
    exact Or.inr ⟨.startGame lasted, obs, rfl, moved⟩
  | startMotor call system obs starting moved => exact Or.inr ⟨.startMotor call, obs, rfl, moved⟩

/-- The samples are a run of the detector, from release on. -/
theorem hold_runs (runs : Runs step (start parsed clock seed) es os s) :
    Runs HoldToStart.step HoldToStart.default (samples os) (fires os) s.westHold := by
  refine runs.part Console.westHold sampleOf fun s e s' o last => ?_
  cases step_moved last with
  | others | startGame | startMotor => exact Or.inl ⟨rfl, rfl⟩
  | sample pad pressed fired westHold sampling read updated =>
    exact Or.inr ⟨(pressed, s.system.clock), fired, rfl, congrArg some updated⟩

/-- The samples are what the turns of the reader have found. -/
theorem samples_read (runs : Runs step (start parsed clock seed) es os s) :
    (samples os).map Prod.fst = es.filterMap readOf := by
  induction runs with
  | nil => rfl
  | snoc _ last ih =>
    rw [filterMap_snoc, ← ih, samples, filterMap_snoc, List.map_append, List.map_append]
    cases step_moved last with
    | others | startGame | startMotor => rfl
    | sample pad pressed fired westHold sampling read updated => rw [read]; rfl

/-! ## The account -/

/-- A game is opened by the reader or by another thread, and by nobody else. -/
theorem starts_length (os : List Obs) :
    (starts (sections os)).length = (requests os).length + (openings os).length := by
  induction os using List.reverseRecOn with
  | nil => rfl
  | append_singleton os o ih =>
    rw [requests, openings, filterMap_snoc, filterMap_snoc, List.length_append, List.length_append,
      ← requests, ← openings, sections, filterMap_snoc, List.map_append, ← sections]
    cases o with
    | sampled pressed now fired =>
      rw [sectionOf, requestOf, openingOf, Option.toList_none, List.map_nil, List.append_nil, ih]
      rfl
    | others event obs | reader event obs =>
      rw [sectionOf, requestOf, openingOf, Option.toList_some, List.map_singleton, starts_snoc,
        List.length_append, ih]
      cases startOf obs <;> simp only [Option.map_none, Option.map_some, Option.toList_none,
        Option.toList_some, List.length_nil, List.length_singleton] <;> omega

/-- A section of another thread does not pay for the reader. -/
theorem after_owed (turn : Turn) (event : System.Event) : (turn.after event).owed = turn.owed := by
  cases turn <;> cases event <;> rfl

/-- Nor does it take the reader's decision away. -/
theorem after_eq_fired {turn : Turn} {event : System.Event} :
    turn.after event = .fired ↔ turn = .fired := by
  cases turn <;> cases event <;> simp [Turn.after]

/-- An instant that no hold still to fire began before. -/
def Before (hold : HoldToStart) (earlier : Nat) : Prop :=
  ∀ since, hold.pressedSince = some since → hold.triggered = false → earlier ≤ since

/-- A hold that began after an instant fires five seconds after it at the earliest. -/
theorem Before.update {hold hold' : HoldToStart} {earlier now : Nat} {pressed fired : Bool}
    (before : Before hold earlier) (past : earlier ≤ now)
    (updated : hold.update pressed now = (hold', fired)) :
    Before hold' earlier ∧ (fired = true → HoldToStart.Long earlier now) := by
  cases pressed with
  | false =>
    cases updated
    exact ⟨nofun, nofun⟩
  | true =>
    rw [HoldToStart.update_pressed, Prod.mk.injEq] at updated
    obtain ⟨rfl, rfl⟩ := updated
    have began : hold.triggered = false → earlier ≤ hold.pressedSince.getD now := by
      intro untriggered
      cases hsince : hold.pressedSince with
      | none => exact past
      | some since => exact before since hsince untriggered
    constructor
    · intro since hsince untriggered
      cases hsince
      exact began (Bool.or_eq_false_iff.mp untriggered).1
    · intro fired
      obtain ⟨untriggered, long⟩ := Bool.and_eq_true_iff.mp fired
      have hearlier := began (by simpa using untriggered)
      exact Nat.le_trans (Nat.add_le_add_right hearlier _) (of_decide_eq_true long)

/-- A hold that fires has fired. -/
theorem triggered_of_fired {hold hold' : HoldToStart} {now : Nat} {pressed : Bool}
    (updated : hold.update pressed now = (hold', true)) : hold'.triggered = true := by
  cases pressed with
  | false => cases updated
  | true =>
    rw [HoldToStart.update_pressed, Prod.mk.injEq] at updated
    obtain ⟨rfl, fired⟩ := updated
    exact Bool.or_eq_true_iff.mpr (Or.inr (Bool.and_eq_true_iff.mp fired).2)

/-- What the reader has opened and what the detector has fired, and the five seconds between two
games. A hold that has not fired began after every game the reader has opened. -/
structure Accounted (os : List Obs) (s : Console) : Prop where
  paid : (fires os).count true = (openings os).length + s.turn.owed
  past : ∀ opened ∈ openings os, opened ≤ s.system.clock
  triggered : s.turn = .fired → s.westHold.triggered = true
  fired : s.turn = .fired → ∀ opened ∈ openings os, HoldToStart.Long opened s.system.clock
  fresh : ∀ opened ∈ openings os, Before s.westHold opened
  spaced : (openings os).Pairwise HoldToStart.Long

/-- At startup nothing has been opened and nothing is owed. -/
theorem Accounted.start (parsed : Option UInt64) (clock : Nat) (seed : UInt64) :
    Accounted [] (start parsed clock seed) where
  paid := rfl
  past _ h := nomatch h
  triggered h := nomatch h
  fired h := nomatch h
  fresh _ h := nomatch h
  spaced := .nil

/-- A section of the server that neither fires the detector nor opens a game for the reader. -/
theorem Accounted.quiet (h : Accounted os s) (sampled : sampleOf o = none)
    (unopened : openingOf o = none) (clock : s.system.clock ≤ s'.system.clock)
    (westHold : s'.westHold = s.westHold) (owed : s'.turn.owed = s.turn.owed)
    (fired : s'.turn = .fired → s.turn = .fired) : Accounted (os ++ [o]) s' := by
  have opened : openings (os ++ [o]) = openings os := filterMap_snoc_none unopened
  have fires : fires (os ++ [o]) = fires os :=
    congrArg (List.map Prod.snd) (filterMap_snoc_none sampled)
  constructor
  · rw [fires, opened, owed]
    exact h.paid
  · rw [opened]
    exact fun opened hmem => Nat.le_trans (h.past opened hmem) clock
  · rw [westHold]
    exact fun hfired => h.triggered (fired hfired)
  · rw [opened]
    exact fun hfired opened hmem => Nat.le_trans (h.fired (fired hfired) opened hmem) clock
  · rw [opened, westHold]
    exact h.fresh
  · rw [opened]
    exact h.spaced

/-- The reader samples the button. If the detector fires, the reader owes a game, and had owed none
before. -/
theorem Accounted.sample (h : Accounted os s) (sampling : s.turn = .sampling) {pressed : Bool}
    {westHold : HoldToStart} {fired : Bool}
    (updated : s.westHold.update pressed s.system.clock = (westHold, fired)) :
    Accounted (os ++ [.sampled pressed s.system.clock fired])
      { s with westHold, turn := if fired then .fired else .sampling } := by
  have opened : openings (os ++ [.sampled pressed s.system.clock fired]) = openings os :=
    filterMap_snoc_none rfl
  have fires : fires (os ++ [.sampled pressed s.system.clock fired]) = fires os ++ [fired] := by
    rw [Console.fires, filterMap_snoc, List.map_append]
    rfl
  have keeps := fun opened hmem => (h.fresh opened hmem).update (h.past opened hmem) updated
  have paid := h.paid
  rw [sampling] at paid
  constructor
  · rw [fires, opened, List.count_append, paid]
    cases fired <;> rfl
  · rw [opened]
    exact h.past
  · intro hfired
    cases fired with
    | false => cases hfired
    | true => exact triggered_of_fired updated
  · intro hfired opened' hmem
    rw [opened] at hmem
    cases fired with
    | false => cases hfired
    | true => exact (keeps opened' hmem).2 rfl
  · rw [opened]
    exact fun opened hmem => (keeps opened hmem).1
  · rw [opened]
    exact h.spaced

/-- The reader opens a game and pays what it owed. Its hold has fired and so counts for no other
game. -/
theorem Accounted.startGame (h : Accounted os s) (fired : s.turn = .fired) {system : System}
    {event : System.Event} {status : CountdownStatus} (clock : s.system.clock ≤ system.clock)
    {call : Nat} : Accounted (os ++ [.reader event (.started s.system.clock status)])
      { s with system, turn := .starting call } := by
  have opened : openings (os ++ [.reader event (.started s.system.clock status)]) =
      openings os ++ [s.system.clock] := filterMap_snoc_some rfl
  have fires : fires (os ++ [.reader event (.started s.system.clock status)]) = fires os :=
    congrArg (List.map Prod.snd) (filterMap_snoc_none rfl)
  have paid := h.paid
  rw [fired] at paid
  constructor
  · rw [fires, opened, paid, List.length_append]
    rfl
  · rw [opened]
    intro opened hmem
    rcases List.mem_append.mp hmem with hmem | hmem
    · exact Nat.le_trans (h.past opened hmem) clock
    · exact Nat.le_trans (Nat.le_of_eq (List.mem_singleton.mp hmem)) clock
  · nofun
  · nofun
  · intro opened _ since _ untriggered
    cases untriggered.symm.trans (h.triggered fired)
  · rw [opened, List.pairwise_append]
    refine ⟨h.spaced, List.pairwise_singleton _ _, ?_⟩
    intro earlier hmem opened hopened
    rw [List.mem_singleton.mp hopened]
    exact h.fired fired earlier hmem

/-- Time does not go back. -/
theorem clock_le {system system' : System} {event : System.Event} {obs : System.Obs}
    (moved : system.step event = some (system', obs)) : system.clock ≤ system'.clock := by
  cases System.step_moved moved with
  | advance | startGame => exact Nat.le_add_right _ _
  | _ => exact Nat.le_refl _

/-- The account of a run, by its steps. -/
theorem accounted_of_runs (runs : Runs step (start parsed clock seed) es os s) :
    Accounted os s := by
  induction runs with
  | nil => exact .start parsed clock seed
  | snoc before last ih =>
    cases step_moved last with
    | others event system obs foreign moved =>
      exact ih.quiet rfl rfl (clock_le moved) rfl (after_owed _ _) after_eq_fired.mp
    | sample pad pressed fired westHold sampling read updated => exact ih.sample sampling updated
    | startGame lasted system obs fired moved =>
      have clock := clock_le moved
      cases System.step_moved moved with
      | startGame => exact ih.startGame fired clock
    | startMotor call system obs starting moved =>
      have idle : Turn.owed .sampling = Turn.owed (.starting call) := rfl
      cases System.step_moved moved with
      | startMotor => exact ih.quiet rfl rfl (Nat.le_refl _) rfl (starting ▸ idle) nofun

/-! ## One game for each hold -/

/-- A sample is the first long one of its hold. -/
def Reaches (samples : List (Bool × Nat)) (i : Nat) : Prop :=
  ∃ j since now, HoldToStart.HeldFrom samples j i ∧ samples[j]? = some (true, since) ∧
    samples[i]? = some (true, now) ∧ HoldToStart.Long since now ∧
    ∀ k earlier, j ≤ k → k < i → samples[k]? = some (true, earlier) →
      ¬HoldToStart.Long since earlier

/-- Where the detector has fired, one answer later. -/
theorem getElem?_snoc_true (outs : List Bool) (fired : Bool) (i : Nat) :
    (outs ++ [fired])[i]? = some true ↔
      outs[i]? = some true ∨ (i = outs.length ∧ fired = true) := by
  rcases Nat.lt_trichotomy i outs.length with lt | rfl | gt
  · rw [List.getElem?_append_left lt]
    simp [Nat.ne_of_lt lt]
  · simp
  · rw [List.getElem?_eq_none (by simpa using gt), List.getElem?_eq_none (Nat.le_of_lt gt)]
    simp [Nat.ne_of_gt gt]

/-- The samples at which the detector fires, counted: finitely many, though the set is over all
numbers. -/
theorem ncard_fired (outs : List Bool) :
    {i : Nat | outs[i]? = some true}.ncard = outs.count true := by
  induction outs using List.reverseRecOn with
  | nil => simp
  | append_singleton outs fired ih =>
    have finite : {i : Nat | outs[i]? = some true}.Finite :=
      (Set.finite_lt_nat outs.length).subset fun _ fired => (List.getElem?_eq_some_iff.mp fired).1
    rw [List.count_append, ← ih]
    simp only [getElem?_snoc_true]
    cases fired with
    | false => simp
    | true =>
      have fresh : outs.length ∉ {i : Nat | outs[i]? = some true} := by simp
      rw [List.count_singleton_self, ← Set.ncard_insert_of_notMem fresh finite]
      congr 1
      ext i
      simp [or_comm]

/-- A sample is taken at the server's clock, as it stands after the sections before it. -/
theorem sampled_at (runs : Runs step (start parsed clock seed) es os s) {before after : List Obs}
    {pressed fired : Bool} {now : Nat}
    (sampled : os = before ++ .sampled pressed now fired :: after) :
    ∃ system, Runs System.step (System.start parsed clock seed)
      ((before.filterMap sectionOf).map Prod.fst) (sections before) system ∧
        system.clock = now := by
  obtain ⟨js, e, ks, t, t', -, first, moved, -⟩ := runs.at_output sampled
  refine ⟨t.system, system_runs first, ?_⟩
  cases step_moved moved with
  | sample => rfl

/-- **One game for each long hold.** The detector is fed what the turns of the reader find, at the
clock of the server. Whatever the other threads do, the games are those other threads have started
and those the reader has; the reader has started one for each hold of the West button that has
reached five seconds, the last of which it may be about to start; and it has never started two
within five seconds. The bound on the number of games keeps their number from saturating, after
which it would count no more. -/
theorem one_game_for_each_hold (runs : Runs step (start parsed clock seed) es os s)
    (few : (starts (sections os)).length < 2 ^ 64) :
    (samples os).map Prod.fst = es.filterMap readOf ∧
      (∀ before pressed now fired after, os = before ++ .sampled pressed now fired :: after →
        ∃ system, Runs System.step (System.start parsed clock seed)
          ((before.filterMap sectionOf).map Prod.fst) (sections before) system ∧
            system.clock = now) ∧
      s.system.countdown.game = (requests os).length + (openings os).length ∧
      {i | Reaches (samples os) i}.ncard = (openings os).length + s.turn.owed ∧
      (openings os).Pairwise fun opened later =>
        opened + fromSecs startHoldSeconds ≤ later := by
  have h := accounted_of_runs runs
  refine ⟨samples_read runs, fun _ _ _ _ _ => sampled_at runs, ?_, ?_, h.spaced⟩
  · rw [(System.timely_of_runs (system_runs runs) few).timeline.game, starts_length]
  · rw [← h.paid, ← ncard_fired]
    congr 1
    ext i
    exact (HoldToStart.fires_iff (hold_runs runs) i).symm

/-- A hold of six seconds beside a game started by a request. -/
def heldDown : List (Event ℚ) :=
  [.others (.startGame 3), .sample (some (some 0.9)), .others (.startMotor 0),
    .others (.advance (fromSecs 3)), .sample (some (some 0.8)), .others (.advance (fromSecs 3)),
    .sample (some (some 1)), .startGame 5, .startMotor, .sample (some (some 1)), .sample none]

/-- One game by the request, one by the hold, and none more for holding on. -/
theorem one_game_for_each_hold_held_down :
    ∃ os s, Runs step (start (some 60) 0 1) heldDown os s ∧ s.system.countdown.game = 2 ∧
      {i | Reaches (samples os) i}.ncard = 1 := by
  have ran : (run step (start (some 60) 0 1) heldDown).map
      (fun p => ((starts (sections p.2)).length, (requests p.2).length, (openings p.2).length,
        p.1.turn.owed)) = some (2, 1, 1, 0) := by decide +kernel
  obtain ⟨os, s, runs, heq⟩ := runs_of_run ran
  simp only [Prod.mk.injEq] at heq
  obtain ⟨hstarts, hrequests, hopenings, howed⟩ := heq
  obtain ⟨-, -, game, reached, -⟩ := one_game_for_each_hold runs (by rw [hstarts]; decide)
  rw [hrequests, hopenings] at game
  rw [hopenings, howed] at reached
  exact ⟨os, s, runs, game, reached⟩

end Console

end Motorball.Server
