import Motorball.Server.PongTurn
import Mathlib.Data.List.Chain

/-!
# Rallies and points

What the score of a Pong game says about its rallies, over any calls of `update`. A ball that is
returned or lost was on its way to that side. So the paddles take turns between two new balls, and
each new ball but the first of a game is a point (`Tallied`).

A new ball is a call of `resetBall`, which no score can tell: a point that threw no ball would still
be scored. So the calls are logged where they are made. `Logged.update` is `update` with that log,
and `logged_of_runs` says that it plays the same game and that its log is the `story` read off what
each update did.
-/

namespace Motorball.Server.Pong

open Transducer

/-! ## The log of a game -/

/-- What happens in a game: `resetBall` puts a new ball in the middle, `beginGame` has begun a game
with one, or a paddle reflects the ball. -/
inductive Event where
  | resets
  | begins
  | reflects (side : Side)
  deriving DecidableEq

/-- A game, with everything that has happened in it since the program started, oldest first. -/
structure Logged (α : Type) where
  pong : Pong α
  log : List Event
  deriving DecidableEq

namespace Logged

variable {α : Type} [Scalar α]

/-- The one place that logs a new ball. Both of its callers in the source, `begin_game` and the
point at the end of `update`, go through it. -/
def resetBall (logged : Logged α) (direction : α) : Logged α :=
  ⟨logged.pong.resetBall direction, logged.log ++ [.resets]⟩

/-- The event is logged once the new ball of the game is thrown, so that counting the balls after
it leaves that one out. -/
def beginGame (logged : Logged α) (game : Nat) : Logged α :=
  let logged := { logged with pong := { logged.pong with game, leftScore := 0, rightScore := 0 } }
  let logged := logged.resetBall (if game % 2 = 0 then -1.0 else 1.0)
  { logged with log := logged.log ++ [.begins] }

/-- A reflection is logged where the paddle turns the ball. -/
def strike (logged : Logged α) : Logged α :=
  ⟨logged.pong.strike, logged.log ++ (logged.pong.striker.map .reflects).toList⟩

/-- A point is not logged itself. That there is one shows only by the new ball that is thrown for
it. -/
def award (logged : Logged α) : Logged α :=
  match logged.pong.winner with
  | some .right =>
    let rightScore := Arith.saturatingAdd 8 logged.pong.rightScore 1
    { logged with pong := { logged.pong with rightScore } }.resetBall 1.0
  | some .left =>
    let leftScore := Arith.saturatingAdd 8 logged.pong.leftScore 1
    { logged with pong := { logged.pong with leftScore } }.resetBall (-1.0)
  | none => logged

/-- `Pong.update` in the same order, with its calls logged. -/
def update (logged : Logged α) (game : Nat) (active : Bool) (player1 player2 : Int) (dt : α) :
    Logged α :=
  let logged := if logged.pong.Begins game then logged.beginGame game else logged
  let leftY := paddleY player1
  let rightY := paddleY (255 - Arith.clamp player2 0 255)
  let logged := { logged with pong := { logged.pong with leftY, rightY } }
  if active then { logged with pong := (logged.pong.move dt).bounce }.strike.award else logged

/-- The end of an update logs a new ball exactly when there is a winner. -/
theorem award_eq (logged : Logged α) : logged.award =
    ⟨logged.pong.award, logged.log ++ (logged.pong.winner.map fun _ => .resets).toList⟩ := by
  unfold award Pong.award
  cases logged.pong.winner with
  | none => simp only [Option.map_none, Option.toList_none, List.append_nil]
  | some side => cases side <;> rfl

/-- The logged update plays the same game. It logs a new game, a reflection and a new ball after a
point where `reflection` and `point` say that the update had them. -/
theorem update_eq (logged : Logged α) (game : Nat) (active : Bool) (player1 player2 : Int)
    (dt : α) :
    logged.update game active player1 player2 dt =
      ⟨logged.pong.update game active player1 player2 dt,
        logged.log ++ ((if logged.pong.Begins game then [.resets, .begins] else []) ++
          ((logged.pong.reflection game active player1 player2 dt).map .reflects).toList ++
          ((logged.pong.point game active player1 player2 dt).map fun _ => .resets).toList)⟩ := by
  unfold update Pong.update reflection point Pong.enter
  by_cases begun : logged.pong.Begins game
  · cases active with
    | false =>
      simp only [if_pos begun, beginGame, resetBall, Bool.false_eq_true, if_false,
        Option.map_none, Option.toList_none, List.append_nil, List.append_assoc, List.cons_append,
        List.nil_append]
      rfl
    | true =>
      simp only [if_pos begun, beginGame, resetBall, if_true, award_eq, strike,
        List.append_assoc, List.cons_append, List.nil_append]
      rfl
  · cases active with
    | false =>
      simp only [if_neg begun, Bool.false_eq_true, if_false, Option.map_none, Option.toList_none,
        List.append_nil]
    | true =>
      simp only [if_neg begun, if_true, award_eq, strike, List.nil_append, List.append_assoc]

end Logged

/-- The log of a whole run of updates, from the start of the program. -/
def logged (calls : List Call) : Logged ℚ :=
  calls.foldl (fun logged call =>
    logged.update call.game call.active call.player1 call.player2 call.dt) ⟨Pong.default, []⟩

variable {pong : Pong ℚ} {call : Call} {calls : List Call} {effects : List Effect}
  {side side' : Side}

/-! ## The story of a game -/

/-- What happens in an update, in the order of the source. -/
def Effect.events (effect : Effect) : List Event :=
  (if effect.begins then [.resets, .begins] else []) ++
    (effect.reflection.map .reflects).toList ++ (effect.point.map fun _ => .resets).toList

/-- The story of a run: what its updates did, one after the other. -/
def story (effects : List Effect) : List Event := effects.flatMap Effect.events

/-- Two reflections with no new ball between them are at different paddles. Stated of neighbours,
this is what `List.IsChain` says of a whole log. -/
def Alternates : Event → Event → Prop
  | .reflects side, .reflects side' => side ≠ side'
  | _, _ => True

/-- The new balls since the game began, the one it began with aside. It counts `.resets`, that is
calls of `resetBall`, and starts over at each new game. -/
def newBalls (events : List Event) : Nat :=
  events.foldl (fun balls event =>
    match event with
    | .resets => balls + 1
    | .begins => 0
    | .reflects _ => balls) 0

/-- The story is told on, update by update. -/
theorem story_snoc (effects : List Effect) (effect : Effect) :
    story (effects ++ [effect]) = story effects ++ effect.events := by
  rw [story, List.flatMap_append, List.flatMap_singleton, story]

/-- The log is the story, and it is that of the same game. -/
theorem logged_of_runs (runs : Runs step Pong.default calls effects pong) :
    logged calls = ⟨pong, story effects⟩ := by
  induction runs with
  | nil => rfl
  | @snoc calls effects pong pong' call effect _ last ih =>
    cases last
    have begins : (decide (pong.Begins call.game) = true) = pong.Begins call.game :=
      decide_eq_true_eq
    rw [logged, List.foldl_append, ← logged, ih, List.foldl_cons, List.foldl_nil,
      Logged.update_eq, story_snoc, Effect.events]
    simp only [begins]

/-- An update that begins a game does nothing else: no paddle is within reach of its ball. -/
theorem events_begun (inField : InField pong) (begun : pong.Begins call.game) :
    (effect pong call).events = [.resets, .begins] := by
  obtain ⟨struck, scored⟩ := quiet_of_begins begun inField
  have begins : (effect pong call).begins = true := decide_eq_true begun
  simp only [Effect.events, begins, struck, scored, if_true, Option.map_none, Option.toList_none,
    List.append_nil]

/-- Other updates have a reflection, a new ball, or neither. -/
theorem events_same (same : ¬pong.Begins call.game) : (effect pong call).events =
    ((effect pong call).reflection.map .reflects).toList ++
      ((effect pong call).point.map fun _ => .resets).toList := by
  have begins : (effect pong call).begins = false := decide_eq_false same
  simp only [Effect.events, begins, Bool.false_eq_true, if_false, List.nil_append]

@[simp] theorem newBalls_begins (events : List Event) :
    newBalls (events ++ [.resets, .begins]) = 0 := by
  simp [newBalls]

@[simp] theorem newBalls_reflects (events : List Event) (side : Side) :
    newBalls (events ++ [.reflects side]) = newBalls events := by
  simp [newBalls]

@[simp] theorem newBalls_resets (events : List Event) :
    newBalls (events ++ [.resets]) = newBalls events + 1 := by
  simp [newBalls]

/-- What the story of a game says about where it stands. -/
structure Tallied (events : List Event) (pong : Pong ℚ) : Prop where
  inField : InField pong
  bytes : ∀ side, pong.score side < 2 ^ 8
  alternates : events.IsChain Alternates
  /-- A ball that was reflected last flies away from that paddle. -/
  away : ∀ side, events.getLast? = some (.reflects side) → pong.velocityX = -toward side
  balls : pong.leftScore < 255 → pong.rightScore < 255 →
    pong.leftScore + pong.rightScore = newBalls events

/-- Before the first update there is no story. -/
theorem tallied_default : Tallied [] (Pong.default : Pong ℚ) where
  inField := default_inField
  bytes side := by cases side <;> decide
  alternates := .nil
  away _ last := by cases last
  balls _ _ := rfl

/-- The scores stay bytes, as they saturate. -/
theorem after_bytes (bytes : ∀ side, pong.score side < 2 ^ 8) (call : Call) (side : Side) :
    (after pong call).score side < 2 ^ 8 := by
  have entered' : (entered pong call).score side < 2 ^ 8 := by
    rw [entered_score]
    split
    · decide
    · exact bytes side
  rw [after_score]
  split
  · exact lt_of_le_of_lt (min_le_right _ _) (by decide)
  · exact entered'

/-- An event that is no reflection may follow any other, and any other may follow it. -/
theorem isChain_snoc {events : List Event} {event : Event} (chain : events.IsChain Alternates)
    (next : ∀ side, events.getLast? = some (.reflects side) → event ≠ .reflects side) :
    (events ++ [event]).IsChain Alternates := by
  refine chain.append (.singleton _) ?_
  intro last isLast event' isEvent
  obtain rfl : event' = event := by simpa using isEvent.symm
  cases last with
  | resets | begins => trivial
  | reflects side =>
    cases event' with
    | resets | begins => trivial
    | reflects side' =>
      intro heq
      exact next side isLast (by rw [heq])

/-- The scores are below 255 only if they were before a point. -/
theorem total_of_scored (scores : ∀ side, (after pong call).score side =
      if some side' = some side then Arith.saturatingAdd 8 (pong.score side) 1
      else pong.score side)
    (left : (after pong call).leftScore < 255) (right : (after pong call).rightScore < 255) :
    pong.leftScore < 255 ∧ pong.rightScore < 255 ∧
      (after pong call).leftScore + (after pong call).rightScore =
        pong.leftScore + pong.rightScore + 1 := by
  have left' := scores .left
  have right' := scores .right
  simp only [score, Arith.saturatingAdd] at left' right'
  cases side' with
  | left =>
    simp only [if_true, Option.some.injEq, reduceCtorEq, if_false] at left' right'
    omega
  | right =>
    simp only [if_true, Option.some.injEq, reduceCtorEq, if_false] at left' right'
    omega

/-- A ball that flies on has no story. -/
theorem Tallied.quiet {events : List Event} {next : Pong ℚ} (tallied : Tallied events pong)
    (inField : InField next) (onward : next.velocityX = pong.velocityX)
    (scores : ∀ side, next.score side = pong.score side) : Tallied events next where
  inField := inField
  bytes side := by
    rw [scores]
    exact tallied.bytes side
  alternates := tallied.alternates
  away := by
    rw [onward]
    exact tallied.away
  balls := by
    have left : next.leftScore = pong.leftScore := scores .left
    have right : next.rightScore = pong.rightScore := scores .right
    rw [left, right]
    exact tallied.balls

/-- An update tells the story on. -/
theorem Tallied.update {events : List Event} (tallied : Tallied events pong) (call : Call) :
    Tallied (events ++ (effect pong call).events) (after pong call) := by
  have inField : InField (after pong call) := update_inField tallied.inField _ _ _ _ _
  have bytes := after_bytes tallied.bytes call
  by_cases begun : pong.Begins call.game
  · have zero := (scored_of_inField tallied.inField tallied.bytes call).begun begun
    have left : (after pong call).leftScore = 0 := zero .left
    have right : (after pong call).rightScore = 0 := zero .right
    rw [events_begun tallied.inField begun]
    have chain : (events ++ [Event.resets] ++ [Event.begins]).IsChain Alternates :=
      isChain_snoc (isChain_snoc tallied.alternates fun _ _ h => by cases h)
        fun _ _ h => by cases h
    rw [List.append_assoc, List.singleton_append] at chain
    refine ⟨inField, bytes, chain, ?_, ?_⟩
    · intro side last
      simp at last
    · intro _ _
      rw [newBalls_begins, left, right]
  · have scores : ∀ side, (after pong call).score side =
        if (effect pong call).point = some side then Arith.saturatingAdd 8 (pong.score side) 1
        else pong.score side := by
      intro side
      rw [after_score, entered_score, if_neg begun]
    have onward : (entered pong call).velocityX = pong.velocityX := by rw [entered_same begun]
    have turned := turn tallied.inField call
    rw [events_same begun]
    generalize (effect pong call).reflection = reflection at turned ⊢
    generalize (effect pong call).point = point at turned scores ⊢
    cases turned with
    | paused inactive still =>
      rw [Option.map_none, Option.map_none, Option.toList_none, List.append_nil, List.append_nil]
      exact tallied.quiet inField (by rw [still, onward]) scores
    | flies active onward' =>
      rw [Option.map_none, Option.map_none, Option.toList_none, List.append_nil, List.append_nil]
      exact tallied.quiet inField (onward'.trans onward) scores
    | returns side active came back =>
      rw [Option.map_some, Option.map_none, Option.toList_none, List.append_nil,
        Option.toList_some]
      have left : (after pong call).leftScore = pong.leftScore := scores .left
      have right : (after pong call).rightScore = pong.rightScore := scores .right
      refine ⟨inField, bytes, isChain_snoc tallied.alternates ?_, ?_, ?_⟩
      · rintro side' last heq
        cases heq
        have away := tallied.away _ last
        rw [← onward, came] at away
        cases side <;> norm_num [toward] at away
      · intro side' last
        rw [List.getLast?_concat] at last
        cases last
        exact back
      · rw [left, right, newBalls_reflects]
        exact tallied.balls
    | scores side active came =>
      rw [Option.map_none, Option.map_some, Option.toList_none, List.nil_append,
        Option.toList_some]
      refine ⟨inField, bytes, isChain_snoc tallied.alternates (fun _ _ h => by cases h), ?_, ?_⟩
      · intro side' last
        rw [List.getLast?_concat] at last
        cases last
      · intro left right
        obtain ⟨left', right', total⟩ := total_of_scored scores left right
        rw [total, newBalls_resets, tallied.balls left' right']

/-- The story of a run stands where its game does. -/
theorem tallied_of_runs (runs : Runs step Pong.default calls effects pong) :
    Tallied (story effects) pong := by
  induction runs with
  | nil => exact tallied_default
  | snoc _ last ih =>
    cases last
    rw [story_snoc]
    exact ih.update _

/-- **The scores are those of the rallies.** Wherever calls of `update` have led: one more call does
to the scores what `Scored` says. The log of the same calls is that of the same game; in it the
paddles have alternated between two calls of `resetBall`; and as long as no score is full, the two
count the calls of `resetBall` since the game began, the one it began with aside. A full score is
left out because it stays where it is while balls are still thrown. -/
theorem scores_of_runs (runs : Runs step Pong.default calls effects pong) :
    (∀ call, Scored pong call) ∧ (logged calls).pong = pong ∧
      (logged calls).log.IsChain Alternates ∧
      (pong.leftScore < 255 → pong.rightScore < 255 →
        pong.leftScore + pong.rightScore = newBalls (logged calls).log) := by
  have tallied := tallied_of_runs runs
  rw [logged_of_runs runs]
  exact ⟨scored_of_inField tallied.inField tallied.bytes, rfl, tallied.alternates, tallied.balls⟩

/-- Each paddle returns the ball once, and the right player scores. -/
def rally : List Call :=
  List.replicate 15 ⟨2, true, 200, 0, 0.1⟩ ++ List.replicate 78 ⟨2, true, 200, 120, 0.1⟩

/-- The log has the new ball of the game, the two returns, and the new ball of the point. -/
theorem scores_of_runs_rally :
    ∃ effects pong, Runs step (Pong.default : Pong ℚ) rally effects pong ∧
      (logged rally).log = [.resets, .begins, .reflects .left, .reflects .right, .resets] ∧
      (∀ call, Scored pong call) ∧ (logged rally).pong = pong ∧
      (logged rally).log.IsChain Alternates ∧ pong.leftScore + pong.rightScore = 1 := by
  have played : (run step (Pong.default : Pong ℚ) rally).map
      (fun p => (story p.2, p.1.leftScore, p.1.rightScore)) =
      some ([.resets, .begins, .reflects .left, .reflects .right, .resets], 0, 1) := by
    decide +kernel
  obtain ⟨effects, pong, runs, seen⟩ := runs_of_run played
  obtain ⟨hstory, left, right⟩ := by simpa only [Prod.mk.injEq] using seen
  obtain ⟨scored, same, chain, balls⟩ := scores_of_runs runs
  have hlog : (logged rally).log = _ := (congrArg Logged.log (logged_of_runs runs)).trans hstory
  refine ⟨effects, pong, runs, hlog, scored, same, chain, ?_⟩
  rw [balls (by omega) (by omega), hlog]
  rfl

end Motorball.Server.Pong
