import Motorball.Server.PongRally

/-!
# The pace of the Pong game

The ball crosses the field at one speed, so the time played and what has happened bound each other.
`playTime` is that time: what the frames since the game began have moved the ball by, each at most a
fifth of a second. `Pace` holds two potentials against it. The way from the middle of the field is
made anew after each point, so the points are not too many; the way that is left ahead of the ball
is at most the whole field, so returns and points are not too few.

In particular a game that has not played for seven minutes keeps its scores exact: neither is full.
-/

namespace Motorball.Server.Pong

open Transducer

variable {pong : Pong ℚ} {call : Call} {calls : List Call} {effects : List Effect}
  {returns balls : Nat} {time : ℚ}

/-! ## The time played -/

/-- The time an update moves the ball by: none while the game is paused, and of a slow frame no more
than a fifth of a second. -/
def played (call : Call) : ℚ := if call.active then Scalar.clamp call.dt 0.0 0.2 else 0

/-- The time played since the game began, one update later. -/
def notePlayed (time : ℚ) (update : Call × Effect) : ℚ :=
  (if update.2.begins then 0 else time) + played update.1

/-- The time played since the game began. It is that of the ball, not of the clock: a slow frame
counts for less than it took. -/
def playTime (calls : List Call) (effects : List Effect) : ℚ :=
  (calls.zip effects).foldl notePlayed 0

/-- The returns since the game began, whoever made them. -/
def rallyReturns (events : List Event) : Nat :=
  events.foldl (fun returns event =>
    match event with
    | .resets => returns
    | .begins => 0
    | .reflects _ => returns + 1) 0

/-- The time played, one update later. -/
theorem playTime_snoc (length : effects.length = calls.length) (call : Call) (effect : Effect) :
    playTime (calls ++ [call]) (effects ++ [effect]) =
      notePlayed (playTime calls effects) (call, effect) := by
  rw [playTime, List.zip_append length.symm, List.foldl_append]
  rfl

@[simp] theorem rallyReturns_begins (events : List Event) :
    rallyReturns (events ++ [.resets, .begins]) = 0 := by
  simp [rallyReturns]

@[simp] theorem rallyReturns_reflects (events : List Event) (side : Side) :
    rallyReturns (events ++ [.reflects side]) = rallyReturns events + 1 := by
  simp [rallyReturns]

@[simp] theorem rallyReturns_resets (events : List Event) :
    rallyReturns (events ++ [.resets]) = rallyReturns events := by
  simp [rallyReturns]

/-! ## Two potentials -/

/-- How far a ball at `x` is from an end of the field, that is from where the point is scored. -/
def gap (x : ℚ) : Side → ℚ
  | .left => x + 3
  | .right => 128 - x

/-- How far the ball is from the end it is on its way to. Flight uses it up, and only a return or a
new ball gives it back. -/
def ahead (pong : Pong ℚ) : ℚ := gap pong.ballX (if 0 < pong.velocityX then .right else .left)

/-- The end ahead, for a ball that flies to a given side. -/
theorem ahead_toward (way : Side) (came : pong.velocityX = toward way) :
    ahead pong = gap pong.ballX way := by
  cases way with
  | left => rw [ahead, came, if_neg (by norm_num [toward])]
  | right => rw [ahead, came, if_pos (by norm_num [toward])]

/-- The time played against the returns and the new balls: two potentials, one from below and one
from above. -/
structure Pace (time : ℚ) (returns balls : Nat) (pong : Pong ℚ) : Prop where
  /-- A point takes the ball from the middle past an end. -/
  points : 65.5 * balls + |ahead pong - 65.5| ≤ 38 * time
  /-- Between two events the ball flies no further than from one end to the other. -/
  busy : 38 * time + ahead pong ≤ 131 * (returns + balls + 1)

/-- The ball in the middle has half the field ahead. -/
theorem ahead_middle (middle : pong.ballX = 62.5) : ahead pong = 65.5 := by
  rw [ahead, middle]
  split <;> norm_num [gap]

/-- A new game. -/
theorem Pace.fresh (middle : pong.ballX = 62.5) : Pace 0 0 0 pong := by
  refine ⟨?_, ?_⟩ <;> rw [ahead_middle middle] <;> norm_num

/-- A frame takes the ball ahead. -/
theorem gap_arrived (way : Side) (came : (entered pong call).velocityX = toward way)
    (active : call.active = true) :
    gap (arrived pong call).ballX way = gap (entered pong call).ballX way - 38 * played call := by
  rw [arrived_ballX, came, played, if_pos active]
  cases way with
  | left => rw [gap, gap, toward]; ring
  | right => rw [gap, gap, toward]; ring

/-- No frame takes time back. -/
theorem played_nonneg (call : Call) : 0 ≤ played call := by
  rw [played]
  split
  · exact (frame_mem call.dt).1
  · exact le_rfl

/-- The velocity tells the side. -/
theorem toward_injective {way : Side} (h : toward way = toward side) : way = side := by
  cases way <;> cases side <;> first | rfl | norm_num [toward] at h

/-- Where a paddle reflects the ball. -/
theorem gap_struck (struck : pong.striker = some side) :
    2 ≤ gap pong.ballX side ∧ gap pong.ballX side ≤ 8 := by
  cases side with
  | left =>
    obtain ⟨-, front, behind, -⟩ := striker_left_iff.mp struck
    exact ⟨by rw [gap]; linarith, by rw [gap]; linarith⟩
  | right =>
    obtain ⟨-, front, behind, -⟩ := striker_right_iff.mp struck
    exact ⟨by rw [gap]; linarith, by rw [gap]; linarith⟩

/-- A reflected ball has the field but a paddle's place ahead. -/
theorem ahead_struck (steady : Steady pong) (struck : pong.striker = some side) :
    ahead pong.strike.award = 123 := by
  have missed := winner_strike struck
  have back : pong.strike.award.velocityX = -toward side := by
    rw [award_velocityX, missed]
    exact strike_back steady struck
  have place : pong.strike.award.ballX = pong.strike.ballX := by rw [award_ballX, missed]
  rw [strike_ballX, struck] at place
  cases side with
  | left =>
    rw [ahead_toward .right (by rw [back]; norm_num [toward]), place]
    norm_num [gap]
  | right =>
    rw [ahead_toward .left (by rw [back]; norm_num [toward]), place]
    norm_num [gap]

/-- A ball in the field has not passed an end. -/
theorem gap_nonneg (inField : InField pong) (way : Side) : 0 ≤ gap pong.ballX way := by
  have left := inField.left
  have right := inField.right
  rw [ballSize_eq] at left
  rw [screenWidth_eq] at right
  cases way with
  | left => rw [gap]; linarith
  | right => rw [gap]; linarith

/-- A lost ball has passed the end it was on its way to. -/
theorem gap_lost {way : Side} (lost : pong.winner = some side) (came : toward way = -toward side) :
    gap pong.ballX way < 0 := by
  cases side with
  | left =>
    cases way with
    | left => norm_num [toward] at came
    | right => rw [gap]; linarith [winner_left_iff.mp lost]
  | right =>
    cases way with
    | left => rw [gap]; linarith [winner_right_iff.mp lost]
    | right => norm_num [toward] at came

/-- Once the paddles are moved and the new game begun, an update keeps the pace, in each of the four
ways it may turn out. -/
theorem Pace.after (inField : InField pong) (pace : Pace time returns balls (entered pong call)) :
    Pace (time + played call) (returns + (effect pong call).reflection.toList.length)
      (balls + (effect pong call).point.toList.length) (after pong call) := by
  obtain ⟨points, busy⟩ := pace
  cases active : call.active with
  | false =>
    rw [reflection_paused active, point_paused active, after_paused active, played, active]
    simp only [Bool.false_eq_true, if_false, add_zero, Option.toList_none, List.length_nil]
    exact ⟨points, busy⟩
  | true =>
    have steady : Steady (arrived pong call) := arrived_steady inField
    obtain ⟨way, came⟩ := (enter_inField inField call.game call.player1 call.player2).direction
    have came : (entered pong call).velocityX = toward way := came
    have flight := gap_arrived way came active
    have nonneg := played_nonneg call
    have inside : 0 ≤ gap (entered pong call).ballX way :=
      gap_nonneg (enter_inField inField call.game call.player1 call.player2) way
    rw [ahead_toward way came] at points busy
    generalize gap (entered pong call).ballX way = before at flight points busy inside
    have far : |gap (arrived pong call).ballX way - 65.5| ≤ |before - 65.5| + 38 * played call := by
      rw [flight, abs_le]
      constructor
      · linarith [neg_abs_le (before - 65.5)]
      · linarith [le_abs_self (before - 65.5)]
    rw [reflection_active active, point_active active, after_active active]
    cases struck : (arrived pong call).striker with
    | some side =>
      have reflected := came_of_striker steady struck
      rw [arrived_velocityX, came] at reflected
      obtain ⟨near, reached⟩ := gap_struck struck
      rw [← toward_injective reflected] at near reached
      rw [abs_of_nonpos (by linarith)] at far
      rw [winner_strike struck]
      simp only [Option.toList_some, Option.toList_none, List.length_singleton, List.length_nil,
        add_zero]
      refine ⟨?_, ?_⟩ <;> rw [ahead_struck steady struck]
      · norm_num
        linarith
      · push_cast
        linarith
    | none =>
      have through : (arrived pong call).strike = arrived pong call := by rw [strike_eq, struck]
      rw [through]
      cases lost : (arrived pong call).winner with
      | some side =>
        have renewed : ahead (arrived pong call).award = 65.5 :=
          ahead_middle (by rw [award_ballX, lost])
        have passed := gap_lost lost (came.symm.trans (came_of_winner inField lost))
        rw [abs_of_nonpos (by linarith)] at far
        have slow : played call ≤ 1 / 5 := by
          rw [played, if_pos active]
          exact (frame_mem call.dt).2
        simp only [Option.toList_some, Option.toList_none, List.length_singleton, List.length_nil,
          add_zero]
        refine ⟨?_, ?_⟩ <;> rw [renewed]
        · push_cast
          norm_num
          linarith
        · push_cast
          linarith
      | none =>
        have onward : ahead (arrived pong call).award = gap (arrived pong call).ballX way := by
          rw [ahead_toward way (by rw [award_velocityX, lost, arrived_velocityX, came]),
            award_ballX, lost]
        simp only [Option.toList_none, List.length_nil, add_zero]
        refine ⟨?_, ?_⟩ <;> rw [onward]
        · linarith
        · linarith

/-! ## Over whole games -/

/-- The pace of the game a story has come to. -/
structure Paced (calls : List Call) (effects : List Effect) (pong : Pong ℚ) : Prop where
  length : effects.length = calls.length
  inField : InField pong
  pace : Pace (playTime calls effects) (rallyReturns (story effects))
    (newBalls (story effects)) pong
  total : pong.leftScore + pong.rightScore ≤ newBalls (story effects)

/-- Nothing has been played before the first update. -/
theorem paced_default : Paced [] [] (Pong.default : Pong ℚ) where
  length := rfl
  inField := default_inField
  pace := by
    have middle : (Pong.default : Pong ℚ).ballX = 62.5 := by norm_num [Pong.default]
    exact .fresh middle
  total := Nat.le_refl _

/-- An update adds to the scores no more than its point. -/
theorem total_after (pong : Pong ℚ) (call : Call) :
    (after pong call).leftScore + (after pong call).rightScore ≤
      (entered pong call).leftScore + (entered pong call).rightScore +
        (effect pong call).point.toList.length := by
  cases scored : (effect pong call).point with
  | none =>
    have left : (after pong call).leftScore = (entered pong call).leftScore :=
      after_score_of_none scored .left
    have right : (after pong call).rightScore = (entered pong call).rightScore :=
      after_score_of_none scored .right
    rw [left, right]
    exact Nat.le_refl _
  | some side => exact after_total pong call

/-- The returns and the new balls of a story, one update that begins no game later. -/
theorem counted (effects : List Effect) (same : ¬pong.Begins call.game) :
    rallyReturns (story effects ++ (effect pong call).events) =
      rallyReturns (story effects) + (effect pong call).reflection.toList.length ∧
    newBalls (story effects ++ (effect pong call).events) =
      newBalls (story effects) + (effect pong call).point.toList.length := by
  rw [events_same same]
  generalize (effect pong call).reflection = reflection
  generalize (effect pong call).point = point
  rw [← List.append_assoc]
  cases reflection <;> cases point <;>
    simp only [Option.map_none, Option.map_some, Option.toList_none, Option.toList_some,
      List.append_nil, rallyReturns_reflects, rallyReturns_resets, newBalls_reflects,
      newBalls_resets, List.length_nil, List.length_singleton, add_zero, and_self]

/-- An update keeps the pace of the game it belongs to, be that a new one or the one before. -/
theorem Paced.update (paced : Paced calls effects pong) (call : Call) :
    Paced (calls ++ [call]) (effects ++ [effect pong call]) (after pong call) := by
  obtain ⟨length, inField, pace, total⟩ := paced
  have inField' : InField (after pong call) := update_inField inField _ _ _ _ _
  have length' : (effects ++ [effect pong call]).length = (calls ++ [call]).length := by
    rw [List.length_append, List.length_append, length]
    rfl
  have grown := total_after pong call
  have left := entered_score pong call .left
  have right := entered_score pong call .right
  simp only [score] at left right
  refine ⟨length', inField', ?_, ?_⟩ <;> by_cases begun : pong.Begins call.game
  · have begins : (effect pong call).begins = true := decide_eq_true begun
    obtain ⟨struck, scored⟩ := quiet_of_begins begun inField
    have fresh : Pace 0 0 0 (entered pong call) := .fresh (entered_begun begun)
    have kept := fresh.after inField
    rw [struck, scored] at kept
    rw [playTime_snoc length, story_snoc, notePlayed, events_begun inField begun,
      rallyReturns_begins, newBalls_begins, begins, if_pos rfl]
    exact kept
  · have begins : (effect pong call).begins = false := decide_eq_false begun
    obtain ⟨returned, scored⟩ := counted effects begun
    have same : Pace (playTime calls effects) (rallyReturns (story effects))
        (newBalls (story effects)) (entered pong call) := by
      rw [entered_same begun]
      exact ⟨pace.points, pace.busy⟩
    rw [playTime_snoc length, story_snoc, notePlayed, returned, scored, begins, if_neg (by simp)]
    exact same.after inField
  · obtain ⟨-, scored⟩ := quiet_of_begins begun inField
    rw [story_snoc, events_begun inField begun, newBalls_begins]
    rw [if_pos begun] at left right
    rw [left, right, scored] at grown
    exact grown
  · obtain ⟨-, scored⟩ := counted effects begun
    rw [story_snoc, scored]
    rw [if_neg begun] at left right
    omega

/-- The pace of the game that a run has come to. -/
theorem paced_of_runs (runs : Runs step Pong.default calls effects pong) :
    Paced calls effects pong := by
  induction runs with
  | nil => exact paced_default
  | snoc _ last ih =>
    cases last
    exact ih.update _

/-- A point takes the ball over half the field, so points cost time. -/
theorem newBalls_slow (runs : Runs step Pong.default calls effects pong) :
    65.5 * (newBalls (story effects) : ℚ) ≤ 38 * playTime calls effects := by
  have pace := (paced_of_runs runs).pace
  linarith [pace.points, abs_nonneg (ahead pong - 65.5)]

/-- **The pace of the game.** After any calls of `update`, in the time played since the game began:
there is at most a new ball for every 65.5 pixels of the ball's way, and at least a return or a new
ball for every 131, the first 131 aside. So a game that has played for no more than 439 seconds has
a score for each new ball, and none that is full, as 255 points take 255 halves of the field at 38
pixels a second. The time is that of the ball, so a slow display only helps. -/
theorem pace_of_play (runs : Runs step Pong.default calls effects pong) :
    65.5 * (newBalls (story effects) : ℚ) ≤ 38 * playTime calls effects ∧
      38 * playTime calls effects ≤
        131 * ((rallyReturns (story effects) : ℚ) + newBalls (story effects) + 1) ∧
      (playTime calls effects ≤ 439 →
        pong.leftScore + pong.rightScore = newBalls (story effects) ∧
          pong.leftScore < 255 ∧ pong.rightScore < 255) := by
  obtain ⟨-, inField, pace, total⟩ := paced_of_runs runs
  obtain ⟨way, came⟩ := inField.direction
  have front := gap_nonneg inField way
  rw [← ahead_toward way came] at front
  have slow := newBalls_slow runs
  refine ⟨slow, by linarith [pace.busy], ?_⟩
  intro short
  have few : newBalls (story effects) < 255 := by
    have few : (newBalls (story effects) : ℚ) < 255 := by linarith
    exact_mod_cast few
  have left : pong.leftScore < 255 := by omega
  have right : pong.rightScore < 255 := by omega
  exact ⟨(tallied_of_runs runs).balls left right, left, right⟩

/-- The rally in which each paddle returns the ball once and the right player scores. -/
theorem pace_of_play_rally :
    ∃ effects pong, Runs step (Pong.default : Pong ℚ) rally effects pong ∧
      65.5 * (1 : ℚ) ≤ 38 * playTime rally effects ∧ 38 * playTime rally effects ≤ 131 * 4 := by
  have played : (run step (Pong.default : Pong ℚ) rally).map
      (fun p => (newBalls (story p.2), rallyReturns (story p.2))) = some (1, 2) := by
    decide +kernel
  obtain ⟨effects, pong, runs, counts⟩ := runs_of_run played
  obtain ⟨balls, returns⟩ := by simpa only [Prod.mk.injEq] using counts
  obtain ⟨points, busy, -⟩ := pace_of_play runs
  rw [balls] at points busy
  rw [returns] at busy
  refine ⟨effects, pong, runs, ?_, ?_⟩
  · exact_mod_cast points
  · norm_num at busy ⊢
    linarith

end Motorball.Server.Pong
