import Motorball.Server.PongField

/-!
# How an update of the Pong game turns out

An update is paused, or the ball flies on, or a paddle returns it, or a player scores (`Turn`). The
lemmas before that say where the ball comes to (`arrived_ballX`), where a paddle reflects it
(`striker_left_iff`, `striker_right_iff`) and where it is lost (`winner_left_iff`,
`winner_right_iff`). What one update does to the scores is read off from that (`Scored`).
-/

namespace Motorball.Server.Pong

open Transducer

variable {pong : Pong ℚ} {call : Call} {calls : List Call} {effects : List Effect}
  {side side' : Side}

/-! ## One update -/

/-- The game once an update has begun a new game if it does, and moved the paddles. The scores of an
update are counted from here. -/
def entered (pong : Pong ℚ) (call : Call) : Pong ℚ :=
  pong.enter call.game call.player1 call.player2

/-- Where an active update has the ball when the paddles come to it, after its flight and off the
top and the bottom. -/
def arrived (pong : Pong ℚ) (call : Call) : Pong ℚ :=
  ((entered pong call).move call.dt).bounce

/-- The game after an update. -/
def after (pong : Pong ℚ) (call : Call) : Pong ℚ :=
  pong.update call.game call.active call.player1 call.player2 call.dt

/-- What an update does, by the three questions that the laws are about. -/
def effect (pong : Pong ℚ) (call : Call) : Effect where
  begins := decide (pong.Begins call.game)
  reflection := pong.reflection call.game call.active call.player1 call.player2 call.dt
  point := pong.point call.game call.active call.player1 call.player2 call.dt

section Paused

variable (paused : call.active = false)
include paused

/-- A paused update only enters: the ball waits, and the paddles follow the players. -/
theorem after_paused : after pong call = entered pong call := by
  simp only [after, update, paused, entered, Bool.false_eq_true, if_false]

/-- No paddle reflects anything in a paused update. -/
theorem reflection_paused : (effect pong call).reflection = none := by
  simp only [effect, reflection, paused, Bool.false_eq_true, if_false]

/-- Nobody scores in a paused update. -/
theorem point_paused : (effect pong call).point = none := by
  simp only [effect, point, paused, Bool.false_eq_true, if_false]

end Paused

section Active

variable (active : call.active = true)
include active

/-- An active update in its parts, from where the ball arrives on. -/
theorem after_active : after pong call = (arrived pong call).strike.award := by
  simp only [after, update, active, if_true, arrived, entered]

/-- A paddle reflects the ball where it arrives. -/
theorem reflection_active : (effect pong call).reflection = (arrived pong call).striker := by
  simp only [effect, reflection, active, if_true, arrived, entered]

/-- The point is by where the ball is after the paddles, so a reflected ball may still be out of
reach of it. -/
theorem point_active : (effect pong call).point = (arrived pong call).strike.winner := by
  simp only [effect, point, active, if_true, arrived, entered]

end Active

/-! ## Its parts -/

/-- The scores at the start of an update, nought for a new game. -/
theorem entered_score (pong : Pong ℚ) (call : Call) (side : Side) :
    (entered pong call).score side = if pong.Begins call.game then 0 else pong.score side :=
  enter_score ..

/-- An update that begins no game leaves the ball alone until it moves. -/
theorem entered_same (same : ¬pong.Begins call.game) : entered pong call =
    { pong with
      leftY := paddleY call.player1
      rightY := paddleY (255 - Arith.clamp call.player2 0 255) } := by
  simp only [entered, enter, if_neg same]

/-- The ball of a new game is in the middle. -/
theorem entered_begun (begun : pong.Begins call.game) : (entered pong call).ballX = 62.5 := by
  simp only [entered, enter, if_pos begun]
  exact (resetBall_position _ _).1

/-- The top and the bottom leave the ball where it is across the field. -/
theorem bounce_ballX : pong.bounce.ballX = pong.ballX := by
  rw [bounce_eq]
  split
  · rfl
  · split <;> rfl

/-- The top and the bottom turn the ball only up and down. -/
theorem bounce_velocityX : pong.bounce.velocityX = pong.velocityX := by
  rw [bounce_eq]
  split
  · rfl
  · split <;> rfl

/-- Up to the paddles the ball keeps its way. -/
theorem arrived_velocityX : (arrived pong call).velocityX = (entered pong call).velocityX :=
  bounce_velocityX

/-- The ball arrives after one flight of the frame's time, cut to a fifth of a second. -/
theorem arrived_ballX : (arrived pong call).ballX =
    (entered pong call).ballX + (entered pong call).velocityX * Scalar.clamp call.dt 0.0 0.2 :=
  bounce_ballX

/-- The velocity of a ball on its way to a side. Every ball has one of the two
(`Steady.direction`). -/
def toward : Side → ℚ
  | .left => -38
  | .right => 38

/-- The ball goes one way or the other. -/
theorem Steady.direction (steady : Steady pong) : ∃ side, pong.velocityX = toward side := by
  have speed := steady.speedX
  rw [ballSpeedX_eq] at speed
  rcases (abs_eq (by norm_num)).mp speed with right | left
  · exact ⟨.right, right⟩
  · exact ⟨.left, left⟩

/-- The vertical spans of the ball and of a paddle meet, the edges included. -/
def Meets (pong : Pong ℚ) (paddle : ℚ) : Prop :=
  paddle ≤ pong.ballY + ballSize ∧ pong.ballY ≤ paddle + paddleHeight

/-- Where the left paddle reflects the ball. -/
theorem left_window : (pong.velocityX < 0.0 ∧ pong.ballX ≤ leftPaddleX + paddleWidth ∧
      leftPaddleX ≤ pong.ballX + ballSize ∧ Meets pong pong.leftY) ↔
    pong.velocityX < 0 ∧ pong.ballX ≤ 5 ∧ -1 ≤ pong.ballX ∧ Meets pong pong.leftY := by
  have zero : (0.0 : ℚ) = 0 := by norm_num
  have front : (leftPaddleX + paddleWidth : ℚ) = 5 := by norm_num
  have behind : leftPaddleX ≤ pong.ballX + ballSize ↔ -1 ≤ pong.ballX := by
    rw [leftPaddleX_eq, ballSize_eq]
    constructor <;> intro _ <;> linarith
  rw [zero, front, behind]

/-- Where the right paddle reflects it. -/
theorem right_window : (0.0 < pong.velocityX ∧ rightPaddleX ≤ pong.ballX + ballSize ∧
      pong.ballX ≤ rightPaddleX + paddleWidth ∧ Meets pong pong.rightY) ↔
    0 < pong.velocityX ∧ 120 ≤ pong.ballX ∧ pong.ballX ≤ 126 ∧ Meets pong pong.rightY := by
  have zero : (0.0 : ℚ) = 0 := by norm_num
  have behind : (rightPaddleX + paddleWidth : ℚ) = 126 := by norm_num
  have front : rightPaddleX ≤ pong.ballX + ballSize ↔ 120 ≤ pong.ballX := by
    rw [rightPaddleX_eq, ballSize_eq]
    constructor <;> intro _ <;> linarith
  rw [zero, front, behind]

/-- The left paddle's window, as numbers. It is 6 wide: at -1 the ball is just behind the back of
the paddle, and at 5 at its front. -/
theorem striker_left_iff : pong.striker = some .left ↔
    pong.velocityX < 0 ∧ pong.ballX ≤ 5 ∧ -1 ≤ pong.ballX ∧ Meets pong pong.leftY := by
  rw [← left_window, striker]
  split
  next struck => exact ⟨fun _ => struck, fun _ => rfl⟩
  next missed =>
    refine ⟨fun h => ?_, fun struck => absurd struck missed⟩
    split at h <;> cases h

/-- The right paddle's window, which is as wide. The two questions of the source exclude each other
by the direction. -/
theorem striker_right_iff : pong.striker = some .right ↔
    0 < pong.velocityX ∧ 120 ≤ pong.ballX ∧ pong.ballX ≤ 126 ∧ Meets pong pong.rightY := by
  rw [← right_window, striker]
  split
  next left =>
    refine ⟨fun h => ?_, fun right => absurd left.1 (lt_asymm right.1)⟩
    cases h
  · split
    next struck => exact ⟨fun _ => struck, fun _ => rfl⟩
    next missed =>
      refine ⟨fun h => ?_, fun struck => absurd struck missed⟩
      cases h

/-- The ends of the field, as numbers for the corner of the ball. -/
theorem winner_cases : pong.winner =
    if pong.ballX < -3 then some .right else if 128 < pong.ballX then some .left else none := by
  have lost : pong.ballX + ballSize < 0.0 ↔ pong.ballX < -3 := by
    rw [ballSize_eq]
    constructor <;> intro _ <;> linarith
  simp only [winner_eq, lost, screenWidth_eq]

/-- The right player scores when all of the ball is past the left end. -/
theorem winner_right_iff : pong.winner = some .right ↔ pong.ballX < -3 := by
  rw [winner_cases]
  grind

/-- The left player scores when all of the ball is past the right end. -/
theorem winner_left_iff : pong.winner = some .left ↔ 128 < pong.ballX := by
  rw [winner_cases]
  grind

/-- The ball after the point, if there is one. -/
theorem award_ballX : pong.award.ballX =
    match pong.winner with
    | some _ => 62.5
    | none => pong.ballX := by
  unfold award
  cases pong.winner with
  | none => rfl
  | some side => cases side <;> exact (resetBall_position _ _).1

/-- A new ball flies to the player who has scored. -/
theorem award_velocityX : pong.award.velocityX =
    match pong.winner with
    | some side => toward side
    | none => pong.velocityX := by
  unfold award
  cases pong.winner with
  | none => rfl
  | some side =>
    cases side with
    | left =>
      show (ballSpeedX * -1.0 : ℚ) = toward .left
      norm_num [toward]
    | right =>
      show (ballSpeedX * 1.0 : ℚ) = toward .right
      norm_num [toward]

/-! ## How an update turns out -/

/-- The four ways an update turns out, by the paddle that reflects the ball in it and the player who
scores. -/
inductive Turn (pong : Pong ℚ) (call : Call) : Option Side → Option Side → Prop
  | paused (inactive : call.active = false) (still : after pong call = entered pong call) :
      Turn pong call none none
  | flies (active : call.active = true)
      (onward : (after pong call).velocityX = (entered pong call).velocityX) :
      Turn pong call none none
  | returns (side : Side) (active : call.active = true)
      (came : (entered pong call).velocityX = toward side)
      (back : (after pong call).velocityX = -toward side) :
      Turn pong call (some side) none
  | scores (side : Side) (active : call.active = true)
      (came : (entered pong call).velocityX = -toward side) :
      Turn pong call none (some side)

/-- A ball that a paddle has reflected is in the field, so an update does not do both. -/
theorem winner_strike (struck : pong.striker = some side) : pong.strike.winner = none := by
  rw [winner_cases, strike_ballX, struck]
  cases side <;> norm_num

/-- A ball that leaves the field leaves it on the side it was on its way to. It had been in the
field, and a frame does not turn it. -/
theorem came_of_winner (inField : InField pong) (lost : (arrived pong call).winner = some side) :
    (entered pong call).velocityX = -toward side := by
  have entered' : InField (entered pong call) := enter_inField inField _ _ _
  obtain ⟨still, -⟩ := frame_mem call.dt
  obtain ⟨way, came⟩ := entered'.direction
  have left := entered'.left
  have right := entered'.right
  rw [ballSize_eq] at left
  rw [screenWidth_eq] at right
  cases side with
  | left =>
    rw [winner_left_iff, arrived_ballX] at lost
    cases way with
    | left =>
      simp only [came, toward] at lost
      linarith
    | right => simp only [came, toward, neg_neg]
  | right =>
    rw [winner_right_iff, arrived_ballX] at lost
    cases way with
    | left => exact came
    | right =>
      simp only [came, toward] at lost
      linarith

/-- A paddle reflects a ball on its way to that side. -/
theorem came_of_striker (steady : Steady pong) (struck : pong.striker = some side) :
    pong.velocityX = toward side := by
  obtain ⟨way, came⟩ := steady.direction
  cases side with
  | left =>
    have negative := (striker_left_iff.mp struck).1
    cases way with
    | left => exact came
    | right =>
      rw [came, toward] at negative
      norm_num at negative
  | right =>
    have positive := (striker_right_iff.mp struck).1
    cases way with
    | left =>
      rw [came, toward] at positive
      norm_num at positive
    | right => exact came

/-- The ball turns around, at the speed it came with. -/
theorem strike_back (steady : Steady pong) (struck : pong.striker = some side) :
    pong.strike.velocityX = -toward side := by
  rw [strike_velocityX, struck]
  cases side with
  | left =>
    rw [came_of_striker steady struck]
    norm_num [toward]
  | right =>
    rw [came_of_striker steady struck]
    norm_num [toward]

/-- The speeds and the paddles are right where the ball arrives. -/
theorem arrived_steady (inField : InField pong) : Steady (arrived pong call) :=
  (bounce_level (move_steady (enter_inField inField _ _ _).toSteady _)).toSteady

/-- Every update turns out in one of the four ways. The laws of rallies, scores and pace are by
these cases. -/
theorem turn (inField : InField pong) (call : Call) :
    Turn pong call (effect pong call).reflection (effect pong call).point := by
  cases active : call.active with
  | false =>
    rw [reflection_paused active, point_paused active]
    exact .paused active (after_paused active)
  | true =>
    have moved : after pong call = (arrived pong call).strike.award := after_active active
    rw [reflection_active active, point_active active]
    cases struck : (arrived pong call).striker with
    | some side =>
      rw [winner_strike struck]
      have came := came_of_striker (arrived_steady inField) struck
      rw [arrived_velocityX] at came
      refine .returns side active came ?_
      rw [moved, award_velocityX, winner_strike struck]
      exact strike_back (arrived_steady inField) struck
    | none =>
      have through : (arrived pong call).strike = arrived pong call := by rw [strike_eq, struck]
      rw [through]
      cases lost : (arrived pong call).winner with
      | some side => exact .scores side active (came_of_winner inField lost)
      | none =>
        refine .flies active ?_
        rw [moved, through, award_velocityX, lost]
        exact arrived_velocityX

/-- The first update of a game does not reach a paddle: from the middle that would take more than a
fifth of a second. -/
theorem quiet_of_begins (begun : pong.Begins call.game) (inField : InField pong) :
    (effect pong call).reflection = none ∧ (effect pong call).point = none := by
  cases active : call.active with
  | false => exact ⟨reflection_paused active, point_paused active⟩
  | true =>
    have entered' : InField (entered pong call) := enter_inField inField _ _ _
    obtain ⟨still, slow⟩ := frame_mem call.dt
    have middle : (arrived pong call).ballX = 62.5 +
        (entered pong call).velocityX * Scalar.clamp call.dt 0.0 0.2 := by
      rw [arrived_ballX, entered_begun begun]
    have near : 54 ≤ (arrived pong call).ballX ∧ (arrived pong call).ballX ≤ 71 := by
      obtain ⟨way, came⟩ := entered'.direction
      rw [came] at middle
      cases way with
      | left =>
        rw [toward] at middle
        constructor <;> linarith
      | right =>
        rw [toward] at middle
        constructor <;> linarith
    have missed : (arrived pong call).striker = none := by
      cases struck : (arrived pong call).striker with
      | none => rfl
      | some side =>
        cases side with
        | left => linarith [(striker_left_iff.mp struck).2.1]
        | right => linarith [(striker_right_iff.mp struck).2.1]
    rw [reflection_active active, point_active active, strike_eq, missed]
    refine ⟨rfl, ?_⟩
    rw [winner_cases, if_neg (by linarith), if_neg (by linarith)]

/-! ## The scores -/

/-- The scores after an update, from those at its start. -/
theorem after_score (pong : Pong ℚ) (call : Call) (side : Side) : (after pong call).score side =
    if (effect pong call).point = some side then
      Arith.saturatingAdd 8 ((entered pong call).score side) 1
    else (entered pong call).score side := by
  rw [entered_score]
  exact update_score ..

/-- No point, no change. -/
theorem after_score_of_none (none' : (effect pong call).point = none) (side : Side) :
    (after pong call).score side = (entered pong call).score side := by
  rw [after_score, none', if_neg (by simp)]

/-- What one update does to the scores, and what a paused one does to the ball. -/
structure Scored (pong : Pong ℚ) (call : Call) : Prop where
  /-- An update adds at most one point. -/
  one : (after pong call).leftScore + (after pong call).rightScore ≤
    (entered pong call).leftScore + (entered pong call).rightScore + 1
  /-- A returned ball is no point. -/
  returned : (effect pong call).reflection.isSome → ∀ side,
    (after pong call).score side = (entered pong call).score side
  /-- The right player scores with a ball on its way to the left. -/
  right : (entered pong call).rightScore < (after pong call).rightScore →
    call.active = true ∧ (entered pong call).velocityX < 0
  /-- The left player scores with a ball on its way to the right. -/
  left : (entered pong call).leftScore < (after pong call).leftScore →
    call.active = true ∧ 0 < (entered pong call).velocityX
  /-- A new game stands at nil. -/
  begun : pong.Begins call.game → ∀ side, (after pong call).score side = 0
  /-- A game that goes on loses no points. -/
  kept : ¬pong.Begins call.game → ∀ side, pong.score side ≤ (after pong call).score side
  /-- A pause is one for the ball and the scores. -/
  paused : call.active = false → ¬pong.Begins call.game →
    ((after pong call).ballX, (after pong call).ballY) = (pong.ballX, pong.ballY) ∧
    ((after pong call).velocityX, (after pong call).velocityY) =
      (pong.velocityX, pong.velocityY) ∧
    ∀ side, (after pong call).score side = pong.score side

/-- A score grows for the player who scored. -/
theorem point_of_grown (side : Side)
    (grew : (entered pong call).score side < (after pong call).score side) :
    (effect pong call).point = some side := by
  rw [after_score] at grew
  split at grew
  next scored => exact scored
  next missed => exact absurd grew (lt_irrefl _)

/-- The player who scored was on the other side. -/
theorem came_of_point (inField : InField pong) (scored : (effect pong call).point = some side) :
    call.active = true ∧ (entered pong call).velocityX = -toward side := by
  have turned := turn inField call
  rw [scored] at turned
  generalize (effect pong call).reflection = reflected at turned
  cases turned with
  | scores _ active came => exact ⟨active, came⟩

/-- A reflected ball is no point. -/
theorem point_of_reflection (inField : InField pong)
    (struck : (effect pong call).reflection = some side) : (effect pong call).point = none := by
  have turned := turn inField call
  rw [struck] at turned
  generalize (effect pong call).point = scored at turned ⊢
  cases turned with
  | returns => rfl

/-- An update adds at most one point to the two scores together. -/
theorem after_total (pong : Pong ℚ) (call : Call) :
    (after pong call).leftScore + (after pong call).rightScore ≤
      (entered pong call).leftScore + (entered pong call).rightScore + 1 := by
  have left := after_score pong call .left
  have right := after_score pong call .right
  have most : ∀ score, Arith.saturatingAdd 8 score 1 ≤ score + 1 := fun _ => min_le_left _ _
  cases scored : (effect pong call).point with
  | none =>
    simp only [scored, reduceCtorEq, if_false, score] at left right
    omega
  | some side =>
    cases side with
    | left =>
      simp only [scored, Option.some.injEq, reduceCtorEq, if_true, if_false, score] at left right
      have := most (entered pong call).leftScore
      omega
    | right =>
      simp only [scored, Option.some.injEq, reduceCtorEq, if_true, if_false, score] at left right
      have := most (entered pong call).rightScore
      omega

/-- What one update does to the scores, clause by clause, for a game that is in its field. -/
theorem scored_of_inField (inField : InField pong) (bytes : ∀ side, pong.score side < 2 ^ 8)
    (call : Call) : Scored pong call where
  one := after_total pong call
  returned := by
    intro struck
    obtain ⟨side, struck⟩ := Option.isSome_iff_exists.mp struck
    exact after_score_of_none (point_of_reflection inField struck)
  right := by
    intro grew
    obtain ⟨active, came⟩ := came_of_point inField (point_of_grown .right grew)
    refine ⟨active, ?_⟩
    rw [came, toward]
    norm_num
  left := by
    intro grew
    obtain ⟨active, came⟩ := came_of_point inField (point_of_grown .left grew)
    refine ⟨active, ?_⟩
    rw [came, toward]
    norm_num
  begun := by
    intro begun side
    rw [after_score_of_none (quiet_of_begins begun inField).2, entered_score, if_pos begun]
  kept := by
    intro same side
    rw [after_score, entered_score, if_neg same]
    split
    · exact le_min (Nat.le_succ _) (Nat.le_pred_of_lt (bytes side))
    · exact le_rfl
  paused := by
    intro paused same
    have still : after pong call = _ := (after_paused paused).trans (entered_same same)
    rw [still]
    exact ⟨rfl, rfl, fun side => by cases side <;> rfl⟩

end Motorball.Server.Pong
