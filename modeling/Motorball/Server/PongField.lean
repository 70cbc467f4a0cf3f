import Motorball.Library.Transducer
import Motorball.Library.Exact
import Motorball.Server.Pong

/-!
# The field of the Pong game

The game over exact rationals, one call of `update` after another. `InField` is what holds between
two calls: the ball is in the field, its horizontal speed is always the same, its vertical speed
bounded, and the paddles are within their travel. Each part of an update has one lemma that says
what it does to that; `inField_of_runs` puts them together for any number of calls.
-/

namespace Motorball.Server

open Transducer

/-- The arguments of one call of `update`, as the display thread makes them: the game of the status,
whether it is on, the mixed values and the time since the frame before. -/
structure Call where
  game : Nat
  active : Bool
  player1 : Int
  player2 : Int
  dt : ℚ
  deriving DecidableEq

namespace Pong

/-! ## The constants -/

section Constants

@[simp] theorem screenWidth_eq : (screenWidth : ℚ) = 128 := by norm_num [screenWidth]
@[simp] theorem playTop_eq : (playTop : ℚ) = 12 := by norm_num [playTop]
@[simp] theorem playBottom_eq : (playBottom : ℚ) = 63 := by norm_num [playBottom]
@[simp] theorem paddleHeight_eq : (paddleHeight : ℚ) = 16 := by norm_num [paddleHeight]
@[simp] theorem paddleWidth_eq : (paddleWidth : ℚ) = 3 := by norm_num [paddleWidth]
@[simp] theorem leftPaddleX_eq : (leftPaddleX : ℚ) = 2 := by norm_num [leftPaddleX]
@[simp] theorem rightPaddleX_eq : (rightPaddleX : ℚ) = 123 := by norm_num [rightPaddleX]
@[simp] theorem ballSize_eq : (ballSize : ℚ) = 3 := by norm_num [ballSize]
@[simp] theorem ballSpeedX_eq : (ballSpeedX : ℚ) = 38 := by norm_num [ballSpeedX]
@[simp] theorem ballSpeedY_eq : (ballSpeedY : ℚ) = 24 := by norm_num [ballSpeedY]

end Constants

/-- The time a frame moves the ball by is at most a fifth of a second, whatever the clock says has
passed. It is the only thing that holds a slow frame back. -/
theorem frame_mem (dt : ℚ) :
    0 ≤ Scalar.clamp dt 0.0 0.2 ∧ Scalar.clamp dt 0.0 0.2 ≤ 1 / 5 := by
  obtain ⟨lower, upper⟩ := Scalar.clamp_mem (show (0.0 : ℚ) ≤ 0.2 by norm_num) dt
  constructor
  · linarith
  · linarith

/-! ## What holds between two updates -/

/-- The paddles are within their travel, and the speeds of the ball are right. This holds at every
point within an update, where the ball itself may be anywhere. -/
structure Steady (pong : Pong ℚ) : Prop where
  speedX : |pong.velocityX| = ballSpeedX
  speedY : |pong.velocityY| ≤ 1.4 * ballSpeedY
  leftPaddle : playTop ≤ pong.leftY ∧ pong.leftY ≤ playBottom - paddleHeight
  rightPaddle : playTop ≤ pong.rightY ∧ pong.rightY ≤ playBottom - paddleHeight

/-- The ball is between the top and the bottom of the field. `bounce` restores this, and nothing
after it moves the ball up or down. -/
structure Level (pong : Pong ℚ) : Prop extends Steady pong where
  top : playTop ≤ pong.ballY
  bottom : pong.ballY ≤ playBottom - ballSize

/-- The ball has not left the field. It may stick out by its own size on either side, as only past
that does the other player score. -/
structure InField (pong : Pong ℚ) : Prop extends Level pong where
  left : -ballSize ≤ pong.ballX
  right : pong.ballX ≤ screenWidth

/-- A paddle is within its travel for any control value at all, since `paddle_y` clamps it first. -/
theorem paddleY_mem (value : Int) :
    playTop ≤ (paddleY value : ℚ) ∧ (paddleY value : ℚ) ≤ playBottom - paddleHeight := by
  obtain ⟨lower, upper⟩ := Arith.clamp_mem value (show (0 : Int) ≤ 255 by decide)
  have lower' : (0 : ℚ) ≤ (Arith.clamp value 0 255 : Int) := by exact_mod_cast lower
  have upper' : ((Arith.clamp value 0 255 : Int) : ℚ) ≤ 255 := by exact_mod_cast upper
  have eq : (paddleY value : ℚ) =
      12 + (Arith.clamp value 0 255 : Int) / 255.0 * (63 - 12 - 16) := by
    simp only [paddleY, playTop_eq, playBottom_eq, paddleHeight_eq]
  rw [eq, playTop_eq, playBottom_eq, paddleHeight_eq]
  constructor
  · linarith
  · linarith

variable {pong : Pong ℚ}

/-- The position of a new ball, as numbers: the middle of the field in both directions. -/
theorem resetBall_position (pong : Pong ℚ) (direction : ℚ) :
    (pong.resetBall direction).ballX = 62.5 ∧ (pong.resetBall direction).ballY = 36 := by
  simp only [resetBall, screenWidth_eq, ballSize_eq, playTop_eq, playBottom_eq]
  norm_num

theorem resetBall_velocityX (direction : ℚ) :
    (pong.resetBall direction).velocityX = ballSpeedX * direction := rfl

theorem resetBall_velocityY (direction : ℚ) : (pong.resetBall direction).velocityY =
    if (pong.leftScore + pong.rightScore) % 2 ^ 8 % 2 = 0 then ballSpeedY else -ballSpeedY := rfl

/-- A new ball is in the field. Its direction has to be a unit, which is what keeps the horizontal
speed at `ballSpeedX`. -/
theorem Steady.resetBall (steady : Steady pong) {direction : ℚ} (unit : |direction| = 1) :
    InField (pong.resetBall direction) := by
  obtain ⟨hx, hy⟩ := resetBall_position pong direction
  refine ⟨⟨⟨?_, ?_, steady.leftPaddle, steady.rightPaddle⟩, ?_, ?_⟩, ?_, ?_⟩
  · rw [resetBall_velocityX, abs_mul, unit]
    norm_num
  · rw [resetBall_velocityY]
    split <;> norm_num
  · rw [hy]
    norm_num
  · rw [hy]
    norm_num
  · rw [hx]
    norm_num
  · rw [hx]
    norm_num

/-! ## The parts of an update -/

/-- A new game and the paddles keep the ball in the field. -/
theorem enter_inField (inField : InField pong) (game : Nat) (player1 player2 : Int) :
    InField (pong.enter game player1 player2) := by
  have begun : InField (if pong.Begins game then pong.beginGame game else pong) := by
    split
    · apply Steady.resetBall
      · exact ⟨inField.speedX, inField.speedY, inField.leftPaddle, inField.rightPaddle⟩
      · split <;> norm_num
    · exact inField
  exact ⟨⟨⟨begun.speedX, begun.speedY, paddleY_mem _, paddleY_mem _⟩, begun.top, begun.bottom⟩,
    begun.left, begun.right⟩

/-- Flying changes no speed. It may take the ball out of the field on any side, which is for the
rest of the update to see to. -/
theorem move_steady (steady : Steady pong) (dt : ℚ) : Steady (pong.move dt) :=
  ⟨steady.speedX, steady.speedY, steady.leftPaddle, steady.rightPaddle⟩

theorem bounce_eq : pong.bounce =
    if pong.ballY ≤ playTop then { pong with ballY := playTop, velocityY := |pong.velocityY| }
    else if playBottom ≤ pong.ballY + ballSize then
      { pong with ballY := playBottom - ballSize, velocityY := -|pong.velocityY| }
    else pong := rfl

/-- Off the top and the bottom the ball is level again, wherever it had flown. The two edges are far
enough apart that at most one of them is crossed. -/
theorem bounce_level (steady : Steady pong) : Level pong.bounce := by
  rw [bounce_eq]
  split
  · exact ⟨⟨steady.speedX, by rw [abs_abs]; exact steady.speedY, steady.leftPaddle,
      steady.rightPaddle⟩, le_refl _, by norm_num⟩
  next below =>
    split
    · exact ⟨⟨steady.speedX, by rw [abs_neg, abs_abs]; exact steady.speedY, steady.leftPaddle,
        steady.rightPaddle⟩, by norm_num, le_refl _⟩
    next above =>
      exact ⟨steady, le_of_not_ge below, by linarith [lt_of_not_ge above]⟩

/-- The ball after a strike is put at the front of the paddle, 5 or 120 pixels from the left. -/
theorem strike_ballX : pong.strike.ballX =
    match pong.striker with
    | some .left => 5
    | some .right => 120
    | none => pong.ballX := by
  rw [strike_eq]
  cases pong.striker with
  | none => rfl
  | some side =>
    cases side with
    | left =>
      show (leftPaddleX + paddleWidth : ℚ) = 5
      norm_num
    | right =>
      show (rightPaddleX - ballSize : ℚ) = 120
      norm_num

/-- A strike turns the ball away from the paddle and keeps its horizontal speed. -/
theorem strike_velocityX : pong.strike.velocityX =
    match pong.striker with
    | some .left => |pong.velocityX|
    | some .right => -|pong.velocityX|
    | none => pong.velocityX := by
  rw [strike_eq]
  cases pong.striker with
  | none => rfl
  | some side => cases side <;> rfl

/-- The spin of a paddle is within the bounds of the vertical speed. -/
theorem addPaddleSpin_velocityY (paddleY : ℚ) :
    |(pong.addPaddleSpin paddleY).velocityY| ≤ 1.4 * ballSpeedY := by
  obtain ⟨lower, upper⟩ := Scalar.clamp_mem
    (show -ballSpeedY * 1.4 ≤ (ballSpeedY * 1.4 : ℚ) by norm_num)
    ((pong.ballY + ballSize / 2.0 - (paddleY + paddleHeight / 2.0)) / (paddleHeight / 2.0) *
      ballSpeedY * 1.4)
  rw [abs_le]
  constructor
  · exact le_trans (by norm_num) lower
  · exact le_trans upper (by norm_num)

/-- A strike leaves the ball where it is in height, and its spin within the bounds. -/
theorem strike_level (level : Level pong) : Level pong.strike := by
  rw [strike_eq]
  split
  · exact ⟨⟨by rw [← level.speedX]; exact abs_abs _, addPaddleSpin_velocityY _, level.leftPaddle,
      level.rightPaddle⟩, level.top, level.bottom⟩
  · exact ⟨⟨by rw [← level.speedX]; exact (abs_neg _).trans (abs_abs _),
      addPaddleSpin_velocityY _, level.leftPaddle, level.rightPaddle⟩, level.top, level.bottom⟩
  · exact level

theorem winner_eq : pong.winner =
    if pong.ballX + ballSize < 0.0 then some .right
    else if screenWidth < pong.ballX then some .left
    else none := rfl

/-- After the point the ball is in the field: if nobody has scored it had not left it, and otherwise
there is a new one. -/
theorem award_inField (level : Level pong) : InField pong.award := by
  have scored : ∀ leftScore rightScore, Steady { pong with leftScore, rightScore } :=
    fun _ _ => ⟨level.speedX, level.speedY, level.leftPaddle, level.rightPaddle⟩
  unfold award
  cases h : pong.winner with
  | some side =>
    cases side with
    | left => exact Steady.resetBall (scored _ _) (show |(-1.0 : ℚ)| = 1 by norm_num)
    | right => exact Steady.resetBall (scored _ _) (show |(1.0 : ℚ)| = 1 by norm_num)
  | none =>
    rw [winner_eq] at h
    split at h
    · cases h
    next inside =>
      split at h
      · cases h
      next inside' =>
        exact ⟨level, by linarith [le_of_not_gt inside], le_of_not_gt inside'⟩

/-! ## Runs -/

/-- What an update did: whether it began a game, and which paddle reflected the ball and which
player scored in it. The laws of rallies and points are about the lists of these. -/
structure Effect where
  begins : Bool
  reflection : Option Side
  point : Option Side
  deriving DecidableEq

/-- One call of `update`, as a step that never refuses, so that a run of the game is a list of
calls. -/
def step : Step (Pong ℚ) Call Effect := fun pong call =>
  some (pong.update call.game call.active call.player1 call.player2 call.dt,
    ⟨decide (pong.Begins call.game),
      pong.reflection call.game call.active call.player1 call.player2 call.dt,
      pong.point call.game call.active call.player1 call.player2 call.dt⟩)

/-- The game as it starts is in the field, with the paddles at the top. -/
theorem default_inField : InField (Pong.default : Pong ℚ) := by
  refine ⟨⟨⟨?_, ?_, ?_, ?_⟩, ?_, ?_⟩, ?_, ?_⟩ <;> norm_num [Pong.default]

/-- An update keeps the ball in the field. Its parts are taken in turn, each with what the one
before it leaves. -/
theorem update_inField (inField : InField pong) (game : Nat) (active : Bool)
    (player1 player2 : Int) (dt : ℚ) : InField (pong.update game active player1 player2 dt) := by
  have entered := enter_inField inField game player1 player2
  unfold update
  cases active with
  | false => exact entered
  | true =>
    exact award_inField (strike_level (bounce_level (move_steady entered.toSteady dt)))

/-- The invariant over all calls, from the default on. -/
theorem inField_of_runs {calls : List Call} {effects : List Effect}
    (runs : Runs step Pong.default calls effects pong) : InField pong :=
  runs.invariant default_inField fun _ _ _ _ inField last => by
    cases last
    exact update_inField inField _ _ _ _ _

/-- **The game stays in its field.** After any calls of `update` the ball is between the top and the
bottom and has not left on a side, its horizontal speed is the one it started with, its vertical
speed is bounded, and both paddles are within their travel. Nothing is asked of the calls: `update`
clamps the time of the frame and the values of the players itself, and it takes any game numbers in
any order. -/
theorem stays_in_field (calls : List Call) :
    ∃ effects pong, Runs step (Pong.default : Pong ℚ) calls effects pong ∧
      (playTop ≤ pong.ballY ∧ pong.ballY ≤ playBottom - ballSize) ∧
      (-ballSize ≤ pong.ballX ∧ pong.ballX ≤ screenWidth) ∧
      |pong.velocityX| = ballSpeedX ∧ |pong.velocityY| ≤ 1.4 * ballSpeedY ∧
      (playTop ≤ pong.leftY ∧ pong.leftY ≤ playBottom - paddleHeight) ∧
      (playTop ≤ pong.rightY ∧ pong.rightY ≤ playBottom - paddleHeight) := by
  obtain ⟨effects, pong, runs, -⟩ : ∃ effects pong,
      Runs step (Pong.default : Pong ℚ) calls effects pong ∧ True :=
    exists_runs (P := fun _ => True) trivial (fun _ _ _ => ⟨_, _, rfl, trivial⟩) calls
  have field := inField_of_runs runs
  exact ⟨effects, pong, runs, ⟨field.top, field.bottom⟩, ⟨field.left, field.right⟩, field.speedX,
    field.speedY, field.leftPaddle, field.rightPaddle⟩

end Pong

end Motorball.Server
