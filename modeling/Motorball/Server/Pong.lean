import Motorball.Library.Arith
import Motorball.Library.Scalar

/-!
# The Pong game of the display

`Pong` of `piwebserver/src/oled.rs`, over any scalars. The long `update` is cut where its comments
would be: the new-game reset, the paddles, the motion, the bounce, the strike and the point, each a
function of its own in the order of the source.
-/

namespace Motorball.Server

section Constants

variable {α : Type} [Scalar α]

def screenWidth : α := 128.0
def playTop : α := 12.0
def playBottom : α := 63.0
def paddleHeight : α := 16.0
def paddleWidth : α := 3.0
def leftPaddleX : α := 2.0
def rightPaddleX : α := 123.0
def ballSize : α := 3.0
def ballSpeedX : α := 38.0
def ballSpeedY : α := 24.0

end Constants

/-- The game on the display. The positions are those of the upper left corners, in pixels, and the
speeds are in pixels a second; the scores are bytes and saturate. -/
structure Pong (α : Type) where
  game : Nat
  ballX : α
  ballY : α
  velocityX : α
  velocityY : α
  leftY : α
  rightY : α
  leftScore : Nat
  rightScore : Nat
  deriving DecidableEq

/-- A player's side of the field. Player 1 is on the left, player 2 on the right. -/
inductive Side where
  | left
  | right
  deriving DecidableEq

variable {α : Type} [Scalar α]

/-- `paddle_y`: a control value between 0 and 255 as the top of a paddle, over the whole travel of
it. -/
def paddleY (value : Int) : α :=
  let travel : α := playBottom - playTop - paddleHeight
  playTop + (Arith.clamp value 0 255 : Int) / 255.0 * travel

namespace Pong

/-- `Pong::default`: what the display thread starts with, each time it has connected. The ball waits
in the middle, to fly to the right, until a game begins. -/
def default : Pong α where
  game := 0
  ballX := (screenWidth - ballSize) / 2.0
  ballY := (playTop + playBottom - ballSize) / 2.0
  velocityX := ballSpeedX
  velocityY := ballSpeedY
  leftY := playTop
  rightY := playTop
  leftScore := 0
  rightScore := 0

/-- `reset_ball`: a new ball in the middle, at full speed in the given direction. Up or down is by
the sum of the scores, which the source adds as wrapping bytes. -/
def resetBall (pong : Pong α) (direction : α) : Pong α :=
  { pong with
    ballX := (screenWidth - ballSize) / 2.0
    ballY := (playTop + playBottom - ballSize) / 2.0
    velocityX := ballSpeedX * direction
    velocityY :=
      if (pong.leftScore + pong.rightScore) % 2 ^ 8 % 2 = 0 then ballSpeedY else -ballSpeedY }

/-- `begin_game`: the scores go to nought, and the odd games are served to the right, the even ones
to the left. -/
def beginGame (pong : Pong α) (game : Nat) : Pong α :=
  { pong with game, leftScore := 0, rightScore := 0 }.resetBall
    (if game % 2 = 0 then -1.0 else 1.0)

/-- `add_paddle_spin`: the further from its middle a paddle meets the ball, the steeper it leaves,
up to 1.4 times the speed of a new ball. -/
def addPaddleSpin (pong : Pong α) (paddleY : α) : Pong α :=
  let paddleCenter := paddleY + paddleHeight / 2.0
  let ballCenter := pong.ballY + ballSize / 2.0
  { pong with
    velocityY := Scalar.clamp
      ((ballCenter - paddleCenter) / (paddleHeight / 2.0) * ballSpeedY * 1.4)
      (-ballSpeedY * 1.4) (ballSpeedY * 1.4) }

/-! ## The parts of an update -/

/-- Whether an update begins a new game: the server has a game, and it is not the one on the
display. Before the first game of the server its number is 0. -/
def Begins (pong : Pong α) (game : Nat) : Prop := 0 < game ∧ game ≠ pong.game

instance (pong : Pong α) (game : Nat) : Decidable (pong.Begins game) :=
  inferInstanceAs (Decidable (0 < game ∧ game ≠ pong.game))

/-- The start of an update, done also while nothing moves: a new game is begun if there is one, and
the paddles go where the players are. -/
def enter (pong : Pong α) (game : Nat) (player1 player2 : Int) : Pong α :=
  let pong := if pong.Begins game then pong.beginGame game else pong
  { pong with
    leftY := paddleY player1
    rightY := paddleY (255 - Arith.clamp player2 0 255) }

/-- The ball flies for the time of the frame, of which no more than a fifth of a second counts. -/
def move (pong : Pong α) (dt : α) : Pong α :=
  { pong with
    ballX := pong.ballX + pong.velocityX * Scalar.clamp dt 0.0 0.2
    ballY := pong.ballY + pong.velocityY * Scalar.clamp dt 0.0 0.2 }

/-- Off the top and the bottom. The ball is put back at the edge, and the sign of its speed is set
rather than turned, so it cannot stick there. -/
def bounce (pong : Pong α) : Pong α :=
  if pong.ballY ≤ playTop then
    { pong with ballY := playTop, velocityY := Scalar.abs pong.velocityY }
  else if playBottom ≤ pong.ballY + ballSize then
    { pong with ballY := playBottom - ballSize, velocityY := -Scalar.abs pong.velocityY }
  else pong

/-- Off the paddles. The test is of the ball where the frame has brought it, not of the way it came;
`striker` is that test alone. -/
def strike (pong : Pong α) : Pong α :=
  let ballBottom := pong.ballY + ballSize
  if pong.velocityX < 0.0 ∧ pong.ballX ≤ leftPaddleX + paddleWidth ∧
      leftPaddleX ≤ pong.ballX + ballSize ∧ pong.leftY ≤ ballBottom ∧
      pong.ballY ≤ pong.leftY + paddleHeight then
    { pong with
      ballX := leftPaddleX + paddleWidth
      velocityX := Scalar.abs pong.velocityX }.addPaddleSpin pong.leftY
  else if 0.0 < pong.velocityX ∧ rightPaddleX ≤ pong.ballX + ballSize ∧
      pong.ballX ≤ rightPaddleX + paddleWidth ∧ pong.rightY ≤ ballBottom ∧
      pong.ballY ≤ pong.rightY + paddleHeight then
    { pong with
      ballX := rightPaddleX - ballSize
      velocityX := -Scalar.abs pong.velocityX }.addPaddleSpin pong.rightY
  else pong

/-- The paddle that reflects the ball where it is: the ball flies towards it, overlaps it or touches
it, and is within its height. -/
def striker (pong : Pong α) : Option Side :=
  if pong.velocityX < 0.0 ∧ pong.ballX ≤ leftPaddleX + paddleWidth ∧
      leftPaddleX ≤ pong.ballX + ballSize ∧ pong.leftY ≤ pong.ballY + ballSize ∧
      pong.ballY ≤ pong.leftY + paddleHeight then some .left
  else if 0.0 < pong.velocityX ∧ rightPaddleX ≤ pong.ballX + ballSize ∧
      pong.ballX ≤ rightPaddleX + paddleWidth ∧ pong.rightY ≤ pong.ballY + ballSize ∧
      pong.ballY ≤ pong.rightY + paddleHeight then some .right
  else none

/-- A strike by the paddle that reflects, which the later proofs split by instead of by the two long
conditions. -/
theorem strike_eq (pong : Pong α) : pong.strike =
    match pong.striker with
    | some .left =>
      { pong with
        ballX := leftPaddleX + paddleWidth
        velocityX := Scalar.abs pong.velocityX }.addPaddleSpin pong.leftY
    | some .right =>
      { pong with
        ballX := rightPaddleX - ballSize
        velocityX := -Scalar.abs pong.velocityX }.addPaddleSpin pong.rightY
    | none => pong := by
  unfold strike striker
  dsimp only
  split
  · rfl
  · split <;> rfl

/-- The player who scores where the ball is: the ball has left the field on the other side. -/
def winner (pong : Pong α) : Option Side :=
  if pong.ballX + ballSize < 0.0 then some .right
  else if screenWidth < pong.ballX then some .left
  else none

/-- The end of an update: the point, and with it the next ball, which flies towards the player who
has scored. -/
def award (pong : Pong α) : Pong α :=
  match pong.winner with
  | some .right =>
    { pong with rightScore := Arith.saturatingAdd 8 pong.rightScore 1 }.resetBall 1.0
  | some .left =>
    { pong with leftScore := Arith.saturatingAdd 8 pong.leftScore 1 }.resetBall (-1.0)
  | none => pong

/-- `Pong::update`: the parts in the order of the source. While the server plays no game only the
paddles follow the players. -/
def update (pong : Pong α) (game : Nat) (active : Bool) (player1 player2 : Int) (dt : α) :
    Pong α :=
  let pong := pong.enter game player1 player2
  if active then ((pong.move dt).bounce.strike).award else pong

/-- The paddle that reflects the ball in an update, read off the same intermediate states as
`update` goes through. -/
def reflection (pong : Pong α) (game : Nat) (active : Bool) (player1 player2 : Int) (dt : α) :
    Option Side :=
  if active then ((pong.enter game player1 player2).move dt).bounce.striker else none

/-- The point an update scores, if any. A game that is not active scores none. -/
def point (pong : Pong α) (game : Nat) (active : Bool) (player1 player2 : Int) (dt : α) :
    Option Side :=
  if active then (((pong.enter game player1 player2).move dt).bounce.strike).winner else none

/-! ## What an update does to the scores -/

/-- The score of a side, so that what holds of both is said once. -/
def score (pong : Pong α) : Side → Nat
  | .left => pong.leftScore
  | .right => pong.rightScore

section Scores

variable (pong : Pong α) (game : Nat) (active : Bool) (player1 player2 : Int) (dt : α) (side : Side)

@[simp] theorem resetBall_score (direction : α) :
    (pong.resetBall direction).score side = pong.score side := by
  cases side <;> rfl

@[simp] theorem resetBall_game (direction : α) : (pong.resetBall direction).game = pong.game := rfl

@[simp] theorem move_score : (pong.move dt).score side = pong.score side := by
  cases side <;> rfl

@[simp] theorem move_game : (pong.move dt).game = pong.game := rfl

@[simp] theorem bounce_score : pong.bounce.score side = pong.score side := by
  unfold bounce
  split
  · cases side <;> rfl
  · split
    · cases side <;> rfl
    · rfl

@[simp] theorem bounce_game : pong.bounce.game = pong.game := by
  unfold bounce
  split
  · rfl
  · split <;> rfl

@[simp] theorem strike_score : pong.strike.score side = pong.score side := by
  unfold strike
  dsimp only
  split
  · cases side <;> rfl
  · split
    · cases side <;> rfl
    · rfl

@[simp] theorem strike_game : pong.strike.game = pong.game := by
  unfold strike
  dsimp only
  split
  · rfl
  · split <;> rfl

/-- A point raises the score of the one who made it and no other. From 255 on it raises nothing. -/
theorem award_score : pong.award.score side =
    if pong.winner = some side then Arith.saturatingAdd 8 (pong.score side) 1
    else pong.score side := by
  unfold award
  cases pong.winner with
  | none => rfl
  | some winner => cases winner <;> cases side <;> rfl

@[simp] theorem award_game : pong.award.game = pong.game := by
  unfold award
  cases pong.winner with
  | none => rfl
  | some winner => cases winner <;> rfl

/-- Only a new game takes a score away, and it takes both. -/
theorem enter_score : (pong.enter game player1 player2).score side =
    if pong.Begins game then 0 else pong.score side := by
  unfold enter
  dsimp only
  split <;> cases side <;> rfl

/-- The display follows the number of the server's game, except back to 0. -/
theorem enter_game : (pong.enter game player1 player2).game =
    if pong.Begins game then game else pong.game := by
  unfold enter
  dsimp only
  split <;> rfl

/-- The game after an update: nothing past the start of it changes the number. -/
theorem update_game : (pong.update game active player1 player2 dt).game =
    if pong.Begins game then game else pong.game := by
  rw [← enter_game pong game player1 player2, update]
  cases active <;> simp

/-- A score after an update: reset by a new game, and one up for the player who scored. -/
theorem update_score : (pong.update game active player1 player2 dt).score side =
    if pong.point game active player1 player2 dt = some side then
      Arith.saturatingAdd 8 (if pong.Begins game then 0 else pong.score side) 1
    else if pong.Begins game then 0 else pong.score side := by
  rw [← enter_score pong game player1 player2, update, point]
  cases active with
  | false => rfl
  | true => simp [award_score]

end Scores

end Pong

end Motorball.Server
