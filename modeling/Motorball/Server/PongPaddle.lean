import Motorball.Server.PongTurn

/-!
# A paddle in place

A paddle reflects the ball where it is after the motion of the frame, and the window in which it
does is six wide. The ball moves up to 7.6 in a frame. So a ball that was in front of the paddle can
be behind the window one frame later, and a paddle that is in place misses it: `paddle_returns_iff`
says exactly when it does not, `paddle_misses` plays a ball it misses.
-/

namespace Motorball.Server.Pong

open Transducer

variable {pong : Pong ℚ} {call : Call} {calls : List Call} {effects : List Effect}
  {side side' : Side}

/-- The ball was in front of a paddle and is now at it or past it, and the paddle is where the ball
comes. Where that is, is where the frame ends. -/
def InPlace (pong : Pong ℚ) (call : Call) : Side → Prop
  | .left =>
    pong.velocityX < 0 ∧ leftPaddleX + paddleWidth ≤ pong.ballX ∧
      (arrived pong call).ballX ≤ leftPaddleX + paddleWidth ∧
      Meets (arrived pong call) (arrived pong call).leftY
  | .right =>
    0 < pong.velocityX ∧ pong.ballX + ballSize ≤ rightPaddleX ∧
      rightPaddleX ≤ (arrived pong call).ballX + ballSize ∧
      Meets (arrived pong call) (arrived pong call).rightY

/-- The ball flies back from the paddle, and nobody has scored. It is put at the paddle's front,
however far in it had come. -/
def Returned (pong : Pong ℚ) (call : Call) : Side → Prop
  | .left =>
    0 < (after pong call).velocityX ∧ (after pong call).ballX = leftPaddleX + paddleWidth ∧
      ∀ side, (after pong call).score side = pong.score side
  | .right =>
    (after pong call).velocityX < 0 ∧ (after pong call).ballX + ballSize = rightPaddleX ∧
      ∀ side, (after pong call).score side = pong.score side

/-- The motion of a frame does not carry the ball past the back of a paddle. It speaks of the ball
before the frame and of the time of the frame alone. -/
def WithinReach (pong : Pong ℚ) (dt : ℚ) : Side → Prop
  | .left => leftPaddleX ≤ pong.ballX + pong.velocityX * Scalar.clamp dt 0.0 0.2 + ballSize
  | .right => pong.ballX + pong.velocityX * Scalar.clamp dt 0.0 0.2 ≤ rightPaddleX + paddleWidth

/-- Where an update that begins no game has the ball when the paddles come to it: the top and the
bottom do not move it across the field. -/
theorem arrived_same (same : ¬pong.Begins call.game) : (arrived pong call).ballX =
    pong.ballX + pong.velocityX * Scalar.clamp call.dt 0.0 0.2 ∧
      (arrived pong call).velocityX = pong.velocityX := by
  rw [arrived_ballX, arrived_velocityX, entered_same same]
  exact ⟨rfl, rfl⟩

/-- The paddle that is in place strikes if and only if the ball is within its reach. Of the four
conditions of the source the other three are what being in place means. -/
theorem striker_iff (same : ¬pong.Begins call.game) (inPlace : InPlace pong call side) :
    (arrived pong call).striker = some side ↔ WithinReach pong call.dt side := by
  obtain ⟨position, velocity⟩ := arrived_same same
  cases side with
  | left =>
    obtain ⟨leftward, -, reached, meets⟩ := inPlace
    have front : (leftPaddleX + paddleWidth : ℚ) = 5 := by norm_num
    rw [striker_left_iff, WithinReach, ← position, velocity, leftPaddleX_eq, ballSize_eq]
    constructor
    · rintro ⟨-, -, reach, -⟩
      linarith
    · intro reach
      exact ⟨leftward, front ▸ reached, by linarith, meets⟩
  | right =>
    obtain ⟨rightward, -, reached, meets⟩ := inPlace
    have back : (rightPaddleX + paddleWidth : ℚ) = 126 := by norm_num
    rw [striker_right_iff, WithinReach, ← position, velocity, back]
    rw [rightPaddleX_eq, ballSize_eq] at reached
    constructor
    · rintro ⟨-, -, reach, -⟩
      exact reach
    · intro reach
      exact ⟨rightward, by linarith, reach, meets⟩

/-- After a strike nobody scores, so the ball is as the strike has left it. -/
theorem after_of_striker (active : call.active = true)
    (struck : (arrived pong call).striker = some side) :
    (after pong call).ballX = (arrived pong call).strike.ballX ∧
      (after pong call).velocityX = (arrived pong call).strike.velocityX := by
  rw [after_active active, award_ballX, award_velocityX, winner_strike struck]
  exact ⟨rfl, rfl⟩

/-- Without one the ball flies on, or there is a new ball, if this frame has also taken it out of
the field. -/
theorem after_of_miss (active : call.active = true) (missed : (arrived pong call).striker = none) :
    (after pong call).velocityX = (arrived pong call).velocityX ∨
      (after pong call).ballX = 62.5 := by
  have through : (arrived pong call).strike = arrived pong call := by rw [strike_eq, missed]
  rw [after_active active, award_ballX, award_velocityX, through]
  cases (arrived pong call).winner with
  | none => exact .inl rfl
  | some _ => exact .inr rfl

/-- A paddle that is in place returns the ball by striking it, and not otherwise: a ball that flies
on goes the other way, and a new ball is in the middle. -/
theorem returned_iff_striker (inField : InField pong) (active : call.active = true)
    (same : ¬pong.Begins call.game) (inPlace : InPlace pong call side) :
    Returned pong call side ↔ (arrived pong call).striker = some side := by
  have steady : Steady (arrived pong call) := arrived_steady inField
  have velocity := (arrived_same same).2
  constructor
  · intro returned
    cases struck : (arrived pong call).striker with
    | some side' =>
      have came := came_of_striker steady struck
      cases side <;> cases side'
      · rfl
      · linarith [inPlace.1, show (arrived pong call).velocityX = 38 from came]
      · linarith [inPlace.1, show (arrived pong call).velocityX = -38 from came]
      · rfl
    | none =>
      rcases after_of_miss active struck with onward | renewed
      · cases side with
        | left => linarith [returned.1, inPlace.1]
        | right => linarith [returned.1, inPlace.1]
      · cases side with
        | left =>
          have stopped := renewed.symm.trans returned.2.1
          norm_num at stopped
        | right =>
          have stopped := returned.2.1
          rw [renewed] at stopped
          norm_num at stopped
  · intro struck
    obtain ⟨position, back⟩ := after_of_striker active struck
    rw [strike_ballX, struck] at position
    rw [strike_back steady struck] at back
    have scores : ∀ side, (after pong call).score side = pong.score side := by
      intro side'
      have none' : (effect pong call).point = none := by
        rw [point_active active, winner_strike struck]
      rw [after_score_of_none none', entered_score, if_neg same]
    cases side with
    | left =>
      refine ⟨?_, ?_, scores⟩
      · rw [back, toward]
        norm_num
      · rw [position]
        norm_num
    | right =>
      refine ⟨?_, ?_, scores⟩
      · rw [back, toward]
        norm_num
      · rw [position]
        norm_num

/-- **A paddle in place returns the ball if and only if the frame leaves the ball within its
reach.** This is for any game that calls of `update` have led to, any further active call that
begins no game, and both paddles. A call that begins a game throws a new ball, which is no return;
and in a paused one nothing moves. -/
theorem paddle_returns_iff (runs : Runs step Pong.default calls effects pong) (call : Call)
    (side : Side) (active : call.active = true) (same : ¬pong.Begins call.game)
    (inPlace : InPlace pong call side) :
    Returned pong call side ↔ WithinReach pong call.dt side := by
  rw [returned_iff_striker (inField_of_runs runs) active same inPlace, striker_iff same inPlace]

/-- The ball is just in front of the left paddle, half a pixel from it. -/
def approached : Pong ℚ where
  game := 2
  ballX := 5.5
  ballY := 48
  velocityX := -38
  velocityY := -24
  leftY := 2012 / 51
  rightY := 47
  leftScore := 0
  rightScore := 0

/-- Fifteen frames of a tenth of a second lead there from the start. -/
theorem approached_of_runs : ∃ effects,
    Runs step (Pong.default : Pong ℚ) (List.replicate 15 ⟨2, true, 200, 0, 0.1⟩) effects
      approached := by
  have played : (run step (Pong.default : Pong ℚ) (List.replicate 15 ⟨2, true, 200, 0, 0.1⟩)).map
      (·.1) = some approached := by decide +kernel
  obtain ⟨effects, pong, runs, rfl⟩ := runs_of_run played
  exact ⟨effects, runs⟩

instance (pong : Pong ℚ) (paddle : ℚ) : Decidable (Meets pong paddle) :=
  inferInstanceAs (Decidable (_ ∧ _))

instance (pong : Pong ℚ) (call : Call) : (side : Side) → Decidable (InPlace pong call side)
  | .left => inferInstanceAs (Decidable (_ ∧ _ ∧ _ ∧ _))
  | .right => inferInstanceAs (Decidable (_ ∧ _ ∧ _ ∧ _))

/-- A frame of a tenth of a second leaves the ball within reach, and the paddle returns it. -/
theorem paddle_returns_approached : ∃ effects,
    Runs step (Pong.default : Pong ℚ) (List.replicate 15 ⟨2, true, 200, 0, 0.1⟩) effects
      approached ∧
    InPlace approached ⟨2, true, 200, 0, 0.1⟩ .left ∧
    Returned approached ⟨2, true, 200, 0, 0.1⟩ .left := by
  obtain ⟨effects, runs⟩ := approached_of_runs
  have inPlace : InPlace approached ⟨2, true, 200, 0, 0.1⟩ .left := by decide +kernel
  have reach : WithinReach approached 0.1 .left := by
    rw [WithinReach]
    decide +kernel
  exact ⟨effects, runs, inPlace,
    (paddle_returns_iff runs _ _ rfl (by decide) inPlace).mpr reach⟩

/-- A longer frame takes it past a paddle that is in place, 7.6 pixels on. -/
theorem paddle_misses : ∃ effects,
    Runs step (Pong.default : Pong ℚ) (List.replicate 15 ⟨2, true, 200, 0, 0.1⟩) effects
      approached ∧
    ¬approached.Begins 2 ∧ InPlace approached ⟨2, true, 200, 0, 0.2⟩ .left ∧
    ¬Returned approached ⟨2, true, 200, 0, 0.2⟩ .left := by
  obtain ⟨effects, runs⟩ := approached_of_runs
  refine ⟨effects, runs, by decide, by decide +kernel, ?_⟩
  have flies : (after approached ⟨2, true, 200, 0, 0.2⟩).velocityX = -38 := by decide +kernel
  rintro ⟨back, -⟩
  rw [flies] at back
  norm_num at back

end Motorball.Server.Pong
