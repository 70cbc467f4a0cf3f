import Motorball.Server.PongTurn

/-!
# The Pong game in a mirror

The two sides of the field are alike. `mirror` exchanges them, `mirrorCall` exchanges the players'
values and the games that serve to the left with those that serve to the right, and an update of the
mirrored game is the mirrored update (`after_mirror`, `effect_mirror`). So whatever one player can
do to the other in a game, the other can do in the game before or after it (`fair_game`).

Before the first game the ball waits to fly to the right, in a mirror to the left (`Twin`). It never
does, as long as only games are played.
-/

namespace Motorball.Server.Pong

open Transducer

variable {pong twin : Pong ℚ} {call : Call} {calls : List Call} {effects : List Effect}

/-! ## The mirror -/

/-- The other side. The mirror answers with it wherever the game answers with a side. -/
def other : Side → Side
  | .left => .right
  | .right => .left

/-- The games in pairs, the odd one of each first: 1 with 2, 3 with 4. Partners serve to different
sides, and every game has one. -/
def mirrorGame : Nat → Nat
  | 0 => 0
  | game + 1 => if game % 2 = 0 then game + 2 else game

/-- No game is only ever mirrored to no game, which `update` treats differently from all others. -/
theorem mirrorGame_pos {game : Nat} : 0 < mirrorGame game ↔ 0 < game := by
  cases game with
  | zero => rfl
  | succ game =>
    rw [mirrorGame]
    split <;> omega

/-- Every game number but the last one has its partner among the game numbers. -/
theorem mirrorGame_lt {game : Nat} (paired : game < 2 ^ 64 - 1) : mirrorGame game < 2 ^ 64 := by
  cases game with
  | zero => decide
  | succ game =>
    rw [mirrorGame]
    split <;> omega

/-- Different games have different partners, so a new game is a new game in the mirror too. -/
theorem mirrorGame_injective {game game' : Nat} (h : mirrorGame game = mirrorGame game') :
    game = game' := by
  cases game <;> cases game' <;> simp only [mirrorGame] at h
  · rfl
  · split at h <;> omega
  · split at h <;> omega
  · split at h <;> split at h <;> omega

/-- The mirrored game serves to the other side, as the source goes by whether the number is even. -/
theorem mirrorGame_even {game : Nat} (played : 0 < game) :
    mirrorGame game % 2 = 0 ↔ ¬game % 2 = 0 := by
  obtain ⟨game, rfl⟩ := Nat.exists_eq_succ_of_ne_zero (Nat.ne_of_gt played)
  rw [mirrorGame]
  split <;> omega

/-- The game with its sides exchanged. The ball is 3 wide on a field of 128, so its corner goes from
`x` to `125 - x`. -/
def mirror (pong : Pong ℚ) : Pong ℚ where
  game := mirrorGame pong.game
  ballX := 125 - pong.ballX
  ballY := pong.ballY
  velocityX := -pong.velocityX
  velocityY := pong.velocityY
  leftY := pong.rightY
  rightY := pong.leftY
  leftScore := pong.rightScore
  rightScore := pong.leftScore

/-- The call that does to the mirrored game what `call` does to the game: a player's value counts
from the other end on the other side, and `update` itself turns player 2's around. -/
def mirrorCall (call : Call) : Call where
  game := mirrorGame call.game
  active := call.active
  player1 := 255 - Arith.clamp call.player2 0 255
  player2 := 255 - Arith.clamp call.player1 0 255
  dt := call.dt

/-- The other player has returned the ball, or scored, where the one did; a game begins at the same
calls. -/
def mirrorEffect (effect : Effect) : Effect where
  begins := effect.begins
  reflection := effect.reflection.map other
  point := effect.point.map other

/-! ## The parts of an update -/

/-- A call begins a game in the mirror exactly when it does so here. -/
theorem begins_mirror (pong : Pong ℚ) (game : Nat) :
    (mirror pong).Begins (mirrorGame game) ↔ pong.Begins game := by
  rw [Begins, Begins, mirrorGame_pos, mirror]
  exact and_congr_right fun _ => not_congr ⟨mirrorGame_injective, congrArg _⟩

/-- A new ball in the mirror flies the other way, and as steep: its height goes by the sum of the
scores, which has no sides. -/
theorem resetBall_mirror (pong : Pong ℚ) (direction : ℚ) :
    (mirror pong).resetBall (-direction) = mirror (pong.resetBall direction) := by
  have middle : (125 : ℚ) - (screenWidth - ballSize) / 2.0 = (screenWidth - ballSize) / 2.0 := by
    norm_num
  simp only [resetBall, mirror, Nat.add_comm pong.rightScore, middle, mul_neg]

/-- A new game in the mirror. It has to be a numbered one, as 0 is its own partner and would be
served to the same side. -/
theorem beginGame_mirror (pong : Pong ℚ) {game : Nat} (played : 0 < game) :
    (mirror pong).beginGame (mirrorGame game) = mirror (pong.beginGame game) := by
  have serve : (if mirrorGame game % 2 = 0 then -1.0 else 1.0 : ℚ) =
      -(if game % 2 = 0 then -1.0 else 1.0) := by
    by_cases even : game % 2 = 0
    · rw [if_pos even, if_neg (by rw [mirrorGame_even played]; exact not_not.mpr even), neg_neg]
    · rw [if_neg even, if_pos ((mirrorGame_even played).mpr even)]
  rw [beginGame, serve, beginGame, ← resetBall_mirror]
  rfl

/-- A value counted from the other end twice, which is where player 2's paddle of the mirrored game
is. -/
theorem paddleY_mirror (value : Int) :
    (paddleY (255 - Arith.clamp (255 - Arith.clamp value 0 255) 0 255) : ℚ) = paddleY value := by
  have twice : Arith.clamp (255 - Arith.clamp (255 - Arith.clamp value 0 255) 0 255) 0 255 =
      Arith.clamp value 0 255 := by
    simp only [Arith.clamp]
    omega
  simp only [paddleY, twice]

/-- The new game and the paddles in the mirror. For the paddles the values are exchanged and turned
around. -/
theorem entered_mirror (pong : Pong ℚ) (call : Call) :
    entered (mirror pong) (mirrorCall call) = mirror (entered pong call) := by
  have paddle := paddleY_mirror call.player1
  by_cases begun : pong.Begins call.game
  · simp only [entered, enter, mirrorCall, if_pos ((begins_mirror pong call.game).mpr begun),
      if_pos begun, beginGame_mirror pong begun.1, paddle]
    rfl
  · have same : ¬(mirror pong).Begins (mirrorCall call).game :=
      fun h => begun ((begins_mirror pong call.game).mp h)
    rw [entered_same same, entered_same begun]
    simp only [mirror, mirrorCall, paddle]

/-- The ball flies on in the mirror. Its height does not change sides. -/
theorem move_mirror (pong : Pong ℚ) (dt : ℚ) : (mirror pong).move dt = mirror (pong.move dt) := by
  have flown : 125 - pong.ballX + -pong.velocityX * Scalar.clamp dt 0.0 0.2 =
      125 - (pong.ballX + pong.velocityX * Scalar.clamp dt 0.0 0.2) := by ring
  simp only [move, mirror, flown]

/-- The top and the bottom are the same in the mirror. -/
theorem bounce_mirror (pong : Pong ℚ) : (mirror pong).bounce = mirror pong.bounce := by
  have level : (mirror pong).ballY = pong.ballY := rfl
  rw [bounce_eq, bounce_eq, level]
  by_cases top : pong.ballY ≤ playTop
  · rw [if_pos top, if_pos top]
    rfl
  · by_cases bottom : playBottom ≤ pong.ballY + ballSize
    · rw [if_neg top, if_neg top, if_pos bottom, if_pos bottom]
      rfl
    · rw [if_neg top, if_neg top, if_neg bottom, if_neg bottom]

/-- The ball arrives in the mirror where it arrives here. -/
theorem arrived_mirror (pong : Pong ℚ) (call : Call) :
    arrived (mirror pong) (mirrorCall call) = mirror (arrived pong call) := by
  rw [arrived, entered_mirror, mirrorCall, move_mirror, bounce_mirror]
  rfl

/-- An answer that is a side where another is the other side. -/
theorem eq_map_other {answer answer' : Option Side}
    (left : answer = some .left ↔ answer' = some .right)
    (right : answer = some .right ↔ answer' = some .left) : answer = answer'.map other := by
  cases h : answer' with
  | some side =>
    cases side with
    | left => exact right.mpr h
    | right => exact left.mpr h
  | none =>
    cases h' : answer with
    | none => rfl
    | some side =>
      cases side with
      | left => cases (left.mp h').symm.trans h
      | right => cases (right.mp h').symm.trans h

/-- Each paddle reflects the mirrored ball where the other reflects the ball. -/
theorem striker_mirror (pong : Pong ℚ) : (mirror pong).striker = pong.striker.map other := by
  apply eq_map_other <;> rw [striker_left_iff, striker_right_iff] <;> simp only [mirror, Meets]
  · constructor
    · rintro ⟨way, front, behind, meets⟩
      exact ⟨by linarith, by linarith, by linarith, meets⟩
    · rintro ⟨way, front, behind, meets⟩
      exact ⟨by linarith, by linarith, by linarith, meets⟩
  · constructor
    · rintro ⟨way, front, behind, meets⟩
      exact ⟨by linarith, by linarith, by linarith, meets⟩
    · rintro ⟨way, front, behind, meets⟩
      exact ⟨by linarith, by linarith, by linarith, meets⟩

/-- A strike of the one paddle is that of the other in the mirror, spin included. -/
theorem strike_mirror (pong : Pong ℚ) : (mirror pong).strike = mirror pong.strike := by
  have front : (125 : ℚ) - (rightPaddleX - ballSize) = leftPaddleX + paddleWidth := by norm_num
  have back : (125 : ℚ) - (leftPaddleX + paddleWidth) = rightPaddleX - ballSize := by norm_num
  have speed : Scalar.abs (-pong.velocityX) = Scalar.abs pong.velocityX := abs_neg _
  rw [strike_eq, strike_eq, striker_mirror]
  cases pong.striker with
  | none => rfl
  | some side =>
    cases side with
    | left => simp only [Option.map_some, other, addPaddleSpin, mirror, speed, back]
    | right => simp only [Option.map_some, other, addPaddleSpin, mirror, speed, front, neg_neg]

/-- The field ends at -3 and at 128 for the corner of the ball, which the mirror exchanges. -/
theorem winner_mirror (pong : Pong ℚ) : (mirror pong).winner = pong.winner.map other := by
  apply eq_map_other <;> rw [winner_left_iff, winner_right_iff] <;> simp only [mirror]
  · constructor <;> intro lost <;> linarith
  · constructor <;> intro lost <;> linarith

/-- A point in the mirror is the other player's, and the next ball flies to that one. -/
theorem award_mirror (pong : Pong ℚ) : (mirror pong).award = mirror pong.award := by
  have serve : (-(-1.0) : ℚ) = 1.0 := neg_neg _
  rw [award, award, winner_mirror]
  cases pong.winner with
  | none => rfl
  | some side =>
    cases side with
    | left =>
      rw [Option.map_some, other, ← resetBall_mirror, serve]
      rfl
    | right =>
      rw [Option.map_some, other, ← resetBall_mirror]
      rfl

/-! ## Updates and runs -/

/-- An update of the mirrored game is the mirrored update, part by part. -/
theorem after_mirror (pong : Pong ℚ) (call : Call) :
    after (mirror pong) (mirrorCall call) = mirror (after pong call) := by
  cases active : call.active with
  | false =>
    have active' : (mirrorCall call).active = false := active
    rw [after_paused active, after_paused active', entered_mirror]
  | true =>
    have active' : (mirrorCall call).active = true := active
    rw [after_active active, after_active active', arrived_mirror, strike_mirror, award_mirror]

/-- What an update does in the mirror is what it does here, to the other side. -/
theorem effect_mirror (pong : Pong ℚ) (call : Call) :
    effect (mirror pong) (mirrorCall call) = mirrorEffect (effect pong call) := by
  have begins : decide ((mirror pong).Begins (mirrorCall call).game) =
      decide (pong.Begins call.game) := decide_eq_decide.mpr (begins_mirror ..)
  have turned : (effect (mirror pong) (mirrorCall call)).reflection =
        (effect pong call).reflection.map other ∧
      (effect (mirror pong) (mirrorCall call)).point = (effect pong call).point.map other := by
    cases active : call.active with
    | false =>
      have active' : (mirrorCall call).active = false := active
      rw [reflection_paused active, reflection_paused active', point_paused active,
        point_paused active']
      exact ⟨rfl, rfl⟩
    | true =>
      have active' : (mirrorCall call).active = true := active
      rw [reflection_active active, reflection_active active', point_active active,
        point_active active', arrived_mirror, strike_mirror, striker_mirror, winner_mirror]
      exact ⟨rfl, rfl⟩
  rw [mirrorEffect, ← turned.1, ← turned.2, effect, begins]
  rfl

/-! ## Runs -/

/-- A game that has begun and its mirror image; or two games that have not begun, with the paddles
and the scores exchanged and the ball where it waits, in both of them to fly to the right. -/
inductive Twin (pong twin : Pong ℚ) : Prop
  | begun (mirrored : twin = mirror pong)
  | waiting (unplayed : pong.game = 0)
      (mirrored : twin = { mirror pong with velocityX := pong.velocityX })

/-- The program starts with twins: nothing has been played, and the ball waits. -/
theorem twin_default : Twin Pong.default Pong.default := by
  refine .waiting rfl ?_
  have middle : (125 : ℚ) - (screenWidth - ballSize) / 2.0 = (screenWidth - ballSize) / 2.0 := by
    norm_num
  simp only [mirror, Pong.default, middle]
  rfl

/-- An update depends on the game only through how it is entered. -/
theorem after_congr {pong' : Pong ℚ} (begins : pong.Begins call.game ↔ pong'.Begins call.game)
    (same : entered pong call = entered pong' call) :
    after pong call = after pong' call ∧ effect pong call = effect pong' call := by
  have begins' : decide (pong.Begins call.game) = decide (pong'.Begins call.game) :=
    decide_eq_decide.mpr begins
  unfold entered at same
  simp only [after, update, effect, reflection, point, same, begins', and_self]

/-- An update that begins a game throws a new ball, wherever the old one would have flown. -/
theorem entered_new (begun : pong.Begins call.game) : entered pong call =
    { pong.beginGame call.game with
      leftY := paddleY call.player1
      rightY := paddleY (255 - Arith.clamp call.player2 0 255) } := by
  simp only [entered, enter, if_pos begun]

/-- A pause in which no game begins is nothing. -/
theorem effect_paused (paused : call.active = false) (same : ¬pong.Begins call.game) :
    effect pong call = ⟨false, none, none⟩ := by
  simp only [effect, reflection, point, paused, decide_eq_false same, Bool.false_eq_true, if_false]

/-- Twins stay twins as long as only games are played, and fare alike. A waiting pair becomes a
begun one with its first game, whose new ball replaces the one that waited. -/
theorem Twin.update (h : Twin pong twin) (call : Call)
    (counts : call.active = true → 0 < call.game) :
    Twin (after pong call) (after twin (mirrorCall call)) ∧
      effect twin (mirrorCall call) = mirrorEffect (effect pong call) := by
  cases h with
  | begun mirrored =>
    rw [mirrored, after_mirror, effect_mirror]
    exact ⟨.begun rfl, rfl⟩
  | waiting unplayed mirrored =>
    have begins : twin.Begins (mirrorCall call).game ↔
        (mirror pong).Begins (mirrorCall call).game := by
      rw [mirrored]
      exact Iff.rfl
    by_cases begun : pong.Begins call.game
    · have begun' : (mirror pong).Begins (mirrorCall call).game :=
        (begins_mirror pong call.game).mpr begun
      have same : entered twin (mirrorCall call) = entered (mirror pong) (mirrorCall call) := by
        rw [entered_new begun', entered_new (begins.mpr begun'), mirrored]
        rfl
      obtain ⟨next, fared⟩ := after_congr begins same
      rw [next, fared, after_mirror, effect_mirror]
      exact ⟨.begun rfl, rfl⟩
    · have begun' : ¬twin.Begins (mirrorCall call).game :=
        fun h => begun ((begins_mirror pong call.game).mp (begins.mp h))
      have paused : call.active = false := by
        rw [Begins, unplayed] at begun
        rw [← Bool.not_eq_true]
        intro active
        have played := counts active
        omega
      have paused' : (mirrorCall call).active = false := paused
      have paddle := paddleY_mirror call.player1
      refine ⟨?_, ?_⟩
      · rw [after_paused paused, after_paused paused', entered_same begun, entered_same begun',
          mirrored]
        refine .waiting unplayed ?_
        simp only [mirror, mirrorCall, paddle]
      · rw [effect_paused paused begun, effect_paused paused' begun']
        rfl

/-- **Pong is fair.** Play any games, with any values of the players and any frames. Then there are
games that serve the other way round in which the players, with their values exchanged, fare as the
other did: each reflection and each point is the other's, the scores are exchanged, and once a game
has begun the field is the mirror image throughout. The countdown makes sure that the ball flies
only in a game that has a number (`counts`); otherwise the waiting ball would fly to the same side
in both. The partners are numbers of 64 bits as long as the last such number is not played. -/
theorem fair_game (runs : Runs step Pong.default calls effects pong)
    (counts : ∀ call ∈ calls, call.active = true → 0 < call.game) :
    ∃ twin, Runs step Pong.default (calls.map mirrorCall) (effects.map mirrorEffect) twin ∧
      twin.leftScore = pong.rightScore ∧ twin.rightScore = pong.leftScore ∧
      (0 < pong.game → twin = mirror pong) ∧
      ∀ call ∈ calls, call.game < 2 ^ 64 - 1 → (mirrorCall call).game < 2 ^ 64 := by
  have twins : ∃ twin, Runs step Pong.default (calls.map mirrorCall) (effects.map mirrorEffect)
      twin ∧ Twin pong twin := by
    induction runs with
    | nil => exact ⟨Pong.default, .nil, twin_default⟩
    | @snoc calls effects pong pong' call effect before last ih =>
      obtain ⟨twin, runs, h⟩ := ih fun call mem => counts call (List.mem_append_left _ mem)
      cases last
      obtain ⟨h', fared⟩ := h.update call
        (counts call (List.mem_append_right _ (List.mem_singleton_self _)))
      refine ⟨after twin (mirrorCall call), ?_, h'⟩
      rw [List.map_append, List.map_append]
      exact runs.snoc (congrArg (fun effect => some (after twin (mirrorCall call), effect)) fared)
  obtain ⟨twin, runs', h⟩ := twins
  have numbered : ∀ call ∈ calls, call.game < 2 ^ 64 - 1 → (mirrorCall call).game < 2 ^ 64 :=
    fun _ _ paired => mirrorGame_lt paired
  refine ⟨twin, runs', ?_⟩
  cases h with
  | begun mirrored =>
    exact ⟨by rw [mirrored]; rfl, by rw [mirrored]; rfl, fun _ => mirrored, numbered⟩
  | waiting unplayed mirrored =>
    exact ⟨by rw [mirrored]; rfl, by rw [mirrored]; rfl, by omega, numbered⟩

/-- Two seconds before the first game, then that game until the ball is lost on the right. -/
def unreturned : List Call :=
  [⟨0, false, 10, 20, 2⟩] ++ List.replicate 40 ⟨1, true, 300, 255, 0.05⟩

/-- The left player has scored, so in the mirror the right player has. -/
theorem fair_game_unreturned : ∃ effects twin,
    Runs step (Pong.default : Pong ℚ) (unreturned.map mirrorCall) effects twin ∧
      twin.rightScore = 1 ∧ twin.leftScore = 0 := by
  have played : (run step (Pong.default : Pong ℚ) unreturned).map
      (fun p => (p.1.leftScore, p.1.rightScore)) = some (1, 0) := by decide +kernel
  obtain ⟨effects, pong, runs, scores⟩ := runs_of_run played
  obtain ⟨left, right⟩ := by simpa only [Prod.mk.injEq] using scores
  obtain ⟨twin, runs', leftScore, rightScore, -⟩ := fair_game runs (by decide +kernel)
  exact ⟨_, twin, runs', rightScore.trans left, leftScore.trans right⟩

end Motorball.Server.Pong
