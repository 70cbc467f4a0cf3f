import Motorball.Server.Oled
import Motorball.Server.PongPace

/-!
# What the display draws

`draw`, `draw_pong` and `centered` of `piwebserver/src/oled.rs`, down to the shapes they hand to the
graphics library: texts centred in the width of the screen, filled rectangles, and the strokes of
the centre line.

Which pixels a shape has is for the graphics library to say, and `Shape.left`, `Shape.right`,
`Shape.top` and `Shape.bottom` follow its documentation. A rectangle begins at its point and has its
size, a stroke has both of its ends. The fonts are named after the size of their characters, and a
text is as wide as its characters together. Aligned by its centre on column 64, a text begins half
of its width to the left of it, counted from its first column to its last; with its baseline at the
top, it begins in the row it is given.

`drawn_on_screen` is about every frame of every run of the display thread: the shapes are on the
screen, no text meets another shape, and the header is as wide as the screen allows unless its
numbers have too many digits (`header_inWidth_iff`). The pace of Pong bounds them: a game as long as
the server plays by default does not come to that.
-/

namespace Motorball.Server.Oled

open Transducer

/-! ## Shapes -/

/-- A font, by the size of its characters. The names of the two that the source uses say it. -/
structure Font where
  width : Nat
  height : Nat
  deriving DecidableEq

/-- `FONT_6X10`. -/
def small : Font := ⟨6, 10⟩

/-- `FONT_10X20`. -/
def large : Font := ⟨10, 20⟩

def displayWidth : Nat := 128
def displayHeight : Nat := 64

/-- What `draw` hands to the graphics library. Every text of it is centred, as they all go through
`centered`. -/
inductive Shape where
  /-- A text in the middle of the width, from a row downwards. -/
  | text (content : String) (y : Int) (font : Font)
  | rectangle (x y : Int) (width height : Nat)
  /-- A vertical stroke, with both its ends. -/
  | line (x y y' : Int)
  deriving DecidableEq

/-- The first row of a shape. A text hangs from its row, as its baseline is the top one. -/
def Shape.top : Shape → Int
  | .text _ y _ | .rectangle _ y _ _ | .line _ y _ => y

/-- The row after the last one of a shape, so that a shape that ends where another begins does not
meet it. -/
def Shape.bottom : Shape → Int
  | .text _ y font => y + font.height
  | .rectangle _ y _ height => y + height
  | .line _ _ y' => y' + 1

/-- A text is read and must stay legible; the ball may well fly past the centre line. -/
def Shape.IsText : Shape → Prop
  | .text .. => True
  | .rectangle .. | .line .. => False

/-- The first column of a shape. Half of a text, from its first column to its last, is to the left
of column 64. -/
def Shape.left : Shape → Int
  | .text content _ font => 64 - ((content.length * font.width - 1) / 2 : Nat)
  | .rectangle x _ _ _ | .line x _ _ => x

/-- The column after the last one of a shape. A text ends the width of its characters after it
begins. -/
def Shape.right : Shape → Int
  | .text content y font => (Shape.text content y font).left + (content.length * font.width : Nat)
  | .rectangle x _ width _ => x + width
  | .line x _ _ => x + 1

/-- The columns of a shape are those of the screen, none of them cut off. -/
def Shape.InWidth (shape : Shape) : Prop := 0 ≤ shape.left ∧ shape.right ≤ displayWidth

instance (shape : Shape) : Decidable shape.InWidth :=
  inferInstanceAs (Decidable (0 ≤ shape.left ∧ shape.right ≤ displayWidth))

/-- A shape leaves the screen on the left and on the right by no more than its width: it is on the
screen in part, or just outside of it. -/
def Shape.Passing (shape : Shape) : Prop := 0 ≤ shape.right ∧ shape.left ≤ displayWidth

instance (shape : Shape) : Decidable shape.Passing :=
  inferInstanceAs (Decidable (0 ≤ shape.right ∧ shape.left ≤ displayWidth))

/-- One of two shapes is below the other. This is enough to keep them from meeting, and no text of
the display needs a neighbour beside it. -/
def Shape.Apart (shape other : Shape) : Prop :=
  shape.bottom ≤ other.top ∨ other.bottom ≤ shape.top

section Draw

variable {α : Type} [Scalar α] [Scalar.Rounding α]

/-- `v.round() as i32`, the cast saturating. For the whole constants this is what `as i32` and `as
u32` make of them. -/
def pixel (v : α) : Int := Arith.clamp (Scalar.Rounding.round v) (-2 ^ 31) (2 ^ 31 - 1)

/-- The status line of a game: the scores with the seconds between them, and in the chaos phase the
word in front of these. -/
def header (status : CountdownStatus) (leftScore rightScore : Nat) : String :=
  if status.state = .chaos then s!"{leftScore}  CHAOS {status.remainingSeconds}  {rightScore}"
  else s!"{leftScore}       {status.remainingSeconds}       {rightScore}"

/-- The left paddle, filled; its height on the screen is the rounded one of the game. -/
def leftPaddle (pong : Pong α) : Shape :=
  .rectangle (pixel (leftPaddleX : α)) (pixel pong.leftY) (pixel (paddleWidth : α)).toNat
    (pixel (paddleHeight : α)).toNat

/-- The right paddle, filled, at the other end of the field. -/
def rightPaddle (pong : Pong α) : Shape :=
  .rectangle (pixel (rightPaddleX : α)) (pixel pong.rightY) (pixel (paddleWidth : α)).toNat
    (pixel (paddleHeight : α)).toNat

/-- The ball, filled. It is drawn wherever it is, also as it leaves the field. -/
def ball (pong : Pong α) : Shape :=
  .rectangle (pixel pong.ballX) (pixel pong.ballY) (pixel (ballSize : α)).toNat
    (pixel (ballSize : α)).toNat

/-- The dotted line: `(13..64).step_by(6)`. -/
def centreLine : List Shape := (List.range' 13 9 6).map fun (y : Nat) => .line 64 y (y + 2)

/-- The header as it is drawn: in the small font, at the top of the screen. -/
def headerText (status : CountdownStatus) (pong : Pong α) : Shape :=
  .text (header status pong.leftScore pong.rightScore) 0 small

/-- `draw_pong`: the header, the two paddles, the ball and the dotted line, in the order of the
source. -/
def drawPong (status : CountdownStatus) (pong : Pong α) : List Shape :=
  [headerText status pong, leftPaddle pong, rightPaddle pong, ball pong] ++ centreLine

/-- The shapes of a screen: the field during a game and its chaos phase, the result after it, and
the title before the first one. -/
def Screen.shapes : Screen α → List Shape
  | .field status pong => drawPong status pong
  | .gameOver leftScore rightScore =>
    [.text "GAME OVER" 2 large, .text s!"{leftScore}  -  {rightScore}" 26 large,
      .text "HOLD Y 5 SEC" 52 small]
  | .title =>
    [.text "OLED PONG" 3 large, .text "P1         P2" 29 small, .text "HOLD Y 5 SEC" 48 small]

end Draw

/-! ## The numbers in the texts -/

/-- The digits a number is written with, of which 0 has one too. -/
def digits (n : Nat) : Nat := (toString n).length

/-- A number has no more than `k` digits if it is below `10 ^ k`. At `k = 0` this would fail for
0. -/
theorem digits_le {n k : Nat} (positive : 0 < k) : digits n ≤ k ↔ n < 10 ^ k :=
  Nat.length_repr_le_iff positive

/-- The characters of the header: its three numbers, and what stands between them. -/
theorem header_length (status : CountdownStatus) (leftScore rightScore : Nat) :
    (header status leftScore rightScore).length =
      digits leftScore + digits status.remainingSeconds + digits rightScore +
        if status.state = .chaos then 10 else 14 := by
  have chaos : "  CHAOS ".length = 8 := rfl
  have gap : "       ".length = 7 := rfl
  have blank : "  ".length = 2 := rfl
  rw [header]
  split
  · simp only [toString, String.length_append, chaos, blank, digits]
    omega
  · simp only [toString, String.length_append, gap, digits]
    omega

/-- The digits in the header of a frame, all three numbers together. -/
def headerDigits (status : CountdownStatus) (leftScore rightScore : Nat) : Nat :=
  digits leftScore + digits status.remainingSeconds + digits rightScore

/-- The digits a header has room for on 128 columns of 6 each, less what stands between the
numbers. -/
def room (state : GameState) : Nat := if state = .chaos then 11 else 7

/-- A header is on the screen exactly if its numbers have no more digits than that. With one more it
is 132 columns wide. -/
theorem header_inWidth_iff {status : CountdownStatus} {pong : Pong ℚ} :
    (headerText status pong).InWidth ↔
      headerDigits status pong.leftScore pong.rightScore ≤ room status.state := by
  simp only [headerText, Shape.InWidth, Shape.left, Shape.right, header_length, headerDigits, room,
    small, displayWidth]
  split <;> omega

/-- A score has at most three digits, being a byte, so the result fits in the large font too. -/
theorem gameOver_inWidth {leftScore rightScore : Nat} (left : leftScore ≤ 255)
    (right : rightScore ≤ 255) :
    (Shape.text s!"{leftScore}  -  {rightScore}" 26 large).InWidth := by
  have dash : "  -  ".length = 5 := rfl
  have left' : digits leftScore ≤ 3 := (digits_le (by decide)).mpr (by omega)
  have right' : digits rightScore ≤ 3 := (digits_le (by decide)).mpr (by omega)
  simp only [digits, toString] at left' right'
  simp only [Shape.InWidth, Shape.left, Shape.right, large, displayWidth, toString,
    String.length_append, dash]
  omega

/-! ## The places of the shapes -/

/-- A rounded value stays between whole bounds, as long as the cast can hold these. -/
theorem pixel_mem {v : ℚ} {lo hi : Int} (lower : (lo : ℚ) ≤ v) (upper : v ≤ hi)
    (small : -2 ^ 31 ≤ lo) (large : hi ≤ 2 ^ 31 - 1) : lo ≤ pixel v ∧ pixel v ≤ hi := by
  obtain ⟨lower', upper'⟩ := Scalar.round_between lower upper
  rw [pixel, Arith.clamp]
  omega

/-- A whole value is the pixel it says. -/
theorem pixel_eq {v : ℚ} {n : Int} (whole : v = n) (small : -2 ^ 31 ≤ n) (large : n ≤ 2 ^ 31 - 1) :
    pixel v = n := by
  obtain ⟨lower, upper⟩ := pixel_mem whole.ge whole.le small large
  exact le_antisymm upper lower

theorem pixel_ballSize : pixel (ballSize : ℚ) = 3 := pixel_eq (by norm_num) (by decide) (by decide)

theorem pixel_paddleWidth : pixel (paddleWidth : ℚ) = 3 :=
  pixel_eq (by norm_num) (by decide) (by decide)

theorem pixel_paddleHeight : pixel (paddleHeight : ℚ) = 16 :=
  pixel_eq (by norm_num) (by decide) (by decide)

theorem pixel_leftPaddleX : pixel (leftPaddleX : ℚ) = 2 :=
  pixel_eq (by norm_num) (by decide) (by decide)

theorem pixel_rightPaddleX : pixel (rightPaddleX : ℚ) = 123 :=
  pixel_eq (by norm_num) (by decide) (by decide)

/-- A shape of the field: below the header, whose characters end at row 10, and above the bottom of
the screen, and no text. -/
structure Shape.Placed (shape : Shape) : Prop where
  top : 12 ≤ shape.top
  bottom : shape.bottom ≤ displayHeight
  drawn : ¬shape.IsText

section Field

variable {pong : Pong ℚ} (inField : Pong.InField pong)
include inField

/-- The left paddle is in its place for any value of its player. -/
theorem leftPaddle_placed : (leftPaddle pong).Placed ∧ (leftPaddle pong).InWidth := by
  obtain ⟨lower, upper⟩ := inField.leftPaddle
  rw [Pong.playTop_eq] at lower
  rw [Pong.playBottom_eq, Pong.paddleHeight_eq] at upper
  obtain ⟨top, bottom⟩ : 12 ≤ pixel pong.leftY ∧ pixel pong.leftY ≤ 47 :=
    pixel_mem (by exact_mod_cast lower) (by push_cast; linarith) (by decide) (by decide)
  rw [leftPaddle, pixel_leftPaddleX, pixel_paddleWidth, pixel_paddleHeight]
  refine ⟨⟨top, ?_, id⟩, (by decide : (0 : Int) ≤ 2), (by decide : (2 + 3 : Int) ≤ 128)⟩
  rw [Shape.bottom, displayHeight]
  omega

/-- The right paddle is in its place for any value of its player. -/
theorem rightPaddle_placed : (rightPaddle pong).Placed ∧ (rightPaddle pong).InWidth := by
  obtain ⟨lower, upper⟩ := inField.rightPaddle
  rw [Pong.playTop_eq] at lower
  rw [Pong.playBottom_eq, Pong.paddleHeight_eq] at upper
  obtain ⟨top, bottom⟩ : 12 ≤ pixel pong.rightY ∧ pixel pong.rightY ≤ 47 :=
    pixel_mem (by exact_mod_cast lower) (by push_cast; linarith) (by decide) (by decide)
  rw [rightPaddle, pixel_rightPaddleX, pixel_paddleWidth, pixel_paddleHeight]
  refine ⟨⟨top, ?_, id⟩, (by decide : (0 : Int) ≤ 123), (by decide : (123 + 3 : Int) ≤ 128)⟩
  rw [Shape.bottom, displayHeight]
  omega

/-- The ball is below the header and above the bottom in every frame, though it may be passing an
end. -/
theorem ball_placed : (ball pong).Placed ∧ (ball pong).Passing := by
  have high := inField.top
  have low := inField.bottom
  have left := inField.left
  have right := inField.right
  rw [Pong.playTop_eq] at high
  rw [Pong.playBottom_eq, Pong.ballSize_eq] at low
  rw [Pong.ballSize_eq] at left
  rw [Pong.screenWidth_eq] at right
  obtain ⟨top, bottom⟩ : 12 ≤ pixel pong.ballY ∧ pixel pong.ballY ≤ 60 :=
    pixel_mem (by exact_mod_cast high) (by push_cast; linarith) (by decide) (by decide)
  obtain ⟨leaving, passing⟩ : -3 ≤ pixel pong.ballX ∧ pixel pong.ballX ≤ 128 :=
    pixel_mem (by exact_mod_cast left) (by exact_mod_cast right) (by decide) (by decide)
  rw [ball, pixel_ballSize]
  refine ⟨⟨top, ?_, id⟩, ?_, passing⟩
  · rw [Shape.bottom, displayHeight]
    omega
  · rw [Shape.right]
    omega

end Field

/-- The dots of the line are in their place; the last of them, from row 61 on, is still a whole
one. -/
theorem centreLine_placed : ∀ shape ∈ centreLine, shape.Placed ∧ shape.InWidth := by
  intro shape hmem
  obtain ⟨y, hy, rfl⟩ := List.mem_map.mp hmem
  have rows : 13 ≤ y ∧ y ≤ 61 := by
    obtain ⟨i, hi, rfl⟩ := List.mem_range'.mp hy
    omega
  refine ⟨⟨?_, ?_, id⟩, (by decide : (0 : Int) ≤ 64), (by decide : (64 + 1 : Int) ≤ 128)⟩
  · rw [Shape.top]
    omega
  · rw [Shape.bottom, displayHeight]
    omega

/-! ## One frame -/

/-- What holds of the Pong of a connected thread, which the two layers below prove of it: the field,
and the bytes of the scores. -/
structure Playable (pong : Pong ℚ) : Prop extends Pong.InField pong where
  scores : ∀ side, pong.score side ≤ 255

/-- A Pong that is begun with holds to it. -/
theorem playable_default : Playable (Pong.default : Pong ℚ) :=
  ⟨Pong.default_inField, fun side => by cases side <;> decide⟩

/-- An update holds to it, whatever the frame brings. -/
theorem Playable.update {pong : Pong ℚ} (playable : Playable pong) (game : Nat) (active : Bool)
    (player1 player2 : Int) (dt : ℚ) : Playable (pong.update game active player1 player2 dt) := by
  refine ⟨Pong.update_inField playable.toInField game active player1 player2 dt, ?_⟩
  intro side
  have score := playable.scores side
  rw [Pong.update_score, Arith.saturatingAdd]
  split <;> split <;> omega

variable {pong : Pong ℚ}

/-- The shapes of the field are in their place, and all but the ball in the width of the screen. -/
theorem field_placed (playable : Playable pong) :
    ∀ shape ∈ [leftPaddle pong, rightPaddle pong, ball pong] ++ centreLine,
      shape.Placed ∧ (shape.InWidth ∨ (shape = ball pong ∧ shape.Passing)) := by
  intro shape hmem
  rcases List.mem_append.mp hmem with piece | stroke
  · simp only [List.mem_cons, List.not_mem_nil, or_false] at piece
    obtain rfl | rfl | rfl := piece
    · exact (leftPaddle_placed playable.toInField).imp_right .inl
    · exact (rightPaddle_placed playable.toInField).imp_right .inl
    · exact (ball_placed playable.toInField).imp_right fun passing => .inr ⟨rfl, passing⟩
  · exact (centreLine_placed shape stroke).imp_right .inl

/-- The shapes of a screen are in its rows, and no text meets another shape of it, be that drawn
before or after. -/
structure Laid (shapes : List Shape) : Prop where
  rows : ∀ shape ∈ shapes, 0 ≤ shape.top ∧ shape.bottom ≤ displayHeight
  apart : shapes.Pairwise fun shape other => shape.IsText ∨ other.IsText → shape.Apart other

/-- Three texts one below the other, which the title and the result both are. -/
theorem laid_texts {first second third : String} {y y' y'' : Int} {font font' font'' : Font}
    (top : 0 ≤ y) (below : y + font.height ≤ y') (below' : y' + font'.height ≤ y'')
    (bottom : y'' + font''.height ≤ displayHeight) :
    Laid [.text first y font, .text second y' font', .text third y'' font''] := by
  constructor
  · intro shape hmem
    simp only [List.mem_cons, List.not_mem_nil, or_false] at hmem
    obtain rfl | rfl | rfl := hmem <;> simp only [Shape.top, Shape.bottom] <;> omega
  · simp only [List.pairwise_cons, List.mem_cons, List.not_mem_nil, or_false]
    refine ⟨?_, ?_, by simp⟩
    · rintro shape (rfl | rfl) _
      · exact .inl below
      · refine .inl ?_
        simp only [Shape.top, Shape.bottom]
        omega
    · rintro shape rfl _
      exact .inl below'

/-- The field is laid out: its shapes begin at row 12 and the header ends before that. -/
theorem laid_drawPong (playable : Playable pong) (status : CountdownStatus) :
    Laid (drawPong status pong) := by
  have placed := field_placed playable
  have bottom : (headerText status pong).bottom = 10 := rfl
  constructor
  · intro shape hmem
    rcases List.mem_cons.mp hmem with rfl | hmem
    · rw [bottom]
      exact ⟨le_rfl, by decide⟩
    · exact ⟨le_trans (by decide) (placed shape hmem).1.top, (placed shape hmem).1.bottom⟩
  · refine List.pairwise_cons.mpr ⟨?_, ?_⟩
    · intro shape hmem _
      refine .inl ?_
      rw [bottom]
      exact le_trans (by decide) (placed shape hmem).1.top
    · apply List.Pairwise.imp_of_mem (p := List.pairwise_of_forall fun _ _ => True.intro)
      intro shape other hmem hmem' _ text
      exact absurd text (not_or.mpr ⟨(placed shape hmem).1.drawn, (placed other hmem').1.drawn⟩)

/-- Each of the three screens is laid out. -/
theorem laid_draw (playable : Playable pong) (status : CountdownStatus) :
    Laid (draw status pong).shapes := by
  cases hstate : status.state with
  | running | chaos =>
    rw [draw, hstate]
    exact laid_drawPong playable status
  | finished =>
    rw [draw, hstate]
    exact laid_texts (by decide) (by decide) (by decide) (by decide)
  | idle =>
    rw [draw, hstate]
    exact laid_texts (by decide) (by decide) (by decide) (by decide)

/-- Every shape is in the width of the screen, but for the ball as it passes an end and a header
with too many digits. -/
theorem width_draw (playable : Playable pong) (status : CountdownStatus) :
    ∀ shape ∈ (draw status pong).shapes, shape.InWidth ∨ (shape = ball pong ∧ shape.Passing) ∨
      (shape = headerText status pong ∧
        room status.state < headerDigits status pong.leftScore pong.rightScore) := by
  have playing : ∀ shape ∈ drawPong status pong, shape.InWidth ∨
      (shape = ball pong ∧ shape.Passing) ∨ (shape = headerText status pong ∧
        room status.state < headerDigits status pong.leftScore pong.rightScore) := by
    intro shape hmem
    rcases List.mem_cons.mp hmem with rfl | hmem
    · rcases Nat.lt_or_ge (room status.state)
        (headerDigits status pong.leftScore pong.rightScore) with wide | fits
      · exact Or.inr (Or.inr ⟨rfl, wide⟩)
      · exact Or.inl (header_inWidth_iff.mpr fits)
    · exact (field_placed playable shape hmem).2.imp_right .inl
  intro shape hmem
  cases hstate : status.state with
  | running | chaos =>
    rw [draw, hstate] at hmem
    rw [← hstate]
    exact playing shape hmem
  | finished =>
    rw [draw, hstate] at hmem
    simp only [Screen.shapes, List.mem_cons, List.not_mem_nil, or_false] at hmem
    obtain rfl | rfl | rfl := hmem
    · exact Or.inl (by decide)
    · exact Or.inl (gameOver_inWidth (playable.scores .left) (playable.scores .right))
    · exact Or.inl (by decide)
  | idle =>
    rw [draw, hstate] at hmem
    simp only [Screen.shapes, List.mem_cons, List.not_mem_nil, or_false] at hmem
    obtain rfl | rfl | rfl := hmem <;> exact Or.inl (by decide)

/-! ## A run of the display thread -/

/-- The calls of `update` since the display was connected, one event later. A thread that reconnects
begins with a new Pong, so its calls begin anew too. -/
def noteCall (calls : List Call) : Event ℚ → List Call
  | .connect _ => []
  | .frame status player1 player2 dt _ =>
    calls ++ [⟨status.game, active status, player1, player2, dt⟩]

/-- The calls of `update` since the display was connected, over a whole history of the thread. -/
def callsSince (ds : List (Event ℚ)) : List Call := ds.foldl noteCall []

theorem callsSince_snoc (ds : List (Event ℚ)) (d : Event ℚ) :
    callsSince (ds ++ [d]) = noteCall (callsSince ds) d := by
  rw [callsSince, List.foldl_append]
  rfl

variable {ds : List (Event ℚ)} {os : List (Obs ℚ)} {t : Option (Pong ℚ)}

/-- The Pong of a connected thread has run since it was connected. This is what carries the laws of
the game over to what is drawn. -/
theorem pong_runs (runs : Runs step none ds os t) :
    ∀ pong, t = some pong →
      Playable pong ∧ ∃ effects, Runs Pong.step Pong.default (callsSince ds) effects pong := by
  induction runs with
  | nil => nofun
  | snoc _ last ih =>
    intro next hnext
    rw [callsSince_snoc]
    cases step_moved last with
    | connect =>
      cases hnext
      exact ⟨playable_default, [], .nil⟩
    | refuse | fail => cases hnext
    | frame pong _ status player1 player2 dt point updated scored =>
      cases hnext
      obtain ⟨playable, effects, calls⟩ := ih pong rfl
      rw [updated]
      exact ⟨playable.update _ _ _ _ _, _, calls.snoc rfl⟩

/-- In less than three minutes of play nobody scores a hundred points, by the pace of the game. The
scores have then no more than four digits together. -/
theorem few_digits {calls : List Call} {effects : List Pong.Effect}
    (runs : Runs Pong.step Pong.default calls effects pong)
    (short : Pong.playTime calls effects ≤ 172) :
    digits pong.leftScore + digits pong.rightScore ≤ 4 := by
  have slow := Pong.newBalls_slow runs
  have total := (Pong.paced_of_runs runs).total
  have few : Pong.newBalls (Pong.story effects) < 100 := by
    have few : (Pong.newBalls (Pong.story effects) : ℚ) < 100 := by linarith
    exact_mod_cast few
  have left : digits pong.leftScore ≤ 2 := (digits_le (by decide)).mpr (by omega)
  have right : digits pong.rightScore ≤ 2 := (digits_le (by decide)).mpr (by omega)
  omega

/-- **What is drawn is on the screen.** In every frame of every run of the display thread: the rows
of each shape are those of the screen, and no text meets another shape. Each shape is in the width
of the screen, but for two: the ball as it passes an end, and the header when its numbers together
have more digits than it has room for. The header stays on the screen while less than a thousand
seconds remain in a game that has played for less than three minutes since the display was
connected, as nobody scores a hundred points in that time. Both conditions are needed: a server may
be set up for longer games, and the seconds of a longer game have more digits. -/
theorem drawn_on_screen {status : CountdownStatus} {point : Option Side} {screen : Screen ℚ}
    (runs : Runs step none ds (os ++ [.frame status point (some screen)]) t) :
    Laid screen.shapes ∧
      ∃ pong effects, Runs Pong.step Pong.default (callsSince ds) effects pong ∧
        screen = draw status pong ∧
        (∀ shape ∈ screen.shapes, shape.InWidth ∨ (shape = ball pong ∧ shape.Passing) ∨
          (shape = headerText status pong ∧
            room status.state < headerDigits status pong.leftScore pong.rightScore)) ∧
        (Pong.playTime (callsSince ds) effects ≤ 172 → status.remainingSeconds < 1000 →
          ∀ shape ∈ screen.shapes, shape.InWidth ∨ (shape = ball pong ∧ shape.Passing)) := by
  obtain rfl | ⟨ds, d, rfl⟩ := List.eq_nil_or_concat ds
  · exact absurd runs.of_nil.1 (by simp)
  rw [List.concat_eq_append] at runs ⊢
  obtain ⟨u, os', o, heq, before, last⟩ := runs.last_step
  obtain ⟨rfl, hlast⟩ := List.append_inj' heq rfl
  cases hlast
  cases step_moved last with
  | frame pong next status player1 player2 dt point updated scored =>
    obtain ⟨playable, effects, calls⟩ := pong_runs runs next rfl
    refine ⟨laid_draw playable status, next, effects, calls, rfl, width_draw playable status, ?_⟩
    intro short soon shape hmem
    rcases width_draw playable status shape hmem with inWidth | passing | ⟨-, wide⟩
    · exact Or.inl inWidth
    · exact Or.inr passing
    · have scores := few_digits calls short
      have seconds : digits status.remainingSeconds ≤ 3 := (digits_le (by decide)).mpr soon
      rw [headerDigits, room] at wide
      split at wide <;> omega

/-- A frame that fails, a disconnect, and a game until the ball passes the left end. -/
def twoGames : List (Event ℚ) :=
  [.connect true, .frame firstSecond 10 200 0.1 true, .frame firstSecond 10 200 0.1 false,
    .connect false, .connect true] ++
    List.replicate 8 (.frame ⟨.chaos, 9, 60, 2⟩ 0 0 0.2 true) ++
    [.frame ⟨.chaos, 8, 60, 2⟩ 0 0 0.1 true]

/-- The last frame has the ball two columns beyond the left end, and every other shape on the
screen. -/
theorem drawn_on_screen_two_games : ∃ os status point screen t pong,
    Runs step none twoGames (os ++ [.frame status point (some screen)]) t ∧ Laid screen.shapes ∧
      screen = draw status pong ∧ (ball pong).left = -2 ∧ (ball pong).Passing ∧
      ∀ shape ∈ screen.shapes, shape ≠ ball pong → shape.InWidth := by
  have drawn : (run step none twoGames).map (fun p => lastDrawn p.2) =
      some (some (⟨.chaos, 8, 60, 2⟩, some (0, 0))) := by decide +kernel
  have played : (run Pong.step Pong.default (callsSince twoGames)).map (fun p =>
      ((ball p.1).left, decide (ball p.1).Passing,
        decide (Pong.playTime (callsSince twoGames) p.2 ≤ 172))) =
      some (-2, true, true) := by decide +kernel
  obtain ⟨whole, t, runs, hlast⟩ := runs_of_run drawn
  obtain ⟨os, point, screen, rfl, -⟩ := lastDrawn_eq_some hlast
  obtain ⟨laid, pong, effects, calls, shown, -, fits⟩ := drawn_on_screen runs
  obtain ⟨effects', pong', calls', heq⟩ := runs_of_run played
  obtain ⟨rfl, rfl⟩ := calls.deterministic calls'
  obtain ⟨left, passing, short⟩ := by simpa only [Prod.mk.injEq] using heq
  refine ⟨os, _, point, screen, t, pong, runs, laid, shown, left, of_decide_eq_true passing, ?_⟩
  intro shape hmem other
  exact (fits (of_decide_eq_true short) (by decide) shape hmem).resolve_right
    fun isBall => other isBall.1

end Motorball.Server.Oled
