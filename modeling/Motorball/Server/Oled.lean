import Motorball.Library.Transducer
import Motorball.Server.Pong
import Motorball.Server.StatusLaws

/-!
# The display thread and the scores it draws

`spawn`, `run` and `draw` of `piwebserver/src/oled.rs`. The Pong game is a local of `run`: it is
made when the display is connected and lost with the first call that fails, after which `spawn`
starts `run` afresh. The state of the thread is that local, or `none` while it is not connected.

What the thread reads from the server is arbitrary but for one thing: the statuses are reports of a
run of the server, so their game numbers never decrease. The time between two frames and the
players' values are arbitrary.

`drawn_scores_iff` says when the scores on the display are the points of the game: exactly when the
display was not reconnected after a point of it, and no side has more points than a score can hold.
-/

namespace Motorball.Server.Oled

open Transducer

variable {α : Type}

/-- What a frame shows: the field with the status line, the final score, or the title. -/
inductive Screen (α : Type) where
  | field (status : CountdownStatus) (pong : Pong α)
  | gameOver (leftScore rightScore : Nat)
  | title

/-- The scores on a screen. The title has none. -/
def Screen.scores : Screen α → Option (Nat × Nat)
  | .field _ pong => some (pong.leftScore, pong.rightScore)
  | .gameOver leftScore rightScore => some (leftScore, rightScore)
  | .title => none

/-- `draw`, as far as which screen it is and what stands on it; `Drawing` has the shapes. -/
def draw (status : CountdownStatus) (pong : Pong α) : Screen α :=
  match status.state with
  | .running | .chaos => .field status pong
  | .finished => .gameOver pong.leftScore pong.rightScore
  | .idle => .title

/-- The scores shown are those of the Pong, in every state but idle. -/
theorem draw_scores {status : CountdownStatus} (shown : status.state ≠ .idle) (pong : Pong α) :
    (draw status pong).scores = some (pong.leftScore, pong.rightScore) := by
  unfold draw
  cases h : status.state with
  | idle => exact absurd h shown
  | running | chaos | finished => rfl

/-- Whether the game is on, for the ball to move. The chaos phase counts. -/
def active (status : CountdownStatus) : Bool :=
  match status.state with
  | .running | .chaos => true
  | .idle | .finished => false

/-- The steps of the display thread. What a frame reads of the server is in it, so that the server's
runs can be put beside it. -/
inductive Event (α : Type) where
  /-- `run` up to its loop: opening the device, `init` and the first `flush`. -/
  | connect (ok : Bool)
  /-- One turn of its loop: what it reads, and whether drawing and flushing succeed. -/
  | frame (status : CountdownStatus) (player1 player2 : Int) (dt : α) (ok : Bool)

/-- What is seen of a step. A frame that could not be drawn has scored its point all the same. -/
inductive Obs (α : Type) where
  | connected
  | refused
  /-- The status read, the point scored in Pong, and the screen if it could be drawn. -/
  | frame (status : CountdownStatus) (point : Option Side) (screen : Option (Screen α))

/-- One step of the thread: its Pong while it is connected, and none while it waits to connect. A
failed frame returns from `run`, and with it goes the Pong. -/
def step [Scalar α] : Option (Pong α) → Event α → Option (Option (Pong α) × Obs α)
  | none, .connect true => some (some Pong.default, .connected)
  | none, .connect false => some (none, .refused)
  | some pong, .frame status player1 player2 dt ok =>
    let point := pong.point status.game (active status) player1 player2 dt
    let pong := pong.update status.game (active status) player1 player2 dt
    if ok then some (some pong, .frame status point (some (draw status pong)))
    else some (none, .frame status point none)
  | none, .frame .. => none
  | some _, .connect _ => none

/-! ## The points of a game -/

/-- The statuses the frames have read, those of failed frames included. -/
def statuses (os : List (Obs α)) : List CountdownStatus :=
  os.filterMap fun
    | .frame status _ _ => some status
    | .connected | .refused => none

/-- A frame in which a side scored in a game. -/
def Obs.Scores (game : Nat) (side : Side) : Obs α → Bool
  | .frame status point _ => status.game = game ∧ point = some side
  | .connected | .refused => false

/-- The points a side has scored in a game, over all connections of the display. -/
def points (game : Nat) (side : Side) (os : List (Obs α)) : Nat :=
  os.countP (Obs.Scores game side)

/-- The display was not reconnected after a point of the game. A reconnect before the first point
loses nothing. -/
def Unbroken (game : Nat) (os : List (Obs α)) : Prop :=
  ∀ before after, os = before ++ .connected :: after → ∀ side, points game side before = 0

/-- The Pong of a connected thread, against the history since it was connected. -/
structure Since (after : List (Obs α)) (pong : Pong α) : Prop where
  /-- The scores are the points of the present game, as far as they can count. -/
  scores : ∀ side, pong.score side = min (points pong.game side after) 255
  games : ∀ status ∈ statuses after, status.game ≤ pong.game
  last : pong.game = 0 ∨ ∃ status ∈ statuses after, status.game = pong.game

/-- The points of a game, one observation later. -/
theorem points_snoc (game : Nat) (side : Side) (os : List (Obs α)) (o : Obs α) :
    points game side (os ++ [o]) =
      points game side os + if o.Scores game side then 1 else 0 := by
  rw [points, List.countP_append, List.countP_singleton]
  rfl

/-- The statuses read, one frame later. -/
theorem statuses_snoc (os : List (Obs α)) (status : CountdownStatus) (point : Option Side)
    (screen : Option (Screen α)) :
    statuses (os ++ [.frame status point screen]) = statuses os ++ [status] :=
  filterMap_snoc_some rfl

/-- A game later than all that were read has no points yet. -/
theorem points_eq_zero {game : Nat} {os : List (Obs α)}
    (later : ∀ status ∈ statuses os, status.game < game) (side : Side) :
    points game side os = 0 := by
  rw [points, List.countP_eq_zero]
  intro o ho scores
  cases o with
  | connected | refused => cases scores
  | frame status point screen =>
    have hmem : status ∈ statuses os := List.mem_filterMap.mpr ⟨_, ho, rfl⟩
    have same := (of_decide_eq_true scores).1
    exact absurd same (Nat.ne_of_lt (later status hmem))

/-- The points before a connection and since. -/
theorem points_append (game : Nat) (side : Side) (before after : List (Obs α)) :
    points game side (before ++ .connected :: after) =
      points game side before + points game side after := by
  rw [points, List.countP_append, List.countP_cons]
  rfl

/-- The display is unbroken for a game that has no point before the latest connection. -/
theorem unbroken_iff {before after : List (Obs α)} (latest : .connected ∉ after) (game : Nat) :
    Unbroken game (before ++ .connected :: after) ↔ ∀ side, points game side before = 0 := by
  constructor
  · intro unbroken
    exact unbroken before after rfl
  · intro none before' after' heq side
    rcases List.append_eq_append_iff.mp heq with ⟨as, hbefore, hafter⟩ | ⟨cs, hbefore, hafter⟩
    · cases as with
      | nil =>
        rw [List.append_nil] at hbefore
        rw [hbefore]
        exact none side
      | cons o as =>
        rw [List.cons_append] at hafter
        obtain ⟨-, rfl⟩ := List.cons.inj hafter
        exact absurd (List.mem_append_right as List.mem_cons_self) latest
    · have whole := none side
      rw [hbefore, points, List.countP_append] at whole
      exact (Nat.eq_zero_of_add_eq_zero whole).1

/-- The games of the statuses read never decrease. The server's reports never do, and the display
reads some of these in order. -/
def Sorted (os : List (Obs α)) : Prop :=
  (statuses os).Pairwise fun earlier later => earlier.game ≤ later.game

/-- The statuses of a connected stretch come before that of the next frame. -/
theorem Sorted.before_frame {before after : List (Obs α)} {status : CountdownStatus}
    {point : Option Side} {screen : Option (Screen α)}
    (sorted : Sorted (before ++ .connected :: after ++ [.frame status point screen])) :
    ∀ earlier ∈ statuses after, earlier.game ≤ status.game := by
  intro earlier hmem
  rw [Sorted, statuses_snoc] at sorted
  refine (List.pairwise_append.mp sorted).2.2 earlier ?_ status (List.mem_singleton.mpr rfl)
  rw [statuses, List.filterMap_append]
  exact List.mem_append_right _ hmem

/-- The next frame is not of an earlier game than the Pong's. -/
theorem Since.reached {after : List (Obs α)} {pong : Pong α} (h : Since after pong)
    {status : CountdownStatus}
    (sorted : ∀ earlier ∈ statuses after, earlier.game ≤ status.game) :
    pong.game ≤ status.game := by
  rcases h.last with zero | ⟨earlier, hmem, same⟩
  · omega
  · exact same ▸ sorted earlier hmem

/-! ## The thread against the history -/

section Run

variable [Scalar α] {ds : List (Event α)} {os after : List (Obs α)} {pong : Pong α}
  {t t' : Option (Pong α)} {e : Event α} {o : Obs α}

/-- A new Pong has no points, and no frame has been read. -/
theorem Since.connected : Since [] (Pong.default : Pong α) where
  scores side := by cases side <;> rfl
  games _ h := nomatch h
  last := Or.inl rfl

/-- A frame leaves the Pong with the game it shows. -/
theorem Since.frame_game (h : Since after pong) {status : CountdownStatus}
    (sorted : ∀ earlier ∈ statuses after, earlier.game ≤ status.game) (player1 player2 : Int)
    (dt : α) :
    (pong.update status.game (active status) player1 player2 dt).game = status.game := by
  have reached := h.reached sorted
  rw [Pong.update_game]
  split
  · rfl
  next old =>
    simp only [Pong.Begins, not_and, ne_eq, not_not] at old
    by_cases positive : 0 < status.game
    · exact (old positive).symm
    · omega

/-- The scores an update starts from are the points of the game it shows. -/
theorem Since.frame_base (h : Since after pong) {status : CountdownStatus}
    (sorted : ∀ earlier ∈ statuses after, earlier.game ≤ status.game) (side : Side) :
    (if pong.Begins status.game then 0 else pong.score side) =
      min (points status.game side after) 255 := by
  split
  next begins =>
    have later : ∀ earlier ∈ statuses after, earlier.game < status.game := by
      intro earlier hmem
      have old := h.games earlier hmem
      have new := begins.2
      have reached := h.reached sorted
      omega
    rw [points_eq_zero later side]
    rfl
  next old =>
    have game := h.frame_game sorted 0 0 (0.0 : α)
    rw [Pong.update_game, if_neg old] at game
    rw [← game]
    exact h.scores side

/-- A frame of the game that is on, or of the next one. -/
theorem Since.frame (h : Since after pong) {status : CountdownStatus}
    (sorted : ∀ earlier ∈ statuses after, earlier.game ≤ status.game) (player1 player2 : Int)
    (dt : α) (screen : Option (Screen α)) :
    Since
      (after ++ [.frame status (pong.point status.game (active status) player1 player2 dt) screen])
      (pong.update status.game (active status) player1 player2 dt) := by
  have game := h.frame_game sorted player1 player2 dt
  refine ⟨?_, ?_, ?_⟩
  · intro side
    rw [game, Pong.update_score, h.frame_base sorted side, points_snoc, Arith.saturatingAdd]
    by_cases scored : pong.point status.game (active status) player1 player2 dt = some side
    · simp only [scored, Obs.Scores, and_self, decide_true, if_true]
      omega
    · simp [scored, Obs.Scores]
  · intro earlier hmem
    rw [statuses_snoc] at hmem
    rw [game]
    rcases List.mem_append.mp hmem with old | new
    · exact sorted earlier old
    · rw [List.mem_singleton.mp new]
  · right
    exact ⟨status, by rw [statuses_snoc]; simp, game.symm⟩

/-- The state of the thread against its history: while it is connected, its Pong is that of the
history since then. -/
def Connected (os : List (Obs α)) (t : Option (Pong α)) : Prop :=
  ∀ pong, t = some pong → ∃ before after, os = before ++ .connected :: after ∧
    .connected ∉ after ∧ Since after pong

/-- Every way the thread moves. A frame updates the Pong before it is drawn, so also one whose
drawing fails. -/
inductive Moved : Option (Pong α) → Event α → Option (Pong α) → Obs α → Prop
  | connect : Moved none (.connect true) (some Pong.default) .connected
  | refuse : Moved none (.connect false) none .refused
  | frame (pong next : Pong α) (status : CountdownStatus) (player1 player2 : Int) (dt : α)
      (point : Option Side)
      (updated : next = pong.update status.game (active status) player1 player2 dt)
      (scored : point = pong.point status.game (active status) player1 player2 dt) :
      Moved (some pong) (.frame status player1 player2 dt true) (some next)
        (.frame status point (some (draw status next)))
  | fail (pong : Pong α) (status : CountdownStatus) (player1 player2 : Int) (dt : α)
      (point : Option Side)
      (scored : point = pong.point status.game (active status) player1 player2 dt) :
      Moved (some pong) (.frame status player1 player2 dt false) none (.frame status point none)

/-- Each step is one of the moves. -/
theorem step_moved (h : step t e = some (t', o)) : Moved t e t' o := by
  cases t with
  | none =>
    cases e with
    | connect ok =>
      cases ok with
      | true => cases h; exact .connect
      | false => cases h; exact .refuse
    | frame => cases h
  | some pong =>
    cases e with
    | connect => cases h
    | frame status player1 player2 dt ok =>
      cases ok with
      | true => cases h; exact .frame _ _ _ _ _ _ _ rfl rfl
      | false => cases h; exact .fail _ _ _ _ _ _ rfl

/-- Every move keeps the Pong in line with the history since the connection. -/
theorem Connected.step (h : Connected os t) (moved : Moved t e t' o) (sorted : Sorted (os ++ [o])) :
    Connected (os ++ [o]) t' := by
  intro next hnext
  cases moved with
  | connect =>
    cases hnext
    exact ⟨os, [], rfl, by simp, Since.connected⟩
  | refuse => cases hnext
  | fail => cases hnext
  | frame pong next' status player1 player2 dt point updated scored =>
    cases hnext
    obtain ⟨before, after, rfl, latest, since⟩ := h pong rfl
    refine ⟨before, after ++ [.frame status point (some (draw status next))], by simp,
      by simpa using latest, ?_⟩
    rw [updated, scored]
    exact since.frame sorted.before_frame player1 player2 dt _

/-- The Pong of a run against its history, for a display that reads the games in their order. -/
theorem connected_of_runs (runs : Runs step none ds os t) (sorted : Sorted os) :
    Connected os t := by
  induction runs with
  | nil =>
    intro _ h
    cases h
  | snoc before last ih =>
    refine (ih ?_).step (step_moved last) sorted
    rw [Sorted, statuses, List.filterMap_append] at sorted
    exact (List.pairwise_append.mp sorted).1

/-- **When the display shows the points of the game.** For a thread that reads the reports of a run
of the server, the scores of a successful draw in any state but idle are the points scored in the
game it shows, exactly when the display was not reconnected after a point of that game and no side
has more points than a score can hold. Of the server only the order of its games is used, and of the
arithmetic nothing: the ball may go where it likes. -/
theorem drawn_scores_iff {parsed : Option UInt64} {clock : Nat} {seed : UInt64}
    {es : List System.Event} {reported : List System.Obs} {s : System}
    (served : Runs System.step (System.start parsed clock seed) es reported s)
    {status : CountdownStatus} {point : Option Side} {screen : Screen α}
    (runs : Runs step none ds (os ++ [.frame status point (some screen)]) t)
    (reads : (statuses (os ++ [.frame status point (some screen)])).Sublist
      (System.reports reported))
    (shown : status.state ≠ .idle) :
    screen.scores = some
        (points status.game .left (os ++ [.frame status point (some screen)]),
          points status.game .right (os ++ [.frame status point (some screen)])) ↔
      Unbroken status.game os ∧
        ∀ side, points status.game side (os ++ [.frame status point (some screen)]) ≤ 255 := by
  have sorted : Sorted (os ++ [.frame status point (some screen)]) :=
    (System.reports_sorted served).sublist reads
  have earlier : Sorted os := by
    rw [Sorted, statuses_snoc] at sorted
    exact (List.pairwise_append.mp sorted).1
  obtain ⟨ds₁, e, ds₂, u, u', rfl, first, last, -⟩ := runs.at_output rfl
  cases step_moved last with
  | frame pong next status player1 player2 dt point updated scored =>
    obtain ⟨before, after, rfl, latest, since⟩ := connected_of_runs first earlier pong rfl
    have game : next.game = status.game := by
      rw [updated]
      exact since.frame_game sorted.before_frame player1 player2 dt
    have since' : Since (after ++ [.frame status point (some (draw status next))]) next := by
      rw [updated, scored]
      exact since.frame sorted.before_frame player1 player2 dt _
    have left : next.leftScore = min (points status.game .left _) 255 := game ▸ since'.scores .left
    have right : next.rightScore = min (points status.game .right _) 255 :=
      game ▸ since'.scores .right
    rw [draw_scores shown, unbroken_iff latest, List.append_assoc, List.cons_append,
      Option.some.injEq, Prod.mk.injEq, points_append, points_append, left, right]
    constructor
    · rintro ⟨hleft, hright⟩
      refine ⟨?_, ?_⟩
      · intro side
        cases side <;> omega
      · intro side
        rw [points_append]
        cases side <;> omega
    · rintro ⟨unbroken, few⟩
      have unbrokenLeft := unbroken .left
      have unbrokenRight := unbroken .right
      have fewLeft := few .left
      have fewRight := few .right
      rw [points_append] at fewLeft fewRight
      exact ⟨by omega, by omega⟩

end Run

/-! ## A rally with and without a reconnect -/

/-- The status and the scores of a history that ends with a successful draw. -/
def lastDrawn (os : List (Obs α)) : Option (CountdownStatus × Option (Nat × Nat)) :=
  match os.getLast? with
  | some (.frame status _ (some screen)) => some (status, screen.scores)
  | _ => none

/-- Such a history, cut before its last frame. -/
theorem lastDrawn_eq_some {os : List (Obs α)} {status : CountdownStatus}
    {scores : Option (Nat × Nat)} (h : lastDrawn os = some (status, scores)) :
    ∃ before point screen, os = before ++ [.frame status point (some screen)] ∧
      screen.scores = scores := by
  unfold lastDrawn at h
  split at h
  next status' point screen hlast =>
    cases h
    obtain ⟨before, rfl⟩ := List.getLast?_eq_some_iff.mp hlast
    exact ⟨before, point, screen, rfl, rfl⟩
  · cases h

/-- Game 1 as the server reports it in its first second. -/
def firstSecond : CountdownStatus := ⟨.running, 60, 60, 1⟩

/-- A long frame of game 1 with both paddles at the top, out of the way of the ball. -/
def rallyFrame (ok : Bool) : Event ℚ := .frame firstSecond 0 255 0.2 ok

/-- The server, started once and read ten times. -/
def tenReads : List System.Event := .startGame 0 :: List.replicate 10 .currentCountdown

/-- What the display has to read from. -/
theorem ten_reads :
    ∃ reported s, Runs System.step (System.start (some 60) 0 1) tenReads reported s ∧
      System.reports reported = List.replicate 10 firstSecond := by
  have read : (run System.step (System.start (some 60) 0 1) tenReads).map
      (fun p => System.reports p.2) = some (List.replicate 10 firstSecond) := by decide +kernel
  obtain ⟨reported, s, runs, hreports⟩ := runs_of_run read
  exact ⟨reported, s, runs, hreports⟩

/-- Ten frames, in the ninth of which the left player scores. -/
def rally : List (Event ℚ) := .connect true :: List.replicate 10 (rallyFrame true)

/-- The same, but the ninth frame fails and the display is reconnected. -/
def brokenRally : List (Event ℚ) :=
  .connect true :: (List.replicate 8 (rallyFrame true) ++
    [rallyFrame false, .connect true, rallyFrame true])

/-- Without the reconnect the point is shown. -/
theorem drawn_scores_rally :
    ∃ os point screen t, Runs step none rally (os ++ [.frame firstSecond point (some screen)]) t ∧
      screen.scores = some (1, 0) ∧ Unbroken 1 os := by
  have played : (run step none rally).map
      (fun p => (lastDrawn p.2, statuses p.2, points 1 .left p.2, points 1 .right p.2)) =
      some (some (firstSecond, some (1, 0)), List.replicate 10 firstSecond, 1, 0) := by
    decide +kernel
  obtain ⟨whole, t, runs, heq⟩ := runs_of_run played
  obtain ⟨hlast, hstatuses, hleft, hright⟩ := by simpa only [Prod.mk.injEq] using heq
  obtain ⟨os, point, screen, rfl, hscores⟩ := lastDrawn_eq_some hlast
  obtain ⟨reported, s, served, hreports⟩ := ten_reads
  have reads : (statuses (os ++ [.frame firstSecond point (some screen)])).Sublist
      (System.reports reported) := by
    rw [hreports, ← hstatuses]
  have exact' := drawn_scores_iff served runs reads (by decide)
  refine ⟨os, point, screen, t, runs, hscores, (exact'.mp ?_).1⟩
  rw [hscores]
  exact congrArg some (Prod.ext hleft.symm hright.symm)

/-- After the reconnect the display shows no points, where one was scored. -/
theorem reconnect_loses_score :
    ∃ reported s os point screen t,
      Runs System.step (System.start (some 60) 0 1) tenReads reported s ∧
      Runs step none brokenRally (os ++ [.frame firstSecond point (some screen)]) t ∧
      (statuses (os ++ [.frame firstSecond point (some screen)])).Sublist
        (System.reports reported) ∧
      points 1 .left (os ++ [.frame firstSecond point (some screen)]) = 1 ∧
      screen.scores = some (0, 0) := by
  have played : (run step none brokenRally).map
      (fun p => (lastDrawn p.2, statuses p.2, points 1 .left p.2)) =
      some (some (firstSecond, some (0, 0)), List.replicate 10 firstSecond, 1) := by
    decide +kernel
  obtain ⟨whole, t, runs, heq⟩ := runs_of_run played
  obtain ⟨hlast, hstatuses, hleft⟩ := by simpa only [Prod.mk.injEq] using heq
  obtain ⟨os, point, screen, rfl, hscores⟩ := lastDrawn_eq_some hlast
  obtain ⟨reported, s, served, hreports⟩ := ten_reads
  exact ⟨reported, s, os, point, screen, t, served, runs,
    by rw [hreports, ← hstatuses], hleft, hscores⟩

end Motorball.Server.Oled
