import Motorball.Library.Transducer
import Motorball.Server.Clock

/-!
# Holding a button to start a game

`HoldToStart` of `piwebserver/src/main.rs`: the gamepad reader samples a button and starts a game
when the detector says so. The detector keeps two things, the instant of the first sample of the
present hold and whether it has fired in it.

`held` says what a hold leaves in the two fields. From it `fires_once_per_hold` gives the law of a
whole history: the detector fires at the first sample of a hold that is five seconds after the
hold's first, and at no other.
-/

namespace Motorball.Server

open Transducer

def startHoldSeconds : Nat := 5

/-- The detector of a long hold: since when the button is down, and whether the hold has fired. -/
structure HoldToStart where
  pressedSince : Option Nat
  triggered : Bool
  deriving DecidableEq

namespace HoldToStart

/-- `HoldToStart::default`, which is also what a release leads back to. -/
def default : HoldToStart := ⟨none, false⟩

/-- `HoldToStart::update`, one sample. The first pressed sample of a hold sets the instant that the
five seconds count from; the difference saturates, so a clock that goes back fires nothing. -/
def update (hold : HoldToStart) (pressed : Bool) (now : Nat) : HoldToStart × Bool :=
  if pressed = false then (⟨none, false⟩, false)
  else
    let pressedSince := hold.pressedSince.getD now
    let hold := { hold with pressedSince := some pressedSince }
    if hold.triggered = false ∧ fromSecs startHoldSeconds ≤ now - pressedSince then
      ({ hold with triggered := true }, true)
    else (hold, false)

/-- The detector over the samples it is fed, as a step that never refuses: any sequence of samples
is a run. -/
def step : Step HoldToStart (Bool × Nat) Bool := fun hold sample =>
  some (hold.update sample.1 sample.2)

/-! ## One hold -/

variable {hold : HoldToStart} {samples : List (Bool × Nat)} {outs : List Bool} {now : Nat}

/-- Five seconds or more between two instants. A clock that goes back does not make a hold
longer. -/
def Long (since now : Nat) : Prop := since + fromSecs startHoldSeconds ≤ now

instance (since now : Nat) : Decidable (Long since now) :=
  inferInstanceAs (Decidable (since + fromSecs startHoldSeconds ≤ now))

/-- The saturating difference of the source is long exactly when the sum is past. -/
theorem long_iff {since now : Nat} : fromSecs startHoldSeconds ≤ now - since ↔ Long since now := by
  simp only [Long, fromSecs, startHoldSeconds]
  omega

/-- A pressed sample, in the terms that the rest of this module uses. -/
theorem update_pressed (hold : HoldToStart) (now : Nat) :
    hold.update true now =
      (⟨some (hold.pressedSince.getD now),
          hold.triggered || decide (Long (hold.pressedSince.getD now) now)⟩,
        !hold.triggered && decide (Long (hold.pressedSince.getD now) now)) := by
  simp only [update, long_iff]
  cases fired : hold.triggered with
  | true => simp
  | false =>
    by_cases long : Long (hold.pressedSince.getD now) now
    · simp [long]
    · simp [long]

/-- What the detector has kept of a hold, from the instants of its samples: the first of them, and
whether any has been long. -/
def held : List Nat → HoldToStart
  | [] => default
  | since :: rest => ⟨some since, (since :: rest).any fun now => Long since now⟩

/-- Whether the detector fires at a sample that continues a hold: it is long, and none before it
was. -/
def Fires (before : List Nat) (now : Nat) : Prop :=
  Long (before.headD now) now ∧ ∀ earlier ∈ before, ¬Long (before.headD now) earlier

instance (before : List Nat) (now : Nat) : Decidable (Fires before now) :=
  inferInstanceAs (Decidable (Long (before.headD now) now ∧
    ∀ earlier ∈ before, ¬Long (before.headD now) earlier))

/-- The instant that counts is the first one, which is the present sample's if there is none
before. -/
theorem held_since (before : List Nat) (now : Nat) :
    (held before).pressedSince.getD now = before.headD now := by
  cases before <;> rfl

/-- The detector has fired when some sample before was long. -/
theorem held_triggered (before : List Nat) (now : Nat) :
    (held before).triggered = before.any fun earlier => Long (before.headD now) earlier := by
  cases before <;> rfl

/-- One more sample of a hold. This is the whole of what the detector does within one. -/
theorem held_update (before : List Nat) (now : Nat) :
    (held before).update true now = (held (before ++ [now]), decide (Fires before now)) := by
  rw [update_pressed, held_since, held_triggered before now, Prod.mk.injEq]
  constructor
  · cases before with
    | nil => simp [held]
    | cons since rest => simp [held, Bool.or_assoc]
  · rw [Bool.eq_iff_iff]
    simp [Fires, and_comm]

/-- The detector over the samples of one hold. -/
theorem runs_held (times : List Nat) :
    ∃ outs, Runs step default (times.map fun now => (true, now)) outs (held times) := by
  induction times using List.reverseRecOn with
  | nil => exact ⟨[], .nil⟩
  | append_singleton times now ih =>
    obtain ⟨outs, runs⟩ := ih
    rw [List.map_append]
    exact ⟨_, runs.snoc (congrArg some (held_update times now))⟩

/-! ## A history of holds -/

/-- Sample `i` is pressed, and the hold it belongs to began with sample `j`: all between are
pressed, and the one before `j` is not. -/
structure HeldFrom (samples : List (Bool × Nat)) (j i : Nat) : Prop where
  le : j ≤ i
  pressed : ∀ k, j ≤ k → k ≤ i → ∃ now, samples[k]? = some (true, now)
  begins : ∀ k, k + 1 = j → ∃ now, samples[k]? = some (false, now)

/-- Every pressed sample belongs to a hold, which is found by going back to the last release. -/
theorem exists_heldFrom :
    ∀ {i : Nat}, samples[i]? = some (true, now) → ∃ j, HeldFrom samples j i := by
  intro i
  induction i generalizing now with
  | zero =>
    intro h
    refine ⟨0, Nat.le_refl 0, ?_, ?_⟩
    · intro k _ hk
      obtain rfl : k = 0 := by omega
      exact ⟨now, h⟩
    · intro k hk
      cases hk
  | succ i ih =>
    intro h
    obtain ⟨⟨pressed, before⟩, hbefore⟩ : ∃ sample, samples[i]? = some sample := by
      have hlt := (List.getElem?_eq_some_iff.mp h).1
      exact ⟨samples[i], List.getElem?_eq_getElem (by omega)⟩
    cases pressed with
    | false =>
      refine ⟨i + 1, Nat.le_refl _, ?_, ?_⟩
      · intro k hk hk'
        obtain rfl : k = i + 1 := by omega
        exact ⟨now, h⟩
      · intro k hk
        obtain rfl : k = i := by omega
        exact ⟨before, hbefore⟩
    | true =>
      obtain ⟨j, hj⟩ := ih hbefore
      refine ⟨j, Nat.le_succ_of_le hj.le, ?_, hj.begins⟩
      intro k hk hk'
      rcases Nat.le_or_eq_of_le_succ hk' with hk' | rfl
      · exact hj.pressed k hk hk'
      · exact ⟨now, h⟩

/-- A sample belongs to one hold: a later beginning would have a release before it, within the
earlier hold. -/
theorem HeldFrom.unique {i j j' : Nat} (h : HeldFrom samples j i) (h' : HeldFrom samples j' i) :
    j = j' := by
  have excluded : ∀ {j j'}, HeldFrom samples j i → HeldFrom samples j' i → ¬j < j' := by
    intro j j' h h' hlt
    obtain ⟨now, released⟩ := h'.begins (j' - 1) (by omega)
    obtain ⟨now', pressed⟩ := h.pressed (j' - 1) (by omega) (Nat.le_trans (Nat.sub_le _ _) h'.le)
    cases released.symm.trans pressed
  exact Nat.le_antisymm (Nat.not_lt.mp (excluded h' h)) (Nat.not_lt.mp (excluded h h'))

/-- A history around a sample of a hold: what came before the hold, the hold up to the sample, the
sample, and the rest. -/
structure Around (samples front : List (Bool × Nat)) (times : List Nat) (now : Nat)
    (rest : List (Bool × Nat)) : Prop where
  whole : samples = front ++ times.map (Prod.mk true) ++ (true, now) :: rest
  fresh : front = [] ∨ ∃ earlier released, front = earlier ++ [(false, released)]

/-- A sample of a hold, with the history cut there. -/
theorem HeldFrom.around {i j : Nat} (h : HeldFrom samples j i) :
    ∃ front times now rest, Around samples front times now rest ∧ front.length = j ∧
      j + times.length = i := by
  obtain ⟨now, hnow⟩ := h.pressed i h.le (Nat.le_refl i)
  obtain ⟨hlt, hget⟩ := List.getElem?_eq_some_iff.mp hnow
  have hle := h.le
  have pressed : ((samples.take i).drop j).map (Prod.mk true ∘ Prod.snd) =
      (samples.take i).drop j := by
    refine (List.map_congr_left ?_).trans (List.map_id _)
    intro sample hmem
    obtain ⟨m, hm⟩ := List.mem_iff_getElem?.mp hmem
    rw [List.getElem?_drop, List.getElem?_take] at hm
    split at hm
    next before =>
      obtain ⟨t, ht⟩ := h.pressed (j + m) (Nat.le_add_right _ _) (Nat.le_of_lt before)
      cases ht.symm.trans hm
      rfl
    · cases hm
  refine ⟨samples.take j, ((samples.take i).drop j).map Prod.snd, now, samples.drop (i + 1),
    ⟨?_, ?_⟩, ?_, ?_⟩
  · have front : samples.take j = (samples.take i).take j := by
      rw [List.take_take, Nat.min_eq_left hle]
    rw [List.map_map, pressed, front, List.take_append_drop, ← hget,
      ← List.drop_eq_getElem_cons hlt, List.take_append_drop]
  · cases j with
    | zero => exact Or.inl rfl
    | succ j =>
      obtain ⟨released, hreleased⟩ := h.begins j rfl
      exact Or.inr ⟨samples.take j, released, by rw [List.take_add_one, hreleased]; rfl⟩
  · rw [List.length_take]
    omega
  · rw [List.length_map, List.length_drop, List.length_take]
    omega

variable {front rest : List (Bool × Nat)} {times : List Nat}

/-- What the detector answers to a sample of a hold, wherever in the history the hold is: it enters
every hold afresh. -/
theorem Around.output (around : Around samples front times now rest)
    (runs : Runs step default samples outs hold) :
    outs[front.length + times.length]? = some (decide (Fires times now)) := by
  obtain ⟨rfl, fresh⟩ := around
  obtain ⟨s, before, after, rfl, first, second⟩ := runs.split
  obtain ⟨s', ps, qs, rfl, reached, holding⟩ := first.split
  have reset : s' = default := by
    rcases fresh with rfl | ⟨earlier, released, rfl⟩
    · exact reached.of_nil.2
    · obtain ⟨u, ps', o, rfl, -, last⟩ := reached.last_step
      cases last
      rfl
  obtain ⟨qs', holding'⟩ := runs_held times
  rw [reset] at holding
  obtain ⟨rfl, rfl⟩ := holding.deterministic holding'
  obtain ⟨t, o, os, rfl, moved, -⟩ := second.first_step
  rw [step, held_update] at moved
  cases moved
  have hlen : (ps ++ qs).length = front.length + times.length := by
    rw [first.length_eq, List.length_append, List.length_map]
  rw [← hlen, List.getElem?_append_right (Nat.le_refl _), Nat.sub_self]
  rfl

/-- The samples of the hold, in the history they are cut from. -/
theorem Around.sample (around : Around samples front times now rest) {m : Nat} :
    m < times.length → samples[front.length + m]? = times[m]?.map (Prod.mk true) := by
  intro hlt
  rw [around.whole, List.append_assoc, List.getElem?_append_right (Nat.le_add_right _ _),
    Nat.add_sub_cancel_left, List.getElem?_append_left (by rwa [List.length_map]),
    List.getElem?_map]

/-- Its first one. -/
theorem Around.first (around : Around samples front times now rest) :
    samples[front.length]? = some (true, times.headD now) := by
  rw [around.whole, List.append_assoc, List.getElem?_append_right (Nat.le_refl _), Nat.sub_self]
  cases times <;> rfl

/-- The present one. -/
theorem Around.last (around : Around samples front times now rest) :
    samples[front.length + times.length]? = some (true, now) := by
  rw [around.whole, List.getElem?_append_right (by simp)]
  simp

/-- The detector fires at pressed samples only, since a release answers nothing. -/
theorem pressed_of_fired (runs : Runs step default samples outs hold) {i : Nat}
    (fired : outs[i]? = some true) : ∃ now, samples[i]? = some (true, now) := by
  obtain ⟨hlt, hget⟩ := List.getElem?_eq_some_iff.mp fired
  have split : outs = outs.take i ++ true :: outs.drop (i + 1) := by
    rw [← hget, ← List.drop_eq_getElem_cons hlt, List.take_append_drop]
  obtain ⟨front, ⟨pressed, now⟩, rest, s, s', rfl, before, moved, -⟩ := runs.at_output split
  have hlen := before.length_eq
  rw [List.length_take, Nat.min_eq_left (Nat.le_of_lt hlt)] at hlen
  rw [hlen, List.getElem?_append_right (Nat.le_refl _), Nat.sub_self]
  cases pressed with
  | false => cases moved
  | true => exact ⟨now, rfl⟩

/-- The detector fires at a sample exactly when it is the first long one of its hold. The samples
need no order in time; the instants are compared as they come. -/
theorem fires_iff (runs : Runs step default samples outs hold) (i : Nat) :
    outs[i]? = some true ↔ ∃ j since now, HeldFrom samples j i ∧
      samples[j]? = some (true, since) ∧ samples[i]? = some (true, now) ∧ Long since now ∧
      ∀ k earlier, j ≤ k → k < i → samples[k]? = some (true, earlier) → ¬Long since earlier := by
  constructor
  · intro fired
    obtain ⟨now, hnow⟩ := pressed_of_fired runs fired
    obtain ⟨j, hj⟩ := exists_heldFrom hnow
    obtain ⟨front, times, now, rest, around, rfl, rfl⟩ := hj.around
    rw [around.output runs, Option.some.injEq, decide_eq_true_iff] at fired
    refine ⟨front.length, times.headD now, now, hj, around.first, around.last, fired.1, ?_⟩
    intro k earlier hk hk' hsample
    obtain ⟨m, rfl⟩ := Nat.exists_eq_add_of_le hk
    rw [around.sample (by omega), Option.map_eq_some_iff] at hsample
    obtain ⟨_, hmem, heq⟩ := hsample
    cases heq
    exact fired.2 earlier (List.mem_of_getElem? hmem)
  · rintro ⟨j, since, now, hj, hsince, hnow, long, first⟩
    obtain ⟨front, times, now', rest, around, rfl, rfl⟩ := hj.around
    cases hsince.symm.trans around.first
    cases hnow.symm.trans around.last
    rw [around.output runs, Option.some.injEq, decide_eq_true_iff]
    refine ⟨long, ?_⟩
    intro earlier hmem
    obtain ⟨m, hm⟩ := List.mem_iff_getElem?.mp hmem
    have hlt := (List.getElem?_eq_some_iff.mp hm).1
    apply first (front.length + m) earlier (Nat.le_add_right _ _) (by omega)
    rw [around.sample hlt, hm]
    rfl

/-- **The detector fires once for each hold.** It fires at the first sample that is five seconds
past the first of its hold, and at no other; between two samples at which it fires there is a
release; and a release leaves nothing behind, so two short holds never add up. This is for any
samples, however far apart and in whatever order of time. -/
theorem fires_once_per_hold (runs : Runs step default samples outs hold) :
    (∀ i, outs[i]? = some true ↔ ∃ j since now, HeldFrom samples j i ∧
      samples[j]? = some (true, since) ∧ samples[i]? = some (true, now) ∧ Long since now ∧
      ∀ k earlier, j ≤ k → k < i → samples[k]? = some (true, earlier) → ¬Long since earlier) ∧
    (∀ i i' : Nat, outs[i]? = some true → outs[i']? = some true → i < i' →
      ∃ k released, i < k ∧ k < i' ∧ samples[k]? = some (false, released)) ∧
    ∀ front released, samples = front ++ [(false, released)] → hold = default := by
  refine ⟨fires_iff runs, ?_, ?_⟩
  · intro i i' fired fired' hlt
    obtain ⟨j, since, now, hj, hsince, hnow, long, -⟩ := (fires_iff runs i).mp fired
    obtain ⟨j', since', now', hj', hsince', -, -, first⟩ := (fires_iff runs i').mp fired'
    rcases Nat.lt_or_ge i j' with new | same
    · obtain ⟨released, hreleased⟩ := hj'.begins (j' - 1) (by omega)
      have hne : i ≠ j' - 1 := by
        rintro rfl
        cases hreleased.symm.trans hnow
      have := hj'.le
      exact ⟨j' - 1, released, by omega, by omega, hreleased⟩
    · have hj'' : HeldFrom samples j' i :=
        ⟨same, fun k hk hk' => hj'.pressed k hk (by omega), hj'.begins⟩
      obtain rfl := hj.unique hj''
      cases hsince.symm.trans hsince'
      exact absurd long (first i now same hlt hnow)
  · rintro front released rfl
    obtain ⟨s, os, o, rfl, -, last⟩ := runs.last_step
    cases last
    rfl

/-- A hold of just under five seconds, and one of eleven. -/
def presses : List (Bool × Nat) :=
  [(true, 0), (true, fromMillis 4999), (false, fromSecs 5), (true, fromSecs 6),
    (true, fromSecs 10), (true, fromSecs 11), (true, fromSecs 17), (false, fromSecs 18)]

/-- The long hold fires at its first sample past five seconds, although the short one before it
would have made up for the rest. -/
theorem fires_once_per_hold_presses :
    ∃ hold, Runs step default presses [false, false, false, false, false, true, false, false] hold ∧
      (∃ j, HeldFrom presses j 5) ∧ hold = default := by
  have runs : Runs step default presses [false, false, false, false, false, true, false, false]
      default := run_eq_some.mp (by decide)
  have law := fires_once_per_hold runs
  obtain ⟨j, since, now, held, -⟩ := (law.1 5).mp rfl
  exact ⟨default, runs, ⟨j, held⟩, law.2.2 (presses.take 7) (fromSecs 18) rfl⟩

end HoldToStart

end Motorball.Server
