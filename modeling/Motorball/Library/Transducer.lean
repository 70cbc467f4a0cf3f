import Mathlib.Data.List.Basic
import Mathlib.Data.List.Forall2
import Mathlib.Data.List.Induction
import Mathlib.Tactic.Common

/-!
# Partial transducers and their runs

A transducer reads one input at a time and either refuses it or moves on and answers with one
output. Refusal stands for whatever ends the run in the modelled program: an input that is not
enabled in the present state, or a panic.

A run (`Runs`) grows at its END. An invariant of a history relates the state to everything read
and answered so far, and the step that extends a history appends to it, so induction on a run gives
each history invariant its step case directly. `run` computes the same thing from the front, and
`run_eq_some` says that the two agree.

The rules:

- `Runs.invariant`: what holds at the start and is kept by every step holds at the end;
- `EachStep.invariant`: the same, where the steps are known to meet a condition;
- `eachStep_congr`: two conditions that agree inside an invariant are met by the same runs;
- `runs_of_run`: a concrete run is had by computing it;
- `Runs.simulate`: a step-by-step simulation carries runs over with the same outputs;
- `exists_runs`: a machine that never refuses inside an invariant runs on every input;
- `Runs.part`: the steps of one part of a machine are a run of that part;
- `Runs.noninterference`: a view that only some inputs move is decided by those;
- `Runs.relate`: two runs that are fed related inputs answer related outputs;
- `Runs.at_output`: an output of a run was answered by one of its steps;
- `justified_snoc`: what each output owes to the outputs before it is proved where it is answered.
-/

namespace Transducer

variable {σ τ ι ο : Type*}

/-- One step of a partial transducer: the next state and the output, or a refusal where the step
cannot be taken. -/
abbrev Step (σ ι ο : Type*) := σ → ι → Option (σ × ο)

/-- `Runs step s₀ is os s`: from `s₀` the machine reads `is`, answers `os` and stands at `s`. Runs
grow at the end, as histories do, so an invariant may speak of all that has been read and
answered. -/
inductive Runs (step : Step σ ι ο) (s₀ : σ) : List ι → List ο → σ → Prop
  | nil : Runs step s₀ [] [] s₀
  | snoc {is : List ι} {os : List ο} {s s' : σ} {i : ι} {o : ο}
      (before : Runs step s₀ is os s) (last : step s i = some (s', o)) :
      Runs step s₀ (is ++ [i]) (os ++ [o]) s'

/-- The run, computed from the front, for concrete inputs. -/
def run (step : Step σ ι ο) : σ → List ι → Option (σ × List ο)
  | s, [] => some (s, [])
  | s, i :: is =>
    match step s i with
    | none => none
    | some (s', o) => (run step s' is).map fun p => (p.1, o :: p.2)

variable {step : Step σ ι ο} {s₀ s t : σ} {is js : List ι} {os ps : List ο}

/-! ## Composition -/

theorem Runs.single {i : ι} {o : ο} (h : step s i = some (t, o)) : Runs step s [i] [o] t :=
  Runs.snoc .nil h

/-- Two runs in a row make one. -/
theorem Runs.trans (h : Runs step s₀ is os s) (h' : Runs step s js ps t) :
    Runs step s₀ (is ++ js) (os ++ ps) t := by
  induction h' with
  | nil => simpa only [List.append_nil] using h
  | snoc _ last ih =>
    rw [← List.append_assoc, ← List.append_assoc]
    exact ih.snoc last

theorem Runs.cons {i : ι} {o : ο} (h : step s₀ i = some (s, o)) (rest : Runs step s is os t) :
    Runs step s₀ (i :: is) (o :: os) t :=
  (Runs.single h).trans rest

/-- A run over a concatenation passes through a state between the two parts. -/
theorem Runs.split (h : Runs step s₀ (is ++ js) os t) :
    ∃ s os₁ os₂, os = os₁ ++ os₂ ∧ Runs step s₀ is os₁ s ∧ Runs step s js os₂ t := by
  induction js using List.reverseRecOn generalizing os t with
  | nil => exact ⟨t, os, [], by rw [List.append_nil], by rwa [List.append_nil] at h, .nil⟩
  | append_singleton js j ih =>
    rw [← List.append_assoc] at h
    generalize hall : is ++ js ++ [j] = all at h
    cases h with
    | nil => exact absurd hall (by simp only [List.append_eq_nil_iff]; simp)
    | @snoc is' os' s' _ i o before last =>
      obtain ⟨rfl, hj⟩ := List.append_inj' hall rfl
      cases hj
      obtain ⟨m, os₁, os₂, rfl, first, second⟩ := ih before
      exact ⟨m, os₁, os₂ ++ [o], by rw [List.append_assoc], first, second.snoc last⟩

/-- The last step of a run over a nonempty input. -/
theorem Runs.last_step {i : ι} (h : Runs step s₀ (is ++ [i]) os t) :
    ∃ s os' o, os = os' ++ [o] ∧ Runs step s₀ is os' s ∧ step s i = some (t, o) := by
  generalize hall : is ++ [i] = all at h
  cases h with
  | nil => exact absurd hall (by simp)
  | @snoc is' os' s' _ i' o before last =>
    obtain ⟨rfl, hi⟩ := List.append_inj' hall rfl
    cases hi
    exact ⟨s', os', o, rfl, before, last⟩

/-- A run over no input goes nowhere. -/
theorem Runs.of_nil (h : Runs step s₀ [] os t) : os = [] ∧ t = s₀ := by
  generalize hnil : ([] : List ι) = none' at h
  cases h with
  | nil => exact ⟨rfl, rfl⟩
  | snoc _ _ => exact absurd hnil (by simp)

/-- The first step of a run over a nonempty input. -/
theorem Runs.first_step {i : ι} (h : Runs step s₀ (i :: is) os t) :
    ∃ s o os', os = o :: os' ∧ step s₀ i = some (s, o) ∧ Runs step s is os' t := by
  have hcons : Runs step s₀ ([] ++ [i] ++ is) os t := h
  obtain ⟨s, os₁, os₂, rfl, first, rest⟩ := hcons.split
  obtain ⟨m, os', o, rfl, before, last⟩ := first.last_step
  obtain ⟨rfl, rfl⟩ := before.of_nil
  exact ⟨s, o, os₂, rfl, last, rest⟩

/-- There is one output for each input. -/
theorem Runs.length_eq (h : Runs step s₀ is os s) : os.length = is.length := by
  induction h with
  | nil => rfl
  | snoc _ _ ih => simp only [List.length_append, List.length_singleton, ih]

/-- The computed run and the run relation agree. -/
theorem run_eq_some : run step s is = some (t, os) ↔ Runs step s is os t := by
  induction is generalizing s os with
  | nil =>
    constructor
    · intro h
      cases h
      exact .nil
    · intro h
      obtain ⟨rfl, rfl⟩ := h.of_nil
      rfl
  | cons i is ih =>
    constructor
    · intro h
      unfold run at h
      cases hs : step s i with
      | none => rw [hs] at h; cases h
      | some p =>
        obtain ⟨s', o⟩ := p
        rw [hs] at h
        obtain ⟨q, hq, heq⟩ := Option.map_eq_some_iff.mp h
        cases heq
        exact Runs.cons hs (ih.mp hq)
    · intro h
      obtain ⟨s', o, os', rfl, hs, rest⟩ := h.first_step
      unfold run
      rw [hs]
      simp only [ih.mpr rest, Option.map_some]

/-- A run can be had by computing it, with whatever is computed of it. -/
theorem runs_of_run {γ : Type*} {f : σ × List ο → γ} {c : γ}
    (computed : (run step s is).map f = some c) : ∃ os t, Runs step s is os t ∧ f (t, os) = c := by
  obtain ⟨⟨t, os⟩, ran, hc⟩ := Option.map_eq_some_iff.mp computed
  exact ⟨os, t, run_eq_some.mp ran, hc⟩

/-- The machine is deterministic: from one state, the same inputs come to the same outputs and the
same state. -/
theorem Runs.deterministic (h : Runs step s₀ is os s) (h' : Runs step s₀ is ps t) :
    os = ps ∧ s = t := by
  have hboth := (run_eq_some.mpr h).symm.trans (run_eq_some.mpr h')
  cases hboth
  exact ⟨rfl, rfl⟩

/-! ## Invariants -/

/-- What holds at the start and is kept by every step holds wherever a run leads. -/
theorem Runs.invariant {P : σ → Prop} (h : Runs step s₀ is os s) (start : P s₀)
    (keeps : ∀ s i s' o, P s → step s i = some (s', o) → P s') : P s := by
  induction h with
  | nil => exact start
  | snoc _ last ih => exact keeps _ _ _ _ ih last

/-- Every step a run over `is` takes is taken where `Q` holds of the state before it and the input.
Conditions on an environment are stated so. -/
def EachStep (step : Step σ ι ο) (s₀ : σ) (is : List ι) (Q : σ → ι → Prop) : Prop :=
  ∀ before i after os s, before ++ i :: after = is → Runs step s₀ before os s → Q s i

/-- Every state a run over `is` visits satisfies `P`. -/
def Always (step : Step σ ι ο) (s₀ : σ) (is : List ι) (P : σ → Prop) : Prop :=
  ∀ before after os s, before ++ after = is → Runs step s₀ before os s → P s

/-- A condition on the steps of a run holds of those of its beginning. -/
theorem EachStep.of_append {Q : σ → ι → Prop} (h : EachStep step s₀ (is ++ js) Q) :
    EachStep step s₀ is Q :=
  fun before i after os s heq runs =>
    h before i (after ++ js) os s (by rw [← heq, List.append_assoc, List.cons_append]) runs

/-- And of its last step. -/
theorem EachStep.last {Q : σ → ι → Prop} {i : ι} (h : EachStep step s₀ (is ++ [i]) Q)
    (runs : Runs step s₀ is os s) : Q s i :=
  h is i [] os s rfl runs

/-- The invariant rule for runs whose steps all meet `Q`. -/
theorem EachStep.invariant {P : σ → Prop} {Q : σ → ι → Prop} (meets : EachStep step s₀ is Q)
    (h : Runs step s₀ is os s) (start : P s₀)
    (keeps : ∀ s i s' o, P s → Q s i → step s i = some (s', o) → P s') : P s := by
  induction h with
  | nil => exact start
  | snoc before last ih =>
    exact keeps _ _ _ _ (ih meets.of_append) (meets.last before) last

/-- Two conditions on the steps of a run agree if they agree inside an invariant that a step that
meets the first one keeps. -/
theorem eachStep_congr {P : σ → Prop} {Q R : σ → ι → Prop} (start : P s₀)
    (agree : ∀ s i, P s → (Q s i ↔ R s i))
    (keeps : ∀ s i s' o, P s → Q s i → step s i = some (s', o) → P s') :
    EachStep step s₀ is Q ↔ EachStep step s₀ is R := by
  constructor
  · intro meets before i after os s heq runs
    have kept : P s := (EachStep.of_append (heq ▸ meets)).invariant runs start keeps
    exact (agree s i kept).mp (meets before i after os s heq runs)
  · intro meets before i after os s heq runs
    have kept : P s := (EachStep.of_append (heq ▸ meets)).invariant runs start
      fun s i s' o h hR moved => keeps s i s' o h ((agree s i h).mpr hR) moved
    exact (agree s i kept).mpr (meets before i after os s heq runs)

/-- In a run over the whole input, the step after a prefix is taken from the state the prefix leads
to. -/
theorem Runs.step_at {before after : List ι} {i : ι} {ps : List ο}
    (h : Runs step s₀ (before ++ i :: after) os t) (first : Runs step s₀ before ps s) :
    ∃ s' o, step s i = some (s', o) ∧ Runs step s₀ (before ++ [i]) (ps ++ [o]) s' := by
  obtain ⟨u, os₁, os₂, -, first', rest⟩ := h.split
  obtain ⟨rfl, rfl⟩ := first.deterministic first'
  obtain ⟨s', o, -, -, moved, -⟩ := rest.first_step
  exact ⟨s', o, moved, first.snoc moved⟩

/-- With no steps every condition is met. -/
theorem EachStep.nil {Q : σ → ι → Prop} : EachStep step s [] Q :=
  fun _ _ _ _ _ h _ => absurd h (by simp)

/-- The first step, and then the others from where it leads. -/
theorem eachStep_cons {Q : σ → ι → Prop} {i : ι} :
    EachStep step s (i :: is) Q ↔
      Q s i ∧ ∀ s' o, step s i = some (s', o) → EachStep step s' is Q := by
  constructor
  · intro h
    refine ⟨h [] i is [] s rfl .nil, fun s' o moved before j after os t heq runs => ?_⟩
    exact h (i :: before) j after (o :: os) t (by rw [List.cons_append, heq]) (.cons moved runs)
  · rintro ⟨now, later⟩ before j after os t heq runs
    cases before with
    | nil =>
      obtain ⟨rfl, rfl⟩ := runs.of_nil
      cases heq
      exact now
    | cons k before =>
      obtain ⟨s', o, os', rfl, moved, rest⟩ := runs.first_step
      cases heq
      exact later s' o moved before j after os' t rfl rest

/-- Whether each step of a concrete run meets a condition can be computed. -/
instance EachStep.decidable {Q : σ → ι → Prop} [∀ s i, Decidable (Q s i)] (s : σ) :
    (is : List ι) → Decidable (EachStep step s is Q)
  | [] => isTrue .nil
  | i :: is =>
    match h : step s i with
    | none => decidable_of_iff (Q s i) (by simp only [eachStep_cons, h, reduceCtorEq, false_imp_iff,
        implies_true, and_true])
    | some (s', o) =>
      have : Decidable (EachStep step s' is Q) := EachStep.decidable s' is
      decidable_of_iff (Q s i ∧ EachStep step s' is Q) (by
        rw [eachStep_cons, h]
        apply and_congr_right
        intro _
        constructor
        · intro rest t p heq
          cases heq
          exact rest
        · intro rest
          exact rest s' o rfl)

/-! ## Histories -/

/-- The step of a run that answered a given output. -/
theorem Runs.at_output (h : Runs step s₀ is os t) {before after : List ο} {o : ο}
    (answered : os = before ++ o :: after) :
    ∃ js i ks s s', is = js ++ i :: ks ∧ Runs step s₀ js before s ∧
      step s i = some (s', o) ∧ Runs step s' ks after t := by
  induction h generalizing after with
  | nil => exact absurd answered (by simp)
  | @snoc is os s s' i p first last ih =>
    rcases List.eq_nil_or_concat after with rfl | ⟨after, q, rfl⟩
    · obtain ⟨rfl, hp⟩ := List.append_inj' answered rfl
      cases hp
      exact ⟨is, i, [], s, s', rfl, first, last, .nil⟩
    · rw [List.concat_eq_append, ← List.cons_append, ← List.append_assoc] at answered
      obtain ⟨heq, hp⟩ := List.append_inj' answered rfl
      cases hp
      obtain ⟨js, j, ks, u, u', rfl, first, middle, rest⟩ := ih heq
      refine ⟨js, j, ks ++ [i], u, u', ?_, first, middle, ?_⟩
      · rw [List.append_assoc, List.cons_append]
      · rw [List.concat_eq_append]
        exact rest.snoc last

/-- A projection of a history grown by one. -/
theorem filterMap_snoc {α β : Type*} (f : α → Option β) (l : List α) (a : α) :
    (l ++ [a]).filterMap f = l.filterMap f ++ (f a).toList := by
  rw [List.filterMap_append, List.filterMap_cons]
  cases f a <;> rfl

theorem filterMap_snoc_none {α β : Type*} {f : α → Option β} {l : List α} {a : α}
    (h : f a = none) : (l ++ [a]).filterMap f = l.filterMap f := by
  rw [filterMap_snoc, h, Option.toList_none, List.append_nil]

theorem filterMap_snoc_some {α β : Type*} {f : α → Option β} {l : List α} {a : α} {b : β}
    (h : f a = some b) : (l ++ [a]).filterMap f = l.filterMap f ++ [b] := by
  rw [filterMap_snoc, h, Option.toList_some]

/-- An entry of a projected history, and where it comes from. -/
theorem filterMap_getElem? {α β : Type*} {f : α → Option β} {l : List α} {k : Nat} {b : β}
    (h : (l.filterMap f)[k]? = some b) :
    ∃ before a after, l = before ++ a :: after ∧ f a = some b ∧
      (before.filterMap f).length = k := by
  induction l generalizing k with
  | nil => cases h
  | cons a l ih =>
    cases hf : f a with
    | none =>
      rw [List.filterMap_cons_none hf] at h
      obtain ⟨before, a', after, rfl, ha', hk⟩ := ih h
      exact ⟨a :: before, a', after, rfl, ha', by rw [List.filterMap_cons_none hf, hk]⟩
    | some b' =>
      rw [List.filterMap_cons_some hf] at h
      cases k with
      | zero =>
        cases h
        exact ⟨[], a, l, rfl, hf, rfl⟩
      | succ k =>
        obtain ⟨before, a', after, rfl, ha', hk⟩ := ih h
        exact ⟨a :: before, a', after, rfl, ha', by
          rw [List.filterMap_cons_some hf, List.length_cons, hk]⟩

/-- Every output stands in the relation `P` to the outputs before it. What a history may contain is
stated so. -/
def Justified (P : List ο → ο → Prop) (os : List ο) : Prop :=
  ∀ before o after, os = before ++ o :: after → P before o

theorem Justified.nil {P : List ο → ο → Prop} : Justified P [] :=
  fun _ _ _ h => absurd h (by simp)

/-- One more output has to be justified by those before it, and no other anew. -/
theorem justified_snoc {P : List ο → ο → Prop} {o : ο} :
    Justified P (os ++ [o]) ↔ Justified P os ∧ P os o := by
  constructor
  · intro h
    refine ⟨?_, h os o [] rfl⟩
    intro before p after heq
    apply h before p (after ++ [o])
    rw [heq, List.append_assoc, List.cons_append]
  · rintro ⟨all, last⟩ before p after heq
    rcases List.eq_nil_or_concat after with rfl | ⟨after, q, rfl⟩
    · obtain ⟨rfl, hp⟩ := List.append_inj' heq rfl
      cases hp
      exact last
    · rw [List.concat_eq_append, ← List.cons_append, ← List.append_assoc] at heq
      exact all before p after (List.append_inj' heq rfl).1

/-- Two lists that correspond, each with one more entry. -/
theorem forall₂_snoc {α β : Type*} {R : α → β → Prop} {as : List α} {bs : List β} {a : α} {b : β} :
    List.Forall₂ R (as ++ [a]) (bs ++ [b]) ↔ List.Forall₂ R as bs ∧ R a b := by
  rw [← List.forall₂_reverse_iff, List.reverse_concat, List.reverse_concat, List.forall₂_cons,
    List.forall₂_reverse_iff, and_comm]

/-- Corresponding lists correspond at every index. -/
theorem forall₂_getElem? {α β : Type*} {R : α → β → Prop} {as : List α} {bs : List β}
    (h : List.Forall₂ R as bs) {i : Nat} {a : α} {b : β} (ha : as[i]? = some a)
    (hb : bs[i]? = some b) : R a b := by
  obtain ⟨hi, rfl⟩ := List.getElem?_eq_some_iff.mp ha
  obtain ⟨hi', rfl⟩ := List.getElem?_eq_some_iff.mp hb
  exact h.get hi hi'

theorem forall₂_eraseIdx {α β : Type*} {R : α → β → Prop} {as : List α} {bs : List β}
    (h : List.Forall₂ R as bs) (i : Nat) : List.Forall₂ R (as.eraseIdx i) (bs.eraseIdx i) := by
  rw [List.eraseIdx_eq_take_drop_succ, List.eraseIdx_eq_take_drop_succ]
  exact List.rel_append (List.forall₂_take i h) (List.forall₂_drop (i + 1) h)

/-! ## Simulation and progress -/

/-- A machine that matches each step of another, output for output, matches its runs: a forward
simulation, with `R` between the states. -/
theorem Runs.simulate {step' : Step τ ι ο} {R : σ → τ → Prop} {t₀ : τ}
    (h : Runs step s₀ is os s) (start : R s₀ t₀)
    (keeps : ∀ s t i s' o, R s t → step s i = some (s', o) →
      ∃ t', step' t i = some (t', o) ∧ R s' t') :
    ∃ t, Runs step' t₀ is os t ∧ R s t := by
  induction h with
  | nil => exact ⟨t₀, .nil, start⟩
  | snoc _ last ih =>
    obtain ⟨t, runs, related⟩ := ih
    obtain ⟨t', moved, related'⟩ := keeps _ _ _ _ _ related last
    exact ⟨t', runs.snoc moved, related'⟩

/-- A part that every step of the whole moves as its own machine moves, which the output shows, or
leaves alone, has run by itself. -/
theorem Runs.part {κ π : Type*} {own : Step τ κ π} (part : σ → τ) (view : ο → Option (κ × π))
    (h : Runs step s₀ is os s)
    (moves : ∀ s i s' o, step s i = some (s', o) →
      (view o = none ∧ part s' = part s) ∨
        ∃ k p, view o = some (k, p) ∧ own (part s) k = some (part s', p)) :
    Runs own (part s₀) ((os.filterMap view).map Prod.fst) ((os.filterMap view).map Prod.snd)
      (part s) := by
  induction h with
  | nil => exact .nil
  | snoc _ last ih =>
    obtain ⟨hidden, kept⟩ | ⟨k, p, shown, moved⟩ := moves _ _ _ _ last
    · rw [filterMap_snoc_none hidden, kept]
      exact ih
    · rw [filterMap_snoc_some shown, List.map_append, List.map_append]
      exact ih.snoc moved

/-- A view of the state is moved by a machine's `own` inputs alone: the other inputs leave it as it
is, and what an own input makes of it is decided by the view and the input. These are the unwinding
conditions of noninterference. -/
structure Sees {ν : Type*} (step : Step σ ι ο) (view : σ → ν) (own : ι → Bool) : Prop where
  foreign : ∀ s i s' o, own i = false → step s i = some (s', o) → view s' = view s
  consistent : ∀ s t i s' t' o p, own i = true → view s = view t → step s i = some (s', o) →
    step t i = some (t', p) → view s' = view t'

/-- Two runs with the same own inputs end with the same view, whatever else they are fed and however
it is interleaved. -/
theorem Runs.noninterference {ν : Type*} {view : σ → ν} {own : ι → Bool} {t₀ : σ}
    (sees : Sees step view own) (h : Runs step s₀ is os s) (h' : Runs step t₀ js ps t)
    (start : view s₀ = view t₀) (same : is.filter own = js.filter own) : view s = view t := by
  induction h generalizing js ps t with
  | nil =>
    induction h' with
    | nil => exact start
    | @snoc js ps t t' j p before last ih =>
      rw [List.filter_append, List.filter_nil, eq_comm, List.append_eq_nil_iff] at same
      rw [sees.foreign _ _ _ _ (by simpa using same.2) last]
      exact ih same.1.symm
  | @snoc is os s s' i o before last ih =>
    cases hi : own i with
    | false =>
      rw [sees.foreign _ _ _ _ hi last]
      apply ih h'
      rw [← same, List.filter_append, List.filter_cons_of_neg (by rw [hi]; decide),
        List.filter_nil, List.append_nil]
    | true =>
      rw [List.filter_append, List.filter_cons_of_pos hi, List.filter_nil] at same
      induction h' with
      | nil => exact absurd same (by simp)
      | @snoc js ps t t' j p before' last' ih' =>
        rw [List.filter_append] at same
        cases hj : own j with
        | false =>
          rw [sees.foreign _ _ _ _ hj last']
          rw [List.filter_cons_of_neg (by rw [hj]; decide), List.filter_nil,
            List.append_nil] at same
          exact ih' same
        | true =>
          rw [List.filter_cons_of_pos hj, List.filter_nil] at same
          obtain ⟨earlier, heq⟩ := List.append_inj' same rfl
          cases heq
          exact sees.consistent _ _ _ _ _ _ _ hi (ih before' earlier) last last'

/-- Two machines whose steps keep a relation between their states, where their inputs are related,
answer with related outputs. -/
theorem Runs.relate {κ π : Type*} {step' : Step τ κ π} {t₀ t : τ} {js : List κ} {ps : List π}
    {R : σ → τ → Prop} {In : ι → κ → Prop} {Out : ο → π → Prop} (h : Runs step s₀ is os s)
    (h' : Runs step' t₀ js ps t) (inputs : List.Forall₂ In is js) (start : R s₀ t₀)
    (keeps : ∀ s t i j s' t' o p, R s t → In i j → step s i = some (s', o) →
      step' t j = some (t', p) → R s' t' ∧ Out o p) :
    R s t ∧ List.Forall₂ Out os ps := by
  induction h generalizing js ps t with
  | nil =>
    cases inputs
    obtain ⟨rfl, rfl⟩ := h'.of_nil
    exact ⟨start, .nil⟩
  | @snoc is os s s' i o _ last ih =>
    obtain rfl | ⟨js, j, rfl⟩ := List.eq_nil_or_concat js
    · exact absurd inputs.length_eq (by simp)
    · rw [List.concat_eq_append] at h' inputs
      obtain ⟨t', ps, p, rfl, before', last'⟩ := h'.last_step
      obtain ⟨inputs, related⟩ := forall₂_snoc.mp inputs
      obtain ⟨hR, outputs⟩ := ih before' inputs
      obtain ⟨hR', related'⟩ := keeps _ _ _ _ _ _ _ _ hR related last last'
      exact ⟨hR', forall₂_snoc.mpr ⟨outputs, related'⟩⟩

/-- A machine that never refuses inside an invariant reads every input. -/
theorem exists_runs {P : σ → Prop} (start : P s₀)
    (moves : ∀ s i, P s → ∃ s' o, step s i = some (s', o) ∧ P s') (is : List ι) :
    ∃ os s, Runs step s₀ is os s ∧ P s := by
  induction is using List.reverseRecOn with
  | nil => exact ⟨[], s₀, .nil, start⟩
  | append_singleton is i ih =>
    obtain ⟨os, s, runs, hs⟩ := ih
    obtain ⟨s', o, moved, hs'⟩ := moves s i hs
    exact ⟨os ++ [o], s', runs.snoc moved, hs'⟩

end Transducer
