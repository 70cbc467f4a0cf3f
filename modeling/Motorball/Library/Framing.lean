import Motorball.Library.Transducer
import Mathlib.Data.List.DropRight

/-!
# Scanning a stream for fixed-length frames

A framing has a sync symbol, a frame length, a validity check and a decoder. The scanner keeps the
symbols of the frame it is collecting and nothing else. With nothing kept it hunts for a sync
symbol. A full window is accepted when the check passes. A window that fails the check is thrown
away, except that its last symbol starts a new one when it is a sync symbol.

**Soundness** (`sound_of_runs`): whatever the stream, the kept symbols are the last ones read and
begin with a sync symbol, an accepted value is the decoding of a valid window that ends where it was
accepted, and two accepted windows share no symbol.

**Realignment.** Frames arriving back to back meet the scanner either aligned, and are delivered
(`aligned`), or across a window begun earlier. What such a window leaves behind is `straddle`: the
frame from the window's last symbol on (from the one after it, if the window passed the check by
accident), up to the next sync symbol. `none_delivered_iff` reads off it exactly when a whole
sequence of frames is lost, and `realigned` that one frame without a sync symbol in its tail is
enough to end the losses.
-/

/-- Fixed-length frames over an alphabet, and how they are checked and decoded. The sync symbol may
occur anywhere in a frame; nothing is escaped. -/
structure Framing (α β : Type*) where
  sync : α
  length : Nat
  two_le : 2 ≤ length
  valid : List α → Bool
  decode : List α → β

namespace Framing

open Transducer

variable {α β : Type*} {F : Framing α β} {kept read : List α} {outs : List (Option β)} {a : α}

/-! ## Sound histories -/

/-- What a scanner has read, answered and kept hangs together. It is the invariant of the scanner,
and from it follows what an answer is worth. -/
structure Sound (F : Framing α β) (read : List α) (outs : List (Option β)) (kept : List α) :
    Prop where
  /-- The kept symbols are the last ones read. -/
  suffix : kept <:+ read
  short : kept.length < F.length
  begins : ∀ a ∈ kept.head?, a = F.sync
  length_eq : outs.length = read.length
  /-- No kept symbol was part of an accepted window. -/
  fresh : ∀ i v, outs[i]? = some (some v) → i + 1 + kept.length ≤ read.length
  window : ∀ i v, outs[i]? = some (some v) → ∃ w, w <:+ read.take (i + 1) ∧
    w.length = F.length ∧ w.head? = some F.sync ∧ F.valid w = true ∧ v = F.decode w
  /-- Two accepted windows share no symbol. -/
  apart : ∀ i j v w, outs[i]? = some (some v) → outs[j]? = some (some w) → i < j →
    i + F.length ≤ j

/-- Nothing read, nothing answered and nothing kept. -/
theorem Sound.nil : Sound F [] [] [] where
  suffix := List.nil_suffix
  short := Nat.lt_of_lt_of_le Nat.two_pos F.two_le
  begins := fun _ h => by cases h
  length_eq := rfl
  fresh := fun _ _ h => by cases h
  window := fun _ _ h => by cases h
  apart := fun _ _ _ _ h => by cases h

/-- An entry of a list grown by one is an old entry or the new one. -/
theorem getElem?_snoc {γ : Type*} {l : List γ} {x y : γ} {i : Nat} :
    (l ++ [x])[i]? = some y ↔ l[i]? = some y ∨ (i = l.length ∧ y = x) := by
  rcases Nat.lt_trichotomy i l.length with h | rfl | h
  · rw [List.getElem?_append_left h]
    exact ⟨.inl, fun h' => h'.elim id fun ⟨e, _⟩ => absurd e (Nat.ne_of_lt h)⟩
  · rw [List.getElem?_concat_length, List.getElem?_eq_none (Nat.le_refl _)]
    simp only [Option.some.injEq, reduceCtorEq, true_and, false_or, eq_comm]
  · rw [List.getElem?_eq_none (by simp only [List.length_append, List.length_singleton]; omega),
      List.getElem?_eq_none (Nat.le_of_lt h)]
    simp only [reduceCtorEq, false_or, false_iff, not_and]
    intro e
    exact absurd e (Nat.ne_of_gt h)

/-- A symbol that completes nothing keeps the invariant, whether it is kept, dropped or begins
anew. -/
theorem Sound.silent {kept' : List α} (s : Sound F read outs kept)
    (suffix : kept' <:+ read ++ [a]) (short : kept'.length < F.length)
    (begins : ∀ b ∈ kept'.head?, b = F.sync) (grows : kept'.length ≤ kept.length + 1) :
    Sound F (read ++ [a]) (outs ++ [none]) kept' := by
  have old : ∀ {i : Nat} {v : β}, (outs ++ [none])[i]? = some (some v) →
      outs[i]? = some (some v) := by
    intro i v h
    rcases getElem?_snoc.mp h with h | ⟨_, h⟩
    · exact h
    · cases h
  refine ⟨suffix, short, begins, ?_, fun i v h => ?_, fun i v h => ?_, fun i j v w hi hj => ?_⟩
  · simp only [List.length_append, List.length_singleton, s.length_eq]
  · have := s.fresh i v (old h)
    simp only [List.length_append, List.length_singleton]
    omega
  · obtain ⟨w, hw, rest⟩ := s.window i v (old h)
    have := s.fresh i v (old h)
    exact ⟨w, by rwa [List.take_append_of_le_length (by omega)], rest⟩
  · exact s.apart i j v w (old hi) (old hj)

/-- A symbol that completes an accepted window. -/
theorem Sound.accepting (s : Sound F read outs kept) (h : kept ≠ [])
    (full : kept.length + 1 = F.length) (ok : F.valid (kept ++ [a]) = true) :
    Sound F (read ++ [a]) (outs ++ [some (F.decode (kept ++ [a]))]) [] := by
  have hlen := s.length_eq
  refine ⟨List.nil_suffix, Nat.lt_of_lt_of_le Nat.two_pos F.two_le, (fun _ h => by cases h), ?_,
    fun i v hi => ?_, fun i v hi => ?_, fun i j v w hi hj lt => ?_⟩
  · simp only [List.length_append, List.length_singleton, hlen]
  · simp only [List.length_append, List.length_singleton, List.length_nil]
    rcases getElem?_snoc.mp hi with hi | ⟨rfl, _⟩
    · have := s.fresh i v hi
      omega
    · omega
  · rcases getElem?_snoc.mp hi with hi | ⟨rfl, hv⟩
    · obtain ⟨w, hw, rest⟩ := s.window i v hi
      have := s.fresh i v hi
      exact ⟨w, by rwa [List.take_append_of_le_length (by omega)], rest⟩
    · cases hv
      refine ⟨kept ++ [a], ?_, by rwa [List.length_append], ?_, ok, rfl⟩
      · have whole : (read ++ [a]).length ≤ outs.length + 1 := by
          simp only [List.length_append, List.length_singleton]
          omega
        rw [List.take_of_length_le whole]
        obtain ⟨front, rfl⟩ := s.suffix
        exact ⟨front, by rw [List.append_assoc]⟩
      · obtain ⟨b, rest, rfl⟩ := List.exists_cons_of_ne_nil h
        rw [List.cons_append, List.head?_cons, s.begins b (by simp)]
  · rcases getElem?_snoc.mp hj with hj | ⟨rfl, _⟩
    · rcases getElem?_snoc.mp hi with hi | ⟨rfl, _⟩
      · exact s.apart i j v w hi hj lt
      · have := (List.getElem?_eq_some_iff.mp hj).1
        omega
    · rcases getElem?_snoc.mp hi with hi | ⟨rfl, _⟩
      · have := s.fresh i v hi
        omega
      · omega

/-! ## The scanner -/

section Scanner

variable [DecidableEq α] (F)

/-- A symbol read while nothing is kept: only a sync symbol begins a window. -/
def opened (a : α) : List α := if a = F.sync then [a] else []

/-- One symbol of the stream: what is kept after it, and the value it completes. -/
def scan (kept : List α) (a : α) : List α × Option β :=
  if kept = [] then (F.opened a, none)
  else if (kept ++ [a]).length < F.length then (kept ++ [a], none)
  else if F.valid (kept ++ [a]) then ([], some (F.decode (kept ++ [a])))
  else (F.opened a, none)

/-- The scanner as a transducer; it never refuses. -/
def step : Step (List α) α (Option β) := fun kept a => some (F.scan kept a)

variable {F}

theorem scan_idle : F.scan [] a = (F.opened a, none) := if_pos rfl

theorem scan_collect (h : kept ≠ []) (short : kept.length + 1 < F.length) :
    F.scan kept a = (kept ++ [a], none) := by
  rw [scan, if_neg h, if_pos (by rwa [List.length_append])]

theorem scan_accept (h : kept ≠ []) (full : kept.length + 1 = F.length)
    (ok : F.valid (kept ++ [a]) = true) : F.scan kept a = ([], some (F.decode (kept ++ [a]))) := by
  rw [scan, if_neg h, if_neg (by simp only [List.length_append, List.length_singleton]; omega),
    if_pos ok]

theorem scan_reject (h : kept ≠ []) (full : kept.length + 1 = F.length)
    (bad : F.valid (kept ++ [a]) = false) : F.scan kept a = (F.opened a, none) := by
  rw [scan, if_neg h, if_neg (by simp only [List.length_append, List.length_singleton]; omega),
    if_neg (by simp only [bad, Bool.false_eq_true, not_false_eq_true])]

theorem opened_of_ne (h : a ≠ F.sync) : F.opened a = [] := if_neg h

/-- What a symbol opens was read last. -/
theorem opened_suffix (read : List α) (a : α) : F.opened a <:+ read ++ [a] := by
  unfold opened
  split
  · exact List.suffix_append read [a]
  · exact List.nil_suffix

theorem opened_length (a : α) : (F.opened a).length ≤ 1 := by
  unfold opened
  split <;> simp only [List.length_singleton, List.length_nil, Nat.le_refl, Nat.zero_le]

theorem opened_begins (a : α) : ∀ b ∈ (F.opened a).head?, b = F.sync := by
  unfold opened
  split
  next h => intro b hb; cases hb; exact h
  next => intro b hb; cases hb

/-! ## Soundness on any stream -/

/-- One symbol keeps the invariant: the cases are those of the scanner. -/
theorem Sound.scan (s : Sound F read outs kept) (a : α) :
    Sound F (read ++ [a]) (outs ++ [(F.scan kept a).2]) (F.scan kept a).1 := by
  have two := F.two_le
  have one := opened_length (F := F) a
  by_cases h : kept = []
  · subst h
    rw [scan_idle]
    show Sound F (read ++ [a]) (outs ++ [none]) (F.opened a)
    exact s.silent (opened_suffix read a) (by omega) (opened_begins a) (by simpa using one)
  · rcases Nat.lt_or_ge (kept.length + 1) F.length with short | full
    · rw [scan_collect h short]
      refine s.silent ?_ (by rwa [List.length_append]) ?_ (by rw [List.length_append]; rfl)
      · obtain ⟨front, hfront⟩ := s.suffix
        exact ⟨front, by rw [← List.append_assoc, hfront]⟩
      · obtain ⟨b, rest, rfl⟩ := List.exists_cons_of_ne_nil h
        intro c hc
        exact s.begins c hc
    · have full : kept.length + 1 = F.length := Nat.le_antisymm s.short full
      cases ok : F.valid (kept ++ [a]) with
      | true =>
        rw [scan_accept h full ok]
        exact s.accepting h full ok
      | false =>
        rw [scan_reject h full ok]
        show Sound F (read ++ [a]) (outs ++ [none]) (F.opened a)
        exact s.silent (opened_suffix read a) (by omega) (opened_begins a) (by omega)

/-- **Every run of the scanner from nothing kept is sound**, by induction on the run. -/
theorem sound_of_runs (runs : Runs F.step [] read outs kept) : Sound F read outs kept := by
  induction runs with
  | nil => exact Sound.nil
  | @snoc _ _ kept _ a _ _ last ih =>
    have scanned : F.scan kept a = (_, _) := Option.some.inj last
    have sound := ih.scan a
    rwa [scanned] at sound

/-! ## Frames arriving back to back -/

/-- One well-formed frame: of the right length, opened by a sync symbol and with a check that
fits. -/
structure IsFrame (F : Framing α β) (f : List α) : Prop where
  length_eq : f.length = F.length
  begins : f.head? = some F.sync
  ok : F.valid f = true

/-- What the scanner answers to a frame it delivers: its value at the last symbol, nothing
before. -/
def delivery (F : Framing α β) (f : List α) : List (Option β) :=
  List.replicate (F.length - 1) none ++ [some (F.decode f)]

omit [DecidableEq α] in
theorem IsFrame.cons {f : List α} (h : IsFrame F f) : f = F.sync :: f.tail := by
  cases f with
  | nil => cases h.begins
  | cons b rest => rw [Option.some.inj h.begins, List.tail_cons]

omit [DecidableEq α] in
/-- The value of a delivered frame comes with its last symbol. -/
theorem delivery_last (f : List α) : (F.delivery f)[F.length - 1]? = some (some (F.decode f)) := by
  rw [delivery, List.getElem?_append_right (by simp only [List.length_replicate, Nat.le_refl]),
    List.length_replicate, Nat.sub_self]
  rfl

/-- A window under way takes in whatever does not fill it. -/
theorem collect {l : List α} : ∀ {kept : List α}, kept ≠ [] → kept.length + l.length < F.length →
    Runs F.step kept l (List.replicate l.length none) (kept ++ l) := by
  induction l with
  | nil =>
    intro kept _ _
    rw [List.append_nil]
    exact .nil
  | cons b rest ih =>
    intro kept h short
    rw [List.length_cons] at short
    have moved : F.step kept b = some (kept ++ [b], none) :=
      congrArg some (scan_collect h (by omega))
    have hne : kept ++ [b] ≠ [] := List.append_ne_nil_of_right_ne_nil kept (List.cons_ne_nil b [])
    have rest := ih hne (by rw [List.length_append, List.length_singleton]; omega)
    rw [List.append_assoc] at rest
    exact Runs.cons moved rest

/-- With nothing kept, a sync symbol begins a window. -/
theorem opening {l : List α} (short : l.length + 1 < F.length) :
    Runs F.step [] (F.sync :: l) (List.replicate (l.length + 1) none) (F.sync :: l) := by
  have moved : F.step [] F.sync = some ([F.sync], none) := by
    rw [step, scan_idle, opened, if_pos rfl]
  exact Runs.cons moved (collect (by simp) (by rw [List.length_singleton]; omega))

/-- A window that begins with nothing kept and fails its check answers nothing. -/
theorem refused {l : List α} (fills : l.length + 2 = F.length)
    (bad : F.valid (F.sync :: l ++ [a]) = false) :
    Runs F.step [] (F.sync :: l ++ [a]) (List.replicate F.length none) (F.opened a) := by
  have last : F.step (F.sync :: l) a = some (F.opened a, none) :=
    congrArg some (scan_reject (List.cons_ne_nil _ _) (by rwa [List.length_cons]) bad)
  have run := (opening (by omega)).snoc last
  rwa [← List.replicate_succ', fills] at run

/-- With nothing kept, fewer symbols than a frame leave what follows the first sync symbol. -/
theorem hunt {l : List α} (short : l.length < F.length) :
    Runs F.step [] l (List.replicate l.length none) (l.dropWhile fun b => decide (b ≠ F.sync)) := by
  induction l with
  | nil => exact .nil
  | cons b rest ih =>
    rw [List.length_cons] at short
    by_cases hb : b = F.sync
    · rw [List.dropWhile_cons_of_neg (by simp only [hb, ne_eq, not_true, decide_false]; decide), hb]
      exact opening short
    · have moved : F.step [] b = some ([], none) := by
        rw [step, scan_idle, opened_of_ne hb]
      rw [List.dropWhile_cons_of_pos (by simp only [ne_eq, hb, not_false_eq_true, decide_true])]
      exact Runs.cons moved (ih (by omega))

/-- A frame that begins with nothing kept is delivered. -/
theorem aligned {f : List α} (h : IsFrame F f) : Runs F.step [] f (F.delivery f) [] := by
  have two := F.two_le
  have hne : f ≠ [] := fun e => by rw [e] at h; cases h.begins
  have hlen : f.dropLast.length = F.length - 1 := by rw [List.length_dropLast, h.length_eq]
  have whole := List.dropLast_append_getLast hne
  obtain ⟨b, rest, hrest⟩ : ∃ b rest, f.dropLast = b :: rest :=
    List.exists_cons_of_length_pos (by omega)
  have hb : b = F.sync := by
    have hbegins := h.begins
    rw [← whole, hrest, List.cons_append, List.head?_cons] at hbegins
    exact Option.some.inj hbegins
  have front : Runs F.step [] f.dropLast (List.replicate (F.length - 1) none) f.dropLast := by
    rw [hrest, List.length_cons] at hlen
    rw [← hlen, hrest, hb]
    exact opening (by omega)
  have last : F.step f.dropLast (f.getLast hne) = some ([], some (F.decode f)) := by
    rw [step, scan_accept (by rw [hrest]; exact List.cons_ne_nil _ _) (by omega)
      (by rw [whole]; exact h.ok), whole]
  have run := front.snoc last
  rwa [whole] at run

/-- Frames that begin with nothing kept are all delivered. -/
theorem aligned_all {frames : List (List α)} (h : ∀ f ∈ frames, IsFrame F f) :
    Runs F.step [] frames.flatten (frames.flatMap F.delivery) [] := by
  induction frames with
  | nil => exact .nil
  | cons f fs ih =>
    rw [List.flatten_cons, List.flatMap_cons]
    exact (aligned (h f List.mem_cons_self)).trans (ih fun g hg => h g (List.mem_cons_of_mem _ hg))

/-! ## Windows across a frame boundary -/

/-- A window under way straddles the place where the next frame begins: it is not the window that
the frame's own sync symbol fills and fails, which would begin the frame's window anew. -/
def Straddles (F : Framing α β) (kept : List α) : Prop :=
  kept ≠ [] ∧ (kept.length + 1 = F.length → F.valid (kept ++ [F.sync]) = true)

/-- What is kept after a frame that a window straddled into: the frame from the window's last symbol
on, or from the one after it when the window passed the check, up to the next sync symbol. -/
def straddle (F : Framing α β) (kept frame : List α) : List α :=
  let need := F.length - kept.length
  let start := if F.valid (kept ++ frame.take need) then need else need - 1
  (frame.drop start).dropWhile fun b => decide (b ≠ F.sync)

/-- Every frame of a sequence begins under a straddling window. This is a condition on what was kept
and on the frames, with no scanner in it. -/
def Derailed (F : Framing α β) : List α → List (List α) → Prop
  | _, [] => True
  | kept, f :: fs => F.Straddles kept ∧ Derailed F (F.straddle kept f) fs

/-- The scanner never keeps a whole frame. -/
theorem scan_short (short : kept.length < F.length) (a : α) :
    (F.scan kept a).1.length < F.length := by
  have two := F.two_le
  have one := opened_length (F := F) a
  by_cases h : kept = []
  · rw [h, scan_idle]
    exact Nat.lt_of_le_of_lt one two
  · rcases Nat.lt_or_ge (kept.length + 1) F.length with room | full
    · rw [scan_collect h room]
      rwa [List.length_append]
    · have full : kept.length + 1 = F.length := Nat.le_antisymm short full
      cases ok : F.valid (kept ++ [a]) with
      | true =>
        rw [scan_accept h full ok]
        exact Nat.lt_of_lt_of_le Nat.two_pos two
      | false =>
        rw [scan_reject h full ok]
        exact Nat.lt_of_le_of_lt one two

/-- Nor does a run. -/
theorem runs_short {t : List α} (runs : Runs F.step kept read outs t)
    (short : kept.length < F.length) : t.length < F.length := by
  induction runs with
  | nil => exact short
  | @snoc _ _ s t b o _ last ih =>
    have scanned : F.scan s b = (t, o) := Option.some.inj last
    simpa only [scanned] using scan_short ih b

/-- A frame under no straddling window is delivered. -/
theorem delivered {f : List α} (h : IsFrame F f) (clear : ¬ F.Straddles kept) :
    Runs F.step kept f (F.delivery f) [] := by
  by_cases hk : kept = []
  · rw [hk]
    exact aligned h
  -- the frame's sync symbol fills a window that fails, so it begins the frame's own window
  · have hfull : kept.length + 1 = F.length := by
      by_contra hne
      exact clear ⟨hk, fun e => absurd e hne⟩
    have hbad : F.valid (kept ++ [F.sync]) = false := by
      by_contra hok
      exact clear ⟨hk, fun _ => Bool.not_eq_false _ ▸ hok⟩
    have hf := h.cons
    have run := aligned h
    rw [hf] at run ⊢
    obtain ⟨m, o, os, houts, moved, rest⟩ := run.first_step
    have moved' : F.step kept F.sync = some (m, o) := by
      rw [step, scan_reject hk hfull hbad, ← scan_idle]
      exact moved
    rw [houts]
    exact Runs.cons moved' rest

omit [DecidableEq α] in
/-- A frame seen from a window of `kept` symbols: what the window takes in, the symbol that fills
it, and as many symbols again as the window had kept. -/
theorem IsFrame.window {f : List α} (h : IsFrame F f) (pos : kept ≠ [])
    (short : kept.length < F.length) :
    ∃ l a r, f = l ++ a :: r ∧ (kept ++ l).length + 1 = F.length ∧ r.length = kept.length := by
  have hpos : 0 < kept.length := List.length_pos_iff.mpr pos
  have hlen := h.length_eq
  obtain ⟨a, r, hsplit⟩ : ∃ a r, f.drop (F.length - kept.length - 1) = a :: r :=
    List.exists_cons_of_length_pos (by rw [List.length_drop]; omega)
  have hr := congrArg List.length hsplit
  rw [List.length_drop, List.length_cons] at hr
  refine ⟨f.take (F.length - kept.length - 1), a, r, ?_, ?_, by omega⟩
  · rw [← hsplit, List.take_append_drop]
  · rw [List.length_append, List.length_take]
    omega

theorem straddle_eq {l r : List α} (fills : (kept ++ l).length + 1 = F.length) :
    F.straddle kept (l ++ a :: r) =
      (if F.valid (kept ++ l ++ [a]) then r else a :: r).dropWhile
        fun b => decide (b ≠ F.sync) := by
  rw [List.length_append] at fills
  have hneed : F.length - kept.length = l.length + 1 := by omega
  have htake : (l ++ a :: r).take (l.length + 1) = l ++ [a] := by
    rw [List.take_length_add_append]
    rfl
  rw [straddle]
  simp only [hneed, htake, Nat.add_sub_cancel, ← List.append_assoc]
  split
  · rw [List.drop_length_add_append]
    rfl
  · rw [List.drop_left]

/-- A frame under a straddling window answers nothing at its end, and leaves what `straddle`
says. -/
theorem straddled {f : List α} (h : IsFrame F f) (short : kept.length < F.length)
    (under : F.Straddles kept) :
    ∃ outs, Runs F.step kept f outs (F.straddle kept f) ∧ outs[F.length - 1]? = some none := by
  obtain ⟨hk, hlast⟩ := under
  have hpos : 0 < kept.length := List.length_pos_iff.mpr hk
  obtain ⟨l, a, r, rfl, fills, hr⟩ := h.window hk short
  have hroom : kept.length + l.length < F.length := by rw [List.length_append] at fills; omega
  have first := collect (F := F) hk hroom
  have hkl : kept ++ l ≠ [] := fun e => hk (List.append_eq_nil_iff.mp e).1
  have hat : ∀ o : Option β, (List.replicate l.length none ++ o ::
      List.replicate r.length none)[F.length - 1]? = some (none : Option β) := by
    intro o
    rw [List.length_append] at fills
    rw [List.getElem?_append_right (by rw [List.length_replicate]; omega), List.length_replicate,
      show F.length - 1 - l.length = (r.length - 1) + 1 by omega, List.getElem?_cons_succ,
      List.getElem?_replicate, if_pos (by omega)]
  rw [straddle_eq fills]
  cases ok : F.valid (kept ++ l ++ [a]) with
  | true =>
    have moved : F.step (kept ++ l) a = some ([], some (F.decode (kept ++ l ++ [a]))) :=
      congrArg some (scan_accept hkl fills ok)
    exact ⟨_, first.trans (Runs.cons moved (hunt (by omega))), hat _⟩
  | false =>
    have moved : F.step (kept ++ l) a = some (F.opened a, none) :=
      congrArg some (scan_reject hkl fills ok)
    refine ⟨_, first.trans (Runs.cons moved ?_), hat none⟩
    rw [if_neg (by decide)]
    by_cases ha : a = F.sync
    · rw [opened, if_pos ha,
        List.dropWhile_cons_of_neg (by simp only [ha, ne_eq, not_true, decide_false]; decide)]
      have room : r.length + 1 < F.length := by
        by_contra hfull
        have hnil : l = [] :=
          List.eq_nil_of_length_eq_zero (by rw [List.length_append] at fills; omega)
        have := hlast (by omega)
        rw [hnil, List.append_nil, ha, this] at ok
        cases ok
      exact collect (by simp) (by rw [List.length_singleton]; omega)
    · rw [opened_of_ne ha,
        List.dropWhile_cons_of_pos (by simp only [ne_eq, ha, not_false_eq_true, decide_true])]
      exact hunt (by omega)

/-- The `i`th of a sequence of frames is delivered: its last symbol is answered by its value. -/
def Delivers (F : Framing α β) (outs : List (Option β)) (i : Nat) (f : List α) : Prop :=
  outs[i * F.length + (F.length - 1)]? = some (some (F.decode f))

omit [DecidableEq α] in
/-- The first of a sequence of frames is delivered by the first frame's answers. -/
theorem delivers_cons_zero {first rest : List (Option β)} {f : List α}
    (hlen : first.length = F.length) :
    F.Delivers (first ++ rest) 0 f ↔ first[F.length - 1]? = some (some (F.decode f)) := by
  have := F.two_le
  rw [Delivers, Nat.zero_mul, Nat.zero_add, List.getElem?_append_left (by omega)]

omit [DecidableEq α] in
/-- And a later one by the answers behind these. -/
theorem delivers_cons_succ {first rest : List (Option β)} {f : List α} {i : Nat}
    (hlen : first.length = F.length) :
    F.Delivers (first ++ rest) (i + 1) f ↔ F.Delivers rest i f := by
  rw [Delivers, Delivers, Nat.succ_mul, List.getElem?_append_right (by omega),
    show i * F.length + F.length + (F.length - 1) - first.length =
      i * F.length + (F.length - 1) by omega]

/-- **When a sequence of frames is lost**: none of the frames pushed back to back is delivered
exactly when each of them begins under a straddling window. By induction on the frames: one that
begins under no such window is delivered, and under one the scanner goes on with what `straddle`
leaves. -/
theorem none_delivered_iff {frames : List (List α)} : ∀ {kept t : List α}
    {outs : List (Option β)}, (∀ f ∈ frames, IsFrame F f) → kept.length < F.length →
    Runs F.step kept frames.flatten outs t →
    ((∀ i f, frames[i]? = some f → ¬ F.Delivers outs i f) ↔ F.Derailed kept frames) := by
  induction frames with
  | nil =>
    intro kept t outs _ _ _
    exact ⟨fun _ => trivial, fun _ i f h => by cases h⟩
  | cons f fs ih =>
    intro kept t outs all short runs
    have hf := all f List.mem_cons_self
    rw [List.flatten_cons] at runs
    obtain ⟨m, first, rest, rfl, before, after⟩ := runs.split
    have hlen : first.length = F.length := before.length_eq.trans hf.length_eq
    have ih := ih (fun g hg => all g (List.mem_cons_of_mem _ hg)) (runs_short before short) after
    by_cases under : F.Straddles kept
    · obtain ⟨first', run', silent⟩ := straddled hf short under
      obtain ⟨rfl, rfl⟩ := before.deterministic run'
      rw [Derailed, and_iff_right under, ← ih]
      constructor
      · intro lost i g hg hd
        exact lost (i + 1) g hg ((delivers_cons_succ hlen).mpr hd)
      · intro lost i g hg hd
        cases i with
        | zero =>
          rw [delivers_cons_zero hlen, silent] at hd
          cases hd
        | succ i => exact lost i g hg ((delivers_cons_succ hlen).mp hd)
    · obtain ⟨rfl, rfl⟩ := before.deterministic (delivered hf under)
      constructor
      · intro lost
        exact absurd ((delivers_cons_zero hlen).mpr (delivery_last f)) (lost 0 f rfl)
      · intro h
        exact absurd h.1 under

/-- A straddling window leaves nothing behind a frame with no sync symbol in its tail. -/
theorem straddle_free {f : List α} (h : IsFrame F f) (short : kept.length < F.length)
    (under : F.Straddles kept) (free : F.sync ∉ f.tail) : F.straddle kept f = [] := by
  obtain ⟨l, a, r, hf, fills, _⟩ := h.window under.1 short
  have hr : F.sync ∉ r := fun hmem => free <| by
    rw [hf]
    cases l with
    | nil => exact hmem
    | cons b l => exact List.mem_append_right l (List.mem_cons_of_mem a hmem)
  rw [hf, straddle_eq fills, List.dropWhile_eq_nil_iff]
  intro b hb
  refine decide_eq_true fun e => ?_
  rw [e] at hb
  split at hb
  · exact hr hb
  next bad =>
    rcases List.mem_cons.mp hb with ha | hb
    · cases l with
      -- a window one symbol short passes at the frame's own sync symbol
      | nil => exact bad (by rw [← ha, List.append_nil]; exact under.2 (by simpa using fills))
      | cons c l => exact free (by rw [hf, ha]; simp)
    · exact hr hb

/-- A derailed sequence carries a sync symbol in the tail of every frame but the last, for without
one the scanner is realigned behind it. -/
theorem derailed_tail {f g : List α} {fs : List (List α)} :
    ∀ {kept : List α} {before : List (List α)}, (∀ h ∈ before ++ f :: g :: fs, IsFrame F h) →
      kept.length < F.length → F.Derailed kept (before ++ f :: g :: fs) → F.sync ∈ f.tail
  | kept, [], all, short, derailed => by
    obtain ⟨under, next⟩ := derailed
    by_contra free
    rw [straddle_free (all f List.mem_cons_self) short under free] at next
    exact next.1.1 rfl
  | kept, b :: before, all, short, derailed => by
    obtain ⟨under, next⟩ := derailed
    obtain ⟨_, run, _⟩ := straddled (all b List.mem_cons_self) short under
    exact derailed_tail (fun h hh => all h (List.mem_cons_of_mem b hh)) (runs_short run short) next

/-- **Realignment**: whatever was kept, one frame with no sync symbol in its tail leaves the scanner
with nothing kept, so every later frame is delivered. -/
theorem realigned {f : List α} {fs : List (List α)} {t : List α} (short : kept.length < F.length)
    (all : ∀ g ∈ f :: fs, IsFrame F g) (free : F.sync ∉ f.tail)
    (runs : Runs F.step kept (f :: fs).flatten outs t) :
    t = [] ∧ outs.drop F.length = fs.flatMap F.delivery := by
  have hf := all f List.mem_cons_self
  have rest := aligned_all fun g hg => all g (List.mem_cons_of_mem f hg)
  obtain ⟨first, hfirst⟩ : ∃ first, Runs F.step kept f first [] := by
    by_cases under : F.Straddles kept
    · obtain ⟨first, run, _⟩ := straddled hf short under
      rw [straddle_free hf short under free] at run
      exact ⟨first, run⟩
    · exact ⟨_, delivered hf under⟩
  rw [List.flatten_cons] at runs
  obtain ⟨rfl, rfl⟩ := runs.deterministic (hfirst.trans rest)
  refine ⟨rfl, ?_⟩
  rw [← hf.length_eq, ← hfirst.length_eq, List.drop_left]

end Scanner

end Framing
