import Motorball.Library.Decimal
import Motorball.Server.Schedule

/-!
# The configured game length

`main` of `piwebserver/src/main.rs` takes the game length from the text of `PIWS_GAME_SECONDS`, with
the parser of the standard library. `Configured` says which length each setting is to give, and
`configured_iff` that `main` settles on it; `games_as_configured` is what every reader of the
countdown makes of it, in any interleaving.
-/

namespace Motorball.Server

open Transducer

/-! ## The setting -/

/-- The digits of a numeral, after the plus sign if there is one. A minus sign is no part of a
`u64`, and stays in front of the digits as what it is. -/
def unsigned : List Char → List Char
  | '+' :: digits => digits
  | digits => digits

/-- `u64::from_str`: at least one digit, nothing but digits, and a number that fits. Blanks are not
skipped. -/
def u64FromStr (text : String) : Option UInt64 :=
  let digits := unsigned text.toList
  if digits = [] then none else (Decimal.read (2 ^ 64) digits).map UInt64.ofNat

/-- What `main` makes of the variable, if it is set and Unicode; one that is not Unicode counts as
not set. -/
def parsedSeconds (var : Option String) : Option UInt64 := var.bind u64FromStr

/-- `text` is a decimal numeral for `n`, with a plus sign or without. Leading zeros are allowed, so
a number has many. -/
def Numeral (text : String) (n : Nat) : Prop :=
  ∃ digits, (text.toList = digits ∨ text.toList = '+' :: digits) ∧ digits ≠ [] ∧
    (∀ c ∈ digits, c.isDigit = true) ∧ Nat.ofDigitChars 10 digits 0 = n

/-- The game length that a setting of the variable is to give: the number it is a numeral for if
that is a game length, and otherwise the default. -/
inductive Configured : Option String → Nat → Prop
  | chosen (text : String) (n : Nat) (numeral : Numeral text n) (positive : 0 < n)
      (fits : n < 2 ^ 64) : Configured (some text) n
  | refused (text : String) (no : ∀ n, Numeral text n → n = 0 ∨ 2 ^ 64 ≤ n) :
      Configured (some text) defaultGameSeconds
  | unset : Configured none defaultGameSeconds

variable {text : String} {var : Option String} {n : Nat}

/-- Taking the sign off leaves exactly the digits, as no digit is a sign. -/
theorem unsigned_eq_iff {cs digits : List Char} (all : ∀ c ∈ digits, c.isDigit = true) :
    unsigned cs = digits ↔ cs = digits ∨ cs = '+' :: digits := by
  unfold unsigned
  split
  next rest =>
    refine ⟨fun same => .inr (by rw [same]), ?_⟩
    rintro (rfl | same)
    · exact absurd (all '+' List.mem_cons_self) (by decide)
    · exact (List.cons.inj same).2
  next unsigned =>
    refine ⟨.inl, ?_⟩
    rintro (same | signed)
    · exact same
    · exact absurd signed (unsigned digits)

/-- **What is parsed are the numerals of 64 bits.** The reader of the library stops at the first
digit that overflows, which is where the numeral does. -/
theorem u64FromStr_eq_some_iff {v : UInt64} : u64FromStr text = some v ↔ Numeral text v.toNat := by
  have read : ∀ digits, (Decimal.read (2 ^ 64) digits).map UInt64.ofNat = some v ↔
      (∀ c ∈ digits, c.isDigit = true) ∧ Nat.ofDigitChars 10 digits 0 = v.toNat := by
    intro digits
    simp only [Option.map_eq_some_iff, Decimal.read_eq_some_iff (by decide : 0 < 2 ^ 64)]
    constructor
    · rintro ⟨m, ⟨all, value, fits⟩, rfl⟩
      exact ⟨all, by rw [value, UInt64.toNat_ofNat_of_lt' fits]⟩
    · rintro ⟨all, value⟩
      exact ⟨v.toNat, ⟨all, value, v.toNat_lt⟩, UInt64.ofNat_toNat⟩
  simp only [u64FromStr]
  constructor
  · intro parsed
    split at parsed
    · cases parsed
    next some' =>
      obtain ⟨all, value⟩ := (read _).mp parsed
      exact ⟨_, (unsigned_eq_iff all).mp rfl, some', all, value⟩
  · rintro ⟨digits, shape, some', all, value⟩
    rw [(unsigned_eq_iff all).mpr shape, if_neg some', read]
    exact ⟨all, value⟩

/-- A numeral of 64 bits is parsed as its number. -/
theorem Numeral.parsed (numeral : Numeral text n) (fits : n < 2 ^ 64) :
    u64FromStr text = some (UInt64.ofNat n) := by
  rw [u64FromStr_eq_some_iff, UInt64.toNat_ofNat_of_lt' fits]
  exact numeral

/-- A parsed number is the game length unless it is zero. -/
theorem gameSeconds_some (v : UInt64) :
    gameSeconds (some v) = if 0 < v.toNat then v.toNat else defaultGameSeconds := by
  rw [gameSeconds, Option.map_some, Option.filter_some]
  by_cases positive : 0 < v.toNat
  · rw [if_pos (decide_eq_true positive), if_pos positive, Option.getD_some]
  · rw [if_neg (by simpa using positive), if_neg positive, Option.getD_none]

/-- **`main` settles on the configured length**, and on no other, for any text whatever in the
variable. -/
theorem configured_iff : Configured var n ↔ gameSeconds (parsedSeconds var) = n := by
  constructor
  · rintro (⟨text, n, numeral, positive, fits⟩ | ⟨text, no⟩ | _)
    · rw [parsedSeconds, Option.bind_some, numeral.parsed fits, gameSeconds_some,
        UInt64.toNat_ofNat_of_lt' fits, if_pos positive]
    · rw [parsedSeconds, Option.bind_some]
      cases parsed : u64FromStr text with
      | none => rfl
      | some v =>
        have fits := v.toNat_lt
        obtain zero | large := no v.toNat (u64FromStr_eq_some_iff.mp parsed)
        · rw [gameSeconds_some, zero, if_neg (by decide)]
        · omega
    · rfl
  · rintro rfl
    cases var with
    | none => exact .unset
    | some text =>
      rw [parsedSeconds, Option.bind_some]
      cases parsed : u64FromStr text with
      | none =>
        refine .refused text fun n numeral => .inr ?_
        by_contra fits
        cases parsed.symm.trans (numeral.parsed (Nat.lt_of_not_le fits))
      | some v =>
        rw [gameSeconds_some]
        split
        next positive =>
          exact .chosen text v.toNat (u64FromStr_eq_some_iff.mp parsed) positive v.toNat_lt
        next zero =>
          refine .refused text fun n numeral => ?_
          by_contra other
          have fits : n < 2 ^ 64 := by omega
          have same := Option.some.inj (parsed.symm.trans (numeral.parsed fits))
          rw [same, UInt64.toNat_ofNat_of_lt' fits] at zero
          omega

/-- A length that was written is the configured one, if it is one at all. -/
theorem configured_toString (positive : 0 < n) (fits : n < 2 ^ 64) :
    Configured (some (toString n)) n := by
  refine .chosen _ n ⟨Nat.toDigits 10 n, .inl ?_, Nat.toDigits_ne_nil, ?_, ?_⟩ positive fits
  · rw [Nat.toString_eq_ofList_toDigits, String.toList_ofList]
  · exact fun _ => Nat.isDigit_of_mem_toDigits (by decide) (by decide)
  · exact Nat.ofDigitChars_ten_toDigits

/-! ## What is made of it -/

/-- A status of a server whose games last `n` seconds: it says so, and shows no more seconds than
its phase can have. -/
structure CountdownStatus.Of (n : Nat) (status : CountdownStatus) : Prop where
  duration : status.durationSeconds = n
  running : status.state = .running → status.remainingSeconds ≤ n
  chaos : status.state = .chaos → status.remainingSeconds ≤ chaosSeconds
  ended : status.state = .finished ∨ status.state = .idle → status.remainingSeconds = 0

/-- The seconds shown are no more than what is left, rounded up. The cut to 64 bits only lowers
them. -/
theorem secondsRemaining_le {deadline now : Nat} (near : deadline ≤ now + fromSecs n) :
    secondsRemaining deadline now ≤ n := by
  have cut := Nat.mod_le ((deadline - now) / 1000000) (2 ^ 64)
  rw [secondsRemaining]
  rw [fromSecs] at near
  omega

/-- The status of a countdown whose deadlines are not too far, at any instant. -/
theorem countdownStatus_of {countdown : Countdown} {now : Nat}
    (kept : countdown.durationSeconds = n)
    (game : ∀ d, countdown.deadline = some d → d ≤ now + fromSecs n)
    (chaos : ∀ d, countdown.chaosDeadline = some d → d ≤ now + fromSecs chaosSeconds) :
    (countdownStatus countdown now).Of n := by
  rw [countdownStatus]
  split
  next d going =>
    obtain ⟨set, -⟩ := Option.filter_eq_some_iff.mp going
    refine ⟨kept, fun _ => secondsRemaining_le (game d set), ?_, ?_⟩
    · rintro ⟨⟩
    · rintro (state | state) <;> cases state
  · split
    next d going =>
      obtain ⟨set, -⟩ := Option.filter_eq_some_iff.mp going
      refine ⟨kept, ?_, fun _ => secondsRemaining_le (chaos d set), ?_⟩
      · rintro ⟨⟩
      · rintro (state | state) <;> cases state
    · split
      · refine ⟨kept, ?_, ?_, fun _ => rfl⟩
        · rintro ⟨⟩
        · rintro ⟨⟩
      · refine ⟨kept, ?_, ?_, fun _ => rfl⟩
        · rintro ⟨⟩
        · rintro ⟨⟩

namespace System

variable {es : List Event} {os : List Obs} {s s' : System} {e : Event} {o : Obs}
  {clock : Nat} {seed : UInt64}

/-- The server of games of `n` seconds, after its last start. The calls between their sections are
in it, as they hold a status that is answered later. -/
structure Lasting (n : Nat) (os : List Obs) (s : System) : Prop where
  kept : s.countdown.durationSeconds = n
  going : ∀ d, s.countdown.deadline = some d →
    ∃ opened, lastStart os = some opened ∧ opened ≤ s.clock ∧ d = opened + fromSecs n
  gone : s.countdown.deadline = none →
    ∀ opened, lastStart os = some opened → opened + fromSecs n ≤ s.clock
  chaos : ∀ d, s.countdown.chaosDeadline = some d → d ≤ s.clock + fromSecs chaosSeconds
  read : ∀ now, s.phase = .ticked now → now ≤ s.clock
  calls : ∀ call ∈ s.calls, call.status.Of n

/-- A move that leaves the game its deadline, and reads or answers nothing new. -/
theorem Lasting.quiet (h : Lasting n os s) (quiet : startOf o = none) (clock : s.clock ≤ s'.clock)
    (kept : s'.countdown.durationSeconds = s.countdown.durationSeconds)
    (deadline : s'.countdown.deadline = s.countdown.deadline)
    (chaos : ∀ d, s'.countdown.chaosDeadline = some d → s.countdown.chaosDeadline = some d)
    (read : ∀ now, s'.phase = .ticked now → now ≤ s'.clock) (calls : s'.calls ⊆ s.calls) :
    Lasting n (os ++ [o]) s' where
  kept := kept.trans h.kept
  going d set := by
    obtain ⟨opened, last, past, rfl⟩ := h.going d (deadline ▸ set)
    exact ⟨opened, (lastStart_snoc quiet).trans last, Nat.le_trans past clock, rfl⟩
  gone ended opened last := by
    rw [lastStart_snoc quiet] at last
    exact Nat.le_trans (h.gone (deadline ▸ ended) opened last) clock
  chaos d set := by
    have near := h.chaos d (chaos d set)
    omega
  read := read
  calls call waits := h.calls call (calls waits)

/-- What a read of the countdown is given, in any state of the run. -/
theorem Lasting.status (h : Lasting n os s) : (countdownStatus s.countdown s.clock).Of n := by
  refine countdownStatus_of h.kept ?_ h.chaos
  intro d set
  obtain ⟨opened, -, past, rfl⟩ := h.going d set
  exact Nat.add_le_add_right past _

/-- The status that a start answers, read no earlier than the game it opens. The longer the section
took, the fewer seconds it shows. -/
theorem Lasting.opening (h : Lasting n os s) {countdown : Countdown} (lasted : Nat)
    (opened : countdown = { s.countdown with
      deadline := some (s.clock + fromSecs s.countdown.durationSeconds)
      chaosDeadline := none
      game := Arith.saturatingAdd 64 s.countdown.game 1 }) :
    (countdownStatus countdown (s.clock + lasted)).Of n := by
  subst opened
  refine countdownStatus_of h.kept ?_ ?_
  · rintro d ⟨⟩
    rw [h.kept]
    exact Nat.add_le_add_right (Nat.le_add_right ..) _
  · rintro d ⟨⟩

/-- Every move keeps the deadlines where they may be. -/
theorem Lasting.step (h : Lasting n os s) (moved : Moved s e s' o) :
    Lasting n (os ++ [o]) s' := by
  cases moved with
  | advance elapsed =>
    exact h.quiet rfl (Nat.le_add_right ..) rfl rfl (fun _ => id)
      (fun now ticked => Nat.le_trans (h.read now ticked) (Nat.le_add_right ..))
      (List.Subset.refl _)
  | startGame lasted status countdown opened shown =>
    have last : lastStart (os ++ [.started s.clock status]) = some s.clock := by
      rw [lastStart, starts, filterMap_snoc, startOf, Option.toList_some, List.getLast?_concat]
      rfl
    have answered : status.Of n := shown ▸ h.opening lasted opened
    subst opened
    refine ⟨h.kept, ?_, ?_, ?_, ?_, ?_⟩
    · rintro d ⟨⟩
      exact ⟨s.clock, last, Nat.le_add_right .., by rw [h.kept]⟩
    · rintro ⟨⟩
    · rintro d ⟨⟩
    · intro now ticked
      exact Nat.le_trans (h.read now ticked) (Nat.le_add_right ..)
    · intro call waits
      obtain waits | rfl := by simpa using waits
      · exact h.calls call waits
      · exact answered
  | startMotor call c waits =>
    exact h.quiet rfl (Nat.le_refl _) rfl rfl (fun _ => id) h.read
      (List.eraseIdx_subset ..)
  | tick idle =>
    refine h.quiet rfl (Nat.le_refl _) rfl rfl (fun _ => id) ?_ (List.Subset.refl _)
    rintro now ⟨⟩
    exact Nat.le_refl _
  | startChaos now deadline ticked running expired =>
    have past := h.read now ticked
    obtain ⟨opened, last, -, rfl⟩ := h.going deadline running
    refine ⟨h.kept, ?_, ?_, ?_, ?_, h.calls⟩
    · rintro d ⟨⟩
    · intro _ opened' last'
      rw [lastStart_snoc rfl, last] at last'
      cases last'
      exact Nat.le_trans expired past
    · rintro d ⟨⟩
      exact Nat.add_le_add_right past _
    · rintro now ⟨⟩
  | finishChaos =>
    refine h.quiet rfl (Nat.le_refl _) rfl rfl ?_ ?_ (List.Subset.refl _)
    · rintro d ⟨⟩
    · rintro now ⟨⟩
  | changeMotor | noUpdate | performRandom | performFinish | performNone =>
    refine h.quiet rfl (Nat.le_refl _) rfl rfl (fun _ => id) ?_ (List.Subset.refl _)
    rintro now ⟨⟩
  | setMotor | refuseMotor | currentCountdown | apiMotor =>
    exact h.quiet rfl (Nat.le_refl _) rfl rfl (fun _ => id) h.read (List.Subset.refl _)

/-- The status that a section answers: a read of the countdown, or a `start_game`, when it computes
it and when it returns it. -/
def statusOf : Obs → Option CountdownStatus
  | .started _ status | .motorStarted status | .reported status => some status
  | _ => none

/-- Whatever is answered is of the configured length. -/
theorem Lasting.answers (h : Lasting n os s) (moved : Moved s e s' o) :
    ∀ status, statusOf o = some status → status.Of n := by
  cases moved with
  | startGame lasted status countdown opened shown =>
    rintro _ ⟨⟩
    exact shown ▸ h.opening lasted opened
  | startMotor call c waits =>
    rintro _ ⟨⟩
    exact h.calls c (List.mem_of_getElem? waits)
  | currentCountdown =>
    rintro _ ⟨⟩
    exact h.status
  | advance | tick | startChaos | finishChaos | changeMotor | noUpdate | performRandom
  | performFinish | performNone | setMotor | refuseMotor | apiMotor => exact nofun

/-- The deadlines and the answers of a whole run. -/
theorem lasting_of_runs {parsed : Option UInt64}
    (runs : Runs step (start parsed clock seed) es os s) :
    Lasting (gameSeconds parsed) os s ∧
      ∀ o ∈ os, ∀ status, statusOf o = some status → status.Of (gameSeconds parsed) := by
  induction runs with
  | nil => exact ⟨⟨rfl, nofun, fun _ => nofun, nofun, nofun, nofun⟩, nofun⟩
  | snoc _ last ih =>
    have moved := step_moved last
    refine ⟨ih.1.step moved, ?_⟩
    rw [List.forall_mem_append, List.forall_mem_singleton]
    exact ⟨ih.2, ih.1.answers moved⟩

/-- A read finds the game running exactly within its length after the last start. -/
theorem Lasting.running_iff (h : Lasting n os s) :
    (countdownStatus s.countdown s.clock).state = .running ↔
      ∃ opened, lastStart os = some opened ∧ s.clock < opened + fromSecs n := by
  rw [countdownStatus]
  split
  next d going =>
    obtain ⟨set, ahead⟩ := Option.filter_eq_some_iff.mp going
    obtain ⟨opened, last, -, rfl⟩ := h.going d set
    exact iff_of_true rfl ⟨opened, last, of_decide_eq_true ahead⟩
  next ended =>
    refine iff_of_false ?_ ?_
    · split
      · rintro ⟨⟩
      · split <;> rintro ⟨⟩
    · rintro ⟨opened, last, ahead⟩
      cases set : s.countdown.deadline with
      | none => exact absurd (h.gone set opened last) (Nat.not_le.mpr ahead)
      | some d =>
        obtain ⟨opened', last', -, rfl⟩ := h.going d set
        cases last.symm.trans last'
        rw [set, Option.filter_some, if_pos (decide_eq_true ahead)] at ended
        cases ended

/-- **Games are as long as configured.** Every setting of the variable gives one length, and that is
the length of every game in every run: each status that is answered says so, shows no more seconds
than its phase has and none outside of both, and a game is read to run exactly until that length has
passed since the last start. Nothing bounds the length but its 64 bits: a start that overflows the
clock panics, and is no step of a run. -/
theorem games_as_configured (runs : Runs step (start (parsedSeconds var) clock seed) es os s) :
    ∃ n, (∀ m, Configured var m ↔ m = n) ∧
      (∀ o ∈ os, ∀ status, statusOf o = some status → status.Of n) ∧
      ((countdownStatus s.countdown s.clock).state = .running ↔
        ∃ opened, lastStart os = some opened ∧ s.clock < opened + fromSecs n) := by
  obtain ⟨lasting, answers⟩ := lasting_of_runs runs
  exact ⟨_, fun m => configured_iff.trans eq_comm, answers, lasting.running_iff⟩

/-- Games of ninety seconds: the one that was started is read eighty-nine seconds later. -/
theorem games_as_configured_ninety :
    ∃ begun later s, Runs step (start (parsedSeconds (some "90")) 0 1)
        [.startGame 0, .advance (fromSecs 89), .currentCountdown]
        [.started 0 begun, .advanced, .reported later] s ∧
      begun.durationSeconds = 90 ∧ later.durationSeconds = 90 ∧
      (countdownStatus s.countdown s.clock).state = .running := by
  have played : (run step (start (parsedSeconds (some "90")) 0 1)
      [.startGame 0, .advance (fromSecs 89), .currentCountdown]).map
      (fun p => (p.2, p.1.clock)) =
      some ([.started 0 ⟨.running, 90, 90, 1⟩, .advanced, .reported ⟨.running, 1, 90, 1⟩],
        fromSecs 89) := by decide +kernel
  obtain ⟨os, s, runs, heq⟩ := runs_of_run played
  obtain ⟨rfl, hclock⟩ := by simpa only [Prod.mk.injEq] using heq
  obtain ⟨n, configured, answers, running⟩ := games_as_configured runs
  have written : toString 90 = "90" := rfl
  have chosen : Configured (some (toString 90)) 90 := configured_toString (by decide) (by decide)
  obtain rfl := (configured 90).mp (written ▸ chosen)
  obtain ⟨begun, -, later, -⟩ := by simpa only [List.forall_mem_cons] using answers
  exact ⟨_, _, s, runs, (begun _ rfl).duration, (later _ rfl).duration,
    running.mpr ⟨0, rfl, by rw [hclock]; decide⟩⟩

end System

end Motorball.Server
