/-
# Adopting an interval

The controller may give any of the `2 ^ 64` doubles as the interval of the next check-in.  It is
converted to a duration in three places: where the dispatcher decides whether it can be polled at,
where the ticker is made, and once more for the timeout of the source, where the conversion must
not fail.

The second place decides: a ticker can be made exactly for an interval that is kept
(`Kept`, `Ticker.start_eq_ok_iff`), and then the third place converts it to the same duration.  So
adopting an interval ends in one of three ways (`Adoption`), of which only one changes something.
The first place is as strict as the second one as long as a day is left before the end of the clock
(`Kept.of_valid`), so that what the dispatcher lets through fails only if the source refuses it.
-/
import CheckIn.Proofs.Calls

namespace CheckIn

variable {clockEnd now : Nat} {refusal : Option PollError} {seconds : Binary64}
  {period : Duration} {cadence : Cadence}

/-! ## Tickers -/

/-- A ticker can keep an interval: it is a duration, not zero, and over before the clock ends. -/
structure Kept (clockEnd now : Nat) (seconds : Binary64) (period : Duration) : Prop where
  converts : Duration.ofBinary64? seconds = some period
  pos : 0 < period.nanos
  inTime : now + period.nanos ≤ clockEnd

/-- A ticker is made for the intervals that it can keep. -/
lemma Kept.start_eq (h : Kept clockEnd now seconds period) :
    Ticker.start clockEnd now seconds = .ok (.every period.nanos now) := by
  have hnot : ¬ (period.isZero = true ∨ clockEnd < now + period.nanos) := by
    rintro (hzero | hend)
    · exact Nat.ne_of_gt h.pos (of_decide_eq_true hzero)
    · exact Nat.not_le_of_lt hend h.inTime
  simp only [Ticker.start, h.converts, if_neg hnot]

/-- For every other interval there is only an error that names it. -/
lemma Ticker.start_eq_error (h : ∀ period, ¬ Kept clockEnd now seconds period) :
    Ticker.start clockEnd now seconds = .error (.invalidInterval seconds) := by
  unfold Ticker.start
  cases hperiod : Duration.ofBinary64? seconds with
  | none => rfl
  | some period =>
    have hunfit : period.isZero = true ∨ clockEnd < now + period.nanos := by
      by_contra hfit
      obtain ⟨hzero, hend⟩ := not_or.mp hfit
      have hpos : 0 < period.nanos := Nat.pos_of_ne_zero fun h => hzero (decide_eq_true h)
      exact h period ⟨hperiod, hpos, Nat.le_of_not_lt hend⟩
    exact if_pos hunfit

lemma Ticker.start_eq_ok_iff {ticker : Ticker} :
    Ticker.start clockEnd now seconds = .ok ticker ↔
      ∃ period, Kept clockEnd now seconds period ∧ ticker = .every period.nanos now := by
  constructor
  · intro hticker
    by_contra hnone
    have herror : Ticker.start clockEnd now seconds = .error (.invalidInterval seconds) := by
      refine Ticker.start_eq_error fun period hkept => hnone ⟨period, hkept, ?_⟩
      exact Except.ok.inj (hticker.symm.trans hkept.start_eq)
    cases hticker.symm.trans herror
  · rintro ⟨period, hkept, rfl⟩
    exact hkept.start_eq

/-! ## Cadences -/

namespace Cadence

/-- The ways in which adopting an interval ends: there is no ticker for it, or the source refuses
its timeout, or all of the cadence is another one. -/
inductive Adoption (clockEnd now : Nat) (refusal : Option PollError) (seconds : Binary64)
    (cadence : Cadence) : Except PollError Unit × Cadence × List Event → Prop
  | unkept (h : ∀ period, ¬ Kept clockEnd now seconds period) :
    Adoption clockEnd now refusal seconds cadence (.error (.invalidInterval seconds), cadence, [])
  | refused {period : Duration} {error : PollError} (h : Kept clockEnd now seconds period)
      (hrefusal : refusal = some error) :
    Adoption clockEnd now refusal seconds cadence (.error error, cadence, [.setTimeout period])
  | adopted {period : Duration} (h : Kept clockEnd now seconds period) (hrefusal : refusal = none) :
    Adoption clockEnd now refusal seconds cadence
      (.ok (), ⟨seconds, .every period.nanos now, period⟩, [.setTimeout period])

lemma adoption_adopt (clockEnd now : Nat) (refusal : Option PollError) (seconds : Binary64)
    (cadence : Cadence) :
    Adoption clockEnd now refusal seconds cadence
      (adopt clockEnd now refusal seconds cadence) := by
  by_cases hkept : ∃ period, Kept clockEnd now seconds period
  · obtain ⟨period, hkept⟩ := hkept
    cases hrefusal : refusal with
    | none =>
      simp only [adopt, hkept.start_eq, hkept.converts]
      exact .adopted hkept rfl
    | some error =>
      simp only [adopt, hkept.start_eq, hkept.converts]
      exact .refused hkept rfl
  · have hunkept := not_exists.mp hkept
    simp only [adopt, Ticker.start_eq_error hunkept]
    exact .unkept hunkept

section

variable {outcome : Except PollError Unit × Cadence × List Event}

lemma Adoption.eq_ok_iff (h : Adoption clockEnd now refusal seconds cadence outcome) :
    outcome.1 = .ok () ↔ refusal = none ∧ ∃ period, Kept clockEnd now seconds period := by
  cases h with
  | unkept h =>
    refine iff_of_false (by simp) ?_
    rintro ⟨-, period, hkept⟩
    exact h period hkept
  | refused h hrefusal => simp [hrefusal]
  | adopted h hrefusal => exact iff_of_true rfl ⟨hrefusal, _, h⟩

/-- All of the cadence follows the interval that is adopted. -/
lemma Adoption.all (h : Adoption clockEnd now refusal seconds cadence outcome)
    (hok : outcome.1 = .ok ()) : ∃ period, Duration.ofBinary64? seconds = some period ∧
      outcome.2 = (⟨seconds, .every period.nanos now, period⟩, [.setTimeout period]) := by
  cases h with
  | unkept => cases hok
  | refused => cases hok
  | adopted h => exact ⟨_, h.converts, rfl⟩

/-- An interval that is not adopted changes nothing, whatever the cause. -/
lemma Adoption.nothing (h : Adoption clockEnd now refusal seconds cadence outcome)
    {error : PollError} (herror : outcome.1 = .error error) :
    outcome.2.1 = cadence ∧ (refusal = some error ∨
      error = .invalidInterval seconds ∧ ∀ period, ¬ Kept clockEnd now seconds period) := by
  cases h with
  | unkept h =>
    cases herror
    exact ⟨rfl, .inr ⟨rfl, h⟩⟩
  | refused h hrefusal =>
    cases herror
    exact ⟨rfl, .inl hrefusal⟩
  | adopted => cases herror

/-- Adopting an interval reports nothing by itself. -/
lemma Adoption.log_not_mem (h : Adoption clockEnd now refusal seconds cadence outcome)
    (record : LogRecord) : .log record ∉ outcome.2.2 := by
  cases h <;> simp

end

end Cadence

/-! ## What the dispatcher lets through -/

/-- An interval that can be polled at is kept, as long as a day is left. -/
lemma Kept.of_valid (hvalid : validInterval seconds = true)
    (hday : now + Config.maxPollFrequency.nanos ≤ clockEnd) :
    ∃ period, Kept clockEnd now seconds period := by
  obtain ⟨period, hpollable⟩ := validInterval_iff.mp hvalid
  obtain ⟨hconverts, hzero, hle⟩ := pollable_eq_some_iff.mp hpollable
  have hpos : 0 < period.nanos := Nat.pos_of_ne_zero (of_decide_eq_false hzero)
  exact ⟨period, hconverts, hpos, Nat.le_trans (Nat.add_le_add_left hle now) hday⟩

/-- With exactly a day left, the dispatcher and the ticker accept the same intervals. -/
theorem validInterval_iff_start (hday : now + Config.maxPollFrequency.nanos = clockEnd) :
    validInterval seconds = true ↔
      ∃ ticker, Ticker.start clockEnd now seconds = .ok ticker := by
  constructor
  · intro hvalid
    obtain ⟨period, hkept⟩ := Kept.of_valid hvalid (Nat.le_of_eq hday)
    exact ⟨_, hkept.start_eq⟩
  · rintro ⟨ticker, hticker⟩
    obtain ⟨period, hkept, -⟩ := Ticker.start_eq_ok_iff.mp hticker
    have hle : period ≤ Config.maxPollFrequency :=
      Nat.le_of_add_le_add_left (hday ▸ hkept.inTime)
    exact validInterval_iff.mpr ⟨period, pollable_eq_some_iff.mpr
      ⟨hkept.converts, decide_eq_false (Nat.ne_of_gt hkept.pos), hle⟩⟩

namespace Dispatch

variable {κ : Type} {control : CadenceControl κ} {state : κ}

/-- The number in force is not asked for again, and nothing is asked for that cannot be polled
at. -/
lemma adoptInterval_of_not_valid (hvalid : validInterval seconds = false) :
    adoptInterval control seconds state = (.ok (), state,
      if seconds.sameNumber (control.interval state) then []
      else [.log (.intervalIgnored seconds)]) := by
  cases hsame : seconds.sameNumber (control.interval state) <;>
    simp [adoptInterval, hsame, hvalid]

/-- A failure is reported only of an interval that can be polled at, and with its cause. -/
lemma exists_of_failure_mem {reason : String}
    (hquiet : ∀ record, .log record ∉ (control.adopt seconds state).2.2)
    (h : .log (.stepFailed .cadence reason) ∈ (adoptInterval control seconds state).2.2) :
    validInterval seconds = true ∧ ∃ error, (control.adopt seconds state).1 = .error error ∧
      reason = (DispatchError.cadence seconds error).message := by
  cases hvalid : validInterval seconds with
  | false =>
    rw [adoptInterval_of_not_valid hvalid] at h
    cases hsame : seconds.sameNumber (control.interval state) <;> simp [hsame] at h
  | true =>
    cases hsame : seconds.sameNumber (control.interval state) with
    | true => simp [adoptInterval, hsame] at h
    | false =>
      cases hadopt : (control.adopt seconds state).1 with
      | ok _ =>
        simp [adoptInterval, hsame, hvalid, hadopt, hquiet, Except.mapError, CycleStep.handle] at h
      | error error =>
        have hreason : reason = (DispatchError.cadence seconds error).message := by
          simpa [adoptInterval, hsame, hvalid, hadopt, hquiet, Except.mapError, CycleStep.handle,
            CycleStep.policy] using h
        exact ⟨rfl, error, rfl, hreason⟩

end Dispatch

namespace Cadence

/-- What is true of every interval that a cadence is asked to adopt. -/
structure AllOrNothing (clockEnd now : Nat) (refusal : Option PollError) (seconds : Binary64)
    (cadence : Cadence) : Prop where
  /-- The timeout of the source is converted only after a ticker was made, and then it can be. -/
  converts : ∀ ticker, Ticker.start clockEnd now seconds = .ok ticker →
    ∃ period, Duration.ofBinary64? seconds = some period
  succeeds : (adopt clockEnd now refusal seconds cadence).1 = .ok () ↔
    refusal = none ∧ ∃ period, Kept clockEnd now seconds period
  all : (adopt clockEnd now refusal seconds cadence).1 = .ok () →
    ∃ period, Duration.ofBinary64? seconds = some period ∧
      (adopt clockEnd now refusal seconds cadence).2 =
        (⟨seconds, .every period.nanos now, period⟩, [.setTimeout period])
  /-- The source refuses the timeout, or there is no ticker for the interval; nothing changes. -/
  nothing : ∀ error, (adopt clockEnd now refusal seconds cadence).1 = .error error →
    (adopt clockEnd now refusal seconds cadence).2.1 = cadence ∧ (refusal = some error ∨
      error = .invalidInterval seconds ∧ ∀ period, ¬ Kept clockEnd now seconds period)
  /-- With a day left, there is a ticker for what the dispatcher lets through. -/
  ticks : validInterval seconds = true → now + 24 * 60 * 60 * nanosPerSecond ≤ clockEnd →
    ∃ ticker, Ticker.start clockEnd now seconds = .ok ticker
  /-- With a day left, the dispatcher reports only that the source refused. -/
  reports : now + 24 * 60 * 60 * nanosPerSecond ≤ clockEnd →
    ∀ reason, .log (.stepFailed .cadence reason) ∈
        (Dispatch.adoptInterval (control clockEnd now refusal) seconds cadence).2.2 →
      ∃ error, refusal = some error ∧ reason = (DispatchError.cadence seconds error).message
  /-- What the dispatcher does not let through is ignored. -/
  ignores : validInterval seconds = false →
    Dispatch.adoptInterval (control clockEnd now refusal) seconds cadence = (.ok (), cadence,
      if seconds.sameNumber cadence.interval then [] else [.log (.intervalIgnored seconds)])

/-- An interval is adopted as a whole or not at all, at every instant and whatever its bits are.
The conversion that must not fail does not, and what the dispatcher lets through fails only if
the source refuses it, as long as a day is left. -/
theorem adopt_all_or_nothing (clockEnd now : Nat) (refusal : Option PollError)
    (seconds : Binary64) (cadence : Cadence) :
    AllOrNothing clockEnd now refusal seconds cadence := by
  have hadoption := adoption_adopt clockEnd now refusal seconds cadence
  constructor
  case converts =>
    intro ticker hticker
    obtain ⟨period, hkept, -⟩ := Ticker.start_eq_ok_iff.mp hticker
    exact ⟨period, hkept.converts⟩
  case succeeds => exact hadoption.eq_ok_iff
  case all => exact hadoption.all
  case nothing => exact fun error => hadoption.nothing
  case ticks =>
    intro hvalid hday
    obtain ⟨period, hkept⟩ := Kept.of_valid hvalid hday
    exact ⟨_, hkept.start_eq⟩
  case reports =>
    intro hday reason hreason
    obtain ⟨hvalid, error, herror, rfl⟩ :=
      Dispatch.exists_of_failure_mem hadoption.log_not_mem hreason
    refine ⟨error, ?_, rfl⟩
    rcases (hadoption.nothing herror).2 with hrefusal | ⟨-, hunkept⟩
    · exact hrefusal
    · obtain ⟨period, hkept⟩ := Kept.of_valid hvalid hday
      exact absurd hkept (hunkept period)
  case ignores => exact Dispatch.adoptInterval_of_not_valid

/-- Ten seconds, as doubles and as a duration. -/
def tenSeconds (now : Nat) : Cadence where
  interval := ⟨0x4024000000000000⟩
  ticker := .every (10 * nanosPerSecond) now
  timeout := .ofSeconds 10

/-- Thirty seconds are adopted, unless the source refuses them, or less than that is left; a
not-a-number is ignored. -/
theorem adopt_thirty_seconds :
    (adopt (90 * nanosPerSecond) (50 * nanosPerSecond) none ⟨0x403e000000000000⟩
        (tenSeconds 0)).2.1 =
      ⟨⟨0x403e000000000000⟩, .every (30 * nanosPerSecond) (50 * nanosPerSecond), .ofSeconds 30⟩ ∧
    (adopt (90 * nanosPerSecond) (50 * nanosPerSecond) (some (.status 500)) ⟨0x403e000000000000⟩
        (tenSeconds 0)).2.1 = tenSeconds 0 ∧
    (adopt (79 * nanosPerSecond) (50 * nanosPerSecond) none ⟨0x403e000000000000⟩
        (tenSeconds 0)).2.1 = tenSeconds 0 ∧
    Dispatch.adoptInterval (control (90 * nanosPerSecond) (50 * nanosPerSecond) none)
        ⟨0x7ff8000000000000⟩ (tenSeconds 0) =
      (.ok (), tenSeconds 0, [.log (.intervalIgnored ⟨0x7ff8000000000000⟩)]) := by
  have hthirty : Duration.ofBinary64? ⟨0x403e000000000000⟩ = some (.ofSeconds 30) := by
    decide +kernel
  refine ⟨?_, ?_, ?_, ?_⟩
  · obtain ⟨period, hperiod, hall⟩ := (adopt_all_or_nothing (90 * nanosPerSecond)
      (50 * nanosPerSecond) none ⟨0x403e000000000000⟩ (tenSeconds 0)).all (by decide +kernel)
    obtain rfl := Option.some.inj (hthirty.symm.trans hperiod)
    rw [hall]
    rfl
  · exact ((adopt_all_or_nothing _ _ _ _ _).nothing (.status 500) (by decide +kernel)).1
  · exact ((adopt_all_or_nothing _ _ _ _ _).nothing (.invalidInterval ⟨0x403e000000000000⟩)
      (by decide +kernel)).1
  · have hother : Binary64.sameNumber ⟨0x7ff8000000000000⟩ (tenSeconds 0).interval = false := by
      decide +kernel
    have hignored := (adopt_all_or_nothing (90 * nanosPerSecond) (50 * nanosPerSecond) none
      ⟨0x7ff8000000000000⟩ (tenSeconds 0)).ignores (by decide +kernel)
    rw [hother] at hignored
    exact hignored

end Cadence

end CheckIn
