import AgentRunner.Schedule

/-! A schedule by the minutes of the week: what a window covers as intervals of the week,
and when a schedule that is closed opens again. -/
namespace AgentRunner.WeekMinutes
open Schedule Validators

/-! ## Windows as intervals -/

/-- The minute `t` of the week lies between `first` and `last`, `last` excluded, modulo one
week. -/
def InWeek (first last t : ℤ) : Prop := ∃ k : ℤ, first ≤ t + k * 10080 ∧ t + k * 10080 < last

/-- Where a window ends, counted from the midnight before its start. -/
def endAfterStart (w : Window) : ℕ := if w.startMin < w.endMin then w.endMin else w.endMin + 1440

/-- The day is among those the window starts on; no days are every day. -/
def StartsOn (w : Window) (d : ℕ) : Prop := d < 7 ∧ (w.days = [] ∨ d ∈ w.days)

/-- The bounds of a window that was parsed. -/
structure Bounded (w : Window) : Prop where
  start : w.startMin < 1440
  last : w.endMin ≤ 1440
  distinct : w.startMin ≠ w.endMin
  days : ∀ d ∈ w.days, d < 7

/-- The day `contains` looks for: the tail past midnight belongs to the day before. -/
def startDay (w : Window) (weekday minute : ℕ) : ℕ :=
  if w.endMin ≤ w.startMin ∧ minute < w.endMin then (weekday + 6) % 7 else weekday

/-- The time of day is inside the window. -/
def InTime (w : Window) (minute : ℕ) : Prop :=
  if w.endMin ≤ w.startMin then w.startMin ≤ minute ∨ minute < w.endMin
  else w.startMin ≤ minute ∧ minute < w.endMin

theorem contains_iff_startDay (w : Window) (weekday minute : ℕ) :
    contains w weekday minute = true ↔
      InTime w minute ∧ (w.days = [] ∨ startDay w weekday minute ∈ w.days) := by
  by_cases wraps : w.endMin ≤ w.startMin
  · simp [contains, InTime, startDay, wraps]
  · simp [contains, InTime, startDay, wraps]

variable {w : Window} {weekday minute : ℕ}

/-- Inside the window, the interval of the start day covers the minute of the week. -/
theorem covered_of_inTime (bounded : Bounded w) (day : weekday < 7) (time : minute < 1440)
    (inside : InTime w minute) :
    InWeek (startDay w weekday minute * 1440 + w.startMin)
      (startDay w weekday minute * 1440 + endAfterStart w) (weekday * 1440 + minute) := by
  obtain ⟨start, last, distinct, -⟩ := bounded
  unfold InTime at inside
  unfold startDay endAfterStart
  by_cases wraps : w.endMin ≤ w.startMin
  · rw [if_pos wraps] at inside
    rw [if_neg (by omega : ¬ w.startMin < w.endMin)]
    by_cases tail : minute < w.endMin
    · rw [if_pos ⟨wraps, tail⟩]
      by_cases monday : weekday = 0
      · subst monday
        exact ⟨1, by omega, by omega⟩
      · exact ⟨0, by omega, by omega⟩
    · rw [if_neg fun both => tail both.2]
      exact ⟨0, by omega, by omega⟩
  · rw [if_neg wraps] at inside
    rw [if_pos (by omega : w.startMin < w.endMin), if_neg fun both => wraps both.1]
    exact ⟨0, by omega, by omega⟩

/-- A minute of the week is covered from one day only, the start day of its time of day. -/
theorem startDay_of_covered (bounded : Bounded w) (day : weekday < 7) (time : minute < 1440)
    {d : ℕ} (start : d < 7)
    (covered : InWeek (d * 1440 + w.startMin) (d * 1440 + endAfterStart w)
      (weekday * 1440 + minute)) : InTime w minute ∧ startDay w weekday minute = d := by
  obtain ⟨k, low, high⟩ := covered
  obtain ⟨first, last, distinct, -⟩ := bounded
  unfold endAfterStart at high
  unfold InTime startDay
  by_cases wraps : w.endMin ≤ w.startMin
  · rw [if_neg (by omega : ¬ w.startMin < w.endMin)] at high
    rw [if_pos wraps]
    by_cases tail : minute < w.endMin
    · rw [if_pos ⟨wraps, tail⟩]
      exact ⟨.inr tail, by omega⟩
    · rw [if_neg fun both => tail both.2]
      exact ⟨.inl (by omega), by omega⟩
  · rw [if_pos (by omega : w.startMin < w.endMin)] at high
    rw [if_neg wraps, if_neg fun both => wraps both.1]
    exact ⟨⟨by omega, by omega⟩, by omega⟩

/-- A window contains a minute of the week where the interval from one of its start days
covers it. -/
theorem contains_iff_covered (bounded : Bounded w) (day : weekday < 7) (time : minute < 1440) :
    contains w weekday minute = true ↔
      ∃ d, StartsOn w d ∧ InWeek (d * 1440 + w.startMin) (d * 1440 + endAfterStart w)
        (weekday * 1440 + minute) := by
  rw [contains_iff_startDay]
  constructor
  · rintro ⟨inside, named⟩
    refine ⟨startDay w weekday minute, ⟨?_, named⟩, covered_of_inTime bounded day time inside⟩
    unfold startDay
    split <;> omega
  · rintro ⟨d, ⟨start, named⟩, covered⟩
    obtain ⟨inside, rfl⟩ := startDay_of_covered bounded day time start covered
    exact ⟨inside, named⟩

/-! ## Schedules -/

/-- `should_run` at a minute of the week. -/
def openAt (runWindows pauseWindows : List Window) (weekday minute : ℕ) : Bool :=
  (runWindows.isEmpty || runWindows.any (contains · weekday minute)) &&
    !pauseWindows.any (contains · weekday minute)

variable {runWindows pauseWindows : List Window}

theorem shouldRun_eq_openAt (now : DateTime) :
    shouldRun now runWindows pauseWindows =
      openAt runWindows pauseWindows now.weekday now.minuteOfDay := rfl

theorem weekday_lt (now : DateTime) : now.weekday < 7 := by
  unfold DateTime.weekday
  omega

theorem minuteOfDay_lt (now : DateTime) : now.minuteOfDay < 1440 := by
  unfold DateTime.minuteOfDay
  omega

/-- Every minute of the week is read off some instant, in every zone. -/
theorem exists_reading (offset : ℤ) (day : weekday < 7) (time : minute < 1440) :
    ∃ t, DateTime.weekday ⟨t, offset⟩ = weekday ∧ DateTime.minuteOfDay ⟨t, offset⟩ = minute := by
  refine ⟨(weekday * 1440 + minute) * 60000000 - offset, ?_, ?_⟩
  · simp only [DateTime.weekday, DateTime.minuteIndex]
    omega
  · simp only [DateTime.minuteOfDay, DateTime.minuteIndex]
    omega

/-- A schedule is never open in a zone where it is open at no minute of the week. -/
theorem never_open_iff (offset : ℤ) :
    (∀ t, shouldRun ⟨t, offset⟩ runWindows pauseWindows = false) ↔
      ∀ weekday < 7, ∀ minute < 1440, openAt runWindows pauseWindows weekday minute = false := by
  constructor
  · intro closed weekday day minute time
    obtain ⟨t, onDay, atTime⟩ := exists_reading offset day time
    have shut := closed t
    rwa [shouldRun_eq_openAt, onDay, atTime] at shut
  · intro closed t
    exact closed _ (weekday_lt _) _ (minuteOfDay_lt _)

/-! ## The resume time -/

/-- The whole minutes after `now` at which the schedule is open. -/
def OpenMinutes (offset : ℤ) (runWindows pauseWindows : List Window) (now : ℤ) : Set ℤ :=
  {t | now < t ∧ (∃ m : ℤ, t = m * 60000000 - offset) ∧
    shouldRun ⟨t, offset⟩ runWindows pauseWindows = true}

/-- What the search finds is a whole minute. -/
theorem nextResumeAt_whole {now r : DateTime}
    (found : nextResumeAt now runWindows pauseWindows = some r) :
    ∃ m : ℤ, r.utc = m * 60000000 - now.offset := by
  rw [nextResumeAt_eq_map, Option.map_eq_some_iff] at found
  obtain ⟨k, -, rfl⟩ := found
  exact ⟨now.minuteIndex + k, truncated_addMinutes_utc now k⟩

theorem nextResumeAt_least {now r : DateTime}
    (closed : shouldRun now runWindows pauseWindows = false)
    (found : nextResumeAt now runWindows pauseWindows = some r) :
    IsLeast (OpenMinutes now.offset runWindows pauseWindows now.utc) r.utc := by
  obtain ⟨-, ⟨reached, opens⟩, earliest⟩ := nextResumeAt_first closed found
  refine ⟨⟨lt_of_le_of_ne reached ?_, nextResumeAt_whole found, opens⟩, ?_⟩
  · intro now_open
    rw [← now_open] at opens
    exact Bool.false_ne_true (closed.symm.trans opens)
  · rintro t ⟨later, -, open_then⟩
    exact earliest ⟨later.le, open_then⟩

/-- **The resume time is minimal and complete.**  From a closed instant the search finds
nothing exactly where the schedule is closed at every minute of the week, and otherwise the
least whole minute at which it is open; and `evaluate` reports a pause exactly at the closed
instants, with that time. -/
theorem resume_is_least_open_minute (runWindows pauseWindows : List Window) (now : DateTime) :
    (shouldRun now runWindows pauseWindows = false →
      (nextResumeAt now runWindows pauseWindows = none ↔
        ∀ weekday < 7, ∀ minute < 1440, openAt runWindows pauseWindows weekday minute = false) ∧
      ∀ r, nextResumeAt now runWindows pauseWindows = some r →
        r.offset = now.offset ∧
          IsLeast (OpenMinutes now.offset runWindows pauseWindows now.utc) r.utc) ∧
    ((evaluate runWindows pauseWindows now).paused = true ↔
      shouldRun now runWindows pauseWindows = false) ∧
    ((evaluate runWindows pauseWindows now).paused = true →
      (evaluate runWindows pauseWindows now).resumeAt =
        nextResumeAt now runWindows pauseWindows) := by
  refine ⟨fun closed => ⟨?_, fun r found => ?_⟩, ?_⟩
  · rw [nextResumeAt_eq_none, never_open_iff]
  · exact ⟨(nextResumeAt_first closed found).1, nextResumeAt_least closed found⟩
  · unfold evaluate
    cases shouldRun now runWindows pauseWindows with
    | true => exact ⟨by simp, by simp⟩
    | false => exact ⟨by simp, by simp⟩

/-- A schedule open on Saturdays from nine to ten. -/
def saturdayMorning : Window := ⟨540, 600, "sat 09:00-10:00", [5]⟩

/-- On Monday at noon it opens again on Saturday, and it is paused until then. -/
theorem saturday_opens_next :
    (evaluate [saturdayMorning] [] ⟨720 * 60000000, 0⟩).resumeAt =
        nextResumeAt ⟨720 * 60000000, 0⟩ [saturdayMorning] [] ∧
      ∀ r, nextResumeAt ⟨720 * 60000000, 0⟩ [saturdayMorning] [] = some r → r.offset = 0 ∧
        IsLeast (OpenMinutes 0 [saturdayMorning] [] (720 * 60000000)) r.utc := by
  have law := resume_is_least_open_minute [saturdayMorning] [] ⟨720 * 60000000, 0⟩
  have closed : shouldRun ⟨720 * 60000000, 0⟩ [saturdayMorning] [] = false := by decide
  exact ⟨law.2.2 (law.2.1.mpr closed), (law.1 closed).2⟩

end AgentRunner.WeekMinutes
