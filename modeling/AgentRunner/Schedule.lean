import AgentRunner.Validators
import Mathlib.Algebra.Field.Periodic
import Mathlib.Algebra.Order.Archimedean.Basic
import Mathlib.Order.Bounds.Basic

/-! `schedule.py`: when a schedule is open, and the first minute at which a closed one
opens. A time zone is its fixed offset, and the calendar has no last year. -/
namespace AgentRunner.Schedule
open Validators

/-- An aware `datetime`: microseconds since Monday 0001-01-01 00:00 UTC, and the offset of
its zone, which the local reading adds. -/
structure DateTime where
  utc : ℤ
  offset : ℤ
  deriving DecidableEq, Repr

/-- The minutes of the local reading since that Monday. -/
def DateTime.minuteIndex (d : DateTime) : ℤ := (d.utc + d.offset) / 60000000

def DateTime.weekday (d : DateTime) : ℕ := (d.minuteIndex / 1440 % 7).toNat

/-- `_minute_of_day`: `hour * 60 + minute`. -/
def DateTime.minuteOfDay (d : DateTime) : ℕ := (d.minuteIndex % 1440).toNat

/-- `replace(second=0, microsecond=0)`. -/
def DateTime.truncated (d : DateTime) : DateTime :=
  { d with utc := d.minuteIndex * 60000000 - d.offset }

/-- `d + timedelta(minutes=k)`. -/
def DateTime.addMinutes (d : DateTime) (k : ℕ) : DateTime :=
  { d with utc := d.utc + k * 60000000 }

/-- `Window.contains`; a wrapped window's tail belongs to the day the window starts. -/
def contains (w : Window) (weekday minute : ℕ) : Bool :=
  let wraps := decide (w.endMin ≤ w.startMin)
  let inTime :=
    if wraps then decide (w.startMin ≤ minute) || decide (minute < w.endMin)
    else decide (w.startMin ≤ minute) && decide (minute < w.endMin)
  let startDay := if wraps && decide (minute < w.endMin) then (weekday + 6) % 7 else weekday
  inTime && (w.days.isEmpty || w.days.contains startDay)

def searchHorizonMin : ℕ := 8 * 1440

/-- `should_run`. -/
def shouldRun (now : DateTime) (runWindows pauseWindows : List Window) : Bool :=
  (runWindows.isEmpty || runWindows.any (contains · now.weekday now.minuteOfDay)) &&
    !pauseWindows.any (contains · now.weekday now.minuteOfDay)

/-- `next_resume_at`. -/
def nextResumeAt (now : DateTime) (runWindows pauseWindows : List Window) : Option DateTime :=
  ((List.range' 1 searchHorizonMin).map now.truncated.addMinutes).find?
    (shouldRun · runWindows pauseWindows)

/-- `_active_window_label`. -/
def activeWindowLabel (now : DateTime) (pauseWindows : List Window) : String :=
  match pauseWindows.find? (contains · now.weekday now.minuteOfDay) with
  | some w => w.label
  | none => "outside run_windows"

structure PauseDecision where
  paused : Bool
  resumeAt : Option DateTime
  activeWindow : Option String

def evaluate (runWindows pauseWindows : List Window) (now : DateTime) : PauseDecision :=
  if shouldRun now runWindows pauseWindows then ⟨false, none, none⟩
  else ⟨true, nextResumeAt now runWindows pauseWindows,
    some (activeWindowLabel now pauseWindows)⟩

/-! ## Minutes of the week -/

@[simp] theorem addMinutes_offset (d : DateTime) (k : ℕ) : (d.addMinutes k).offset = d.offset := rfl

@[simp] theorem truncated_offset (d : DateTime) : d.truncated.offset = d.offset := rfl

@[simp] theorem minuteIndex_truncated_addMinutes (d : DateTime) (k : ℕ) :
    (d.truncated.addMinutes k).minuteIndex = d.minuteIndex + k := by
  simp only [DateTime.minuteIndex, DateTime.truncated, DateTime.addMinutes]
  omega

theorem truncated_addMinutes_utc (d : DateTime) (k : ℕ) :
    (d.truncated.addMinutes k).utc = (d.minuteIndex + k) * 60000000 - d.offset := by
  simp only [DateTime.truncated, DateTime.addMinutes]
  ring

/-- A reading is before the start of a minute exactly where its own minute is earlier. -/
theorem before_minute_iff (d : DateTime) (m : ℤ) :
    d.utc < m * 60000000 - d.offset ↔ d.minuteIndex < m := by
  simp only [DateTime.minuteIndex]
  omega

/-- What a schedule looks at repeats every week. -/
theorem shouldRun_congr {d e : DateTime} (week : d.minuteIndex % 10080 = e.minuteIndex % 10080)
    (runWindows pauseWindows : List Window) :
    shouldRun d runWindows pauseWindows = shouldRun e runWindows pauseWindows := by
  have minute : d.minuteOfDay = e.minuteOfDay := by
    simp only [DateTime.minuteOfDay]
    omega
  have weekday : d.weekday = e.weekday := by
    simp only [DateTime.weekday]
    omega
  simp only [shouldRun, minute, weekday]

section Opening
variable (offset : ℤ) (runWindows pauseWindows : List Window)

/-- The schedule is open in the local minute `m`. -/
def openMinute (m : ℤ) : Bool :=
  shouldRun ⟨m * 60000000 - offset, offset⟩ runWindows pauseWindows

theorem shouldRun_eq_openMinute (d : DateTime) :
    shouldRun d runWindows pauseWindows =
      openMinute d.offset runWindows pauseWindows d.minuteIndex := by
  apply shouldRun_congr
  simp only [DateTime.minuteIndex]
  omega

theorem openMinute_weekly :
    Function.Periodic (openMinute offset runWindows pauseWindows) 10080 := by
  intro m
  apply shouldRun_congr
  simp only [DateTime.minuteIndex]
  omega

/-- The instants from `now` on at which the schedule is open. -/
def OpenFrom (now : ℤ) : Set ℤ :=
  {t | now ≤ t ∧ shouldRun ⟨t, offset⟩ runWindows pauseWindows = true}

end Opening

variable {now : DateTime} {runWindows pauseWindows : List Window}

/-- A schedule that is ever open is open within the horizon of the search. -/
theorem opens_within_horizon {t : ℤ}
    (opens : shouldRun ⟨t, now.offset⟩ runWindows pauseWindows = true) :
    ∃ k ∈ List.range' 1 searchHorizonMin,
      openMinute now.offset runWindows pauseWindows (now.minuteIndex + k) = true := by
  rw [shouldRun_eq_openMinute] at opens
  obtain ⟨m, ⟨after, within⟩, same⟩ :=
    (openMinute_weekly now.offset runWindows pauseWindows).exists_mem_Ioc (by norm_num)
      (DateTime.minuteIndex ⟨t, now.offset⟩) now.minuteIndex
  refine ⟨(m - now.minuteIndex).toNat, ?_, ?_⟩
  · rw [List.mem_range'_1, searchHorizonMin]
    omega
  · have landed : now.minuteIndex + ((m - now.minuteIndex).toNat : ℤ) = m := by omega
    rw [landed, ← same]
    exact opens

theorem nextResumeAt_eq_map :
    nextResumeAt now runWindows pauseWindows =
      ((List.range' 1 searchHorizonMin).find? fun k : ℕ =>
        openMinute now.offset runWindows pauseWindows (now.minuteIndex + k)).map
          now.truncated.addMinutes := by
  rw [nextResumeAt, List.find?_map]
  congr 2
  funext k
  simp [shouldRun_eq_openMinute]

/-- The search finds nothing exactly where the schedule is never open. -/
theorem nextResumeAt_eq_none :
    nextResumeAt now runWindows pauseWindows = none ↔
      ∀ t, shouldRun ⟨t, now.offset⟩ runWindows pauseWindows = false := by
  rw [nextResumeAt_eq_map, Option.map_eq_none_iff, List.find?_eq_none]
  constructor
  · intro closed t
    by_contra opens
    obtain ⟨k, member, found⟩ := opens_within_horizon (Bool.eq_true_of_not_eq_false opens)
    exact closed k member found
  · intro closed k _
    have never := closed ((now.minuteIndex + k) * 60000000 - now.offset)
    simp [openMinute, never]

/-- **The search finds the first opening.**  From a closed instant, what `next_resume_at`
finds is the least later instant at which the schedule is open, in the zone it was asked
about. -/
theorem nextResumeAt_first {r : DateTime} (closed : shouldRun now runWindows pauseWindows = false)
    (found : nextResumeAt now runWindows pauseWindows = some r) :
    r.offset = now.offset ∧
      IsLeast (OpenFrom now.offset runWindows pauseWindows now.utc) r.utc := by
  rw [nextResumeAt_eq_map, Option.map_eq_some_iff] at found
  obtain ⟨k, found, rfl⟩ := found
  obtain ⟨opens, member, earlier⟩ := List.find?_range'_eq_some.mp found
  rw [List.mem_range'_1] at member
  have later : now.utc < (now.truncated.addMinutes k).utc := by
    rw [truncated_addMinutes_utc, before_minute_iff]
    omega
  refine ⟨rfl, ⟨later.le, ?_⟩, ?_⟩
  · change shouldRun (now.truncated.addMinutes k) runWindows pauseWindows = true
    simpa [shouldRun_eq_openMinute] using opens
  · rintro t ⟨started, openThen⟩
    by_contra before
    have early : DateTime.minuteIndex ⟨t, now.offset⟩ < now.minuteIndex + k := by
      rw [← before_minute_iff, ← truncated_addMinutes_utc]
      exact not_le.mp before
    have reached : now.minuteIndex ≤ DateTime.minuteIndex ⟨t, now.offset⟩ := by
      simp only [DateTime.minuteIndex]
      omega
    rw [shouldRun_eq_openMinute] at openThen closed
    obtain here | further := reached.eq_or_lt
    · rw [← here, closed] at openThen
      exact Bool.false_ne_true openThen
    · have shut := earlier (DateTime.minuteIndex ⟨t, now.offset⟩ - now.minuteIndex).toNat
        (by omega) (by omega)
      rw [show now.minuteIndex +
        ((DateTime.minuteIndex ⟨t, now.offset⟩ - now.minuteIndex).toNat : ℤ) =
          DateTime.minuteIndex ⟨t, now.offset⟩ by omega, openThen] at shut
      simp at shut

/-- The search finds an opening of every schedule that is ever open. -/
theorem exists_nextResumeAt {t : ℤ}
    (opens : shouldRun ⟨t, now.offset⟩ runWindows pauseWindows = true) :
    ∃ r, nextResumeAt now runWindows pauseWindows = some r := by
  apply Option.ne_none_iff_exists'.mp
  intro none_found
  rw [nextResumeAt_eq_none.mp none_found t] at opens
  exact Bool.false_ne_true opens

end AgentRunner.Schedule
