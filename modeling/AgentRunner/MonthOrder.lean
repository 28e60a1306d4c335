import AgentRunner.EventFile
import Mathlib.Data.String.Basic
import Mathlib.Tactic.Tauto

/-! The names of the month files sort as the months follow each other, and a month
is at least 28 days long: what lies in two later months than an instant lies that
much after it. -/
namespace AgentRunner.MonthOrder
open IsoTime EventFile

/-- The months of the calendar, numbered. -/
def monthIndex (d : Datetime) : Nat := d.year * 12 + (d.month - 1)

/-! ## File names -/

private theorem digitChar_fin : ∀ j k : Fin 10,
    (Char.ofNat (48 + j) < Char.ofNat (48 + k) ↔ j < k) ∧
      (Char.ofNat (48 + j) = Char.ofNat (48 + k) ↔ j = k) := by decide

theorem digitChar_lt (m n : Nat) : digitChar m < digitChar n ↔ m % 10 < n % 10 :=
  (digitChar_fin ⟨m % 10, Nat.mod_lt _ (by decide)⟩ ⟨n % 10, Nat.mod_lt _ (by decide)⟩).1

theorem digitChar_eq (m n : Nat) : digitChar m = digitChar n ↔ m % 10 = n % 10 := by
  have same := (digitChar_fin ⟨m % 10, Nat.mod_lt _ (by decide)⟩
    ⟨n % 10, Nat.mod_lt _ (by decide)⟩).2
  rw [Fin.mk.injEq] at same
  exact same

/-- Four digits compare as their numbers do. -/
private theorem fourDigits_lt {m n : Nat} (below : m < n) (small : n < 10000) :
    m / 1000 % 10 < n / 1000 % 10 ∨ m / 1000 % 10 = n / 1000 % 10 ∧
      (m / 100 % 10 < n / 100 % 10 ∨ m / 100 % 10 = n / 100 % 10 ∧
        (m / 10 % 10 < n / 10 % 10 ∨ m / 10 % 10 = n / 10 % 10 ∧ m % 10 < n % 10)) := by
  have hundreds : ∀ k, k / 100 / 10 = k / 1000 := fun k => Nat.div_div_eq_div_mul k 100 10
  have tens : ∀ k, k / 10 / 10 = k / 100 := fun k => Nat.div_div_eq_div_mul k 10 10
  have := hundreds m
  have := hundreds n
  have := tens m
  have := tens n
  obtain h | h := Nat.lt_or_eq_of_le (Nat.div_le_div_right (c := 1000) below.le)
  · omega
  obtain h | h := Nat.lt_or_eq_of_le (Nat.div_le_div_right (c := 100) below.le)
  · omega
  obtain h | h := Nat.lt_or_eq_of_le (Nat.div_le_div_right (c := 10) below.le)
  · omega
  · omega

/-- An earlier month has the smaller file name. -/
theorem monthOf_lt {a b : Datetime} (earlier : monthIndex a < monthIndex b) :
    monthOf a < monthOf b := by
  obtain ⟨-, ya, ma, ma', -⟩ := a.valid
  obtain ⟨-, yb, mb, mb', -⟩ := b.valid
  rw [monthIndex, monthIndex] at earlier
  rw [monthOf, monthOf, String.lt_iff_toList_lt, String.toList_ofList, String.toList_ofList]
  simp only [pad4, pad2, List.cons_append, List.nil_append, List.cons_lt_cons_iff, digitChar_lt,
    digitChar_eq, lt_irrefl, false_or, true_and, and_false, or_false]
  obtain before | ⟨same, before⟩ : a.year < b.year ∨ a.year = b.year ∧ a.month < b.month := by omega
  · have digits := fourDigits_lt before (by omega)
    tauto
  · rw [same]
    have tens : a.month / 10 % 10 < b.month / 10 % 10 ∨ a.month / 10 % 10 = b.month / 10 % 10 ∧
        a.month % 10 < b.month % 10 := by omega
    tauto

theorem monthOf_eq {a b : Datetime} (same : monthIndex a = monthIndex b) :
    monthOf a = monthOf b := by
  obtain ⟨-, -, ma, ma', -⟩ := a.valid
  obtain ⟨-, -, mb, mb', -⟩ := b.valid
  rw [monthIndex, monthIndex] at same
  have year : a.year = b.year := by omega
  have month : a.month = b.month := by omega
  rw [monthOf, monthOf, year, month]

theorem monthOf_le {a b : Datetime} (ordered : monthIndex a ≤ monthIndex b) :
    monthOf a ≤ monthOf b := by
  obtain earlier | same := Nat.lt_or_eq_of_le ordered
  · exact (monthOf_lt earlier).le
  · exact (monthOf_eq same).le

theorem monthIndex_lt {a b : Datetime} (before : monthOf a < monthOf b) :
    monthIndex a < monthIndex b := by
  by_contra late
  exact absurd before (not_lt.mpr (monthOf_le (not_lt.mp late)))

/-! ## Days -/

/-- The day a month begins on. -/
def monthStart (index : Nat) : Nat := ymd2ord (index / 12) (index % 12 + 1) 1

theorem daysInMonth_ge (year month : Nat) : 28 ≤ daysInMonth year month := by
  unfold daysInMonth
  split
  · split <;> decide
  all_goals decide

private theorem daysBeforeMonth_succ (year month : Nat) (positive : 0 < month) :
    daysBeforeMonth year (month + 1) = daysBeforeMonth year month + daysInMonth year month := by
  have split_ : month + 1 - 1 = (month - 1) + 1 := by omega
  have name : month - 1 + 1 = month := by omega
  rw [daysBeforeMonth, split_, List.range_succ, List.foldl_concat, name]
  rfl

private theorem daysInYear (year : Nat) :
    daysBeforeMonth year 12 + daysInMonth year 12 = 365 + if isLeap year then 1 else 0 := by
  have months : List.range (12 - 1) = [0, 1, 2, 3, 4, 5, 6, 7, 8, 9, 10] := rfl
  rw [daysBeforeMonth, months]
  simp only [List.foldl_cons, List.foldl_nil, daysInMonth]
  split <;> omega

private theorem div_succ (y k : Nat) :
    (y + 1) / k = y / k + if (y + 1) % k = 0 then 1 else 0 := by
  rw [Nat.succ_div]
  simp only [Nat.dvd_iff_mod_eq_zero]

private theorem daysBeforeYear_succ (year : Nat) (positive : 0 < year) :
    daysBeforeYear (year + 1) =
      daysBeforeYear year + (daysBeforeMonth year 12 + daysInMonth year 12) := by
  obtain ⟨y, rfl⟩ := Nat.exists_eq_add_of_le' positive
  have fewer : y / 100 ≤ y / 4 := Nat.div_le_div_left (by decide) (by decide)
  have hundred : (y + 1) % 100 = 0 → (y + 1) % 4 = 0 := by omega
  have fourHundred : (y + 1) % 400 = 0 → (y + 1) % 100 = 0 := by omega
  rw [daysInYear]
  simp only [daysBeforeYear, Nat.add_sub_cancel, div_succ y 4,
    div_succ y 100, div_succ y 400]
  simp only [isLeap, Bool.and_eq_true, Bool.or_eq_true, beq_iff_eq, bne_iff_ne]
  generalize y / 4 = leaps, y / 100 = centuries, y / 400 = cycles at fewer ⊢
  generalize (y + 1) % 4 = r4, (y + 1) % 100 = r100, (y + 1) % 400 = r400 at hundred fourHundred ⊢
  split_ifs <;> omega

/-- A month begins where the one before it ends. -/
theorem monthStart_succ (index : Nat) (positive : 12 ≤ index) :
    monthStart (index + 1) = monthStart index + daysInMonth (index / 12) (index % 12 + 1) := by
  have year : 0 < index / 12 := by omega
  obtain inside | last : index % 12 < 11 ∨ index % 12 = 11 := by omega
  · have same : (index + 1) / 12 = index / 12 := by omega
    have next : (index + 1) % 12 = index % 12 + 1 := by omega
    rw [monthStart, monthStart, ymd2ord, ymd2ord, same, next,
      daysBeforeMonth_succ _ (index % 12 + 1) (by omega)]
    omega
  · have same : (index + 1) / 12 = index / 12 + 1 := by omega
    have next : (index + 1) % 12 = 0 := by omega
    have december : index % 12 + 1 = 12 := by omega
    have first : daysBeforeMonth (index / 12 + 1) (0 + 1) = 0 := rfl
    rw [monthStart, monthStart, ymd2ord, ymd2ord, same, next, december, first,
      daysBeforeYear_succ _ year]
    omega

theorem monthStart_add (index n : Nat) (positive : 12 ≤ index) :
    monthStart index + 28 * n ≤ monthStart (index + n) := by
  induction n with
  | zero => exact Nat.le_refl _
  | succ n ih =>
    have step := monthStart_succ (index + n) (by omega)
    have long := daysInMonth_ge ((index + n) / 12) ((index + n) % 12 + 1)
    rw [← Nat.add_assoc]
    omega

/-- A date lies in its month. -/
theorem date_in_month (d : Datetime) :
    monthStart (monthIndex d) ≤ ymd2ord d.year d.month d.day ∧
      ymd2ord d.year d.month d.day < monthStart (monthIndex d + 1) := by
  obtain ⟨y, -, m, m', day, day', -⟩ := d.valid
  have year : monthIndex d / 12 = d.year := by rw [monthIndex]; omega
  have month : monthIndex d % 12 + 1 = d.month := by rw [monthIndex]; omega
  have large : 12 ≤ monthIndex d := by rw [monthIndex]; omega
  rw [monthStart_succ _ large, monthStart, year, month]
  simp only [ymd2ord]
  omega

/-- A UTC reading lies within its day. -/
theorem instant_in_day {d : Datetime} (utc : d.offset = some 0) :
    (ymd2ord d.year d.month d.day : Int) * 86400000000 ≤ d.instant ∧
      d.instant < (ymd2ord d.year d.month d.day + 1 : Int) * 86400000000 := by
  obtain ⟨-, -, -, -, -, -, h, m, s, us, -⟩ := d.valid
  rw [Datetime.instant, Datetime.micros, utc, Option.getD_some]
  constructor <;> omega

/-- As instants follow each other, so do their months. -/
theorem monthIndex_mono {a b : Datetime} (utcA : a.offset = some 0) (utcB : b.offset = some 0)
    (ordered : a.instant ≤ b.instant) : monthIndex a ≤ monthIndex b := by
  by_contra late
  obtain ⟨n, split_⟩ := Nat.exists_eq_add_of_lt (not_le.mp late)
  have first := date_in_month a
  have second := date_in_month b
  have dayA := instant_in_day utcA
  have dayB := instant_in_day utcB
  obtain ⟨y, -⟩ := b.valid
  have large : 12 ≤ monthIndex b + 1 := by rw [monthIndex]; omega
  have starts := monthStart_add (monthIndex b + 1) n large
  rw [show monthIndex b + 1 + n = monthIndex a by omega] at starts
  omega

/-- Two months on, at least 28 days have passed. -/
theorem two_months_apart {a c : Datetime} (utcA : a.offset = some 0) (utcC : c.offset = some 0)
    (apart : monthIndex a + 2 ≤ monthIndex c) :
    a.instant + 28 * 86400000000 ≤ c.instant := by
  obtain ⟨n, split_⟩ := Nat.exists_eq_add_of_le apart
  have first := date_in_month a
  have second := date_in_month c
  have dayA := instant_in_day utcA
  have dayC := instant_in_day utcC
  obtain ⟨y, -⟩ := a.valid
  have large : 12 ≤ monthIndex a + 1 := by rw [monthIndex]; omega
  have starts := monthStart_add (monthIndex a + 1) (n + 1) large
  rw [show monthIndex a + 1 + (n + 1) = monthIndex c by omega] at starts
  omega

end AgentRunner.MonthOrder
