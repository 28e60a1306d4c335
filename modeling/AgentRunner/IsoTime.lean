import AgentRunner.PyValue

/-! Timestamps of the event stream: `datetime.isoformat(timespec="milliseconds")`
as `now_iso_ms` writes it, `datetime.fromisoformat` as `parse_iso_ms` reads it,
and the comparison of the two kinds of value it returns. Python raises when a
naive value meets an aware one, so comparison is an `Except`. -/
namespace AgentRunner.IsoTime
open PyValue

/-! ## The proleptic Gregorian calendar -/

def isLeap (year : Nat) : Bool := year % 4 == 0 && (year % 100 != 0 || year % 400 == 0)

def daysInMonth (year month : Nat) : Nat :=
  match month with
  | 2 => if isLeap year then 29 else 28
  | 4 | 6 | 9 | 11 => 30
  | _ => 31

def daysBeforeYear (year : Nat) : Nat :=
  let y := year - 1
  y * 365 + y / 4 - y / 100 + y / 400

def daysBeforeMonth (year month : Nat) : Nat :=
  (List.range (month - 1)).foldl (fun days m => days + daysInMonth year (m + 1)) 0

/-- `_ymd2ord`: day 1 is 0001-01-01. -/
def ymd2ord (year month day : Nat) : Nat :=
  daysBeforeYear year + daysBeforeMonth year month + day

/-- `_ord2ymd`. -/
def ord2ymd (ordinal : Nat) : Nat × Nat × Nat :=
  let n := ordinal - 1
  let n400 := n / 146097
  let n := n % 146097
  let n100 := n / 36524
  let n := n % 36524
  let n4 := n / 1461
  let n := n % 1461
  let n1 := n / 365
  let n := n % 365
  let year := n400 * 400 + 1 + n100 * 100 + n4 * 4 + n1
  if n1 = 4 ∨ n100 = 4 then (year - 1, 12, 31)
  else
    let estimate := (n + 50) / 32
    let month := if daysBeforeMonth year estimate > n then estimate - 1 else estimate
    (year, month, n - daysBeforeMonth year month + 1)

/-- `_isoweek_to_gregorian`. -/
def isoweekToGregorian (year week day : Nat) : Option (Nat × Nat × Nat) :=
  let first := ymd2ord year 1 1
  let longYear := first % 7 == 4 || (first % 7 == 3 && isLeap year)
  if year = 0 ∨ 9999 < year then none
  else if week = 0 ∨ 53 < week ∨ (week = 53 ∧ longYear = false) then none
  else if day = 0 ∨ 7 < day then none
  else
    let weekday := (first + 6) % 7
    let monday := first - weekday + if 3 < weekday then 7 else 0
    some (ord2ymd (monday + (week - 1) * 7 + (day - 1)))

/-! ## Datetimes -/

/-- The ranges `datetime.__new__` and `timezone.__new__` enforce; the offset is
in microseconds and lies strictly within a day. -/
def Valid (year month day hour minute second microsecond : Nat) (offset : Option Int) : Prop :=
  1 ≤ year ∧ year ≤ 9999 ∧ 1 ≤ month ∧ month ≤ 12 ∧ 1 ≤ day ∧ day ≤ daysInMonth year month ∧
    hour < 24 ∧ minute < 60 ∧ second < 60 ∧ microsecond < 1000000 ∧
    ∀ o ∈ offset, -86400000000 < o ∧ o < 86400000000

instance (year month day hour minute second microsecond : Nat) (offset : Option Int) :
    Decidable (Valid year month day hour minute second microsecond offset) := by
  unfold Valid
  infer_instance

/-- A `datetime`; `offset` is `none` for a naive one. -/
structure Datetime where
  year : Nat
  month : Nat
  day : Nat
  hour : Nat
  minute : Nat
  second : Nat
  microsecond : Nat
  offset : Option Int
  valid : Valid year month day hour minute second microsecond offset
  deriving DecidableEq

namespace Datetime

/-- Microseconds on the local time line, from the day before 0001-01-01. -/
def micros (d : Datetime) : Int :=
  (((ymd2ord d.year d.month d.day * 24 + d.hour) * 60 + d.minute) * 60 + d.second) * 1000000 +
    d.microsecond

/-- The instant of an aware datetime: its local reading less its offset. -/
def instant (d : Datetime) : Int := d.micros - d.offset.getD 0

def isNaive (d : Datetime) : Bool := d.offset.isNone

/-- 1970-01-01T00:00:00Z on the same line. -/
def epochMicros : Int := (719163 * 86400) * 1000000

end Datetime

/-- `a < b`: a `TypeError` when exactly one of the two is naive. -/
def lt (a b : Datetime) : Except PyErr Bool :=
  if a.isNaive = b.isNaive then .ok (a.instant < b.instant) else .error .typeError

/-- `a >= b`. -/
def ge (a b : Datetime) : Except PyErr Bool :=
  if a.isNaive = b.isNaive then .ok (b.instant ≤ a.instant) else .error .typeError

/-- `d.timestamp()`; a naive value is read in the host's local time. -/
def timestamp (host : Host) (d : Datetime) : Except PyErr ℚ :=
  match d.offset with
  | some _ => .ok (((d.instant - Datetime.epochMicros : Int) : ℚ) / 1000000)
  | none => host.localEpoch [d.year, d.month, d.day, d.hour, d.minute, d.second, d.microsecond]

/-- `d.replace(tzinfo=UTC)` on a naive value. -/
def asUtc (d : Datetime) (naive : d.offset = none) : Datetime where
  year := d.year
  month := d.month
  day := d.day
  hour := d.hour
  minute := d.minute
  second := d.second
  microsecond := d.microsecond
  offset := some 0
  valid := by
    have v := d.valid
    rw [naive] at v
    simpa [Valid] using v

/-! ## Reading -/

def digit? (c : Char) : Option Nat :=
  if '0' ≤ c ∧ c ≤ '9' then some (c.toNat - '0'.toNat) else none

/-- A run of ASCII digits as a number; anything else is rejected. -/
def digits? (cs : List Char) : Option Nat :=
  cs.foldl (fun acc c => acc.bind fun n => (digit? c).map (10 * n + ·)) (some 0)

/-- Exactly `n` digits from the front of `cs`. -/
def digitsAt (n : Nat) (cs : List Char) : Option Nat :=
  if n ≤ cs.length then digits? (cs.take n) else none

/-- The length of the leading run of digits of `cs`. -/
def digitRun (cs : List Char) : Nat := (cs.takeWhile fun c => (digit? c).isSome).length

/-- `_find_isoformat_datetime_separator`, on a string of at least seven characters. -/
def findSeparator (cs : List Char) : Option Nat :=
  if cs.length = 7 then some 7
  else if cs[4]? = some '-' then
    if cs[5]? = some 'W' then
      if cs[8]? = some '-' then
        if cs.length = 9 then none
        else if 10 < cs.length ∧ ((cs[10]?).bind digit?).isSome then some 8
        else some 10
      else some 8
    else some 10
  else if cs[4]? = some 'W' then
    let idx := 7 + digitRun (cs.drop 7)
    if idx < 9 then some idx else if idx % 2 = 0 then some 7 else some 8
  else some 8

/-- `_parse_isoformat_date`. -/
def parseDate (cs : List Char) : Option (Nat × Nat × Nat) := do
  guard (cs.length = 7 ∨ cs.length = 8 ∨ cs.length = 10)
  let year ← digitsAt 4 cs
  let sep : Bool := cs[4]? = some '-'
  let rest := cs.drop (4 + sep.toNat)
  if rest[0]? = some 'W' then
    let week ← digitsAt 2 (rest.drop 1)
    let rest := rest.drop 3
    if rest = [] then isoweekToGregorian year week 1
    else
      guard ((rest[0]? == some '-') = sep)
      let rest := rest.drop sep.toNat
      guard (rest.length = 1)
      let day ← digitsAt 1 rest
      isoweekToGregorian year week day
  else
    let month ← digitsAt 2 rest
    let rest := rest.drop 2
    guard ((rest[0]? == some '-') = sep)
    let rest := rest.drop sep.toNat
    guard (rest.length = 2)
    let day ← digitsAt 2 rest
    some (year, month, day)

/-- The fraction of `_parse_hh_mm_ss_ff`: up to six digits count, padded on the
right, and any further digits are dropped. -/
def parseFraction (cs : List Char) : Option Nat := do
  let used := min cs.length 6
  guard (0 < used)
  let value ← digitsAt used cs
  guard ((cs.drop used).all fun c => (digit? c).isSome)
  some (value * 10 ^ (6 - used))

/-- `_parse_hh_mm_ss_ff`: hour, minute, second, microsecond. -/
def parseHms (cs : List Char) : Option (Nat × Nat × Nat × Nat) := do
  let hour ← digitsAt 2 cs
  let rest := cs.drop 2
  if rest = [] then some (hour, 0, 0, 0)
  else
    let sep : Bool := rest[0]? = some ':'
    let rest := rest.drop sep.toNat
    let minute ← digitsAt 2 rest
    let rest := rest.drop 2
    if rest = [] then some (hour, minute, 0, 0)
    else
      guard (sep = false ∨ rest[0]? = some ':')
      let rest := rest.drop sep.toNat
      let second ← digitsAt 2 rest
      let rest := rest.drop 2
      match rest with
      | [] => some (hour, minute, second, 0)
      | mark :: fraction =>
        guard (mark = '.' ∨ mark = ',')
        let micros ← parseFraction fraction
        some (hour, minute, second, micros)

/-- The text before and after the first `c`. -/
def splitAtChar (c : Char) (cs : List Char) : Option (List Char × List Char) :=
  if c ∈ cs then some (cs.takeWhile (· != c), (cs.dropWhile (· != c)).drop 1) else none

/-- The time zone of `_parse_isoformat_time`, from the text after its sign. -/
def parseOffset (sign : Int) (cs : List Char) : Option Int := do
  guard (cs.length ≠ 0 ∧ cs.length ≠ 1 ∧ cs.length ≠ 3)
  let (h, m, s, us) ← parseHms cs
  let size : Nat := ((h * 60 + m) * 60 + s) * 1000000 + us
  some (sign * (size : Int))

/-- `_parse_isoformat_time`: the time of day and the offset, if any. The first
`-` marks the zone, else the first `+`, else the first `Z`. -/
def parseTime (cs : List Char) : Option ((Nat × Nat × Nat × Nat) × Option Int) := do
  guard (2 ≤ cs.length)
  match splitAtChar '-' cs, splitAtChar '+' cs, splitAtChar 'Z' cs with
  | some (time, zone), _, _ => do
    let hms ← parseHms time
    let offset ← parseOffset (-1) zone
    some (hms, some offset)
  | none, some (time, zone), _ => do
    let hms ← parseHms time
    let offset ← parseOffset 1 zone
    some (hms, some offset)
  | none, none, some (time, zone) => do
    let hms ← parseHms time
    if zone = [] then some (hms, some 0)
    else
      let offset ← parseOffset 1 zone
      some (hms, some offset)
  | none, none, none => do
    let hms ← parseHms cs
    some (hms, none)

/-- `datetime(...)`, which refuses fields out of range. -/
def mkDatetime (date : Nat × Nat × Nat) (time : Nat × Nat × Nat × Nat) (offset : Option Int) :
    Option Datetime :=
  let (year, month, day) := date
  let (hour, minute, second, microsecond) := time
  if valid : Valid year month day hour minute second microsecond offset then
    some ⟨year, month, day, hour, minute, second, microsecond, offset, valid⟩
  else none

/-- `datetime.fromisoformat`. -/
def fromisoformat (cs : List Char) : Option Datetime := do
  guard (7 ≤ cs.length)
  let at' ← findSeparator cs
  let date ← parseDate (cs.take at')
  let tstr := cs.drop (at' + 1)
  if tstr = [] then mkDatetime date (0, 0, 0, 0) none
  else
    let (time, offset) ← parseTime tstr
    mkDatetime date time offset

/-- `ts.replace("Z", "+00:00")`. -/
def replaceZ (cs : List Char) : List Char :=
  cs.flatMap fun c => if c = 'Z' then "+00:00".toList else [c]

/-- `parse_iso_ms(ts)`: only a string has a `replace` method, and a text that
is no ISO-8601 timestamp is a `ValueError`. -/
def parseIsoMs (ts : Json) : Except PyErr Datetime :=
  match ts with
  | .str s =>
    match fromisoformat (replaceZ s.toList) with
    | some d => .ok d
    | none => .error .valueError
  | _ => .error .attributeError

/-! ## Writing -/

def digitChar (n : Nat) : Char := Char.ofNat ('0'.toNat + n % 10)

def pad2 (n : Nat) : List Char := [digitChar (n / 10), digitChar n]

def pad3 (n : Nat) : List Char := [digitChar (n / 100), digitChar (n / 10), digitChar n]

def pad4 (n : Nat) : List Char :=
  [digitChar (n / 1000), digitChar (n / 100), digitChar (n / 10), digitChar n]

/-- `now_iso_ms()` for the UTC reading `d`: `isoformat(timespec="milliseconds")`
with its `+00:00` replaced by `Z`. -/
def isoMs (d : Datetime) : String :=
  String.ofList (pad4 d.year ++ '-' :: pad2 d.month ++ '-' :: pad2 d.day ++ 'T' :: pad2 d.hour ++
    ':' :: pad2 d.minute ++ ':' :: pad2 d.second ++ '.' :: pad3 (d.microsecond / 1000) ++ ['Z'])

/-- `d` at millisecond precision. -/
def truncMs (d : Datetime) : Datetime where
  year := d.year
  month := d.month
  day := d.day
  hour := d.hour
  minute := d.minute
  second := d.second
  microsecond := d.microsecond / 1000 * 1000
  offset := d.offset
  valid := by
    obtain ⟨y, y', mo, mo', da, da', h, m, s, us, o⟩ := d.valid
    exact ⟨y, y', mo, mo', da, da', h, m, s, by omega, o⟩

/-! ## What is written is read back -/

private theorem digit_fin : ∀ k : Fin 10, digit? (Char.ofNat (48 + k)) = some k.val := by decide

@[simp] theorem digit_digitChar (n : Nat) : digit? (digitChar n) = some (n % 10) :=
  digit_fin ⟨n % 10, Nat.mod_lt _ (by decide)⟩

/-- A digit is none of the marks that structure a timestamp. -/
theorem digitChar_ne (n : Nat) {c : Char} (mark : digit? c = none) : digitChar n ≠ c := by
  rintro rfl
  simp at mark

@[simp] theorem digitChar_ne_dash (n : Nat) : digitChar n ≠ '-' := digitChar_ne n (by decide)
@[simp] theorem digitChar_ne_plus (n : Nat) : digitChar n ≠ '+' := digitChar_ne n (by decide)
@[simp] theorem digitChar_ne_zulu (n : Nat) : digitChar n ≠ 'Z' := digitChar_ne n (by decide)
@[simp] theorem digitChar_ne_week (n : Nat) : digitChar n ≠ 'W' := digitChar_ne n (by decide)

theorem digitsAt_pad2 (n : Nat) (small : n < 100) (rest : List Char) :
    digitsAt 2 (pad2 n ++ rest) = some n := by
  simp [digitsAt, pad2, digits?]
  omega

theorem digitsAt_pad3 (n : Nat) (small : n < 1000) :
    digitsAt 3 (pad3 n) = some n := by
  simp [digitsAt, pad3, digits?]
  omega

theorem digitsAt_pad4 (n : Nat) (small : n < 10000) (rest : List Char) :
    digitsAt 4 (pad4 n ++ rest) = some n := by
  simp [digitsAt, pad4, digits?]
  omega

theorem parseDate_iso {year month day : Nat} (y : year < 10000) (m : month < 100) (d : day < 100) :
    parseDate (pad4 year ++ '-' :: pad2 month ++ '-' :: pad2 day) = some (year, month, day) := by
  have hy := digitsAt_pad4 year y ('-' :: pad2 month ++ '-' :: pad2 day)
  have hm := digitsAt_pad2 month m ('-' :: pad2 day)
  have hd := digitsAt_pad2 day d []
  simp [pad4, pad2] at hy hm hd
  simp [parseDate, pad4, pad2, hy, hm, hd]

theorem parseHms_iso {hour minute second ms : Nat} (h : hour < 100) (m : minute < 100)
    (s : second < 100) (us : ms < 1000) :
    parseHms (pad2 hour ++ ':' :: pad2 minute ++ ':' :: pad2 second ++ '.' :: pad3 ms) =
      some (hour, minute, second, ms * 1000) := by
  have hh := digitsAt_pad2 hour h (':' :: pad2 minute ++ ':' :: pad2 second ++ '.' :: pad3 ms)
  have hm := digitsAt_pad2 minute m (':' :: pad2 second ++ '.' :: pad3 ms)
  have hs := digitsAt_pad2 second s ('.' :: pad3 ms)
  have hu := digitsAt_pad3 ms us
  simp [pad3, pad2] at hh hm hs hu
  simp [parseHms, parseFraction, pad3, pad2, hh, hm, hs, hu]

theorem splitAtChar_append {c : Char} {before after : List Char} (absent : c ∉ before) :
    splitAtChar c (before ++ c :: after) = some (before, after) := by
  have keep : ∀ x ∈ before, (x != c) = true := by
    intro x member
    simpa using fun same : x = c => absent (same ▸ member)
  simp [splitAtChar, List.takeWhile_append_of_pos keep, List.dropWhile_append_of_pos keep]

private theorem splitAtChar_none {c : Char} {cs : List Char} (absent : c ∉ cs) :
    splitAtChar c cs = none := by
  simp [splitAtChar, absent]

theorem parseTime_iso {hour minute second ms : Nat} (h : hour < 100) (m : minute < 100)
    (s : second < 100) (us : ms < 1000) :
    parseTime (pad2 hour ++ ':' :: pad2 minute ++ ':' :: pad2 second ++ '.' :: pad3 ms ++
      "+00:00".toList) = some ((hour, minute, second, ms * 1000), some 0) := by
  have hms := parseHms_iso h m s us
  have zone : parseOffset 1 ['0', '0', ':', '0', '0'] = some 0 := by decide
  generalize body : pad2 hour ++ ':' :: pad2 minute ++ ':' :: pad2 second ++ '.' :: pad3 ms = cs
    at *
  have dash : '-' ∉ cs ++ "+00:00".toList := by
    rw [← body]; simp [pad2, pad3, (digitChar_ne_dash _).symm]
  have plus : '+' ∉ cs := by
    rw [← body]; simp [pad2, pad3, (digitChar_ne_plus _).symm]
  have long : 2 ≤ cs.length := by rw [← body]; simp [pad2]
  have split : splitAtChar '+' (cs ++ "+00:00".toList) = some (cs, ['0', '0', ':', '0', '0']) :=
    splitAtChar_append plus
  have enough : 2 ≤ (cs ++ "+00:00".toList).length := by
    rw [List.length_append]; omega
  simp only [parseTime, splitAtChar_none dash, split, guard, if_pos enough]
  simp [hms, zone]

private theorem replaceZ_plain {cs : List Char} (absent : 'Z' ∉ cs) : replaceZ cs = cs := by
  induction cs with
  | nil => rfl
  | cons c cs ih =>
    simp only [List.mem_cons, not_or] at absent
    have rest := ih absent.2
    simp only [replaceZ, List.flatMap_cons] at rest ⊢
    rw [if_neg (Ne.symm absent.1), rest]
    rfl

/-- What `now_iso_ms` writes, `parse_iso_ms` reads back: the same aware
datetime, at millisecond precision. -/
theorem parseIsoMs_isoMs (d : Datetime) (utc : d.offset = some 0) :
    parseIsoMs (.str (isoMs d)) = .ok (truncMs d) := by
  obtain ⟨y, y', mo, mo', da, da', h, m, s, us, o⟩ := d.valid
  have month : d.day ≤ 31 := by
    refine da'.trans ?_
    unfold daysInMonth
    split <;> first | split <;> omega | omega
  have date := parseDate_iso (show d.year < 10000 by omega) (show d.month < 100 by omega)
    (show d.day < 100 by omega)
  have time := parseTime_iso (show d.hour < 100 by omega) (show d.minute < 100 by omega)
    (show d.second < 100 by omega) (show d.microsecond / 1000 < 1000 by omega)
  generalize dateText : pad4 d.year ++ '-' :: pad2 d.month ++ '-' :: pad2 d.day = ds at date
  generalize timeText : pad2 d.hour ++ ':' :: pad2 d.minute ++ ':' :: pad2 d.second ++
    '.' :: pad3 (d.microsecond / 1000) = ts at time
  have text : replaceZ (isoMs d).toList = ds ++ 'T' :: (ts ++ "+00:00".toList) := by
    have plain : 'Z' ∉ ds ++ 'T' :: ts := by
      rw [← dateText, ← timeText]
      simp [pad2, pad3, pad4, (digitChar_ne_zulu _).symm]
    have shape : (isoMs d).toList = (ds ++ 'T' :: ts) ++ ['Z'] := by
      rw [← dateText, ← timeText, isoMs, String.toList_ofList]
      simp
    have zulu : replaceZ ['Z'] = "+00:00".toList := rfl
    have apart : replaceZ ((ds ++ 'T' :: ts) ++ ['Z']) =
        replaceZ (ds ++ 'T' :: ts) ++ replaceZ ['Z'] := List.flatMap_append
    rw [shape, apart, replaceZ_plain plain, zulu, List.append_assoc, List.cons_append]
  have size : ds.length = 10 := by rw [← dateText]; simp [pad2, pad4]
  have sep : findSeparator (ds ++ 'T' :: (ts ++ "+00:00".toList)) = some 10 := by
    rw [← dateText]
    simp [findSeparator, pad4, pad2]
  have built : mkDatetime (d.year, d.month, d.day)
      (d.hour, d.minute, d.second, d.microsecond / 1000 * 1000) (some 0) = some (truncMs d) := by
    have v := (truncMs d).valid
    simp only [truncMs, utc] at v
    simp only [mkDatetime, v, dite_true, truncMs, utc]
  have parsed : fromisoformat (ds ++ 'T' :: (ts ++ "+00:00".toList)) = some (truncMs d) := by
    have long : 7 ≤ (ds ++ 'T' :: (ts ++ "+00:00".toList)).length := by
      rw [List.length_append]; omega
    have front : (ds ++ 'T' :: (ts ++ "+00:00".toList)).take 10 = ds := by
      rw [← size, List.take_left]
    have back : (ds ++ 'T' :: (ts ++ "+00:00".toList)).drop (10 + 1) = ts ++ "+00:00".toList := by
      rw [← size]; simp
    have nonempty : ts ++ "+00:00".toList ≠ [] := by simp
    simp only [fromisoformat, sep, guard, if_pos long, front, back, nonempty, if_false,
      Option.bind_eq_bind, Option.bind_some, date, time, built, Option.pure_def]
  simp only [parseIsoMs, text, parsed]

theorem isoMs_truthy (d : Datetime) : (Json.str (isoMs d)).truthy = true := by
  have text : isoMs d ≠ "" := by
    intro empty
    have chars := congrArg String.toList empty
    rw [isoMs, String.toList_ofList] at chars
    cases chars
  simpa [Json.truthy] using text

end AgentRunner.IsoTime
