import AgentRunner.IntText
import AgentRunner.IsoTime
import AgentRunner.WeekMinutes

/-! `schedule.parse_window`: the texts it reads and the windows it makes of them. Every
error is a `ValueError`, given here by its message; `repr` is Python's, of a text, and
`reprLower` is `repr(text.lower())`. -/
namespace AgentRunner.WindowText
open IntText IsoTime Schedule TextLines Validators WeekMinutes

variable (repr reprLower : String → String)

/-! ## Weekdays -/

def weekdayNames : List (List Char) :=
  ["mon".toList, "tue".toList, "wed".toList, "thu".toList, "fri".toList, "sat".toList,
    "sun".toList]

/-- `_WEEKDAYS[name]`. -/
def weekdayIndex (name : List Char) : Option ℕ :=
  if weekdayNames.contains name then some (weekdayNames.idxOf name) else none

/-- `text.lower()`, of the letters weekdays are written with: no other character lowers to
one of them, to a hyphen or to a comma. -/
def lower (text : List Char) : List Char := text.map Char.toLower

/-- One token of `_parse_weekday_spec`, stripped. -/
def parseWeekdayToken (spec token : List Char) : Except String (List ℕ) :=
  let quoted := reprLower (String.ofList token)
  if token = [] then .error ("empty weekday token in " ++ repr (String.ofList spec))
  else
    match splitAtChar '-' (lower token) with
    | some (a, b) =>
      match weekdayIndex a, weekdayIndex b with
      | some first, some last =>
        if last < first then
          .error ("weekday range must be ascending Mon..Sun: " ++ quoted)
        else .ok (List.range' first (last + 1 - first))
      | _, _ => .error ("invalid weekday range " ++ quoted)
    | none =>
      match weekdayIndex (lower token) with
      | some d => .ok [d]
      | none => .error ("invalid weekday " ++ quoted)

/-- `_parse_weekday_spec`: the members of the set, some perhaps twice. -/
def parseWeekdaySpec (spec : List Char) : Except String (List ℕ) := do
  let tokens := spec.splitOn ','
  return (← tokens.mapM fun token => parseWeekdayToken repr reprLower spec (strip token)).flatten

/-! ## Times -/

/-- `\d\d`, read by `int`. -/
def twoDigits (tens ones : Char) : Option ℕ :=
  (digitValue tens).bind fun t => (digitValue ones).map fun o => 10 * t + o

/-- `$` also matches in front of a final newline. -/
def beforeEnd (text : List Char) : List Char :=
  if text.getLast? = some '\n' then text.dropLast else text

/-- `_WINDOW_RE.match`, with its groups as numbers. -/
def matchWindow (text : List Char) : Option (ℕ × ℕ × ℕ × ℕ) :=
  match beforeEnd text with
  | [a, b, ':', c, d, '-', e, f, ':', g, h] => do
    return (← twoDigits a b, ← twoDigits c d, ← twoDigits e f, ← twoDigits g h)
  | _ => none

/-- `_to_minutes`; two digits make no negative number. -/
def toMinutes (h m : ℕ) (allow24 : Bool) (where_ : String) : Except String ℕ :=
  if h = 24 then
    if !allow24 || m ≠ 0 then .error (where_ ++ ": 24:00 is only valid as an end bound")
    else .ok 1440
  else if 23 < h then .error (where_ ++ ": hour " ++ toString h ++ " out of range")
  else if 59 < m then .error (where_ ++ ": minute " ++ toString m ++ " out of range")
  else .ok (h * 60 + m)

/-! ## Windows -/

/-- `spec.split(None, 1)` of a stripped text: its first word, and the rest if there is one. -/
def splitSpec (spec : List Char) : List Char × Option (List Char) :=
  let rest := lstrip (spec.dropWhile fun c => !isSpace c)
  (spec.takeWhile fun c => !isSpace c, if rest = [] then none else some rest)

/-- The weekdays and the part of the text that must be the times. -/
def weekdaysAndTimes (spec : List Char) : Except String (List ℕ × List Char) :=
  match splitSpec spec with
  | (first, some rest) =>
    if (matchWindow rest).isSome then do return (← parseWeekdaySpec repr reprLower first, rest)
    else .ok ([], spec)
  | (_, none) => .ok ([], spec)

/-- `parse_window`. -/
def parseWindow (s : String) : Except String Window := do
  let (days, timePart) ← weekdaysAndTimes repr reprLower (strip s.toList)
  let quoted := repr s
  match matchWindow timePart with
  | none => .error ("invalid window " ++ quoted ++ ": expected [WEEKDAYS ]HH:MM-HH:MM")
  | some (sh, sm, eh, em) =>
    let start ← toMinutes sh sm false ("window " ++ quoted ++ " start")
    let last ← toMinutes eh em true ("window " ++ quoted ++ " end")
    if start = last then
      .error ("invalid window " ++ quoted ++ ": start equals end (zero-length)")
    else return ⟨start, last, s, days⟩

/-! ## The grammar -/

/-- A token of the weekdays, in any case: a day, or a range of days that ascends. -/
inductive SpellsToken : List Char → List ℕ → Prop
  | day {text d} : weekdayIndex (lower text) = some d → SpellsToken text [d]
  | range {a b first last} : weekdayIndex (lower a) = some first →
      weekdayIndex (lower b) = some last → first ≤ last →
      SpellsToken (a ++ '-' :: b) (List.range' first (last + 1 - first))

/-- Tokens with commas between them, and the days they name. -/
def SpellsWeekdays (text : List Char) (days : List ℕ) : Prop :=
  ∃ tokens lists, tokens ≠ [] ∧ List.Forall₂ SpellsToken tokens lists ∧
    text = [','].intercalate tokens ∧ days = lists.flatten

/-- Two decimal digits. -/
def SpellsNumber (text : List Char) (n : ℕ) : Prop :=
  ∃ tens ones t o, text = [tens, ones] ∧ digitValue tens = some t ∧ digitValue ones = some o ∧
    n = 10 * t + o

/-- `HH:MM`. -/
def SpellsClock (text : List Char) (h m : ℕ) : Prop :=
  ∃ hours minutes, text = hours ++ ':' :: minutes ∧ SpellsNumber hours h ∧ SpellsNumber minutes m

/-- `HH:MM-HH:MM` with valid, distinct bounds; only the second may be 24:00. -/
def SpellsTimes (text : List Char) (start last : ℕ) : Prop :=
  ∃ opening closing sh sm eh em, text = opening ++ '-' :: closing ∧
    SpellsClock opening sh sm ∧ SpellsClock closing eh em ∧
    (sh < 24 ∧ sm < 60) ∧ (eh < 24 ∧ em < 60 ∨ eh = 24 ∧ em = 0) ∧
    start = sh * 60 + sm ∧ last = eh * 60 + em ∧ start ≠ last

def Blank (text : List Char) : Prop := ∀ c ∈ text, isSpace c = true

/-- `[WEEKDAYS ]HH:MM-HH:MM` with white space around it. -/
inductive Spells : List Char → List ℕ → ℕ → ℕ → Prop
  | everyDay {before times after start last} : Blank before → Blank after →
      SpellsTimes times start last → Spells (before ++ times ++ after) [] start last
  | onDays {before weekdays gap times after days start last} : Blank before → Blank after →
      SpellsWeekdays weekdays days → Blank gap → gap ≠ [] → SpellsTimes times start last →
      Spells (before ++ (weekdays ++ gap ++ times) ++ after) days start last

/-! ## Characters -/

variable {repr reprLower}

def Spaceless (text : List Char) : Prop := ∀ c ∈ text, isSpace c = false

theorem digit_solid {c : Char} {d : ℕ} (digit : digitValue c = some d) : isSpace c = false := by
  obtain ⟨z, found, -⟩ := Option.map_eq_some_iff.mp digit
  have within := List.find?_some found
  have apart : ∀ z ∈ digitZeros, 0x30 ≤ z ∧ (z + 10 ≤ 0x85 ∨ 0xA0 < z) ∧
      (z + 10 ≤ 0x1680 ∨ 0x1680 < z) ∧ (z + 10 ≤ 0x2000 ∨ 0x3000 < z) := by decide
  obtain ⟨low, first, second, third⟩ := apart z (List.mem_of_find?_eq_some found)
  simp only [Bool.and_eq_true, decide_eq_true_eq] at within
  simp only [isSpace, Bool.or_eq_false_iff, Bool.and_eq_false_iff, decide_eq_false_iff_not,
    beq_eq_false_iff_ne, ne_eq]
  omega

theorem weekdayNames_letters {name : List Char} (named : name ∈ weekdayNames) {c : Char}
    (member : c ∈ name) : 97 ≤ c.toNat ∧ c.toNat ≤ 122 := by
  have letters : weekdayNames.all (fun name => name.all fun c =>
      decide (97 ≤ c.toNat ∧ c.toNat ≤ 122)) = true := by decide
  exact of_decide_eq_true (List.all_eq_true.mp (List.all_eq_true.mp letters name named) c member)

theorem weekdayIndex_mem {name : List Char} {d : ℕ} (named : weekdayIndex name = some d) :
    name ∈ weekdayNames ∧ d < 7 := by
  unfold weekdayIndex at named
  split at named
  · rename_i member
    rw [List.contains_iff_mem] at member
    obtain rfl := Option.some.inj named
    exact ⟨member, List.idxOf_lt_length_iff.mpr member⟩
  · exact absurd named (by simp)

/-- Lower case leaves what is no capital letter alone. -/
theorem toLower_or (c : Char) : c.toLower = c ∨ (65 ≤ c.toNat ∧ c.toNat ≤ 90) := by
  unfold Char.toLower
  split
  · rename_i capital
    exact .inr ⟨capital.1, capital.2⟩
  · exact .inl rfl

/-- The characters of a day are letters. -/
theorem day_letters {text : List Char} {d : ℕ} (named : weekdayIndex (lower text) = some d)
    {c : Char} (member : c ∈ text) :
    (65 ≤ c.toNat ∧ c.toNat ≤ 90) ∨ (97 ≤ c.toNat ∧ c.toNat ≤ 122) := by
  have letter := weekdayNames_letters (weekdayIndex_mem named).1 (List.mem_map_of_mem member)
  rcases toLower_or c with same | capital
  · rw [same] at letter
    exact .inr letter
  · exact .inl capital

theorem day_spaceless {text : List Char} {d : ℕ} (named : weekdayIndex (lower text) = some d) :
    Spaceless text := by
  intro c member
  have letter := day_letters named member
  simp only [isSpace, Bool.or_eq_false_iff, Bool.and_eq_false_iff, decide_eq_false_iff_not,
    beq_eq_false_iff_ne, ne_eq]
  omega

theorem day_absent {text : List Char} {d : ℕ} (named : weekdayIndex (lower text) = some d)
    {c : Char} (mark : c.toNat < 65) : c ∉ text := by
  intro member
  have letter := day_letters named member
  omega

/-- Only a mark itself lowers to a mark. -/
theorem lower_mark {c d : Char} (mark : d.toNat < 65) (lowers : c.toLower = d) : c = d := by
  unfold Char.toLower at lowers
  split at lowers
  · rename_i capital
    have low : 65 ≤ c.val.toNat := capital.1
    have high : c.val.toNat ≤ 90 := capital.2
    have shifted : (c.val + ('a'.val - 'A'.val)).toNat = d.toNat := congrArg Char.toNat lowers
    rw [UInt32.toNat_add, show ('a'.val - 'A'.val).toNat = 32 from rfl] at shifted
    omega
  · exact lowers

/-! ## Weekdays -/

theorem lower_append (a b : List Char) : lower (a ++ '-' :: b) = lower a ++ '-' :: lower b := by
  simp [lower]

theorem splitAtChar_whole {c : Char} {text a b : List Char}
    (cut : splitAtChar c text = some (a, b)) : text = a ++ c :: b := by
  have member : c ∈ text := by
    unfold splitAtChar at cut
    split at cut
    · assumption
    · exact absurd cut (by simp)
  obtain ⟨before, after, rfl, absent⟩ := List.eq_append_cons_of_mem member
  rw [splitAtChar_append absent] at cut
  obtain ⟨rfl, rfl⟩ := Prod.mk.inj (Option.some.inj cut)
  rfl

theorem lower_split {token a b : List Char} (cut : splitAtChar '-' (lower token) = some (a, b)) :
    ∃ left right, token = left ++ '-' :: right ∧ lower left = a ∧ lower right = b := by
  have whole : token.map Char.toLower = a ++ '-' :: b := splitAtChar_whole cut
  obtain ⟨left, rest, rfl, onLeft, onRest⟩ := List.map_eq_append_iff.mp whole
  obtain ⟨mark, right, rfl, lowers, onRight⟩ := List.map_eq_cons_iff.mp onRest
  obtain rfl := lower_mark (by decide) lowers
  exact ⟨left, right, rfl, onLeft, onRight⟩

theorem weekdayIndex_absent {name : List Char} {d : ℕ} (named : weekdayIndex name = some d)
    {c : Char} (mark : c.toNat < 65) : c ∉ name := by
  intro member
  have letter := weekdayNames_letters (weekdayIndex_mem named).1 member
  omega

theorem token_filled {text : List Char} {days : List ℕ} (spelled : SpellsToken text days) :
    text ≠ [] := by
  cases spelled with
  | day named =>
    rintro rfl
    rw [show weekdayIndex (lower []) = none by decide] at named
    exact absurd named (by simp)
  | range => exact List.append_ne_nil_of_right_ne_nil _ (List.cons_ne_nil _ _)

theorem weekdayToken_iff {spec token : List Char} {days : List ℕ} :
    parseWeekdayToken repr reprLower spec token = .ok days ↔ SpellsToken token days := by
  constructor
  · intro read
    unfold parseWeekdayToken at read
    dsimp only at read
    split at read
    · exact absurd read (by simp)
    · split at read
      · rename_i a b cut
        obtain ⟨left, right, rfl, rfl, rfl⟩ := lower_split cut
        split at read
        · rename_i first last fromDay toDay
          split at read
          · exact absurd read (by simp)
          · obtain rfl := Except.ok.inj read
            exact .range fromDay toDay (by omega)
        · exact absurd read (by simp)
      · split at read
        · rename_i d named
          obtain rfl := Except.ok.inj read
          exact .day named
        · exact absurd read (by simp)
  · intro spelled
    unfold parseWeekdayToken
    dsimp only
    cases spelled with
    | @day _ d named =>
      have filled := token_filled (.day named)
      have whole : splitAtChar '-' (lower token) = none := by
        rw [splitAtChar, if_neg (weekdayIndex_absent named (by decide))]
      rw [if_neg filled, whole]
      dsimp only
      rw [named]
    | @range a b first last fromDay toDay ascends =>
      have filled := token_filled (.range fromDay toDay ascends)
      have absent : '-' ∉ lower a := weekdayIndex_absent fromDay (by decide)
      rw [if_neg filled, lower_append, splitAtChar_append absent]
      dsimp only
      rw [fromDay, toDay]
      dsimp only
      rw [if_neg (by omega)]

theorem token_characters {text : List Char} {days : List ℕ} (spelled : SpellsToken text days) :
    Spaceless text ∧ ',' ∉ text := by
  cases spelled with
  | day named => exact ⟨day_spaceless named, day_absent named (by decide)⟩
  | range fromDay toDay _ =>
    refine ⟨List.forall_mem_append.mpr ⟨day_spaceless fromDay,
      List.forall_mem_cons.mpr ⟨by decide, day_spaceless toDay⟩⟩, ?_⟩
    rw [List.mem_append, List.mem_cons, not_or, not_or]
    exact ⟨day_absent fromDay (by decide), by decide, day_absent toDay (by decide)⟩

theorem forall_intercalate {p : Char → Prop} {mark : Char} (marked : p mark)
    {tokens : List (List Char)} :
    (∀ c ∈ [mark].intercalate tokens, p c) ↔ ∀ token ∈ tokens, ∀ c ∈ token, p c := by
  induction tokens with
  | nil => simp
  | cons token tokens ih =>
    cases tokens with
    | nil => simp
    | cons next rest =>
      rw [List.intercalate_cons_cons, List.forall_mem_append, List.forall_mem_append,
        List.forall_mem_cons (l := next :: rest), ih]
      simp [marked]

theorem forall₂_left {α β : Type} {r : α → β → Prop} {xs : List α} {ys : List β}
    (each : List.Forall₂ r xs ys) : ∀ x ∈ xs, ∃ y, r x y := by
  induction each with
  | nil => exact List.forall_mem_nil _
  | cons here _ ih => exact List.forall_mem_cons.mpr ⟨⟨_, here⟩, ih⟩

theorem forall₂_congr {α β : Type} {r s : α → β → Prop} {xs : List α} {ys : List β}
    (same : ∀ x ∈ xs, ∀ y, r x y ↔ s x y) : List.Forall₂ r xs ys ↔ List.Forall₂ s xs ys := by
  induction xs generalizing ys with
  | nil => simp only [List.forall₂_nil_left_iff]
  | cons x xs ih =>
    obtain ⟨here, later⟩ := List.forall_mem_cons.mp same
    simp only [List.forall₂_cons_left_iff, here, ih later]

/-- Weekdays are read where they are spelled out. -/
theorem weekdaySpec_iff {spec : List Char} {days : List ℕ} (solid : Spaceless spec) :
    parseWeekdaySpec repr reprLower spec = .ok days ↔ SpellsWeekdays spec days := by
  have each : ∀ lists, (spec.splitOn ',').mapM (fun token =>
      parseWeekdayToken repr reprLower spec (strip token)) = .ok lists ↔
      List.Forall₂ SpellsToken (spec.splitOn ',') lists := by
    intro lists
    rw [mapM_ok_iff]
    refine forall₂_congr fun token member y => ?_
    have whole : Spaceless ([','].intercalate (spec.splitOn ',')) := by
      rw [List.intercalate_splitOn]
      exact solid
    have inked := (forall_intercalate (by decide)).mp whole token member
    rw [strip_spaceless inked, weekdayToken_iff]
  unfold parseWeekdaySpec
  simp only [bind_eq_ok, each]
  constructor
  · rintro ⟨lists, spelled, built⟩
    exact ⟨spec.splitOn ',', lists, List.splitOn_ne_nil _ _, spelled,
      (List.intercalate_splitOn ',').symm, (Except.ok.inj built).symm⟩
  · rintro ⟨tokens, lists, some_, spelled, rfl, rfl⟩
    have apart : ∀ token ∈ tokens, ',' ∉ token := by
      intro token member
      obtain ⟨_, here⟩ := forall₂_left spelled token member
      exact (token_characters here).2
    have whole := List.splitOn_intercalate ',' apart some_
    exact ⟨lists, whole.symm ▸ spelled, rfl⟩

theorem weekdays_spaceless {text : List Char} {days : List ℕ} (spelled : SpellsWeekdays text days) :
    Spaceless text ∧ text ≠ [] := by
  obtain ⟨tokens, lists, some_, each, rfl, -⟩ := spelled
  have solid : ∀ token ∈ tokens, Spaceless token := by
    intro token member
    obtain ⟨_, here⟩ := forall₂_left each token member
    exact (token_characters here).1
  refine ⟨(forall_intercalate (by decide)).mpr solid, ?_⟩
  cases each with
  | nil => exact absurd rfl some_
  | @cons token _ rest _ here _ =>
    have filled := token_filled here
    cases rest with
    | nil => simpa using filled
    | cons next rest => simp [List.intercalate_cons_cons]

/-! ## Times -/

theorem twoDigits_iff {tens ones : Char} {n : ℕ} :
    twoDigits tens ones = some n ↔ SpellsNumber [tens, ones] n := by
  unfold twoDigits SpellsNumber
  rw [Option.bind_eq_some_iff]
  constructor
  · rintro ⟨t, first, rest⟩
    obtain ⟨o, second, rfl⟩ := Option.map_eq_some_iff.mp rest
    exact ⟨tens, ones, t, o, rfl, first, second, rfl⟩
  · rintro ⟨_, _, t, o, same, first, second, rfl⟩
    obtain ⟨rfl, rfl⟩ : tens = _ ∧ ones = _ := by simpa using same
    exact ⟨t, first, Option.map_eq_some_iff.mpr ⟨o, second, rfl⟩⟩

theorem number_spaceless {text : List Char} {n : ℕ} (spelled : SpellsNumber text n) :
    Spaceless text := by
  obtain ⟨tens, ones, t, o, rfl, first, second, -⟩ := spelled
  exact List.forall_mem_cons.mpr ⟨digit_solid first,
    List.forall_mem_singleton.mpr (digit_solid second)⟩

theorem clock_spaceless {text : List Char} {h m : ℕ} (spelled : SpellsClock text h m) :
    Spaceless text := by
  obtain ⟨hours, minutes, rfl, first, second⟩ := spelled
  exact List.forall_mem_append.mpr ⟨number_spaceless first,
    List.forall_mem_cons.mpr ⟨by decide, number_spaceless second⟩⟩

theorem times_spaceless {text : List Char} {start last : ℕ}
    (spelled : SpellsTimes text start last) : Spaceless text ∧ text ≠ [] := by
  obtain ⟨opening, closing, sh, sm, eh, em, rfl, first, second, -⟩ := spelled
  exact ⟨List.forall_mem_append.mpr ⟨clock_spaceless first,
    List.forall_mem_cons.mpr ⟨by decide, clock_spaceless second⟩⟩,
    List.append_ne_nil_of_right_ne_nil _ (List.cons_ne_nil _ _)⟩

/-- Where no newline ends the text, the expression matches two times of day. -/
theorem matchWindow_iff {text : List Char} (ends : text.getLast? ≠ some '\n') {sh sm eh em : ℕ} :
    matchWindow text = some (sh, sm, eh, em) ↔ ∃ opening closing,
      text = opening ++ '-' :: closing ∧ SpellsClock opening sh sm ∧ SpellsClock closing eh em := by
  unfold matchWindow
  rw [beforeEnd, if_neg ends]
  constructor
  · intro matched
    split at matched
    · rename_i a b c d e f g h
      simp only [Option.bind_eq_bind, Option.bind_eq_some_iff, twoDigits_iff] at matched
      obtain ⟨_, first, _, second, _, third, _, fourth, built⟩ := matched
      obtain ⟨rfl, rfl, rfl, rfl⟩ := by simpa using built
      exact ⟨_, _, rfl, ⟨[a, b], [c, d], rfl, first, second⟩, ⟨[e, f], [g, h], rfl, third, fourth⟩⟩
    · exact absurd matched (by simp)
  · rintro ⟨_, _, rfl, ⟨_, _, rfl, first, second⟩, ⟨_, _, rfl, third, fourth⟩⟩
    obtain ⟨a, b, _, _, rfl, -⟩ := id first
    obtain ⟨c, d, _, _, rfl, -⟩ := id second
    obtain ⟨e, f, _, _, rfl, -⟩ := id third
    obtain ⟨g, h, _, _, rfl, -⟩ := id fourth
    simp only [List.cons_append, List.nil_append, twoDigits_iff.mpr first, twoDigits_iff.mpr second,
      twoDigits_iff.mpr third, twoDigits_iff.mpr fourth, Option.bind_eq_bind, Option.bind_some]
    rfl

theorem toMinutes_iff {h m n : ℕ} {allow24 : Bool} {where_ : String} :
    toMinutes h m allow24 where_ = .ok n ↔
      (h < 24 ∧ m < 60 ∨ allow24 = true ∧ h = 24 ∧ m = 0) ∧ n = h * 60 + m := by
  unfold toMinutes
  by_cases midnight : h = 24
  · subst midnight
    cases allow24 <;> by_cases whole : m = 0 <;> simp [whole, eq_comm]
  · rw [if_neg midnight]
    by_cases late : 23 < h
    · rw [if_pos late]
      simp
      omega
    · rw [if_neg late]
      by_cases full : 59 < m
      · rw [if_pos full]
        simp
        omega
      · rw [if_neg full]
        simp only [Except.ok.injEq]
        omega

/-! ## White space -/

/-- Neither end of the text is white space. -/
def Solid (text : List Char) : Prop :=
  (∃ c rest, text = c :: rest ∧ isSpace c = false) ∧
    ∃ init c, text = init ++ [c] ∧ isSpace c = false

theorem solid_of_spaceless {text : List Char} (inked : Spaceless text) (filled : text ≠ []) :
    Solid text := by
  refine ⟨?_, text.dropLast, text.getLast filled, (List.dropLast_concat_getLast filled).symm,
    inked _ (List.getLast_mem filled)⟩
  cases text with
  | nil => exact absurd rfl filled
  | cons c rest => exact ⟨c, rest, rfl, inked c List.mem_cons_self⟩

theorem Solid.join {a gap b : List Char} (first : Solid a) (second : Solid b) :
    Solid (a ++ gap ++ b) := by
  obtain ⟨⟨c, rest, rfl, begins⟩, -⟩ := first
  obtain ⟨-, init, d, rfl, ends⟩ := second
  exact ⟨⟨c, rest ++ gap ++ (init ++ [d]), rfl, begins⟩,
    c :: rest ++ gap ++ init, d, (List.append_assoc _ _ _).symm, ends⟩

theorem strip_padded {before body after : List Char} (lead : Blank before) (trail : Blank after)
    (solid : Solid body) : strip (before ++ body ++ after) = body := by
  obtain ⟨⟨c, rest, begins, inked⟩, init, d, ends, inkedLast⟩ := solid
  have head : lstrip (body ++ after) = body ++ after := by
    rw [begins]
    exact List.dropWhile_cons_of_neg (by rw [inked]; exact Bool.false_ne_true)
  have tail : (body ++ after).rdropWhile isSpace = body.rdropWhile isSpace := by
    rw [List.rdropWhile, List.reverse_append,
      List.dropWhile_append_of_pos fun x member => trail x (List.mem_reverse.mp member)]
    rfl
  rw [strip, List.append_assoc, lstrip_blank lead, head, tail, ends]
  exact rstrip_solid inkedLast

theorem strip_split (text : List Char) : ∃ before after, Blank before ∧ Blank after ∧
    text = before ++ strip text ++ after ∧ (strip text).getLast? ≠ some '\n' := by
  refine ⟨text.takeWhile isSpace, (lstrip text).rtakeWhile isSpace,
    fun c member => List.mem_takeWhile_imp member, fun c member => List.mem_rtakeWhile_imp member,
    ?_, ?_⟩
  · rw [strip, List.append_assoc, List.rdropWhile_append_rtakeWhile, lstrip,
      List.takeWhile_append_dropWhile]
  · intro newline
    have filled : strip text ≠ [] := by
      intro empty
      rw [empty] at newline
      exact absurd newline (by simp)
    have inked := List.rdropWhile_last_not isSpace (lstrip text) filled
    rw [List.getLast?_eq_some_getLast filled, Option.some_inj] at newline
    exact inked (by
      change isSpace ((strip text).getLast filled) = true
      rw [newline]
      decide)

theorem splitSpec_word {text : List Char} (inked : Spaceless text) :
    splitSpec text = (text, none) := by
  have keep : ∀ c ∈ text, (!isSpace c) = true := fun c member => by rw [inked c member]; rfl
  have none_ : text.dropWhile (fun c => !isSpace c) = [] := by
    rw [List.dropWhile_eq_nil_iff]
    exact keep
  rw [splitSpec, none_, List.takeWhile_eq_self_iff.mpr keep]
  rfl

theorem splitSpec_pair {first gap rest : List Char} (inked : Spaceless first) (blank : Blank gap)
    (parted : gap ≠ []) (solid : Solid rest) :
    splitSpec (first ++ gap ++ rest) = (first, some rest) := by
  have keep : ∀ c ∈ first, (!isSpace c) = true := fun c member => by rw [inked c member]; rfl
  obtain ⟨⟨d, more, begins, inkedRest⟩, -⟩ := solid
  cases gap with
  | nil => exact absurd rfl parted
  | cons s gap =>
    have stops : ¬ (!isSpace s) = true := by
      rw [blank s List.mem_cons_self]
      exact Bool.false_ne_true
    have word : (first ++ (s :: gap ++ rest)).takeWhile (fun c => !isSpace c) = first := by
      rw [List.takeWhile_append_of_pos keep, List.cons_append,
        List.takeWhile_cons_of_neg (p := fun c => !isSpace c) stops,
        List.append_nil]
    have after : (first ++ (s :: gap ++ rest)).dropWhile (fun c => !isSpace c) =
        s :: gap ++ rest := by
      rw [List.dropWhile_append_of_pos keep, List.cons_append,
        List.dropWhile_cons_of_neg (p := fun c => !isSpace c) stops]
    have left : lstrip (s :: gap ++ rest) = rest := by
      rw [lstrip_blank blank, begins]
      exact List.dropWhile_cons_of_neg (by rw [inkedRest]; exact Bool.false_ne_true)
    rw [splitSpec, List.append_assoc, word, after, left, if_neg (by rw [begins]; simp)]

theorem splitSpec_some {spec first rest : List Char} (cut : splitSpec spec = (first, some rest)) :
    Spaceless first ∧ ∃ gap, Blank gap ∧ gap ≠ [] ∧ spec = first ++ gap ++ rest := by
  unfold splitSpec at cut
  dsimp only at cut
  obtain ⟨rfl, kept⟩ := Prod.mk.inj cut
  split at kept
  · exact absurd kept (by simp)
  · rename_i filled
    obtain rfl := Option.some.inj kept
    refine ⟨fun c member => by simpa using List.mem_takeWhile_imp member,
      (spec.dropWhile fun c => !isSpace c).takeWhile isSpace,
      fun c member => List.mem_takeWhile_imp member, ?_, ?_⟩
    · intro none_
      have stops := List.head?_dropWhile_not (fun c => !isSpace c) spec
      cases left : spec.dropWhile fun c => !isSpace c with
      | nil => exact filled (by rw [left]; rfl)
      | cons s more =>
        rw [left] at stops none_
        have space : isSpace s = true := by simpa using stops
        rw [List.takeWhile_cons_of_pos space] at none_
        exact absurd none_ (List.cons_ne_nil _ _)
    · rw [lstrip, List.append_assoc, List.takeWhile_append_dropWhile,
        List.takeWhile_append_dropWhile]

/-! ## Windows -/

variable {s : String} {w : Window} {days : List ℕ}

theorem parseWindow_iff : parseWindow repr reprLower s = .ok w ↔
    ∃ timePart sh sm eh em,
      weekdaysAndTimes repr reprLower (strip s.toList) = .ok (w.days, timePart) ∧
      matchWindow timePart = some (sh, sm, eh, em) ∧
      ((sh < 24 ∧ sm < 60) ∧ w.startMin = sh * 60 + sm) ∧
      ((eh < 24 ∧ em < 60 ∨ eh = 24 ∧ em = 0) ∧ w.endMin = eh * 60 + em) ∧
      w.startMin ≠ w.endMin ∧ w.label = s := by
  unfold parseWindow
  rw [bind_eq_ok]
  constructor
  · rintro ⟨⟨days, timePart⟩, parts, rest⟩
    dsimp only at rest
    split at rest
    · exact absurd rest (by simp)
    · rename_i sh sm eh em matched
      obtain ⟨start, opening, rest⟩ := bind_eq_ok.mp rest
      obtain ⟨last, closing, rest⟩ := bind_eq_ok.mp rest
      split at rest
      · exact absurd rest (by simp)
      · rename_i distinct
        obtain rfl := Except.ok.inj rest
        rw [toMinutes_iff] at opening closing
        exact ⟨timePart, sh, sm, eh, em, parts, matched, by simpa using opening,
          by simpa using closing, distinct, rfl⟩
  · rintro ⟨timePart, sh, sm, eh, em, parts, matched, opening, closing, distinct, rfl⟩
    refine ⟨_, parts, ?_⟩
    dsimp only
    rw [matched]
    dsimp only
    refine bind_eq_ok.mpr ⟨w.startMin, toMinutes_iff.mpr (by simpa using opening), ?_⟩
    refine bind_eq_ok.mpr ⟨w.endMin, toMinutes_iff.mpr (by simpa using closing), ?_⟩
    rw [if_neg distinct]
    rfl

/-- Weekdays are taken for such only in front of times. -/
theorem weekdaysAndTimes_cases {spec timePart : List Char}
    (parts : weekdaysAndTimes repr reprLower spec = .ok (days, timePart)) :
    (days = [] ∧ timePart = spec) ∨ ∃ weekdays gap, SpellsWeekdays weekdays days ∧ Blank gap ∧
      gap ≠ [] ∧ spec = weekdays ++ gap ++ timePart := by
  unfold weekdaysAndTimes at parts
  split at parts
  · rename_i first rest cut
    split at parts
    · obtain ⟨inked, gap, blank, parted, rfl⟩ := splitSpec_some cut
      obtain ⟨_, spelled, built⟩ := bind_eq_ok.mp parts
      obtain ⟨rfl, rfl⟩ := Prod.mk.inj (Except.ok.inj built)
      exact .inr ⟨first, gap, (weekdaySpec_iff inked).mp spelled, blank, parted, rfl⟩
    · obtain ⟨rfl, rfl⟩ := Prod.mk.inj (Except.ok.inj parts)
      exact .inl ⟨rfl, rfl⟩
  · obtain ⟨rfl, rfl⟩ := Prod.mk.inj (Except.ok.inj parts)
    exact .inl ⟨rfl, rfl⟩

theorem no_newline {text : List Char} (inked : Spaceless text) : text.getLast? ≠ some '\n' := by
  intro newline
  exact absurd (inked _ (List.mem_of_getLast? newline)) (by decide)

theorem getLast?_after {a b : List Char} (filled : b ≠ []) : (a ++ b).getLast? = b.getLast? := by
  rw [List.getLast?_append, List.getLast?_eq_some_getLast filled, Option.some_or]

theorem spells_of_parsed (parsed : parseWindow repr reprLower s = .ok w) :
    Spells s.toList w.days w.startMin w.endMin ∧ w.label = s := by
  obtain ⟨timePart, sh, sm, eh, em, parts, matched, opening, closing, distinct, labelled⟩ :=
    parseWindow_iff.mp parsed
  obtain ⟨before, after, lead, trail, whole, ends⟩ := strip_split s.toList
  have times : timePart.getLast? ≠ some '\n' →
      SpellsTimes timePart w.startMin w.endMin := by
    intro ends
    obtain ⟨first, second, rfl, spelled, other⟩ := (matchWindow_iff ends).mp matched
    exact ⟨first, second, sh, sm, eh, em, rfl, spelled, other, opening.1, closing.1, opening.2,
      closing.2, distinct⟩
  refine ⟨?_, labelled⟩
  rw [whole]
  rcases weekdaysAndTimes_cases parts with
    ⟨every, rfl⟩ | ⟨weekdays, gap, named, blank, parted, same⟩
  · rw [every]
    exact .everyDay lead trail (times ends)
  · rw [same] at ends ⊢
    have filled : timePart ≠ [] := by
      rintro rfl
      exact absurd matched (by simp [matchWindow, beforeEnd])
    rw [getLast?_after filled] at ends
    exact .onDays lead trail named blank parted (times ends)

theorem times_match {times : List Char} {start last : ℕ} (spelled : SpellsTimes times start last) :
    ∃ sh sm eh em, matchWindow times = some (sh, sm, eh, em) ∧
      ((sh < 24 ∧ sm < 60) ∧ start = sh * 60 + sm) ∧
      ((eh < 24 ∧ em < 60 ∨ eh = 24 ∧ em = 0) ∧ last = eh * 60 + em) ∧ start ≠ last := by
  have ends := no_newline (times_spaceless spelled).1
  obtain ⟨opening, closing, sh, sm, eh, em, whole, first, second, early, late, from_, until_,
    distinct⟩ := spelled
  exact ⟨sh, sm, eh, em, (matchWindow_iff ends).mpr ⟨opening, closing, whole, first, second⟩,
    ⟨early, from_⟩, ⟨late, until_⟩, distinct⟩

theorem parsed_of_spells (spelled : Spells s.toList w.days w.startMin w.endMin)
    (labelled : w.label = s) : parseWindow repr reprLower s = .ok w := by
  generalize whole : s.toList = text at spelled
  rw [parseWindow_iff, whole]
  generalize w.days = days at spelled ⊢
  cases spelled with
  | @everyDay before times after _ _ lead trail spelled =>
    obtain ⟨inked, filled⟩ := times_spaceless spelled
    obtain ⟨sh, sm, eh, em, matched, early, late, distinct⟩ := times_match spelled
    refine ⟨times, sh, sm, eh, em, ?_, matched, early, late, distinct, labelled⟩
    rw [strip_padded lead trail (solid_of_spaceless inked filled), weekdaysAndTimes,
      splitSpec_word inked]
  | @onDays before weekdays gap times after _ _ _ lead trail named blank parted spelled =>
    obtain ⟨inked, filled⟩ := times_spaceless spelled
    obtain ⟨namedInked, namedFilled⟩ := weekdays_spaceless named
    obtain ⟨sh, sm, eh, em, matched, early, late, distinct⟩ := times_match spelled
    have solid := solid_of_spaceless inked filled
    refine ⟨times, sh, sm, eh, em, ?_, matched, early, late, distinct, labelled⟩
    rw [strip_padded lead trail ((solid_of_spaceless namedInked namedFilled).join solid),
      weekdaysAndTimes, splitSpec_pair namedInked blank parted solid]
    dsimp only
    rw [if_pos (by rw [matched]; rfl)]
    exact bind_eq_ok.mpr ⟨days, (weekdaySpec_iff namedInked).mpr named, rfl⟩

theorem token_days {text : List Char} (spelled : SpellsToken text days) : ∀ d ∈ days, d < 7 := by
  cases spelled with
  | day named => exact List.forall_mem_singleton.mpr (weekdayIndex_mem named).2
  | range fromDay toDay ascends =>
    intro d member
    have last := (weekdayIndex_mem toDay).2
    rw [List.mem_range'_1] at member
    omega

theorem weekdays_days {text : List Char} (spelled : SpellsWeekdays text days) :
    ∀ d ∈ days, d < 7 := by
  obtain ⟨tokens, lists, -, each, -, rfl⟩ := spelled
  intro d member
  obtain ⟨list, among, member⟩ := List.mem_flatten.mp member
  obtain ⟨token, here⟩ := forall₂_left each.flip list among
  exact token_days here d member

/-- What is spelled out has the bounds of a window. -/
theorem bounded_of_spells {text : List Char}
    (spelled : Spells text w.days w.startMin w.endMin) : Bounded w := by
  have bounds : ∀ {times : List Char} {start last : ℕ}, SpellsTimes times start last →
      start < 1440 ∧ last ≤ 1440 ∧ start ≠ last := by
    intro times start last spelled
    obtain ⟨sh, sm, eh, em, -, early, late, distinct⟩ := times_match spelled
    exact ⟨by omega, by omega, distinct⟩
  have named : ∀ d ∈ w.days, d < 7 := by
    generalize w.days = days at spelled ⊢
    cases spelled with
    | everyDay => exact List.forall_mem_nil _
    | onDays _ _ named => exact weekdays_days named
  have times : ∃ times, SpellsTimes times w.startMin w.endMin := by
    generalize w.days = days at spelled
    cases spelled with
    | everyDay _ _ times => exact ⟨_, times⟩
    | onDays _ _ _ _ _ times => exact ⟨_, times⟩
  obtain ⟨_, times⟩ := times
  obtain ⟨start, last, distinct⟩ := bounds times
  exact ⟨start, last, distinct, named⟩

variable (repr reprLower s)

/-- **A window means what its text spells.**  Exactly the texts of the grammar are parsed, to
the window they spell, and every other one is refused; and what is parsed contains a minute of
the week where the interval from one of its start days covers it. -/
theorem window_covers_what_it_spells :
    (∀ w, parseWindow repr reprLower s = .ok w ↔
      Spells s.toList w.days w.startMin w.endMin ∧ w.label = s) ∧
    ((¬ ∃ days start last, Spells s.toList days start last) →
      ∃ message, parseWindow repr reprLower s = .error message) ∧
    ∀ w, parseWindow repr reprLower s = .ok w → ∀ weekday < 7, ∀ minute < 1440,
      (contains w weekday minute = true ↔
        ∃ d, StartsOn w d ∧ InWeek (d * 1440 + w.startMin) (d * 1440 + endAfterStart w)
          (weekday * 1440 + minute)) := by
  refine ⟨fun w => ⟨spells_of_parsed, fun spelled => parsed_of_spells spelled.1 spelled.2⟩, ?_, ?_⟩
  · intro outside
    cases read : parseWindow repr reprLower s with
    | error message => exact ⟨message, rfl⟩
    | ok w => exact absurd ⟨_, _, _, (spells_of_parsed read).1⟩ outside
  · intro w parsed weekday day minute time
    exact contains_iff_covered (bounded_of_spells (spells_of_parsed parsed).1) day time

/-- From Saturday evening to Sunday morning. -/
def saturdayNight : Window := ⟨1320, 120, " Sat 22:00-02:00", [5]⟩

/-- It is read off its label and holds on Sunday at one; an empty text is no window. -/
theorem saturday_night_reaches_sunday :
    Spells " Sat 22:00-02:00".toList [5] 1320 120 ∧ contains saturdayNight 6 60 = true ∧
      (∃ d, StartsOn saturdayNight d ∧ InWeek (d * 1440 + 1320) (d * 1440 + 1560) (6 * 1440 + 60)) ∧
      ∃ message, parseWindow id id "" = .error message := by
  obtain ⟨read, -, covers⟩ := window_covers_what_it_spells id id " Sat 22:00-02:00"
  obtain ⟨spells, outside, -⟩ := window_covers_what_it_spells id id ""
  have parsed : parseWindow id id " Sat 22:00-02:00" = .ok saturdayNight := by rfl
  have inside : contains saturdayNight 6 60 = true := by decide
  refine ⟨((read saturdayNight).mp parsed).1, inside,
    (covers saturdayNight parsed 6 (by decide) 60 (by decide)).mp inside, outside ?_⟩
  rintro ⟨days, start, last, spelled⟩
  have accepted := (spells ⟨start, last, "", days⟩).mpr ⟨spelled, rfl⟩
  have refused : parseWindow id id "" =
      .error "invalid window : expected [WEEKDAYS ]HH:MM-HH:MM" := by rfl
  exact absurd (refused.symm.trans accepted) (by simp)

end AgentRunner.WindowText
