import Mathlib.Data.List.DropRight
import Mathlib.Data.List.Infix
import Mathlib.Data.List.MinMax

/-! `_detect_repetitive_tool`: the search of the tool calls of a round for one that repeats, and
the windows that it looks at. -/
namespace AgentRunner.RepetitiveTool

/-- A tool and its target. -/
abbrev Call := String × Option String

/-- The anomaly that is reported. -/
structure Anomaly where
  toolName : String
  target : Option String
  count : ℕ
  window : ℤ
deriving DecidableEq, Repr

/-- `Counter(calls).most_common(1)`: of the calls that are there most often, the first. -/
def mostCommon (calls : List Call) : Option (Call × ℕ) :=
  (calls.argmax fun call => calls.count call).map fun call => (call, calls.count call)

/-- `range(lo, hi)` of what is not negative. -/
def rangeFrom (lo hi : ℤ) : List ℕ := List.range' lo.toNat (hi.toNat - lo.toNat)

/-- `_detect_repetitive_tool`. -/
def detectRepetitiveTool (toolCalls : List Call) (window threshold : ℤ) : Option Anomaly :=
  let n : ℤ := toolCalls.length
  if window ≤ 0 ∨ threshold ≤ 0 ∨ n < threshold then none
  else
    (rangeFrom (max 0 (n - window)) (n - threshold + 1)).findSome? fun start =>
      -- An empty slice has no most common call.
      match mostCommon ((toolCalls.drop start).take window.toNat) with
      | some (call, count) =>
        if threshold ≤ count then some ⟨call.1, call.2, count, window⟩ else none
      | none => none

/-! ## Windows -/

/-- A call that is there so many times. -/
def Repeats (threshold : ℤ) (calls : List Call) : Prop :=
  ∃ call, threshold ≤ calls.count call

/-- So many consecutive calls, or all of them when there are fewer. -/
structure IsWindow (window : ℤ) (toolCalls part : List Call) : Prop where
  consecutive : part <:+: toolCalls
  length : part.length = min window.toNat toolCalls.length

/-- The window at the end of the round. -/
def lastWindow (window : ℤ) (toolCalls : List Call) : List Call := toolCalls.rtake window.toNat

/-- The same calls so many times, somewhere in a window. -/
def Dense (window threshold : ℤ) (toolCalls : List Call) : Prop :=
  ∃ part, IsWindow window toolCalls part ∧ Repeats threshold part

variable {toolCalls : List Call} {window threshold : ℤ}

theorem isWindow_last (window : ℤ) (toolCalls : List Call) :
    IsWindow window toolCalls (lastWindow window toolCalls) := by
  refine ⟨(List.drop_suffix _ _).isInfix, ?_⟩
  unfold lastWindow List.rtake
  rw [List.length_drop]
  omega

theorem Repeats.mono {part whole : List Call} (repeats : Repeats threshold part)
    (within : part.Sublist whole) : Repeats threshold whole := by
  obtain ⟨call, often⟩ := repeats
  exact ⟨call, often.trans (by exact_mod_cast within.count_le call)⟩

theorem mostCommon_some {calls : List Call} {call : Call} {count : ℕ}
    (most : mostCommon calls = some (call, count)) :
    count = calls.count call ∧ ∀ other, calls.count other ≤ count := by
  unfold mostCommon at most
  obtain ⟨first, found, same⟩ := Option.map_eq_some_iff.mp most
  obtain ⟨rfl, rfl⟩ := Prod.mk.inj same
  refine ⟨rfl, fun other => ?_⟩
  by_cases member : other ∈ calls
  · exact List.le_of_mem_argmax (f := fun call => calls.count call) member found
  · rw [List.count_eq_zero.mpr member]
    exact Nat.zero_le _

theorem mostCommon_none {calls : List Call} (most : mostCommon calls = none) : calls = [] := by
  rwa [mostCommon, Option.map_eq_none_iff, List.argmax_eq_none] at most

/-! ## The loop -/

theorem mem_rangeFrom {lo hi : ℤ} {start : ℕ} :
    start ∈ rangeFrom lo hi ↔ lo.toNat ≤ start ∧ start < hi.toNat := by
  rw [rangeFrom, List.mem_range'_1]
  omega

/-- The slices of the loop are ends of the last window. -/
theorem slice_last {start : ℕ} (within : (toolCalls.length : ℤ) - window ≤ start) :
    (toolCalls.drop start).take window.toNat <:+ lastWindow window toolCalls := by
  rw [List.take_of_length_le (by rw [List.length_drop]; omega)]
  unfold lastWindow List.rtake
  rw [show start = (toolCalls.length - window.toNat) + (start - (toolCalls.length - window.toNat))
    by omega, ← List.drop_drop]
  exact List.drop_suffix _ _

/-- What is reported was counted at the end of the round. -/
theorem detect_some {anomaly : Anomaly}
    (detected : detectRepetitiveTool toolCalls window threshold = some anomaly) :
    anomaly.window = window ∧ threshold ≤ anomaly.count ∧ ∃ slice,
      slice <:+ lastWindow window toolCalls ∧
        anomaly.count = slice.count (anomaly.toolName, anomaly.target) := by
  unfold detectRepetitiveTool at detected
  dsimp only at detected
  split at detected
  · exact absurd detected (by simp)
  · obtain ⟨start, member, found⟩ := List.exists_of_findSome?_eq_some detected
    split at found
    · rename_i call count most
      split at found
      · rename_i often
        obtain rfl := Option.some.inj found
        exact ⟨rfl, often, _, slice_last (by have := (mem_rangeFrom.mp member).1; omega),
          (mostCommon_some most).1⟩
      · exact absurd found (by simp)
    · exact absurd found (by simp)

/-- The detector looks at the last window only. -/
theorem detect_isSome_iff (positive : 0 < threshold) (wide : threshold ≤ window) :
    (detectRepetitiveTool toolCalls window threshold).isSome = true ↔
      Repeats threshold (lastWindow window toolCalls) := by
  constructor
  · intro detected
    obtain ⟨anomaly, detected⟩ := Option.isSome_iff_exists.mp detected
    obtain ⟨-, often, slice, ends, counted⟩ := detect_some detected
    exact Repeats.mono ⟨_, by rw [counted] at often; exact often⟩ ends.sublist
  · rintro ⟨call, often⟩
    have enough : threshold ≤ toolCalls.length := by
      have counted := List.count_le_length (a := call) (l := lastWindow window toolCalls)
      have length := (isWindow_last window toolCalls).length
      omega
    unfold detectRepetitiveTool
    dsimp only
    rw [if_neg (by omega), List.findSome?_isSome_iff]
    refine ⟨toolCalls.length - window.toNat, mem_rangeFrom.mpr (by omega), ?_⟩
    have whole : (toolCalls.drop (toolCalls.length - window.toNat)).take window.toNat =
        lastWindow window toolCalls := by
      rw [List.take_of_length_le (by rw [List.length_drop]; omega)]
      rfl
    rw [whole]
    cases most : mostCommon (lastWindow window toolCalls) with
    | none =>
      rw [mostCommon_none most, List.count_nil] at often
      omega
    | some found =>
      obtain ⟨-, greatest⟩ := @mostCommon_some _ found.1 found.2 most
      have := greatest call
      dsimp only
      rw [if_pos (by omega)]
      rfl

/-! ## Every window -/

/-- An anomaly is reported exactly where some window is dense, and the call it names is there
often enough in a window. -/
def SeesEveryWindow (toolCalls : List Call) (window threshold : ℤ) : Prop :=
  ((detectRepetitiveTool toolCalls window threshold).isSome = true ↔
    Dense window threshold toolCalls) ∧
  ∀ anomaly ∈ detectRepetitiveTool toolCalls window threshold, ∃ part,
    IsWindow window toolCalls part ∧ threshold ≤ part.count (anomaly.toolName, anomaly.target)

/-- Two reads of one file, and then two other calls. -/
def earlyReads : List Call :=
  [("Read", some "a"), ("Read", some "a"), ("Read", some "b"), ("Bash", some "ls")]

/-- A window of two is full of one call and is not seen, as the round goes on after it. -/
theorem early_repetition_unseen : ¬ SeesEveryWindow earlyReads 2 2 := by
  rintro ⟨sees, -⟩
  have dense : Dense 2 2 earlyReads := by
    refine ⟨[("Read", some "a"), ("Read", some "a")], ⟨⟨[], _, rfl⟩, rfl⟩, ("Read", some "a"), ?_⟩
    decide
  exact absurd (sees.mpr dense) (by decide)

variable (toolCalls)

/-- **The detector sees the end of the round.**  What it reports is always there, often enough,
in a window; and it reports something where some window is dense exactly when the last window
is, or none is. -/
theorem sees_every_window_iff (positive : 0 < threshold) (wide : threshold ≤ window) :
    SeesEveryWindow toolCalls window threshold ↔
      Repeats threshold (lastWindow window toolCalls) ∨ ¬ Dense window threshold toolCalls := by
  have reported : ∀ anomaly ∈ detectRepetitiveTool toolCalls window threshold, ∃ part,
      IsWindow window toolCalls part ∧
        threshold ≤ part.count (anomaly.toolName, anomaly.target) := by
    intro anomaly detected
    obtain ⟨-, often, slice, ends, counted⟩ := detect_some detected
    have more := ends.sublist.count_le (anomaly.toolName, anomaly.target)
    exact ⟨_, isWindow_last window toolCalls, by omega⟩
  have last : Repeats threshold (lastWindow window toolCalls) →
      Dense window threshold toolCalls :=
    fun repeats => ⟨_, isWindow_last window toolCalls, repeats⟩
  unfold SeesEveryWindow
  rw [detect_isSome_iff positive wide]
  constructor
  · rintro ⟨sees, -⟩
    by_cases repeats : Repeats threshold (lastWindow window toolCalls)
    · exact .inl repeats
    · exact .inr fun dense => repeats (sees.mpr dense)
  · rintro (repeats | sparse)
    · exact ⟨⟨last, fun _ => repeats⟩, reported⟩
    · exact ⟨⟨last, fun dense => absurd dense sparse⟩, reported⟩

/-- A repetition at the end is seen. -/
theorem late_repetition_seen : SeesEveryWindow earlyReads.reverse 2 2 := by
  refine (sees_every_window_iff earlyReads.reverse (by decide) (by decide)).mpr (.inl ?_)
  exact ⟨("Read", some "a"), by decide⟩

end AgentRunner.RepetitiveTool
