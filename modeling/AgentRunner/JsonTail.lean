import AgentRunner.JsonText
import AgentRunner.Utf8
import Mathlib.Data.List.DropRight
import Mathlib.Data.List.Infix

/-! `json_tail` and `json_events`: the events at the end of a round log, and what lines of other
output between them do to these. -/
namespace AgentRunner.JsonTail
open JsonText PyValue TextLines

/-- `_TAIL_LINES`. -/
def tailLines : ℕ := 200

/-- The first character that is no white space opens an object or an array. -/
def looksJson (line : List Char) : Bool :=
  (lstrip line).head? = some '{' || (lstrip line).head? = some '['

/-- `json_tail`. -/
def jsonTail (lines : List (List Char)) (maxlen : ℕ) : List (List Char) :=
  (lines.filter looksJson).rtake maxlen

/-- The loop of `json_events`: the events it yields, and the exception that ends it, if any. -/
def readTail (i : Interpreter) : List (List Char) → List Event × Option PyErr
  | [] => ([], none)
  | line :: rest =>
    if strip line = [] then readTail i rest
    else
      match loads i (strip line) with
      | .error e => ([], some e)
      | .ok (some (.obj fields)) => (fields :: (readTail i rest).1, (readTail i rest).2)
      | .ok _ => readTail i rest

/-- The lines of a round log: `open_round_log`, iterated over. -/
def logLines (log : List UInt8) : List (List Char) := readLines (Utf8.decode log)

/-- `json_events`. -/
def jsonEvents (i : Interpreter) (log : List UInt8) : List Event × Option PyErr :=
  readTail i (jsonTail (logLines log) tailLines)

/-- What a caller gets that reads to the end. -/
def readToEnd (yielded : List Event × Option PyErr) : Except PyErr (List Event) :=
  match yielded.2 with
  | some e => .error e
  | none => .ok yielded.1

/-! ## Lines -/

variable {i : Interpreter}

/-- The object a line is parsed to. -/
def objectOf (i : Interpreter) (line : List Char) : Option Event :=
  match loads i (strip line) with
  | .ok (some (.obj fields)) => some fields
  | _ => none

/-- The exception that parsing a line raises and the loop does not catch. -/
def failure (i : Interpreter) (line : List Char) : Option PyErr :=
  match loads i (strip line) with
  | .error e => some e
  | .ok _ => none

/-- The first such exception in some lines. -/
def firstFailure (i : Interpreter) (lines : List (List Char)) : Option PyErr :=
  lines.findSome? (failure i)

theorem loads_blank (i : Interpreter) : loads i [] = .ok none := rfl

/-- One line of the loop: it ends the loop, is yielded or is passed over. -/
theorem readTail_cons (line : List Char) (rest : List (List Char)) :
    readTail i (line :: rest) = match failure i line, objectOf i line with
      | some e, _ => ([], some e)
      | none, some fields => (fields :: (readTail i rest).1, (readTail i rest).2)
      | none, none => readTail i rest := by
  rw [readTail, failure, objectOf]
  by_cases blank : strip line = []
  · rw [if_pos blank, blank, loads_blank]
  · rw [if_neg blank]
    rcases loads i (strip line) with e | (_ | value)
    · rfl
    · rfl
    · cases value with
      | obj fields => rfl
      | _ => rfl

theorem readToEnd_yield (fields : Event) (later : List Event × Option PyErr) :
    readToEnd (fields :: later.1, later.2) = (readToEnd later).map (fields :: ·) := by
  unfold readToEnd
  cases later.2 <;> rfl

/-- Read to the end, a window gives the objects in it, if no line of it fails. -/
theorem readToEnd_eq (lines : List (List Char)) :
    readToEnd (readTail i lines) = match firstFailure i lines with
      | some e => .error e
      | none => .ok (lines.filterMap (objectOf i)) := by
  induction lines with
  | nil => rfl
  | cons line rest ih =>
    rw [readTail_cons, firstFailure, List.findSome?_cons, List.filterMap_cons]
    cases failure i line with
    | some e => rfl
    | none =>
      rw [firstFailure] at ih
      cases objectOf i line with
      | none => exact ih
      | some fields =>
        dsimp only
        rw [readToEnd_yield, ih]
        cases rest.findSome? (failure i) <;> rfl

/-! ## The end of a filtered list -/

section
variable {α : Type} {p : α → Bool}

theorem rtake_suffix (k : ℕ) (xs : List α) : xs.rtake k <:+ xs := List.drop_suffix _ _

theorem length_rtake (k : ℕ) (xs : List α) : (xs.rtake k).length = min k xs.length := by
  unfold List.rtake
  rw [List.length_drop]
  omega

/-- What is kept of the end is at the end of what is kept. -/
theorem filter_rtake_suffix (p : α → Bool) (k : ℕ) (xs : List α) :
    (xs.rtake k).filter p <:+ (xs.filter p).rtake k := by
  have ends : (xs.rtake k).filter p <:+ xs.filter p := (rtake_suffix k xs).filter p
  have short := List.length_filter_le p (xs.rtake k)
  have length := ends.length_le
  rw [length_rtake] at short
  refine List.suffix_of_suffix_length_le ends (rtake_suffix k _) ?_
  rw [length_rtake]
  omega

theorem suffix_rtake {k : ℕ} {before after : List α} (short : after.length ≤ k) :
    after <:+ (before ++ after).rtake k := by
  refine List.suffix_of_suffix_length_le (List.suffix_append _ _) (rtake_suffix k _) ?_
  rw [length_rtake, List.length_append]
  omega

theorem rtake_suffix_of_le {k : ℕ} {before after : List α} (long : k ≤ after.length) :
    (before ++ after).rtake k <:+ after := by
  refine List.suffix_of_suffix_length_le (rtake_suffix k _) (List.suffix_append _ _) ?_
  rw [length_rtake]
  omega

end

/-! ## Chatter -/

/-- A line of a log with chatter in it. -/
structure Entry where
  line : List Char
  inserted : Bool

/-- All the lines, and those that were there before. -/
def allLines (entries : List Entry) : List (List Char) := entries.map Entry.line

def ownLines (entries : List Entry) : List (List Char) :=
  (entries.filter fun entry => !entry.inserted).map Entry.line

/-- No inserted line is parsed to an object. -/
def Chatter (i : Interpreter) (entries : List Entry) : Prop :=
  ∀ entry ∈ entries, entry.inserted = true → objectOf i entry.line = none

/-- A line that looks like JSON and is an object. -/
def IsEvent (i : Interpreter) (line : List Char) : Prop :=
  looksJson line = true ∧ objectOf i line ≠ none

/-- No event is pushed out: one that was within the window still is. -/
def KeepsEvents (i : Interpreter) (entries : List Entry) : Prop :=
  ∀ before entry after, entries = before ++ entry :: after → entry.inserted = false →
    IsEvent i entry.line → (ownLines after).countP looksJson < tailLines →
    (allLines after).countP looksJson < tailLines

/-- The windows fail on the same exception, or neither does. -/
def FailsAlike (i : Interpreter) (entries : List Entry) : Prop :=
  firstFailure i (jsonTail (allLines entries) tailLines) =
    firstFailure i (jsonTail (ownLines entries) tailLines)

/-- No line of the own window fails. -/
def Parses (i : Interpreter) (entries : List Entry) : Prop :=
  firstFailure i (jsonTail (ownLines entries) tailLines) = none

variable {entries : List Entry}

/-- The entries that come to the window. -/
def looking (entries : List Entry) : List Entry := entries.filter fun entry => looksJson entry.line

def own (entries : List Entry) : List Entry := entries.filter fun entry => !entry.inserted

theorem own_looking (entries : List Entry) : own (looking entries) = looking (own entries) := by
  simp only [own, looking, List.filter_filter, Bool.and_comm]

theorem looking_append (before : List Entry) {entry : Entry} (after : List Entry)
    (looks : looksJson entry.line = true) :
    looking (before ++ entry :: after) = looking before ++ entry :: looking after := by
  rw [looking, List.filter_append,
    List.filter_cons_of_pos (p := fun entry : Entry => looksJson entry.line) looks]
  rfl

theorem own_append (before : List Entry) {entry : Entry} (after : List Entry)
    (ours : entry.inserted = false) :
    own (before ++ entry :: after) = own before ++ entry :: own after := by
  rw [own, List.filter_append, List.filter_cons_of_pos (by rw [ours]; rfl)]
  rfl

theorem filter_lines (entries : List Entry) :
    (entries.map Entry.line).filter looksJson = (looking entries).map Entry.line := by
  rw [List.filter_map]
  rfl

theorem countP_all (entries : List Entry) :
    (allLines entries).countP looksJson = (looking entries).length := by
  rw [List.countP_eq_length_filter, allLines, filter_lines, List.length_map]

theorem countP_own (entries : List Entry) :
    (ownLines entries).countP looksJson = (own (looking entries)).length := by
  rw [List.countP_eq_length_filter, ownLines, filter_lines, List.length_map, own_looking]
  rfl

/-- What the window with the chatter has of the own lines, and what it lost of them. -/
structure Evicted (entries lost left : List Entry) : Prop where
  kept : own ((looking entries).rtake tailLines) = left
  window : (own (looking entries)).rtake tailLines = lost ++ left

theorem exists_evicted (entries : List Entry) : ∃ lost left, Evicted entries lost left := by
  obtain ⟨lost, window⟩ :=
    filter_rtake_suffix (fun entry => !entry.inserted) tailLines (looking entries)
  exact ⟨lost, _, rfl, window.symm⟩

/-- What is lost had too much chatter after it. -/
theorem lost_of_crowded {lost left before after : List Entry} {entry : Entry}
    (evicted : Evicted (before ++ entry :: after) lost left) (ours : entry.inserted = false)
    (looks : looksJson entry.line = true) (short : (own (looking after)).length < tailLines)
    (crowded : tailLines ≤ (looking after).length) : entry ∈ lost := by
  have window := evicted.window
  have kept := evicted.kept
  rw [looking_append before after looks] at window kept
  have tail : (looking before ++ entry :: looking after).rtake tailLines <:+ looking after := by
    rw [← List.singleton_append, ← List.append_assoc]
    exact rtake_suffix_of_le crowded
  rw [own_append _ _ ours] at window
  obtain ⟨more, ends⟩ := tail.filter fun entry => !entry.inserted
  obtain ⟨front, begins⟩ := @suffix_rtake _ tailLines (own (looking before))
    (entry :: own (looking after)) short
  change more ++ own _ = own (looking after) at ends
  rw [kept] at ends
  rw [window, ← ends, ← List.cons_append, ← List.append_assoc] at begins
  rw [← List.append_cancel_right begins]
  exact List.mem_append_right _ List.mem_cons_self

/-- What still has room after it is not lost. -/
theorem not_lost_of_room {lost left before after : List Entry} {entry : Entry}
    (evicted : Evicted (before ++ entry :: after) lost left) (ours : entry.inserted = false)
    (looks : looksJson entry.line = true) (room : (looking after).length < tailLines) :
    (own (looking after)).length < left.length := by
  have kept := evicted.kept
  rw [looking_append before after looks] at kept
  have ends : entry :: looking after <:+
      (looking before ++ entry :: looking after).rtake tailLines := suffix_rtake room
  have longer := (ends.filter fun entry => !entry.inserted).length_le
  rw [List.filter_cons_of_pos (by rw [ours]; rfl), List.length_cons] at longer
  rw [← kept]
  exact longer

theorem split_of_own {xs ys : List Entry} {entry : Entry}
    (found : own (looking entries) = xs ++ entry :: ys) :
    ∃ before after, entries = before ++ entry :: after ∧ entry.inserted = false ∧
      looksJson entry.line = true ∧ own (looking after) = ys := by
  rw [own, looking, List.filter_filter] at found
  obtain ⟨before, rest, rfl, -, later⟩ := List.filter_eq_append_iff.mp found
  obtain ⟨skipped, after, rfl, -, holds, left⟩ := List.filter_eq_cons_iff.mp later
  rw [Bool.and_eq_true, Bool.not_eq_true'] at holds
  refine ⟨before ++ skipped, after, (List.append_assoc _ _ _).symm, holds.1, holds.2, ?_⟩
  rw [own, looking, List.filter_filter]
  exact left

/-- Events are kept exactly where none is lost. -/
theorem keepsEvents_iff {lost left : List Entry} (evicted : Evicted entries lost left) :
    KeepsEvents i entries ↔ ∀ entry ∈ lost, objectOf i entry.line = none := by
  constructor
  · intro keeps entry member
    by_contra object
    obtain ⟨first, second, rfl⟩ := List.append_of_mem member
    obtain ⟨front, whole⟩ := rtake_suffix tailLines (own (looking entries))
    have window := evicted.window
    rw [window, List.append_assoc, List.cons_append, ← List.append_assoc] at whole
    have long := length_rtake tailLines (own (looking entries))
    rw [window, List.length_append, List.length_append, List.length_cons] at long
    obtain ⟨before, after, rfl, ours, looks, later⟩ := split_of_own whole.symm
    have short : (own (looking after)).length < tailLines := by
      rw [later, List.length_append]
      omega
    have room := keeps before entry after rfl ours ⟨looks, object⟩
      (by rw [countP_own]; exact short)
    rw [countP_all] at room
    have longer := not_lost_of_room evicted ours looks room
    rw [later, List.length_append] at longer
    omega
  · rintro none_ before entry after rfl ours ⟨looks, object⟩ short
    rw [countP_own] at short
    rw [countP_all]
    by_contra crowded
    exact object (none_ entry (lost_of_crowded evicted ours looks short (not_lt.mp crowded)))

theorem objects_own (chatter : Chatter i entries) (part : List Entry)
    (within : ∀ entry ∈ part, entry ∈ entries) :
    (part.map Entry.line).filterMap (objectOf i) =
      ((own part).map Entry.line).filterMap (objectOf i) := by
  induction part with
  | nil => rfl
  | cons entry part ih =>
    obtain ⟨here, later⟩ := List.forall_mem_cons.mp within
    cases inserted : entry.inserted with
    | true =>
      have none_ := chatter entry here inserted
      rw [List.map_cons, List.filterMap_cons_none none_, ih later, own, own,
        List.filter_cons_of_neg (by rw [inserted]; exact Bool.false_ne_true)]
    | false =>
      rw [own, List.filter_cons_of_pos (by rw [inserted]; rfl), List.map_cons, List.map_cons,
        List.filterMap_cons, List.filterMap_cons, ih later]
      rfl

theorem map_rtake {α β : Type} (f : α → β) (k : ℕ) (xs : List α) :
    (xs.map f).rtake k = (xs.rtake k).map f := by
  unfold List.rtake
  rw [List.length_map, List.map_drop]

/-- The two windows hold the same objects exactly where no event is pushed out. -/
theorem objects_eq_iff (chatter : Chatter i entries) :
    (jsonTail (allLines entries) tailLines).filterMap (objectOf i) =
        (jsonTail (ownLines entries) tailLines).filterMap (objectOf i) ↔
      KeepsEvents i entries := by
  obtain ⟨lost, left, evicted⟩ := exists_evicted entries
  have noisy : (jsonTail (allLines entries) tailLines).filterMap (objectOf i) =
      (left.map Entry.line).filterMap (objectOf i) := by
    rw [jsonTail, allLines, filter_lines, map_rtake, ← evicted.kept]
    refine objects_own chatter _ fun entry member => ?_
    exact (List.mem_filter.mp ((rtake_suffix _ _).subset member)).1
  have quiet : jsonTail (ownLines entries) tailLines = (lost ++ left).map Entry.line := by
    rw [jsonTail, ownLines, filter_lines, map_rtake, ← evicted.window, own_looking]
    rfl
  rw [keepsEvents_iff evicted, noisy, quiet, List.map_append, List.filterMap_append,
    List.self_eq_append_left, List.filterMap_eq_nil_iff]
  exact List.forall_mem_map

/-! ## Logs with chatter -/

/-- The event `{"a":1}` on a line of its own. -/
def eventLog : List UInt8 := [0x7B, 0x22, 0x61, 0x22, 0x3A, 0x31, 0x7D, 0x0A]

/-- The same with two hundred empty arrays after it. -/
def floodedLog : List UInt8 := eventLog ++ (List.replicate 200 [0x5B, 0x5D, 0x0A]).flatten

def flooded : List Entry :=
  ⟨['\x7b', '"', 'a', '"', ':', '1', '\x7d'], false⟩ :: List.replicate 200 ⟨['[', ']'], true⟩

variable (i)

end AgentRunner.JsonTail
