import AgentRunner.Utf8
import AgentRunner.JsonText
import AgentRunner.IsoTime

/-! An events file as bytes: `emit` appends one line to it, and every reader takes
its lines apart, skips what is no JSON object and stops at an exception it does not
catch. Cut at a line end, a file reads as its two parts. -/
namespace AgentRunner.EventFile
open PyValue JsonText TextLines IsoTime

/-- A line of an events file, stripped, and the object it holds. -/
abbrev Record := List Char × Event

/-- What a generator yields, and the exception that ends it early. -/
structure Yielded (α : Type) where
  items : List α
  raised : Option PyErr

namespace Yielded

/-- One generator after another, `yield from` both. -/
def andThen {α : Type} (first second : Yielded α) : Yielded α :=
  match first.raised with
  | some _ => first
  | none => ⟨first.items ++ second.items, second.raised⟩

@[simp] theorem andThen_none {α : Type} (items : List α) (second : Yielded α) :
    andThen ⟨items, none⟩ second = ⟨items ++ second.items, second.raised⟩ := rfl

theorem andThen_assoc {α : Type} (first second third : Yielded α) :
    (first.andThen second).andThen third = first.andThen (second.andThen third) := by
  obtain ⟨items, raised⟩ := first
  cases raised with
  | some e => rfl
  | none =>
    obtain ⟨items', raised'⟩ := second
    cases raised' with
    | some e => rfl
    | none => simp

theorem andThen_nil {α : Type} (first : Yielded α) : first.andThen ⟨[], none⟩ = first := by
  obtain ⟨items, raised⟩ := first
  cases raised with
  | some e => rfl
  | none => simp

/-- A sequence of generators ends early when one of them does. -/
theorem andThen_finished {α : Type} {first second : Yielded α} :
    (first.andThen second).raised = none ↔ first.raised = none ∧ second.raised = none := by
  obtain ⟨items, raised⟩ := first
  cases raised with
  | some e => simp [andThen]
  | none => simp

end Yielded

/-! ## Reading -/

/-- `_iter_parsed_lines`: only a `JSONDecodeError` is caught. -/
def iterParsedLines (i : Interpreter) : List (List Char) → Yielded Record
  | [] => ⟨[], none⟩
  | line :: lines =>
    if strip line = [] then iterParsedLines i lines
    else match loads i (strip line) with
      | .ok (some (.obj fields)) =>
        .andThen ⟨[(strip line, fields)], none⟩ (iterParsedLines i lines)
      | .ok _ => iterParsedLines i lines
      | .error e => ⟨[], some e⟩

/-- The records of a decoded text. -/
def textRecords (i : Interpreter) (text : List Char) : Yielded Record :=
  iterParsedLines i (readLines text)

/-- `_iter_parsed_lines(open_events_jsonl(path))` for a file with these bytes. -/
def records (i : Interpreter) (content : List UInt8) : Yielded Record :=
  textRecords i (Utf8.decode content)

/-- `iter_event_dicts`. -/
def iterEventDicts (i : Interpreter) (content : List UInt8) : Yielded Event :=
  let parsed := records i content
  ⟨parsed.items.map Prod.snd, parsed.raised⟩

theorem iterParsedLines_append (i : Interpreter) (left right : List (List Char)) :
    iterParsedLines i (left ++ right) =
      (iterParsedLines i left).andThen (iterParsedLines i right) := by
  induction left with
  | nil => rfl
  | cons line left ih =>
    simp only [List.cons_append, iterParsedLines]
    split
    · exact ih
    · split
      · rw [ih, Yielded.andThen_assoc]
      · exact ih
      · rfl

/-- Blank lines yield nothing. -/
theorem iterParsedLines_filled (i : Interpreter) (lines : List (List Char)) :
    iterParsedLines i (filled lines) = iterParsedLines i lines := by
  induction lines with
  | nil => rfl
  | cons line lines ih =>
    cases line with
    | nil =>
      rw [filled_blank, ih, iterParsedLines]
      rfl
    | cons c line => simp only [filled_cons, iterParsedLines, ih]

/-- **A text reads as its parts.**  Cut at a line end, it yields the records of the
first part and, unless reading that one raises, those of the second. -/
theorem textRecords_cut (i : Interpreter) (left : List Char) {e : Char} (ends : LineEnd e)
    (right : List Char) :
    textRecords i (left ++ e :: right) = (textRecords i left).andThen (textRecords i right) := by
  rw [textRecords, ← iterParsedLines_filled, filled_readLines_append left ends,
    iterParsedLines_append, iterParsedLines_filled, iterParsedLines_filled]
  rfl

/-- The bytes of the line ends. -/
def ByteEnd (b : UInt8) : Prop := b = 0x0A ∨ b = 0x0D

instance (b : UInt8) : Decidable (ByteEnd b) := by
  unfold ByteEnd
  infer_instance

/-- So does a file. -/
theorem records_cut (i : Interpreter) (left : List UInt8) {b : UInt8} (ends : ByteEnd b)
    (right : List UInt8) :
    records i (left ++ b :: right) = (records i left).andThen (records i right) := by
  have lineEnd : LineEnd (Char.ofNat b.toNat) := by
    rcases ends with rfl | rfl
    · exact .inl rfl
    · exact .inr rfl
  have ascii : b.toNat < 0x80 := by
    rcases ends with rfl | rfl <;> decide
  rw [records, Utf8.decode_append left ascii, textRecords_cut i _ lineEnd]
  rfl

@[simp] theorem records_nil (i : Interpreter) : records i [] = ⟨[], none⟩ := rfl

/-- A line end closes a line and adds none. -/
theorem records_closed (i : Interpreter) (left : List UInt8) {b : UInt8} (ends : ByteEnd b) :
    records i (left ++ [b]) = records i left := by
  rw [records_cut i left ends, records_nil, Yielded.andThen_nil]

/-! ## Cutting inside a line -/

section
variable {α : Type} {read : List α → Yielded Record} {Ends : α → Prop} [DecidablePred Ends]

/-- What stands after the last line end. -/
def lineTail (Ends : α → Prop) [DecidablePred Ends] (text : List α) : List α :=
  text.rtakeWhile fun c => !decide (Ends c)

/-- What stands before the first line end. -/
def lineHead (Ends : α → Prop) [DecidablePred Ends] (text : List α) : List α :=
  text.takeWhile fun c => !decide (Ends c)

theorem lineTail_concat_end {text : List α} {c : α} (ends : Ends c) :
    lineTail Ends (text ++ [c]) = [] := List.rtakeWhile_concat_neg _ _ _ (by simpa using ends)

theorem lineTail_concat {text : List α} {c : α} (plain : ¬ Ends c) :
    lineTail Ends (text ++ [c]) = lineTail Ends text ++ [c] :=
  List.rtakeWhile_concat_pos _ _ _ (by simpa using plain)

theorem lineTail_plain {text : List α} {c : α} (member : c ∈ lineTail Ends text) : ¬ Ends c := by
  have plain := List.mem_rtakeWhile_imp member
  simpa using plain

/-- A reader that may be cut at line ends reads what goes on after a text from that
text's last line on. -/
theorem read_after (cut : ∀ left e, Ends e → ∀ right,
      read (left ++ e :: right) = (read left).andThen (read right)) (text : List α) :
    ∃ finished : Yielded Record, ∀ more,
      read (text ++ more) = finished.andThen (read (lineTail Ends text ++ more)) := by
  induction text using List.reverseRecOn with
  | nil => exact ⟨⟨[], none⟩, fun more => rfl⟩
  | append_singleton text c ih =>
    by_cases ends : Ends c
    · refine ⟨read text, fun more => ?_⟩
      rw [lineTail_concat_end ends, List.append_assoc, List.singleton_append, cut text c ends,
        List.nil_append]
    · obtain ⟨finished, splits⟩ := ih
      refine ⟨finished, fun more => ?_⟩
      rw [lineTail_concat ends, List.append_assoc, List.append_assoc]
      exact splits ([c] ++ more)

/-- It reads what a text goes on with up to that one's first line end, and the rest
on its own. -/
theorem read_before (cut : ∀ left e, Ends e → ∀ right,
      read (left ++ e :: right) = (read left).andThen (read right)) (text : List α) :
    ∃ later : Yielded Record, ∀ before,
      read (before ++ text) = (read (before ++ lineHead Ends text)).andThen later := by
  induction text with
  | nil => exact ⟨⟨[], none⟩, fun before => (Yielded.andThen_nil _).symm⟩
  | cons c text ih =>
    by_cases ends : Ends c
    · refine ⟨read text, fun before => ?_⟩
      rw [cut before c ends, lineHead, List.takeWhile_cons_of_neg (by simpa using ends),
        List.append_nil]
    · obtain ⟨later, splits⟩ := ih
      refine ⟨later, fun before => ?_⟩
      have step := splits (before ++ [c])
      rw [lineHead, List.takeWhile_cons_of_pos (by simpa using ends)]
      rwa [List.append_assoc, List.append_assoc] at step

end

/-! ## Writing -/

/-- The `events-<month>.jsonl` files of a log directory, by month. -/
abbrev Months := String → Option (List UInt8)

/-- `now.strftime("%Y-%m")`. -/
def monthOf (now : Datetime) : String := String.ofList (pad4 now.year ++ '-' :: pad2 now.month)

/-- `{"ts": ts, "event": kind, **fields}`: a field of either name takes its place. -/
def payload (now : Datetime) (kind : String) (fields : List (String × Json)) : Event :=
  fields.foldl (fun event field => Dict.put event field.1 field.2)
    [("ts", .str (isoMs now)), ("event", .str kind)]

/-- `emit` at the clock reading `now`, where `isKnown` is the registry of kinds. -/
def emit (i : Interpreter) (isKnown : String → Bool) (now : Datetime) (files : Months)
    (kind : String) (fields : List (String × Json)) : Except PyErr Months :=
  if isKnown kind = false then .error .valueError
  else
    let line := dumps i (.obj (payload now kind fields)) ++ ['\n']
    .ok (Function.update files (monthOf now)
      (some ((files (monthOf now)).getD [] ++ Utf8.encode line)))

end AgentRunner.EventFile
