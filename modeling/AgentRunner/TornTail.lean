import AgentRunner.EventFile
import AgentRunner.JsonFraming

/-! What `emit` does to an events file whose last append was cut short. The new
line is appended to whatever stands there: after a line end, or after white space,
it is read as it was written; after anything else the two merge into one line that
is no JSON, and the event is lost without a trace. -/
namespace AgentRunner.TornTail
open PyValue JsonText TextLines IsoTime JsonFraming EventFile

/-- What stands after the last line end. -/
def tornTail (text : List Char) : List Char := lineTail LineEnd text

def Blank (text : List Char) : Prop := ∀ c ∈ text, isSpace c = true

instance (text : List Char) : Decidable (Blank text) :=
  decidable_of_iff (text.all isSpace = true) List.all_eq_true

/-- No line makes `json.loads` raise anything but a `JSONDecodeError`. -/
def Readable (i : Interpreter) (text : List Char) : Prop :=
  ∀ line ∈ readLines text, ∀ e, loads i (strip line) ≠ .error e

/-! ## The line `emit` writes -/

theorem payload_head (now : Datetime) (kind : String) (fields : List (String × Json)) :
    ∃ v rest, payload now kind fields = ("ts", v) :: rest := by
  suffices ∀ event v rest, event = ("ts", v) :: rest → ∃ v' rest',
      fields.foldl (fun event field => Dict.put event field.1 field.2) event =
        ("ts", v') :: rest' from
    this _ _ _ rfl
  induction fields with
  | nil => exact fun event v rest same => ⟨v, rest, same⟩
  | cons field fields ih =>
    rintro event v rest rfl
    rw [List.foldl_cons]
    by_cases same : "ts" = field.1
    · exact ih _ field.2 rest (by rw [Dict.put, if_pos same])
    · exact ih _ v _ (by rw [Dict.put, if_neg same])

/-- An event is written as one line, from a brace to a brace. -/
theorem dumps_event (i : Interpreter) (now : Datetime) (kind : String)
    (fields : List (String × Json)) :
    ∃ rest, dumps i (.obj (payload now kind fields)) = '{' :: '"' :: 't' :: rest ++ ['}'] := by
  obtain ⟨v, rest, same⟩ := payload_head now kind fields
  rw [same, dumps]
  cases rest with
  | nil => exact ⟨_, rfl⟩
  | cons field rest => exact ⟨_, rfl⟩

/-! ## Reading it back -/

theorem loads_blank (i : Interpreter) (e : PyErr) : loads i [] ≠ .error e := by
  intro loaded
  cases loaded

theorem iterParsedLines_finished (i : Interpreter) (lines : List (List Char)) :
    (iterParsedLines i lines).raised = none ↔
      ∀ line ∈ lines, ∀ e, loads i (strip line) ≠ .error e := by
  induction lines with
  | nil => simp [iterParsedLines]
  | cons line lines ih =>
    rw [List.forall_mem_cons, ← ih, iterParsedLines]
    by_cases blank : strip line = []
    · rw [if_pos blank, blank]
      exact (and_iff_right (loads_blank i)).symm
    · rw [if_neg blank]
      cases loaded : loads i (strip line) with
      | error e =>
        refine iff_of_false (fun none => ?_) fun quiet => quiet.1 e rfl
        cases none
      | ok value =>
        rw [and_iff_right fun e same => by cases same]
        cases value with
        | none => rfl
        | some value => cases value <;> rfl

/-- A line of its own yields at most one record. -/
theorem textRecords_line {i : Interpreter} {line : List Char} (oneLine : OneLine line) :
    textRecords i line = iterParsedLines i [line] := by
  cases line with
  | nil => rfl
  | cons c line => rw [textRecords, readLines_single (List.cons_ne_nil c line) oneLine]

theorem tornTail_oneLine (text : List Char) : OneLine (tornTail text) :=
  fun _ => lineTail_plain

theorem blank_line {i : Interpreter} {line : List Char} (blank : Blank line) :
    iterParsedLines i [line] = ⟨[], none⟩ := by
  have stripped : strip line = [] := by
    rw [strip, lstrip, List.dropWhile_eq_nil_iff.mpr blank, List.rdropWhile_nil]
  simp [iterParsedLines, stripped]

theorem not_ws_of_solid {c : Char} (solid : isSpace c = false) : isWs c = false := by
  by_contra ws
  simp only [isWs, Bool.not_eq_false, Bool.or_eq_true, beq_iff_eq] at ws
  obtain ((rfl | rfl) | rfl) | rfl := ws <;> cases solid

/-- Behind a blank tail the new line reads as it was written. -/
theorem event_after_blank {i : Interpreter} {torn : List Char} (blank : Blank torn)
    {now : Datetime} {kind : String} {fields : List (String × Json)}
    (inverts : loads i (dumps i (.obj (payload now kind fields))) =
      .ok (some (.obj (payload now kind fields)))) :
    iterParsedLines i [torn ++ dumps i (.obj (payload now kind fields))] =
      ⟨[(dumps i (.obj (payload now kind fields)), payload now kind fields)], none⟩ := by
  have stripped : strip (torn ++ dumps i (.obj (payload now kind fields))) =
      dumps i (.obj (payload now kind fields)) := by
    obtain ⟨rest, written⟩ := dumps_event i now kind fields
    rw [strip, lstrip_blank blank, written, lstrip, List.cons_append,
      List.dropWhile_cons_of_neg (by decide), ← List.cons_append]
    exact rstrip_solid rfl
  have filled_ : dumps i (.obj (payload now kind fields)) ≠ [] := by
    obtain ⟨rest, written⟩ := dumps_event i now kind fields
    rw [written]
    exact List.cons_ne_nil _ _
  simp [iterParsedLines, stripped, filled_, inverts]

/-- Behind anything else the merged line yields nothing. -/
theorem event_after_filled {i : Interpreter} {torn : List Char} (filled_ : ¬ Blank torn)
    {now : Datetime} {kind : String} {fields : List (String × Json)}
    (inverts : loads i (dumps i (.obj (payload now kind fields))) =
      .ok (some (.obj (payload now kind fields)))) :
    (iterParsedLines i [torn ++ dumps i (.obj (payload now kind fields))]).items = [] := by
  obtain ⟨rest, written⟩ := dumps_event i now kind fields
  obtain ⟨c, before, solid, -, merged⟩ := lstrip_filled filled_
  rw [written] at inverts ⊢
  have stripped : strip (torn ++ ('{' :: '"' :: 't' :: rest ++ ['}'])) =
      c :: before ++ '{' :: '"' :: 't' :: (rest ++ ['}']) := by
    rw [strip, merged, ← List.cons_append, ← List.append_assoc]
    exact (rstrip_solid rfl).trans (List.append_assoc _ _ _)
  have noDocument (v : Json) : loads i (c :: before ++ '{' :: '"' :: 't' :: (rest ++ ['}'])) ≠
      .ok (some v) := loads_before (not_ws_of_solid solid) (loads_reads inverts) v
  simp only [iterParsedLines, stripped]
  split
  · rfl
  · split
    · rename_i loaded
      exact absurd loaded (noDocument _)
    · rfl
    · rfl

/-- The file's text once the line is appended: it starts with an ASCII character,
so what the bytes before it decode to does not change. -/
theorem decode_emitted (i : Interpreter) (content : List UInt8) (now : Datetime) (kind : String)
    (fields : List (String × Json)) :
    Utf8.decode (content ++ Utf8.encode (dumps i (.obj (payload now kind fields)) ++ ['\n'])) =
      Utf8.decode content ++ (dumps i (.obj (payload now kind fields)) ++ ['\n']) := by
  obtain ⟨rest, written⟩ := dumps_event i now kind fields
  rw [written]
  exact Utf8.decode_append_encode content (by decide) _

/-! ## Emitting after a torn append -/

/-- Reading a file after a line was appended to it, against reading it before. -/
theorem appended_yields_iff {i : Interpreter} {now : Datetime} {kind : String}
    {fields : List (String × Json)}
    (inverts : loads i (dumps i (.obj (payload now kind fields))) =
      .ok (some (.obj (payload now kind fields)))) (content : List UInt8) :
    (iterEventDicts i (content ++
        Utf8.encode (dumps i (.obj (payload now kind fields)) ++ ['\n']))).items =
      (iterEventDicts i content).items ++ [payload now kind fields] ↔
        Readable i (Utf8.decode content) ∧ Blank (tornTail (Utf8.decode content)) := by
  obtain ⟨finished, splits⟩ := read_after
    (fun left e ends => textRecords_cut i left (e := e) ends) (Utf8.decode content)
  rw [← tornTail] at splits
  have torn := tornTail_oneLine (Utf8.decode content)
  have before : records i content =
      finished.andThen (iterParsedLines i [tornTail (Utf8.decode content)]) := by
    have split := splits []
    rw [List.append_nil, List.append_nil, textRecords_line torn] at split
    exact split
  have after : records i (content ++ Utf8.encode (dumps i (.obj (payload now kind fields)) ++
      ['\n'])) = finished.andThen (iterParsedLines i [tornTail (Utf8.decode content) ++
        dumps i (.obj (payload now kind fields))]) := by
    rw [records, decode_emitted, splits, ← List.append_assoc,
      textRecords_cut i _ (.inl rfl : LineEnd '\n'), textRecords_line (torn.append
        (dumps_oneLine i _))]
    exact congrArg finished.andThen (Yielded.andThen_nil _)
  have readable : Readable i (Utf8.decode content) ↔ (records i content).raised = none :=
    (iterParsedLines_finished i _).symm
  simp only [iterEventDicts]
  by_cases blank : Blank (tornTail (Utf8.decode content))
  · rw [readable, before, after, event_after_blank blank inverts, blank_line blank]
    cases raised : finished.raised with
    | none => simp [Yielded.andThen, raised, blank]
    | some e => simp [Yielded.andThen, raised]
  · refine iff_of_false (fun same => ?_) fun met => blank met.2
    have nothing := event_after_filled blank inverts
    have lengths := congrArg List.length same
    rw [before, after] at lengths
    cases raised : finished.raised with
    | none => simp [Yielded.andThen, raised, nothing] at lengths
    | some e => simp [Yielded.andThen, raised] at lengths

/-- **An event is read back when nothing stands before it on its line.**  For every
content of the month's file, reading it after `emit` yields what it yielded before
and then the new event if and only if every line of it can be read and what stands
after its last line end is blank. -/
theorem emit_yields_iff (i : Interpreter) (isKnown : String → Bool) (now : Datetime)
    (files : Months) (kind : String) (fields : List (String × Json)) {files' : Months}
    (inverts : loads i (dumps i (.obj (payload now kind fields))) =
      .ok (some (.obj (payload now kind fields))))
    (emitted : emit i isKnown now files kind fields = .ok files') :
    ∃ content', files' (monthOf now) = some content' ∧
      ((iterEventDicts i content').items =
          (iterEventDicts i ((files (monthOf now)).getD [])).items ++ [payload now kind fields] ↔
        Readable i (Utf8.decode ((files (monthOf now)).getD [])) ∧
          Blank (tornTail (Utf8.decode ((files (monthOf now)).getD [])))) := by
  unfold emit at emitted
  split at emitted
  · cases emitted
  · cases emitted
    exact ⟨_, Function.update_self _ _ _, appended_yields_iff inverts _⟩

/-! ## A torn append -/

theorem newYear_valid : Valid 2026 1 1 0 0 0 0 (some 0) := by decide

def newYear : Datetime := ⟨2026, 1, 1, 0, 0, 0, 0, some 0, newYear_valid⟩

/-- The month's file, its last line cut short or ended. -/
def monthFile (line : String) : Months :=
  Function.update (fun _ => none) (monthOf newYear) (some (Utf8.encode line.toList))

theorem recovered_inverts :
    loads wordsOnly (dumps wordsOnly (.obj (payload newYear "transient_error_recovered" []))) =
      .ok (some (.obj (payload newYear "transient_error_recovered" []))) := by rfl

theorem monthFile_text (line : String) :
    Utf8.decode ((monthFile line (monthOf newYear)).getD []) = line.toList := by
  have text := Utf8.decode_encode line.toList []
  rw [List.append_nil] at text
  rw [monthFile, Function.update_self, Option.getD_some, text]
  exact List.append_nil _

/-- After a whole line the new event is the last one. -/
theorem emit_after_line_end : ∃ content',
    (iterEventDicts wordsOnly content').items =
      (iterEventDicts wordsOnly ((monthFile "\x7b\x7d\n" (monthOf newYear)).getD [])).items ++
        [payload newYear "transient_error_recovered" []] := by
  obtain ⟨content', -, yields⟩ := emit_yields_iff wordsOnly (fun _ => true) newYear
    (monthFile "\x7b\x7d\n") "transient_error_recovered" [] recovered_inverts rfl
  refine ⟨content', yields.mpr ?_⟩
  rw [monthFile_text]
  refine ⟨fun line member e => ?_, by decide⟩
  obtain rfl : line = "\x7b\x7d".toList := List.mem_singleton.mp member
  exact nofun

/-- Behind a line whose append was cut short the new event is lost. -/
theorem torn_append_swallows_event : ∃ i isKnown now files kind fields, ∃ files' content',
    loads i (dumps i (.obj (payload now kind fields))) =
        .ok (some (.obj (payload now kind fields))) ∧
      emit i isKnown now files kind fields = .ok files' ∧ files' (monthOf now) = some content' ∧
      (iterEventDicts i content').items ≠
        (iterEventDicts i ((files (monthOf now)).getD [])).items ++ [payload now kind fields] := by
  refine ⟨wordsOnly, fun _ => true, newYear, monthFile "\x7b\"ts\": \"2026-01",
    "transient_error_recovered", [], _, _, recovered_inverts, rfl, Function.update_self _ _ _,
    fun same => ?_⟩
  have blank := ((appended_yields_iff recovered_inverts _).mp same).2
  rw [monthFile_text] at blank
  exact absurd blank (by decide)

end AgentRunner.TornTail
