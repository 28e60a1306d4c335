import AgentRunner.JsonRoundTrip
import AgentRunner.AtomicFile
import AgentRunner.Utf8

/-! The state files of a log directory: `atomic_write_json`, `read_json`, and the status
and orphan records kept through them. A reader that takes any byte sequence for "no
state" still has to be sure that what it does take is a record some writer wrote. -/
namespace AgentRunner.ContextStore
open PyValue JsonText TextLines JsonRoundTrip AtomicFile

/-! ## Bytes and texts -/

/-- `bytes.decode("utf-8")`: bytes are UTF-8 when they encode the text they read as. -/
def decodeStrict (bytes : List UInt8) : Option (List Char) :=
  if Utf8.encode (Utf8.decode bytes) = bytes then some (Utf8.decode bytes) else none

/-- Universal newlines, as `read_text` translates them. -/
def universalNewlines : List Char → List Char
  | [] => []
  | '\r' :: '\n' :: rest => '\n' :: universalNewlines rest
  | '\r' :: rest => '\n' :: universalNewlines rest
  | c :: rest => c :: universalNewlines rest

/-- `read_json` of a file with this content, if there is one: `None` for an `OSError` or
a `ValueError`. -/
def readJson (i : Interpreter) (content : Option (List UInt8)) : Except PyErr Json :=
  match content.bind decodeStrict with
  | none => .ok .null
  | some text =>
    match loads i (universalNewlines text) with
    | .ok (some v) => .ok v
    | .ok none => .ok .null
    | .error .valueError => .ok .null
    | .error e => .error e

/-- What `atomic_write_json` writes. -/
def fileBytes (i : Interpreter) (payload : Json) : List UInt8 :=
  Utf8.encode (write i .indented 0 payload)

theorem decodeStrict_encode (text : List Char) : decodeStrict (Utf8.encode text) = some text := by
  have reads := Utf8.decode_encode text []
  rw [List.append_nil] at reads
  have whole : Utf8.decode (Utf8.encode text) = text := by
    rw [reads]
    exact List.append_nil text
  rw [decodeStrict, whole, if_pos rfl]

theorem universalNewlines_plain {text : List Char} (plain : '\r' ∉ text) :
    universalNewlines text = text := by
  induction text with
  | nil => rfl
  | cons c text ih =>
    rw [List.mem_cons, not_or] at plain
    rw [universalNewlines, ih plain.2]
    · exact fun _ same => absurd same.symm plain.1
    · exact Ne.symm plain.1

/-! ## What was written is read -/

theorem noReturn_of_oneLine {text : List Char} (oneLine : OneLine text) : '\r' ∉ text :=
  fun member => oneLine '\r' member (.inr rfl)

theorem newline_noReturn (l : Layout) (depth : Nat) : '\r' ∉ l.newline depth := by
  unfold Layout.newline
  cases l.indent with
  | none => exact nofun
  | some n =>
    rw [List.mem_cons, not_or]
    exact ⟨by decide, fun member => absurd (List.eq_of_mem_replicate member) (by decide)⟩

theorem gaps_noReturn : '\r' ∉ Layout.indented.itemGap ∧ '\r' ∉ Layout.indented.keyGap := by
  decide

mutual
/-- A state file has no carriage return, which `read_text` would translate. -/
theorem write_noReturn (i : Interpreter) : ∀ (v : Json) (depth : Nat), '\r' ∉ write i .indented depth v
  | .null, _ => by rw [write]; decide
  | .bool true, _ => by rw [write]; decide
  | .bool false, _ => by rw [write]; decide
  | .int n, _ => noReturn_of_oneLine (dumpsInt_oneLine n)
  | .float x, _ => noReturn_of_oneLine (dumpsFloat_oneLine i x)
  | .str text, _ => noReturn_of_oneLine (dumpsText_oneLine text)
  | .arr [], _ => by rw [write]; decide
  | .arr (v :: rest), depth => by
    have inside := writeItems_noReturn i (v :: rest) (depth + 1)
    simp only [write, List.mem_append, List.mem_cons, List.not_mem_nil, not_or]
    exact ⟨⟨⟨by decide, inside⟩, newline_noReturn .indented depth⟩, by decide, id⟩
  | .obj [], _ => by rw [write]; decide
  | .obj (field :: rest), depth => by
    have inside := writeFields_noReturn i (field :: rest) (depth + 1)
    simp only [write, List.mem_append, List.mem_cons, List.not_mem_nil, not_or]
    exact ⟨⟨⟨by decide, inside⟩, newline_noReturn .indented depth⟩, by decide, id⟩

theorem writeItems_noReturn (i : Interpreter) : ∀ (values : List Json) (depth : Nat),
    '\r' ∉ writeItems i .indented depth values
  | [], _ => nofun
  | [v], depth => by
    rw [writeItems, List.mem_append, not_or]
    exact ⟨newline_noReturn .indented depth, write_noReturn i v depth⟩
  | v :: w :: rest, depth => by
    have later := writeItems_noReturn i (w :: rest) depth
    simp only [writeItems, List.mem_append, List.mem_cons, not_or]
    exact ⟨⟨⟨newline_noReturn .indented depth, write_noReturn i v depth⟩, by decide, gaps_noReturn.1⟩, later⟩

theorem writeFields_noReturn (i : Interpreter) : ∀ (fields : Event) (depth : Nat),
    '\r' ∉ writeFields i .indented depth fields
  | [], _ => nofun
  | [(key, v)], depth => by
    simp only [writeFields, List.mem_append, List.mem_cons, not_or]
    exact ⟨⟨⟨newline_noReturn .indented depth, noReturn_of_oneLine (dumpsText_oneLine key)⟩, by decide,
      gaps_noReturn.2⟩, write_noReturn i v depth⟩
  | (key, v) :: field :: rest, depth => by
    have later := writeFields_noReturn i (field :: rest) depth
    simp only [writeFields, List.mem_append, List.mem_cons, not_or]
    exact ⟨⟨⟨⟨⟨newline_noReturn .indented depth, noReturn_of_oneLine (dumpsText_oneLine key)⟩, by decide,
      gaps_noReturn.2⟩, write_noReturn i v depth⟩, by decide, gaps_noReturn.1⟩, later⟩
end

/-- `read_json` of a file `atomic_write_json` wrote. -/
theorem readJson_fileBytes (i : Interpreter) {payload : Json} (storable : Storable i 0 payload) :
    readJson i (some (fileBytes i payload)) = .ok payload := by
  have plain := write_noReturn i payload 0
  rw [readJson, Option.bind_some, fileBytes, decodeStrict_encode]
  simp only [universalNewlines_plain plain, loads_write_alone i .indented storable]

/-! ## Concurrent writers, interrupted writers, power failures -/

/-- A payload that can be written and read back. -/
abbrev Stored (i : Interpreter) := { payload : Json // Storable i 0 payload }

/-- **A state file is never torn.**  Whatever writers of a state file do at the same time,
wherever they are interrupted and whenever the power fails, `read_json` returns what the
file stood for when it was opened: `None`, or the payload of one whole
`atomic_write_json`. -/
theorem readJson_atomic (i : Interpreter)
    (actions : List (Action (Stored i) UInt8)) {t : System (Stored i) UInt8} {r : ℕ}
    {result : Option (List UInt8)}
    (ran : Runs.run (System.step fun v => fileBytes i v.1) System.empty actions = some t)
    (done : t.readers r = .finished result) :
    ∃ value : Option (Stored i), (Register.empty.run actions).seen r = some value ∧
      readJson i result = .ok (value.elim .null Subtype.val) := by
  obtain ⟨value, seen, rfl⟩ := finished_read ran done
  refine ⟨value, seen, ?_⟩
  cases value with
  | none => rfl
  | some v => exact readJson_fileBytes i v.2

/-- A write of `{}`, read in two pieces after the power failed. -/
theorem readJson_atomic_empty :
    ∃ value : Option (Stored wordsOnly),
      (Register.empty.run [.create 0 (⟨.obj [], by decide, by decide, trivial⟩ : Stored wordsOnly),
        .write 0 2, .sync 0, .replace 0, .powerLoss 0 (fun _ => [0x7B]), .openPath 1, .read 1 0,
        .read 1 7, .read 1 7] : Register (Stored wordsOnly)).seen 1 = some value ∧
      readJson wordsOnly (some [0x7B, 0x7D]) = .ok (value.elim .null Subtype.val) :=
  readJson_atomic wordsOnly [.create 0 ⟨.obj [], by decide, by decide, trivial⟩,
    .write 0 2, .sync 0, .replace 0, .powerLoss 0 (fun _ => [0x7B]), .openPath 1, .read 1 0,
    .read 1 7, .read 1 7] rfl rfl

/-! ## Records -/

/-- A status, each field as the value the file holds for it. -/
structure Status where
  roundNum : Json
  running : Json
  lastCompletedAt : Json
  lastExitCode : Json
  lastDurationS : Json
  currentPhase : Json
  phaseIndex : Json

def Status.asdict (s : Status) : Event :=
  [("round_num", s.roundNum), ("running", s.running), ("last_completed_at", s.lastCompletedAt),
    ("last_exit_code", s.lastExitCode), ("last_duration_s", s.lastDurationS),
    ("current_phase", s.currentPhase), ("phase_index", s.phaseIndex)]

def isNone : Json → Bool
  | .null => true
  | _ => false

def isBool : Json → Bool
  | .bool _ => true
  | _ => false

def isInt : Json → Bool
  | .int _ => true
  | _ => false

/-- What `write_status` writes: the fields that are not `None`. -/
def Status.payload (s : Status) : Event := s.asdict.filter fun f => !isNone f.2 || isBool f.2

/-- `read_status`, from what `read_json` returned. -/
def readStatus : Json → Option Status
  | .obj data =>
    if (data.lookup "round_num").any fun n => isBool n || !isInt n then none
    else do
      let roundNum ← data.lookup "round_num"
      let running ← data.lookup "running"
      return { roundNum, running, lastCompletedAt := get data "last_completed_at",
               lastExitCode := get data "last_exit_code",
               lastDurationS := get data "last_duration_s",
               currentPhase := get data "current_phase",
               phaseIndex := (data.lookup "phase_index").getD (.int 0) }
  | _ => none

structure OrphanState where
  roundNum : Json
  files : Json
  stashedRef : Json
  stashMessage : Json
  timestamp : Json
  phase : Json

/-- What `write_orphan_state` writes. -/
def OrphanState.asdict (s : OrphanState) : Event :=
  [("round_num", s.roundNum), ("files", s.files), ("stashed_ref", s.stashedRef),
    ("stash_message", s.stashMessage), ("timestamp", s.timestamp), ("phase", s.phase)]

/-- `read_orphan_state`, from what `read_json` returned. -/
def readOrphanState : Json → Option OrphanState
  | .obj data => do
    let roundNum ← data.lookup "round_num"
    let files ← data.lookup "files"
    let stashedRef ← data.lookup "stashed_ref"
    let stashMessage ← data.lookup "stash_message"
    let timestamp ← data.lookup "timestamp"
    return { roundNum, files, stashedRef, stashMessage, timestamp, phase := get data "phase" }
  | _ => none

theorem lookup_filter {fields : Event} (distinct : (fields.map Prod.fst).Nodup)
    (kept : Json → Bool) (key : String) :
    (fields.filter fun f => kept f.2).lookup key = (fields.lookup key).filter kept := by
  induction fields with
  | nil => rfl
  | cons field fields ih =>
    obtain ⟨k, v⟩ := field
    rw [List.map_cons, List.nodup_cons] at distinct
    have later := ih distinct.2
    by_cases same : key = k
    · subst same
      have absent : fields.lookup key = none := by
        rw [List.lookup_eq_none_iff]
        exact fun f member => bne_iff_ne.mpr fun same =>
          distinct.1 (List.mem_map.mpr ⟨f, member, same.symm⟩)
      rw [absent] at later
      rw [List.filter_cons]
      cases keep : kept v with
      | true => simp [keep, Option.filter]
      | false => simpa [List.lookup_cons, keep, Option.filter] using later
    · rw [List.filter_cons]
      split <;> simp [List.lookup_cons, beq_eq_false_iff_ne.mpr same, later]

theorem lookup_payload (s : Status) (key : String) :
    s.payload.lookup key = (s.asdict.lookup key).filter fun v => !isNone v := by
  have kept : (fun f : String × Json => !isNone f.2 || isBool f.2) = fun f => !isNone f.2 := by
    funext ⟨_, v⟩
    cases v <;> rfl
  rw [Status.payload, kept]
  exact lookup_filter (by simp [Status.asdict]) (fun v => !isNone v) key

/-- A field that is `None` reads as `None` where that is its default. -/
theorem get_payload (s : Status) (key : String) {v : Json}
    (held : s.asdict.lookup key = some v) : get s.payload key = v := by
  rw [PyValue.get, lookup_payload, held]
  cases v <;> rfl

theorem getD_filter_ne_null {v w : Json} :
    ((some v).filter fun v => !isNone v).getD w = v ↔ v ≠ .null ∨ w = .null := by
  cases v <;> simp [Option.filter, isNone]

theorem readStatus_payload (s : Status) :
    readStatus (.obj s.payload) = some s ↔
      isInt s.roundNum = true ∧ s.running ≠ .null ∧ s.phaseIndex ≠ .null := by
  have round : s.asdict.lookup "round_num" = some s.roundNum := rfl
  have runs : s.asdict.lookup "running" = some s.running := rfl
  have phase : s.asdict.lookup "phase_index" = some s.phaseIndex := rfl
  rw [readStatus, lookup_payload, lookup_payload, lookup_payload, round, runs, phase,
    get_payload s "last_completed_at" rfl, get_payload s "last_exit_code" rfl,
    get_payload s "last_duration_s" rfl, get_payload s "current_phase" rfl]
  obtain ⟨roundNum, running, _, _, _, _, phaseIndex⟩ := s
  have index : (((some phaseIndex).filter fun v => !isNone v).getD (.int 0) = phaseIndex) ↔
      phaseIndex ≠ .null := by
    rw [getD_filter_ne_null, or_iff_left (by nofun)]
  dsimp only
  generalize ((some phaseIndex).filter fun v => !isNone v).getD (.int 0) = written at index ⊢
  cases roundNum <;> cases running <;> simp [Option.filter, isNone, isInt, isBool, index]

theorem readOrphanState_asdict (s : OrphanState) : readOrphanState (.obj s.asdict) = some s := rfl

theorem storableFields_filter {i : Interpreter} {depth : Nat} {fields : Event}
    (kept : String × Json → Bool) (storable : StorableFields i depth fields) :
    StorableFields i depth (fields.filter kept) := by
  induction fields with
  | nil => trivial
  | cons field fields ih =>
    rw [List.filter_cons]
    split
    · exact ⟨storable.1, ih storable.2⟩
    · exact ih storable.2

/-- **A status survives its file exactly when it is one.**  What `write_status` writes
reads back as the status it was given if and only if its round number is an integer and
neither `running` nor the phase index is `None`; an orphan record always does. -/
theorem status_round_trip (i : Interpreter) (deep : 0 < i.maxDepth) (s : Status)
    (storable : StorableFields i 1 s.asdict) :
    (readJson i (some (fileBytes i (.obj s.payload)))).map readStatus = .ok (some s) ↔
      isInt s.roundNum = true ∧ s.running ≠ .null ∧ s.phaseIndex ≠ .null := by
  have fields : Storable i 0 (.obj s.payload) := by
    refine ⟨deep, ?_, ?_⟩
    · exact (List.filter_sublist.map Prod.fst).nodup (by simp [Status.asdict])
    · exact storableFields_filter _ storable
  rw [readJson_fileBytes i fields]
  simp only [Except.map, Except.ok.injEq]
  exact readStatus_payload s

/-- The status after a first round. -/
theorem status_round_trip_first :
    (readJson wordsOnly (some (fileBytes wordsOnly (.obj (Status.payload
        ⟨.int 1, .bool false, .str "2026-01-01", .int 0, .null, .null, .int 0⟩))))).map readStatus =
        .ok (some ⟨.int 1, .bool false, .str "2026-01-01", .int 0, .null, .null, .int 0⟩) ↔
      isInt (.int 1) = true ∧ Json.bool false ≠ .null ∧ Json.int 0 ≠ .null := by
  have one : (Nat.toDigits 10 1).length ≤ maxStrDigits := by decide
  have zero : (Nat.toDigits 10 0).length ≤ maxStrDigits := by decide
  exact status_round_trip wordsOnly (by decide)
    ⟨.int 1, .bool false, .str "2026-01-01", .int 0, .null, .null, .int 0⟩
    ⟨one, trivial, trivial, zero, trivial, trivial, zero, trivial⟩

end AgentRunner.ContextStore
