import AgentRunner.JsonRoundTrip
import AgentRunner.TornTail
import AgentRunner.Shards
import AgentRunner.MonthOrder

/-! The event stream from its writers to its readers, bytes in between: every `emit`
appends one line to the file of its month, and a reader of the files finds the events
themselves, filed as the stream was written. -/
namespace AgentRunner.EventLog
open PyValue JsonText TextLines IsoTime EventFile TornTail JsonRoundTrip Shards

/-- One call of `emit`, at its clock reading. -/
structure Call where
  now : Datetime
  kind : String
  fields : List (String × Json)

def Call.month (c : Call) : String := monthOf c.now

def Call.event (c : Call) : Event := payload c.now c.kind c.fields

/-- A call the interpreter can write a line for and read it back. -/
structure Call.Sound (i : Interpreter) (isKnown : String → Bool) (c : Call) : Prop where
  known : isKnown c.kind = true
  storable : StorableFields i 1 c.fields

/-- The calls of all writers, in the order their lines are appended. -/
def emitAll (i : Interpreter) (isKnown : String → Bool) (files : Months) :
    List Call → Except PyErr Months
  | [] => .ok files
  | c :: calls => do
    let files ← emit i isKnown c.now files c.kind c.fields
    emitAll i isKnown files calls

/-- `all_month_files`: the months that have a file, oldest first. -/
def AllMonthFiles (files : Months) (months : List String) : Prop :=
  months.Pairwise (· < ·) ∧ ∀ m, m ∈ months ↔ files m ≠ none

/-- `newest_month_files`. -/
def newestMonthFiles (n : Nat) (months : List String) : List String :=
  if n = 0 then months else months.drop (months.length - n)

/-- What `scan` yields: the files one after the other. -/
def scan (i : Interpreter) (files : Months) (months : List String) : Yielded Event :=
  months.foldr (fun m rest => (iterEventDicts i ((files m).getD [])).andThen rest) ⟨[], none⟩

/-- The stream as its calls are filed. -/
def journal (calls : List Call) : List (String × Event) := calls.map fun c => (c.month, c.event)

/-! ## One line -/

section
variable {i : Interpreter} {isKnown : String → Bool}

private theorem storable_put {event : Event} {depth : Nat} {key : String} {v : Json}
    (storable : StorableFields i depth event) (new : Storable i depth v) :
    StorableFields i depth (Dict.put event key v) := by
  induction event with
  | nil => exact ⟨new, trivial⟩
  | cons field event ih =>
    rw [Dict.put]
    split
    · exact ⟨new, storable.2⟩
    · exact ⟨storable.1, ih storable.2⟩

/-- An event is a `dict`, so its keys are distinct whatever fields it is given. -/
theorem payload_storable (deep : 0 < i.maxDepth) (now : Datetime) (kind : String)
    {fields : List (String × Json)} (storable : StorableFields i 1 fields) :
    Storable i 0 (.obj (payload now kind fields)) := by
  suffices ∀ event : Event, (event.map Prod.fst).Nodup → StorableFields i 1 event →
      ((fields.foldl (fun event field => Dict.put event field.1 field.2) event).map
        Prod.fst).Nodup ∧
      StorableFields i 1 (fields.foldl (fun event field => Dict.put event field.1 field.2) event)
    from ⟨deep, this _ (by simp) ⟨trivial, trivial, trivial⟩⟩
  induction fields with
  | nil => exact fun event distinct stored => ⟨distinct, stored⟩
  | cons field fields ih =>
    intro event distinct stored
    exact ih storable.2 _ (Dict.nodup_put distinct _ _) (storable_put stored storable.1)

/-- A file that ends where a line ends. -/
def Closed (content : List UInt8) : Prop := content = [] ∨ ∃ left, content = left ++ [0x0A]

theorem records_closed_append {content : List UInt8} (closed : Closed content)
    (more : List UInt8) : records i (content ++ more) = (records i content).andThen (records i more) := by
  rcases closed with rfl | ⟨left, rfl⟩
  · rfl
  · rw [List.append_assoc, List.singleton_append, records_cut i left (.inl rfl),
      records_closed i left (.inl rfl)]

/-- The line of one event. -/
def lineOf (i : Interpreter) (c : Call) : List UInt8 :=
  Utf8.encode (dumps i (.obj c.event) ++ ['\n'])

theorem lineOf_closed (c : Call) (content : List UInt8) : Closed (content ++ lineOf i c) := by
  refine .inr ⟨content ++ Utf8.encode (dumps i (.obj c.event)), ?_⟩
  rw [lineOf, Utf8.encode_append, List.append_assoc]
  rfl

theorem records_line (deep : 0 < i.maxDepth) {c : Call} (sound : c.Sound i isKnown) :
    records i (lineOf i c) = ⟨[(dumps i (.obj c.event), c.event)], none⟩ := by
  have inverts := loads_dumps i (payload_storable deep c.now c.kind sound.storable)
  have text := decode_emitted i [] c.now c.kind c.fields
  rw [List.nil_append] at text
  rw [records, lineOf, Call.event, text]
  change textRecords i ([] ++ (dumps i _ ++ ['\n'])) = _
  rw [List.nil_append, textRecords_cut i _ (.inl rfl), textRecords_line (dumps_oneLine i _)]
  have line := @event_after_blank i [] (List.forall_mem_nil _) _ _ _ inverts
  rw [List.nil_append] at line
  rw [line]
  exact Yielded.andThen_nil _

/-! ## The files and the stream -/

private theorem lookup_least {fs : List (String × List Event)} {k : String}
    (least : ∀ file ∈ fs, k < file.1) : fs.lookup k = none :=
  Dict.lookup_absent fun member => by
    obtain ⟨file, there, same⟩ := List.mem_map.mp member
    exact absurd (least file there) (same ▸ lt_irrefl _)

/-- Appending to the file of one month leaves the others as they were. -/
theorem lookup_put {fs : List (String × List Event)}
    (ascending : fs.Pairwise fun x y => x.1 < y.1) (k m : String) (event : Event) :
    (put fs k event).lookup m =
      if m = k then some ((fs.lookup k).getD [] ++ [event]) else fs.lookup m := by
  induction fs with
  | nil =>
    rw [put, Dict.lookup_cons_if]
    rfl
  | cons head rest ih =>
    obtain ⟨j, held⟩ := head
    obtain ⟨least, tail⟩ := List.pairwise_cons.mp ascending
    rw [put]
    by_cases below : k < j
    · have absent : ((j, held) :: rest).lookup k = none :=
        lookup_least (List.forall_mem_cons.mpr ⟨below, fun file member =>
          below.trans (least file member)⟩)
      rw [if_pos below, Dict.lookup_cons_if, absent]
      rfl
    · rw [if_neg below]
      by_cases same : k = j
      · subst same
        rw [if_pos rfl, Dict.lookup_cons_if, Dict.lookup_cons_if, Dict.lookup_cons_if, if_pos rfl]
        split_ifs <;> rfl
      · rw [if_neg same, Dict.lookup_cons_if, ih tail, Dict.lookup_cons_if, Dict.lookup_cons_if, if_neg same]
        split_ifs with first second
        · exact absurd (second ▸ first) same
        · rfl
        · rfl
        · rfl

theorem lookup_of_mem {fs : List (String × List Event)}
    (ascending : fs.Pairwise fun x y => x.1 < y.1) {file : String × List Event}
    (member : file ∈ fs) : fs.lookup file.1 = some file.2 := by
  induction fs with
  | nil => cases member
  | cons head rest ih =>
    obtain ⟨least, tail⟩ := List.pairwise_cons.mp ascending
    obtain ⟨j, held⟩ := head
    obtain rfl | later := List.mem_cons.mp member
    · rw [Dict.lookup_cons_if, if_pos rfl]
    · rw [Dict.lookup_cons_if, if_neg (least file later).ne', ih tail later]

/-- Every file of the directory holds the events the stream filed under its month. -/
def Reflects (i : Interpreter) (files : Months) (shards : List (String × List Event)) : Prop :=
  ∀ m, Option.elim (shards.lookup m) (files m = none) fun events =>
    ∃ content, files m = some content ∧ Closed content ∧
      iterEventDicts i content = ⟨events, none⟩

/-- One call of `emit` files one event. -/
theorem emit_reflects (deep : 0 < i.maxDepth) {c : Call} (sound : c.Sound i isKnown)
    {files : Months} {shards : List (String × List Event)}
    (ascending : shards.Pairwise fun x y => x.1 < y.1) (reflects : Reflects i files shards) :
    ∃ files', emit i isKnown c.now files c.kind c.fields = .ok files' ∧
      Reflects i files' (put shards c.month c.event) := by
  refine ⟨Function.update files c.month (some ((files c.month).getD [] ++ lineOf i c)),
    if_neg (by rw [sound.known]; decide), fun m => ?_⟩
  rw [lookup_put ascending]
  by_cases same : m = c.month
  · rw [if_pos same]
    subst same
    have old : Closed ((files c.month).getD []) ∧
        iterEventDicts i ((files c.month).getD []) = ⟨(shards.lookup c.month).getD [], none⟩ := by
      have before := reflects c.month
      cases held : shards.lookup c.month with
      | none =>
        rw [held] at before
        change files c.month = none at before
        rw [before]
        exact ⟨.inl rfl, rfl⟩
      | some events =>
        rw [held] at before
        obtain ⟨content, there, closed, reads⟩ := before
        rw [there]
        exact ⟨closed, reads⟩
    refine ⟨_, Function.update_self _ _ _, lineOf_closed c _, ?_⟩
    obtain ⟨closed, reads⟩ := old
    have whole := records_closed_append (i := i) closed (lineOf i c)
    simp only [iterEventDicts, Yielded.mk.injEq] at reads
    rw [records_line deep sound, Yielded.andThen, reads.2] at whole
    rw [iterEventDicts, whole]
    simp only [List.map_append, reads.1, List.map_cons, List.map_nil]
  · simp only [if_neg same, Function.update_of_ne same]
    exact reflects m

theorem emitAll_reflects (past : List (String × Event)) (deep : 0 < i.maxDepth)
    {calls : List Call} (sound : ∀ c ∈ calls, c.Sound i isKnown) {files : Months}
    (reflects : Reflects i files (Shards.files past)) :
    ∃ files', emitAll i isKnown files calls = .ok files' ∧
      Reflects i files' (Shards.files (past ++ journal calls)) := by
  induction calls generalizing files past with
  | nil => exact ⟨files, rfl, by rwa [journal, List.map_nil, List.append_nil]⟩
  | cons c calls ih =>
    obtain ⟨first, others⟩ := List.forall_mem_cons.mp sound
    obtain ⟨middle, emitted, reflected⟩ :=
      emit_reflects deep first (files_ascending past) reflects
    rw [← files_concat] at reflected
    obtain ⟨files', rest, reflects'⟩ := ih _ others reflected
    refine ⟨files', ?_, ?_⟩
    · rw [emitAll, emitted]
      exact rest
    · rwa [List.append_assoc] at reflects'

/-- The months that have a file are those the stream has events of. -/
theorem months_of_reflects {files : Months} {past : List (String × Event)}
    (reflects : Reflects i files (Shards.files past)) {months : List String}
    (listed : AllMonthFiles files months) : months = (Shards.files past).map Prod.fst := by
  have ascending : ((Shards.files past).map Prod.fst).Pairwise (· < ·) :=
    List.pairwise_map.mpr (files_ascending past)
  have same : months.Perm ((Shards.files past).map Prod.fst) := by
    refine (List.perm_ext_iff_of_nodup (listed.1.imp ne_of_lt) (ascending.imp ne_of_lt)).mpr
      fun m => (listed.2 m).trans ?_
    have held := reflects m
    cases found : (Shards.files past).lookup m with
    | none =>
      rw [found] at held
      refine iff_of_false (not_not_intro held) fun member => ?_
      obtain ⟨file, there, rfl⟩ := List.mem_map.mp member
      rw [lookup_of_mem (files_ascending past) there] at found
      cases found
    | some events =>
      rw [found] at held
      obtain ⟨content, there, -⟩ := held
      refine iff_of_true (by rw [there]; exact Option.some_ne_none _) ?_
      by_contra absent
      rw [List.lookup_eq_none_iff.mpr fun file member => ?_] at found
      · cases found
      · exact bne_iff_ne.mpr fun same => absent (List.mem_map.mpr ⟨file, member, same.symm⟩)
  exact same.eq_of_pairwise (fun a b _ _ below above => absurd below above.not_gt) listed.1 ascending

/-- A file read from the directory is a file of the stream. -/
theorem reads_of_reflects {files : Months} {past : List (String × Event)}
    (reflects : Reflects i files (Shards.files past)) {file : String × List Event}
    (member : file ∈ Shards.files past) :
    iterEventDicts i ((files file.1).getD []) = ⟨file.2, none⟩ := by
  have held := reflects file.1
  rw [lookup_of_mem (files_ascending past) member] at held
  obtain ⟨content, there, -, reads⟩ := held
  rw [there]
  exact reads

theorem scan_reflects {files : Months} {shards : List (String × List Event)}
    (reads : ∀ file ∈ shards, iterEventDicts i ((files file.1).getD []) = ⟨file.2, none⟩) :
    scan i files (shards.map Prod.fst) = ⟨shards.flatMap Prod.snd, none⟩ := by
  induction shards with
  | nil => rfl
  | cons file shards ih =>
    obtain ⟨first, others⟩ := List.forall_mem_cons.mp reads
    change (iterEventDicts i _).andThen (scan i files (shards.map Prod.fst)) = _
    rw [first, ih others]
    rfl

/-- Readings that never step back file the stream in order. -/
theorem journal_inOrder {calls : List Call} (utc : ∀ c ∈ calls, c.now.offset = some 0)
    (forward : calls.Pairwise fun a b => a.now.instant ≤ b.now.instant) :
    InOrder (journal calls) := by
  rw [InOrder, journal, List.map_map, List.pairwise_map]
  refine forward.imp_of_mem fun {a b} before after ordered => ?_
  exact MonthOrder.monthOf_le (MonthOrder.monthIndex_mono (utc a before) (utc b after) ordered)

/-- **The log reads back.**  Whatever calls of `emit` fill a log directory, no reader of
it meets an exception, and a scan of the newest months yields the events of those
months as they were emitted; a scan of all months yields the whole stream in its order
while the clock does not step back. -/
theorem log_reads_back (i : Interpreter) (isKnown : String → Bool) (deep : 0 < i.maxDepth)
    (calls : List Call) (sound : ∀ c ∈ calls, c.Sound i isKnown) :
    ∃ files, emitAll i isKnown (fun _ => none) calls = .ok files ∧
      ∀ months, AllMonthFiles files months →
        (∀ n, 0 < n → scan i files (newestMonthFiles n months) =
          ⟨(newest n (journal calls)).flatMap Prod.snd, none⟩) ∧
        ((∀ c ∈ calls, c.now.offset = some 0) →
          (calls.Pairwise fun a b => a.now.instant ≤ b.now.instant) →
          scan i files months = ⟨calls.map Call.event, none⟩) := by
  obtain ⟨files, emitted, reflects⟩ := emitAll_reflects [] deep sound fun m => rfl
  rw [List.nil_append] at reflects
  refine ⟨files, emitted, fun months listed => ?_⟩
  rw [months_of_reflects reflects listed]
  constructor
  · intro n positive
    rw [newestMonthFiles, if_neg positive.ne', List.length_map, ← List.map_drop]
    exact scan_reflects fun file member => reads_of_reflects reflects (List.mem_of_mem_drop member)
  · intro utc forward
    rw [scan_reflects fun file member => reads_of_reflects reflects member,
      files_flat (journal_inOrder utc forward), journal, List.map_map]
    rfl

end

/-- One call at the turn of the year: its month's file yields it. -/
theorem log_reads_back_new_year :
    ∃ files, emitAll wordsOnly (fun _ => true) (fun _ => none)
        [⟨newYear, "round_start", [("round_num", .int 1)]⟩] = .ok files ∧
      ∀ months, AllMonthFiles files months →
        (∀ n, 0 < n → scan wordsOnly files (newestMonthFiles n months) =
          ⟨(newest n (journal [⟨newYear, "round_start", [("round_num", .int 1)]⟩])).flatMap
            Prod.snd, none⟩) ∧
        ((∀ c ∈ [Call.mk newYear "round_start" [("round_num", .int 1)]], c.now.offset = some 0) →
          ([Call.mk newYear "round_start" [("round_num", .int 1)]].Pairwise
            fun a b => a.now.instant ≤ b.now.instant) →
          scan wordsOnly files months =
            ⟨[Call.mk newYear "round_start" [("round_num", .int 1)]].map Call.event, none⟩) :=
  log_reads_back wordsOnly (fun _ => true) (by decide) _ fun _ member => by
    have short : (Nat.toDigits 10 1).length ≤ maxStrDigits := by decide
    rw [List.mem_singleton.mp member]
    exact ⟨rfl, short, trivial⟩

end AgentRunner.EventLog
