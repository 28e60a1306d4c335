import AgentRunner.EventFile

/-! `event_log.read_new_raw`, and a tail that calls it over and over while writers
append bytes to the files. A poll reads up to the last byte there is and moves its
offset there, so the line it stops inside is read in pieces. -/
namespace AgentRunner.Tailing
open PyValue JsonText EventFile

/-! ## One poll -/

/-- The body of `read_new_raw`'s loop for one path. Each record keeps the path it
was read from. -/
def readPath (i : Interpreter) (files : Months) (found : List (String × Record))
    (offsets : Dict String Nat) (path : String) :
    Except PyErr (List (String × Record) × Dict String Nat) :=
  match files path with
  | none => .ok (found, offsets)
  | some content =>
    let size := content.length
    let known := offsets.getD path 0
    let pos := if size < known then 0 else known
    if size = pos then .ok (found, offsets)
    else
      let parsed := records i (content.drop pos)
      match parsed.raised with
      | some e => .error e
      | none => .ok (found ++ parsed.items.map fun record => (path, record), offsets.set path size)

/-- The loop of `read_new_raw`. -/
def readPaths (i : Interpreter) (files : Months) (found : List (String × Record))
    (offsets : Dict String Nat) :
    List String → Except PyErr (List (String × Record) × Dict String Nat)
  | [] => .ok (found, offsets)
  | path :: paths => do
    let (found, offsets) ← readPath i files found offsets path
    readPaths i files found offsets paths

/-- `read_new_raw(paths, offsets)`. -/
def readNewRaw (i : Interpreter) (files : Months) (paths : List String)
    (offsets : Dict String Nat) : Except PyErr (List Record × Dict String Nat) := do
  let (found, offsets) ← readPaths i files [] offsets paths
  return (found.map Prod.snd, offsets)

/-! ## A tail -/

/-- The files, and a tail of them: its offsets, and all it has returned so far. -/
structure Tail where
  files : Months
  offsets : Dict String Nat
  out : List (String × Record)

/-- A writer appends a chunk to a file; a tail polls the files in its scope. -/
inductive Move where
  | append (path : String) (chunk : List UInt8)
  | poll (paths : List String)

namespace Tail

/-- The bytes of a file; none if it does not exist. -/
def content (t : Tail) (path : String) : List UInt8 := (t.files path).getD []

/-- How much of a file has been read. -/
def known (t : Tail) (path : String) : Nat := t.offsets.getD path 0

/-- The records read from a file. -/
def delivered (t : Tail) (path : String) : List Record :=
  (t.out.filter fun entry => entry.1 = path).map Prod.snd

def append (t : Tail) (path : String) (chunk : List UInt8) : Tail :=
  { t with files := Function.update t.files path (some (t.content path ++ chunk)) }

/-- One iteration of `follow`: a call that threads the offsets. -/
def poll (i : Interpreter) (t : Tail) (paths : List String) : Except PyErr Tail := do
  let (found, offsets) ← readPaths i t.files [] t.offsets paths
  return { t with offsets := offsets, out := t.out ++ found }

end Tail

/-- A tail that has not read anything yet. -/
def start (files : Months) : Tail := ⟨files, .empty, []⟩

/-- The records a poll returns are those it adds to what the tail has returned. -/
theorem poll_returns {i : Interpreter} {t t' : Tail} {paths : List String}
    (polled : t.poll i paths = .ok t') : ∃ found,
      readNewRaw i t.files paths t.offsets = .ok (found.map Prod.snd, t'.offsets) ∧
        t'.out = t.out ++ found ∧ t'.files = t.files := by
  unfold Tail.poll at polled
  unfold readNewRaw
  cases ran : readPaths i t.files [] t.offsets paths with
  | error e => rw [ran] at polled; cases polled
  | ok result =>
    rw [ran] at polled
    cases polled
    exact ⟨result.1, rfl, rfl, rfl⟩

/-! ## Cutting a file between two polls -/

/-- What is unread can be read, and the line the read part ends inside, if any,
yields in its two pieces what it yields whole. -/
def CutCleanly (i : Interpreter) (read unread : List UInt8) : Prop :=
  (records i unread).raised = none ∧
    records i (lineTail ByteEnd read ++ lineHead ByteEnd unread) =
      ⟨(records i (lineTail ByteEnd read)).items ++ (records i (lineHead ByteEnd unread)).items,
        none⟩

/-- A poll that stopped at a line end has cut nothing. -/
theorem cutCleanly_at_lineEnd {i : Interpreter} {read unread : List UInt8}
    (ended : lineTail ByteEnd read = []) :
    CutCleanly i read unread ↔ (records i unread).raised = none := by
  obtain ⟨later, splits⟩ := read_before (fun left e ends => records_cut i left (b := e) ends) unread
  have whole : records i unread = (records i (lineHead ByteEnd unread)).andThen later := splits []
  refine ⟨And.left, fun readable => ⟨readable, ?_⟩⟩
  rw [ended, List.nil_append, records_nil, List.nil_append]
  rw [whole, Yielded.andThen_finished] at readable
  exact (congrArg (Yielded.mk _) readable.1)

/-- **A cut is clean when the file reads as its two parts.**  Only the line that
was cut can tell the difference. -/
theorem reads_in_parts_iff {i : Interpreter} {read unread : List UInt8}
    (readable : (records i read).raised = none) (returns : (records i unread).raised = none) :
    records i (read ++ unread) =
        ⟨(records i read).items ++ (records i unread).items, none⟩ ↔
      CutCleanly i read unread := by
  obtain ⟨finished, ends⟩ := read_after (fun left e ends => records_cut i left (b := e) ends) read
  obtain ⟨later, begins⟩ := read_before (fun left e ends => records_cut i left (b := e) ends) unread
  have first := ends []
  have second := begins []
  rw [List.append_nil, List.append_nil] at first
  rw [List.nil_append, List.nil_append] at second
  rw [CutCleanly, and_iff_right returns, ends unread, begins, first, second]
  rw [first, Yielded.andThen_finished] at readable
  rw [second, Yielded.andThen_finished] at returns
  generalize records i (lineTail ByteEnd read ++ lineHead ByteEnd unread) = joined
  generalize records i (lineTail ByteEnd read) = torn at *
  generalize records i (lineHead ByteEnd unread) = rest at *
  obtain ⟨finished, _⟩ := finished
  obtain ⟨later, _⟩ := later
  obtain ⟨torn, _⟩ := torn
  obtain ⟨rest, _⟩ := rest
  obtain ⟨rfl, rfl⟩ := readable
  obtain ⟨rfl, rfl⟩ := returns
  obtain ⟨joined, raised⟩ := joined
  cases raised with
  | some e => simp [Yielded.andThen]
  | none =>
    simp only [Yielded.andThen_none, Yielded.mk.injEq, and_true, ← List.append_assoc,
      List.append_left_inj]
    rw [List.append_assoc, List.append_right_inj]

/-! ## What a poll reads -/

/-- A call of `read_new_raw` has read this file up to its end, from `known` on. -/
structure Advanced (i : Interpreter) (files : Months) (path : String)
    (found found' : List (String × Record)) (offsets offsets' : Dict String Nat) : Prop where
  known : offsets'.getD path 0 = ((files path).getD []).length
  records : (found'.filter fun entry => entry.1 = path) =
    (found.filter fun entry => entry.1 = path) ++
      (records i (((files path).getD []).drop (offsets.getD path 0))).items.map (path, ·)

/-- It has left this file alone. -/
structure Untouched (path : String) (found found' : List (String × Record))
    (offsets offsets' : Dict String Nat) : Prop where
  known : offsets'.getD path 0 = offsets.getD path 0
  records : (found'.filter fun entry => entry.1 = path) = found.filter fun entry => entry.1 = path

theorem filter_own (path : String) (items : List Record) :
    ((items.map (path, ·)).filter fun entry => entry.1 = path) = items.map (path, ·) := by
  apply List.filter_eq_self.mpr
  intro entry member
  obtain ⟨record, -, rfl⟩ := List.mem_map.mp member
  exact decide_eq_true rfl

theorem filter_other {path other : String} (different : other ≠ path) (items : List Record) :
    ((items.map (path, ·)).filter fun entry => entry.1 = other) = [] := by
  apply List.filter_eq_nil_iff.mpr
  intro entry member
  obtain ⟨record, -, rfl⟩ := List.mem_map.mp member
  simpa using different.symm

/-- Nothing is unread: the call skips the file. -/
theorem advanced_nothing {i : Interpreter} {files : Months} {path : String}
    {offsets : Dict String Nat} (read : offsets.getD path 0 = ((files path).getD []).length)
    (found : List (String × Record)) : Advanced i files path found found offsets offsets where
  known := read
  records := by rw [read, List.drop_length, records_nil, List.map_nil, List.append_nil]

theorem readPath_spec (i : Interpreter) {files : Months} (found : List (String × Record))
    {offsets : Dict String Nat} {path : String}
    (within : offsets.getD path 0 ≤ ((files path).getD []).length) :
    (∀ e, (records i (((files path).getD []).drop (offsets.getD path 0))).raised = some e →
      readPath i files found offsets path = .error e) ∧
    ((records i (((files path).getD []).drop (offsets.getD path 0))).raised = none →
      ∃ found' offsets', readPath i files found offsets path = .ok (found', offsets') ∧
        Advanced i files path found found' offsets offsets' ∧
        ∀ other, other ≠ path → Untouched other found found' offsets offsets') := by
  cases present : files path with
  | none =>
    rw [present] at within
    have unread : offsets.getD path 0 = ((files path).getD []).length := by
      rw [present]
      exact Nat.le_zero.mp within
    refine ⟨fun e raised => ?_, fun _ => ⟨found, offsets, by simp [readPath, present],
      advanced_nothing unread found, fun _ _ => ⟨rfl, rfl⟩⟩⟩
    rw [Option.getD_none, List.drop_nil, records_nil] at raised
    cases raised
  | some content =>
    rw [present, Option.getD_some] at within
    have pos : (if content.length < offsets.getD path 0 then 0 else offsets.getD path 0) =
        offsets.getD path 0 := if_neg (not_lt.mpr within)
    rw [Option.getD_some]
    by_cases read : content.length = offsets.getD path 0
    · rw [← read, List.drop_length, records_nil]
      refine ⟨nofun, fun _ => ⟨found, offsets, ?_, advanced_nothing ?_ found,
        fun _ _ => ⟨rfl, rfl⟩⟩⟩
      · simp [readPath, present, ← read]
      · rw [present, Option.getD_some, read]
    · refine ⟨fun e raised => ?_, fun returns => ⟨found ++
        (records i (content.drop (offsets.getD path 0))).items.map (path, ·),
        offsets.set path content.length, ?_, ⟨?_, ?_⟩, fun other different => ⟨?_, ?_⟩⟩⟩
      · simp [readPath, present, pos, read, raised]
      · simp only [readPath, present, pos, read, returns, if_false]
      · simp [Dict.getD, present]
      · rw [List.filter_append, filter_own, present, Option.getD_some]
      · simp [Dict.getD, different]
      · rw [List.filter_append, filter_other different, List.append_nil]

section
variable {i : Interpreter} {files : Months} {path : String}
  {found found' found'' : List (String × Record)} {offsets offsets' offsets'' : Dict String Nat}

theorem Advanced.then_untouched (first : Advanced i files path found found' offsets offsets')
    (second : Untouched path found' found'' offsets' offsets'') :
    Advanced i files path found found'' offsets offsets'' :=
  ⟨second.known.trans first.known, second.records.trans first.records⟩

theorem Untouched.then_advanced (first : Untouched path found found' offsets offsets')
    (second : Advanced i files path found' found'' offsets' offsets'') :
    Advanced i files path found found'' offsets offsets'' :=
  ⟨second.known, by rw [second.records, first.records, first.known]⟩

theorem Untouched.trans (first : Untouched path found found' offsets offsets')
    (second : Untouched path found' found'' offsets' offsets'') :
    Untouched path found found'' offsets offsets'' :=
  ⟨second.known.trans first.known, second.records.trans first.records⟩

/-- A second look in the same call finds nothing more. -/
theorem Advanced.again (first : Advanced i files path found found' offsets offsets')
    (second : Advanced i files path found' found'' offsets' offsets'') :
    Advanced i files path found found'' offsets offsets'' := by
  refine ⟨second.known, ?_⟩
  rw [second.records, first.known, List.drop_length, records_nil, List.map_nil, List.append_nil]
  exact first.records

end

/-- A call returns when every file in its scope can be read from its offset on. -/
theorem readPaths_returns {i : Interpreter} {files : Months} {paths : List String}
    (found : List (String × Record)) {offsets : Dict String Nat}
    (within : ∀ path, offsets.getD path 0 ≤ ((files path).getD []).length) :
    (∃ result, readPaths i files found offsets paths = .ok result) ↔
      ∀ path ∈ paths,
        (records i (((files path).getD []).drop (offsets.getD path 0))).raised = none := by
  induction paths generalizing found offsets with
  | nil => exact iff_of_true ⟨_, rfl⟩ (by simp)
  | cons path paths ih =>
    obtain ⟨raises, returns⟩ := readPath_spec i found (within path)
    rw [List.forall_mem_cons]
    cases readable :
        (records i (((files path).getD []).drop (offsets.getD path 0))).raised with
    | some e =>
      refine iff_of_false ?_ (fun both => nomatch both.1)
      rintro ⟨result, ran⟩
      rw [readPaths, raises e readable] at ran
      cases ran
    | none =>
      obtain ⟨found', offsets', ran, advanced, others⟩ := returns readable
      have within' (p : String) : offsets'.getD p 0 ≤ ((files p).getD []).length := by
        by_cases same : p = path
        · rw [same, advanced.known]
        · rw [(others p same).known]
          exact within p
      have step : readPaths i files found offsets (path :: paths) =
          readPaths i files found' offsets' paths := by
        rw [readPaths, ran]
        rfl
      rw [step, ih found' within', and_iff_right rfl]
      refine forall₂_congr fun p _ => ?_
      by_cases same : p = path
      · subst same
        rw [advanced.known, List.drop_length, readable]
        exact iff_of_true rfl rfl
      · rw [(others p same).known]

/-- And then it has read all of them, and no other. -/
theorem readPaths_effect {i : Interpreter} {files : Months} {paths : List String}
    {found found' : List (String × Record)} {offsets offsets' : Dict String Nat}
    (within : ∀ path, offsets.getD path 0 ≤ ((files path).getD []).length)
    (ran : readPaths i files found offsets paths = .ok (found', offsets')) (path : String) :
    (path ∈ paths → Advanced i files path found found' offsets offsets') ∧
      (path ∉ paths → Untouched path found found' offsets offsets') := by
  induction paths generalizing found offsets with
  | nil =>
    cases ran
    exact ⟨fun inside => absurd inside List.not_mem_nil, fun _ => ⟨rfl, rfl⟩⟩
  | cons first paths ih =>
    obtain ⟨raises, returns⟩ := readPath_spec i found (within first)
    cases readable :
        (records i (((files first).getD []).drop (offsets.getD first 0))).raised with
    | some e =>
      rw [readPaths, raises e readable] at ran
      cases ran
    | none =>
      obtain ⟨middle, offsetsAfter, read, advanced, others⟩ := returns readable
      rw [readPaths, read] at ran
      have within' (p : String) : offsetsAfter.getD p 0 ≤ ((files p).getD []).length := by
        by_cases same : p = first
        · rw [same, advanced.known]
        · rw [(others p same).known]
          exact within p
      obtain ⟨inside, outside⟩ := ih within' ran
      by_cases same : path = first
      · subst same
        refine ⟨fun _ => ?_, fun absent => absurd (.head _) absent⟩
        by_cases again : path ∈ paths
        · exact advanced.again (inside again)
        · exact advanced.then_untouched (outside again)
      · have alone := others path same
        rw [List.mem_cons, or_iff_right same]
        exact ⟨fun member => alone.then_advanced (inside member),
          fun absent => alone.trans (outside absent)⟩

/-! ## Whole runs -/

namespace Tail

/-- The bytes of a file the tail has read. -/
def read (t : Tail) (path : String) : List UInt8 := (t.content path).take (t.known path)

/-- The bytes it has not. -/
def unread (t : Tail) (path : String) : List UInt8 := (t.content path).drop (t.known path)

/-- The tail has returned each record of the file once and in order, and no other. -/
def Exact (i : Interpreter) (t : Tail) (path : String) : Prop :=
  records i (t.content path) = ⟨t.delivered path, none⟩

/-- What holds of a tail all along: it has returned what it has read. -/
structure Sound (i : Interpreter) (t : Tail) : Prop where
  within : ∀ path, t.known path ≤ (t.content path).length
  returned : ∀ path, records i (t.read path) = ⟨t.delivered path, none⟩

theorem append_content (t : Tail) (path : String) (chunk : List UInt8) (other : String) :
    (t.append path chunk).content other =
      if other = path then t.content path ++ chunk else t.content other := by
  by_cases same : other = path
  · subst same
    simp [append, content]
  · simp [append, content, same]

/-- Bytes that arrive after those already read. -/
theorem Sound.append {i : Interpreter} {t : Tail} (sound : Sound i t) (path : String)
    (chunk : List UInt8) : Sound i (t.append path chunk) := by
  have known (other : String) : (t.append path chunk).known other = t.known other := rfl
  constructor
  · intro other
    rw [known, append_content]
    split
    · rename_i same
      subst same
      rw [List.length_append]
      exact (sound.within other).trans (Nat.le_add_right _ _)
    · exact sound.within other
  · intro other
    have same : (t.append path chunk).read other = t.read other := by
      rw [read, known, append_content]
      split
      · rename_i same
        subst same
        exact List.take_append_of_le_length (sound.within other)
      · rfl
    rw [same]
    exact sound.returned other

/-- What a poll that returns leaves behind, file by file. -/
theorem poll_effect {i : Interpreter} {t t' : Tail} {paths : List String} (sound : Sound i t)
    (polled : t.poll i paths = .ok t') (path : String) : t'.content path = t.content path ∧
      (path ∈ paths → t'.known path = (t.content path).length ∧
        t'.delivered path = t.delivered path ++ (records i (t.unread path)).items) ∧
      (path ∉ paths → t'.known path = t.known path ∧ t'.delivered path = t.delivered path) := by
  unfold poll at polled
  cases ran : readPaths i t.files [] t.offsets paths with
  | error e => rw [ran] at polled; cases polled
  | ok result =>
    obtain ⟨found, offsets⟩ := result
    rw [ran] at polled
    cases polled
    obtain ⟨inside, outside⟩ := readPaths_effect sound.within ran path
    refine ⟨rfl, fun member => ⟨(inside member).known, ?_⟩,
      fun absent => ⟨(outside absent).known, ?_⟩⟩
    · have added := (inside member).records
      rw [List.filter_nil, List.nil_append] at added
      rw [delivered, List.filter_append, List.map_append, added, List.map_map]
      exact congrArg _ (List.map_id _)
    · have added := (outside absent).records
      rw [List.filter_nil] at added
      rw [delivered, List.filter_append, added, List.append_nil]
      rfl

theorem poll_returns_iff {i : Interpreter} {t : Tail} {paths : List String} (sound : Sound i t) :
    (∃ t', t.poll i paths = .ok t') ↔
      ∀ path ∈ paths, (records i (t.unread path)).raised = none := by
  refine Iff.trans ?_ (readPaths_returns [] sound.within)
  unfold poll
  cases readPaths i t.files [] t.offsets paths with
  | error e =>
    refine iff_of_false ?_ ?_
    · rintro ⟨t', polled⟩
      cases polled
    · rintro ⟨result, ran⟩
      cases ran
  | ok result => exact iff_of_true ⟨_, rfl⟩ ⟨_, rfl⟩

/-- A poll that returns leaves a file in its scope exact when the file reads as
what was read before and what was not. -/
theorem exact_iff {i : Interpreter} {t t' : Tail} {paths : List String} (sound : Sound i t)
    (polled : t.poll i paths = .ok t') {path : String} (member : path ∈ paths) :
    Exact i t' path ↔ CutCleanly i (t.read path) (t.unread path) := by
  obtain ⟨same, inside, -⟩ := poll_effect sound polled path
  have returns := (poll_returns_iff sound).mp ⟨t', polled⟩ path member
  have returned := sound.returned path
  rw [← reads_in_parts_iff (by rw [returned]) returns, Exact, same, (inside member).2, returned,
    read, unread, List.take_append_drop]

theorem poll_exact_iff {i : Interpreter} {t : Tail} {paths : List String} (sound : Sound i t) :
    (∃ t', t.poll i paths = .ok t' ∧ ∀ path ∈ paths, Exact i t' path) ↔
      ∀ path ∈ paths, CutCleanly i (t.read path) (t.unread path) := by
  constructor
  · rintro ⟨t', polled, exact_⟩ path member
    exact (exact_iff sound polled member).mp (exact_ path member)
  · intro clean
    obtain ⟨t', polled⟩ := (poll_returns_iff sound).mpr fun path member => (clean path member).1
    exact ⟨t', polled, fun path member => (exact_iff sound polled member).mpr (clean path member)⟩

theorem Sound.poll {i : Interpreter} {t t' : Tail} {paths : List String} (sound : Sound i t)
    (polled : t.poll i paths = .ok t') (exact_ : ∀ path ∈ paths, Exact i t' path) :
    Sound i t' := by
  constructor
  · intro path
    obtain ⟨same, inside, outside⟩ := poll_effect sound polled path
    rw [same]
    by_cases member : path ∈ paths
    · exact (inside member).1.le
    · rw [(outside member).1]
      exact sound.within path
  · intro path
    obtain ⟨same, inside, outside⟩ := poll_effect sound polled path
    by_cases member : path ∈ paths
    · have whole : t'.read path = t'.content path := by
        rw [read, (inside member).1, same, List.take_length]
      rw [whole]
      exact exact_ path member
    · have still : t'.read path = t.read path := by rw [read, same, (outside member).1, read]
      rw [still, (outside member).2]
      exact sound.returned path

/-- Every poll of the run returns, and leaves every file in its scope exact. -/
def Delivers (i : Interpreter) : Tail → List Move → Prop
  | _, [] => True
  | t, .append path chunk :: moves => Delivers i (t.append path chunk) moves
  | t, .poll paths :: moves =>
    ∃ t', t.poll i paths = .ok t' ∧ (∀ path ∈ paths, Exact i t' path) ∧ Delivers i t' moves

/-- Every poll of the run finds every file in its scope cut cleanly where the last
poll of that file stopped. -/
def Cuts (i : Interpreter) : Tail → List Move → Prop
  | _, [] => True
  | t, .append path chunk :: moves => Cuts i (t.append path chunk) moves
  | t, .poll paths :: moves =>
    (∀ path ∈ paths, CutCleanly i (t.read path) (t.unread path)) ∧
      ∀ t', t.poll i paths = .ok t' → Cuts i t' moves

theorem delivers_iff {i : Interpreter} (moves : List Move) {t : Tail} (sound : Sound i t) :
    Delivers i t moves ↔ Cuts i t moves := by
  induction moves generalizing t with
  | nil => rfl
  | cons move moves ih =>
    cases move with
    | append path chunk => exact ih (sound.append path chunk)
    | poll paths =>
      rw [Delivers, Cuts, ← poll_exact_iff sound]
      constructor
      · rintro ⟨t', polled, exact_, later⟩
        refine ⟨⟨t', polled, exact_⟩, fun t'' polled' => ?_⟩
        obtain rfl : t' = t'' := Except.ok.inj (polled.symm.trans polled')
        exact (ih (sound.poll polled exact_)).mp later
      · rintro ⟨⟨t', polled, exact_⟩, later⟩
        exact ⟨t', polled, exact_, (ih (sound.poll polled exact_)).mpr (later t' polled)⟩

theorem sound_start (i : Interpreter) (files : Months) : Sound i (start files) :=
  ⟨fun _ => Nat.zero_le _, fun _ => rfl⟩

end Tail

/-- **A tail is exact when its polls cut no record.**  Over every run of appended
chunks and polls, each poll returns and has then handed out every record of every
file in its scope once, in order and with nothing else, if and only if every poll
finds the line it goes on with, where the last poll of the file stopped inside one,
to yield in those pieces what it yields whole, and nothing it reads raises. -/
theorem tail_exactly_once_iff (i : Interpreter) (files : Months) (moves : List Move) :
    (start files).Delivers i moves ↔ (start files).Cuts i moves :=
  Tail.delivers_iff moves (Tail.sound_start i files)

/-! ## A line in two pieces -/

/-- A give-up event whose line arrives in two chunks, with a poll in between. -/
def splitLine : List Move :=
  [.append "2026-01" (Utf8.encode "\x7b\"event\": \"gave_".toList), .poll ["2026-01"],
    .append "2026-01" (Utf8.encode "up\"\x7d\n".toList), .poll ["2026-01"]]

/-- Neither poll returns it: each sees a piece that is no JSON, and no later poll
goes back. -/
theorem split_line_lost : ∃ i files moves, ¬ (start files).Delivers i moves := by
  refine ⟨wordsOnly, fun _ => none, splitLine, ?_⟩
  rintro ⟨t, polled, -, t', polled', exact_, -⟩
  cases polled
  cases polled'
  have whole := congrArg (fun found => found.items.length) (exact_ "2026-01" (.head _))
  exact absurd whole (by decide)

end AgentRunner.Tailing
