import AgentRunner.DirtyTree
import AgentRunner.GitOutput

/-! What `git status --porcelain -z` prints, and the paths `_porcelain_paths` reads in it. A
renamed or copied entry takes two records, and the code knows the two of a rename only. -/
namespace AgentRunner.PorcelainPaths
open AgentRun DirtyTree Effects GitOutput

/-! ## What git prints -/

/-- An entry of the status: its two letters, its path, and the old path of a rename or copy. -/
structure Entry where
  x : Char
  y : Char
  path : List Char
  old : List Char
  letters : ∀ c ∈ [x, y], c ≠ '\x00' ∧ c ≠ '\r'
  nulFree : '\x00' ∉ path ∧ '\x00' ∉ old

def Entry.Renamed (entry : Entry) : Prop := entry.x = 'R' ∨ entry.y = 'R'

def Entry.Copied (entry : Entry) : Prop := entry.x = 'C' ∨ entry.y = 'C'

instance (entry : Entry) : Decidable entry.Renamed := inferInstanceAs (Decidable (_ ∨ _))

instance (entry : Entry) : Decidable entry.Copied := inferInstanceAs (Decidable (_ ∨ _))

/-- The record with the status. -/
def Entry.status (entry : Entry) : List Char := entry.x :: entry.y :: ' ' :: entry.path

/-- The records of an entry. -/
def Entry.records (entry : Entry) : List (List Char) :=
  if entry.Renamed ∨ entry.Copied then [entry.status, entry.old] else [entry.status]

def records (entries : List Entry) : List (List Char) := entries.flatMap Entry.records

/-- `git status --porcelain -z`: each record with a NUL behind it. -/
def render (entries : List Entry) : List Char :=
  (records entries).flatMap fun record => record ++ ['\x00']

/-! ## Old paths in the way -/

/-- The text is taken for the status of a rename. -/
def ReadsRenamed (text : List Char) : Prop := 3 ≤ text.length ∧ 'R' ∈ text.take 2

/-- The old path that is read as a status after that of the entry. -/
def Entry.pending (entry : Entry) : Option (List Char) :=
  if entry.Copied ∧ ¬ entry.Renamed then some entry.old else none

/-- The old path that is read as a status where that of the entry was passed over. -/
def Entry.passed (entry : Entry) : Option (List Char) :=
  if entry.Renamed ∨ entry.Copied then some entry.old else none

/-- What comes before the entries, if it is an old path, is too short for a record, or is taken
for a rename to the path of the first entry, whose status is then passed over; and so for what
comes before the entries behind it. -/
def Harmless : List Entry → Option (List Char) → Prop
  | [], none => True
  | [], some old => old.length < 3
  | entry :: rest, none => Harmless rest entry.pending
  | entry :: rest, some old =>
    old.length < 3 ∧ Harmless rest entry.pending ∨
      ReadsRenamed old ∧ old.drop 3 = entry.path ∧ Harmless rest entry.passed

/-! ## Records -/

theorem recordPaths_short {record : List Char} (short : record.length < 3)
    (rest : List (List Char)) : recordPaths (record :: rest) = recordPaths rest := by
  cases rest with
  | nil => simp only [recordPaths, if_pos short]
  | cons next rest => rw [recordPaths, if_pos short]

theorem recordPaths_renamed {record : List Char} (renamed : ReadsRenamed record)
    (rest : List (List Char)) :
    recordPaths (record :: rest) = record.drop 3 :: recordPaths rest.tail := by
  have long : ¬ record.length < 3 := not_lt.mpr renamed.1
  cases rest with
  | nil => simp only [recordPaths, if_neg long, List.tail_nil]
  | cons next rest =>
    rw [recordPaths, if_neg long, if_pos (List.contains_iff_mem.mpr renamed.2), List.tail_cons]

theorem recordPaths_plain {record : List Char} (long : 3 ≤ record.length)
    (plain : 'R' ∉ record.take 2) (rest : List (List Char)) :
    recordPaths (record :: rest) = record.drop 3 :: recordPaths rest := by
  cases rest with
  | nil => simp only [recordPaths, if_neg (not_lt.mpr long)]
  | cons next rest =>
    rw [recordPaths, if_neg (not_lt.mpr long), if_neg fun named => plain
      (List.contains_iff_mem.mp named)]

/-- The records that are read where the old path, if any, was not passed over. -/
def stream (entries : List Entry) (old : Option (List Char)) : List (List Char) :=
  old.toList ++ records entries ++ [[]]

theorem status_length (entry : Entry) : 3 ≤ entry.status.length := by
  simp [Entry.status]

theorem status_renamed {entry : Entry} : 'R' ∈ entry.status.take 2 ↔ entry.Renamed := by
  simp only [Entry.status, Entry.Renamed, List.take_succ_cons, List.take_zero, List.mem_cons,
    List.not_mem_nil, or_false]
  exact or_congr eq_comm eq_comm

theorem stream_cons (entry : Entry) (rest : List Entry) :
    stream (entry :: rest) none = entry.status :: stream rest entry.passed := by
  by_cases two : entry.Renamed ∨ entry.Copied
  · simp [stream, records, Entry.records, Entry.passed, two]
  · simp [stream, records, Entry.records, Entry.passed, two]

/-- The status of an entry gives its path. -/
theorem recordPaths_entry (entry : Entry) (rest : List Entry) :
    recordPaths (stream (entry :: rest) none) =
      entry.path :: recordPaths (stream rest entry.pending) := by
  rw [stream_cons]
  by_cases renamed : entry.Renamed
  · rw [recordPaths_renamed ⟨status_length entry, status_renamed.mpr renamed⟩]
    simp [stream, Entry.passed, Entry.pending, renamed, Entry.status]
  · rw [recordPaths_plain (status_length entry) fun named => renamed (status_renamed.mp named)]
    simp [stream, Entry.passed, Entry.pending, renamed, Entry.status]

/-- No path is ever missing; what is misread only adds some. -/
theorem length_le_recordPaths (entries : List Entry) (old : Option (List Char)) :
    entries.length ≤ (recordPaths (stream entries old)).length := by
  induction entries generalizing old with
  | nil => exact Nat.zero_le _
  | cons entry rest ih =>
    cases old with
    | none =>
      rw [recordPaths_entry, List.length_cons, List.length_cons]
      exact Nat.succ_le_succ (ih _)
    | some old =>
      have later := ih entry.pending
      have split : stream (entry :: rest) (some old) = old :: stream (entry :: rest) none := rfl
      rw [split]
      by_cases short : old.length < 3
      · rw [recordPaths_short short, recordPaths_entry, List.length_cons, List.length_cons]
        omega
      · by_cases named : 'R' ∈ old.take 2
        · rw [recordPaths_renamed ⟨not_lt.mp short, named⟩, stream_cons, List.tail_cons,
            List.length_cons, List.length_cons]
          exact Nat.succ_le_succ (ih _)
        · rw [recordPaths_plain (not_lt.mp short) named, recordPaths_entry, List.length_cons,
            List.length_cons, List.length_cons]
          omega

/-- The records are read as the paths of the entries exactly where the old paths are harmless. -/
theorem recordPaths_eq_iff (entries : List Entry) (old : Option (List Char)) :
    recordPaths (stream entries old) = entries.map Entry.path ↔ Harmless entries old := by
  induction entries generalizing old with
  | nil =>
    cases old with
    | none => simp [stream, records, recordPaths, Harmless]
    | some old =>
      have split : stream [] (some old) = [old, []] := rfl
      rw [split, Harmless]
      by_cases short : old.length < 3
      · simp [recordPaths, short]
      · by_cases named : 'R' ∈ old.take 2
        · simp [recordPaths_renamed ⟨not_lt.mp short, named⟩, short]
        · simp [recordPaths_plain (not_lt.mp short) named, short]
  | cons entry rest ih =>
    have aligned : recordPaths (stream (entry :: rest) none) =
        (entry :: rest).map Entry.path ↔ Harmless rest entry.pending := by
      rw [recordPaths_entry, List.map_cons, List.cons.injEq, ← ih]
      exact and_iff_right rfl
    cases old with
    | none => exact aligned
    | some old =>
      have split : stream (entry :: rest) (some old) = old :: stream (entry :: rest) none := rfl
      rw [split, Harmless]
      by_cases short : old.length < 3
      · have unread : ¬ ReadsRenamed old := fun reads => absurd reads.1 (not_le.mpr short)
        rw [recordPaths_short short, aligned]
        simp only [short, unread, true_and, false_and, or_false]
      · by_cases named : 'R' ∈ old.take 2
        · have reads : ReadsRenamed old := ⟨not_lt.mp short, named⟩
          rw [recordPaths_renamed reads, stream_cons, List.tail_cons, List.map_cons,
            List.cons.injEq, ih]
          simp only [short, reads, true_and, false_and, false_or]
        · have unread : ¬ ReadsRenamed old := fun reads => named reads.2
          have more := length_le_recordPaths (entry :: rest) none
          rw [recordPaths_plain (not_lt.mp short) named]
          simp only [short, unread, false_and, or_false, iff_false]
          intro same
          have length := congrArg List.length same
          rw [List.length_cons, List.length_map] at length
          omega

/-! ## Newlines -/

/-- The entry as it is received. -/
def Entry.received (entry : Entry) : Entry where
  x := entry.x
  y := entry.y
  path := translateNewlines entry.path
  old := translateNewlines entry.old
  letters := entry.letters
  nulFree := by
    refine ⟨fun member => ?_, fun member => ?_⟩
    · exact entry.nulFree.1 ((mem_translateNewlines member).2.resolve_left (by decide))
    · exact entry.nulFree.2 ((mem_translateNewlines member).2.resolve_left (by decide))

theorem received_records (entry : Entry) :
    entry.received.records = entry.records.map translateNewlines := by
  obtain ⟨first, second⟩ := List.forall_mem_cons.mp entry.letters
  have status : entry.received.status = translateNewlines entry.status := by
    rw [Entry.status, Entry.status, translateNewlines_plain first.2,
      translateNewlines_plain (second entry.y List.mem_cons_self).2,
      translateNewlines_plain (by decide)]
    rfl
  unfold Entry.records
  by_cases two : entry.Renamed ∨ entry.Copied
  · rw [if_pos two, if_pos (show entry.received.Renamed ∨ entry.received.Copied from two), status]
    rfl
  · rw [if_neg two, if_neg (show ¬ (entry.received.Renamed ∨ entry.received.Copied) from two),
      status]
    rfl

theorem records_received (entries : List Entry) :
    records (entries.map Entry.received) = (records entries).map translateNewlines := by
  unfold records
  rw [List.flatMap_map, List.map_flatMap]
  exact congrArg (List.flatMap · entries) (funext received_records)

theorem translate_render (rows : List (List Char)) :
    translateNewlines (rows.flatMap fun row => row ++ ['\x00']) =
      (rows.map translateNewlines).flatMap fun row => row ++ ['\x00'] := by
  induction rows with
  | nil => rfl
  | cons row rows ih =>
    rw [List.flatMap_cons, List.append_assoc, List.singleton_append,
      translateNewlines_cut (by decide), ih, List.map_cons, List.flatMap_cons, List.append_assoc,
      List.singleton_append]

theorem splitOn_render {rows : List (List Char)} (nulFree : ∀ row ∈ rows, '\x00' ∉ row) :
    (rows.flatMap fun row => row ++ ['\x00']).splitOn '\x00' = rows ++ [[]] := by
  induction rows with
  | nil => rfl
  | cons row rows ih =>
    obtain ⟨here, later⟩ := List.forall_mem_cons.mp nulFree
    rw [List.flatMap_cons, List.append_assoc, List.singleton_append,
      List.splitOn_append_cons_self_of_not_mem here, ih later, List.cons_append]

theorem records_nulFree (entries : List Entry) : ∀ row ∈ records entries, '\x00' ∉ row := by
  intro row member
  obtain ⟨entry, -, among⟩ := List.mem_flatMap.mp member
  obtain ⟨first, second⟩ := List.forall_mem_cons.mp entry.letters
  have status : '\x00' ∉ entry.status := by
    simp only [Entry.status, List.mem_cons, not_or]
    exact ⟨first.1.symm, (second entry.y List.mem_cons_self).1.symm, by decide, entry.nulFree.1⟩
  unfold Entry.records at among
  split at among
  · rcases List.mem_pair.mp among with rfl | rfl
    · exact status
    · exact entry.nulFree.2
  · rw [List.mem_singleton.mp among]
    exact status

/-! ## Paths -/

/-- The new path of an entry, as a text. -/
def Entry.newPath (entry : Entry) : String := String.ofList entry.path

/-- git prints the entries when it is asked for the status. -/
def Prints (repo : Repo) (before : List Spent) (entries : List Entry) : Prop :=
  ∃ stderr seconds, repo.git before ["git", "status", "--porcelain", "-z"] gitTimeoutS =
    (⟨0, received (Utf8.encode (render entries)), stderr, false⟩, seconds)

variable {repo : Repo} {before : List Spent} {entries : List Entry}

theorem received_render (entries : List Entry) :
    (received (Utf8.encode (render entries))).toList.splitOn '\x00' =
      stream (entries.map Entry.received) none := by
  rw [received_encode, render, translate_render, ← records_received,
    splitOn_render (records_nulFree _)]
  rfl

theorem detectDirtyFiles_printed (prints : Prints repo before entries) :
    (outcome (detectDirtyFiles repo) before).1 =
      .ok ((recordPaths (stream (entries.map Entry.received) none)).map String.ofList) := by
  obtain ⟨stderr, seconds, answered⟩ := prints
  have called : outcome (git repo [] ["status", "--porcelain", "-z"] gitTimeoutS) before =
      (.ok ⟨0, received (Utf8.encode (render entries)), stderr, false⟩,
        before ++ [⟨.git ["git", "status", "--porcelain", "-z"], seconds⟩]) := by
    have answered : repo.git before (["git"] ++ ["status", "--porcelain", "-z"]) gitTimeoutS =
        (⟨0, received (Utf8.encode (render entries)), stderr, false⟩, seconds) := answered
    change (_, _) = _
    rw [answered]
    rfl
  rw [detectDirtyFiles, outcome_bind_ok called, if_neg (by simp), received_render]
  rfl

theorem map_ofList_injective {xs ys : List (List Char)} :
    xs.map String.ofList = ys.map String.ofList ↔ xs = ys :=
  (List.map_injective_iff.mpr fun _ _ => String.ofList_inj.mp).eq_iff

theorem map_newPath (entries : List Entry) :
    entries.map Entry.newPath = (entries.map Entry.path).map String.ofList := by
  rw [List.map_map]
  rfl

theorem mem_recordPaths {rows : List (List Char)} {path : List Char}
    (member : path ∈ recordPaths rows) : ∃ row ∈ rows, path = row.drop 3 := by
  fun_induction recordPaths rows with
  | case1 => exact absurd member (by simp)
  | case2 status short => exact absurd member (by simp)
  | case3 status long => exact ⟨status, List.mem_cons_self, List.mem_singleton.mp member⟩
  | case4 status next rest short ih =>
    obtain ⟨row, among, same⟩ := ih member
    exact ⟨row, List.mem_cons_of_mem _ among, same⟩
  | case5 status next rest long renamed ih =>
    rcases List.mem_cons.mp member with same | later
    · exact ⟨status, List.mem_cons_self, same⟩
    · obtain ⟨row, among, same⟩ := ih later
      exact ⟨row, List.mem_cons_of_mem _ (List.mem_cons_of_mem _ among), same⟩
  | case6 status next rest long plain ih =>
    rcases List.mem_cons.mp member with same | later
    · exact ⟨status, List.mem_cons_self, same⟩
    · obtain ⟨row, among, same⟩ := ih later
      exact ⟨row, List.mem_cons_of_mem _ among, same⟩

/-- No path that is read has a carriage return in it. -/
theorem read_returnless {path : List Char}
    (member : path ∈ recordPaths (stream (entries.map Entry.received) none)) : '\r' ∉ path := by
  obtain ⟨row, among, rfl⟩ := mem_recordPaths member
  intro inside
  have inside := List.mem_of_mem_drop inside
  rw [stream, records_received, Option.toList_none, List.nil_append, List.mem_append,
    List.mem_singleton] at among
  rcases among with among | rfl
  · obtain ⟨_, -, rfl⟩ := List.mem_map.mp among
    exact (mem_translateNewlines inside).1 rfl
  · exact absurd inside (by simp)

/-- A repository with these entries and nothing else to say. -/
def printing (entries : List Entry) : Repo where
  git _ _ _ := (⟨0, received (Utf8.encode (render entries)), "", false⟩, 0)
  epoch _ := 0
  timestamp _ := ""
  relativeTo _ _ := none

/-- A copy of `src/a` to `b`. -/
def copied : Entry := ⟨'C', ' ', ['b'], "src/a".toList, by simp, by simp⟩

/-- A rename of `a` to `b`, and a copy of `a` to `c`. -/
def moved : List Entry :=
  [⟨'R', ' ', ['b'], ['a'], by simp, by simp⟩, ⟨' ', 'C', ['c'], ['a'], by simp, by simp⟩]

end AgentRunner.PorcelainPaths
