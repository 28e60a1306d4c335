import AgentRunner.AgentRun
import AgentRunner.StreamSearch

/-! The scan of a growing log for the terminal marker. Each scan reads what was appended since
the last one that could open the log; the outcome is that of a search of the whole log. -/
namespace AgentRunner.MarkerScan
open AgentRun

/-- One turn of the loop: what it sees, and the whole log where it can be opened and read. -/
structure Turn where
  now : ℚ
  ret : Option Int
  log : Option (List UInt8)
  live : Bool

/-- The variables of the scan: those of `Scan`, and `result_scan_offset`. -/
structure Reader where
  scan : Scan
  offset : ℕ

/-- `f.seek(result_scan_offset)` and `f.read()`. -/
def Reader.tick (reader : Reader) (turn : Turn) : Tick :=
  ⟨turn.now, turn.ret, turn.log.map fun log => log.drop reader.offset, turn.live⟩

/-- A scan is due. -/
def Due (scan : Scan) (now : ℚ) : Prop :=
  scan.resultSeenAt = none ∧ resultScanIntervalS ≤ now - scan.lastResultScan

instance (scan : Scan) (now : ℚ) : Decidable (Due scan now) := by
  unfold Due
  infer_instance

/-- A turn of the loop that comes to the scan. -/
def readLog (marker : List UInt8) (reader : Reader) (turn : Turn) : Reader :=
  let tick := reader.tick turn
  ⟨scanLog marker reader.scan tick,
    if Due reader.scan turn.now then reader.offset + (tick.chunk.getD []).length
    else reader.offset⟩

def unread : Reader := ⟨noScan, 0⟩

/-- The reader after the turns. -/
def readAll (marker : List UInt8) (reader : Reader) (turns : List Turn) : Reader :=
  turns.foldl (readLog marker) reader

/-- What the turns of the loop see of the log, each behind what was read before it. -/
def ticks (marker : List UInt8) : Reader → List Turn → List Tick
  | _, [] => []
  | reader, turn :: rest => reader.tick turn :: ticks marker (readLog marker reader turn) rest

/-! ## The whole log -/

/-- The turns at which a scan is due while nothing is found. -/
def scans : ℚ → List Turn → List Turn
  | _, [] => []
  | last, turn :: rest =>
    if resultScanIntervalS ≤ turn.now - last then turn :: scans turn.now rest else scans last rest

/-- The log can be read and holds the marker. -/
def shows (marker : List UInt8) (turn : Turn) : Bool :=
  turn.log.any fun log => decide (marker <:+: log)

/-- The log is only ever appended to. -/
def Grows (turns : List Turn) : Prop := (turns.filterMap Turn.log).Pairwise (· <+: ·)

/-! ## The carry -/

variable {marker : List UInt8} {reader : Reader} {log : List UInt8} {turn : Turn}
  {turns : List Turn}

/-- So much of the log was read, without a marker in it, and its end is kept. -/
structure Searched (marker log : List UInt8) (reader : Reader) : Prop where
  unseen : reader.scan.resultSeenAt = none
  offset : reader.offset = log.length
  carry : reader.scan.carry = log.rtake (marker.length - 1)
  absent : ¬ marker <:+: log

theorem searched_unread (marked : marker ≠ []) : Searched marker [] unread :=
  ⟨rfl, rfl, (List.rtake_nil _).symm, fun found => marked (List.infix_nil.mp found)⟩

theorem readLog_idle (idle : ¬ Due reader.scan turn.now) : readLog marker reader turn = reader := by
  have kept : scanLog marker reader.scan (reader.tick turn) = reader.scan := by
    unfold scanLog
    rw [if_neg]
    rw [Bool.and_eq_true, Option.isNone_iff_eq_none, decide_eq_true_eq]
    exact idle
  rw [readLog, kept, if_neg idle]

theorem scanLog_due {scan : Scan} {tick : Tick} (due : Due scan tick.now) :
    scanLog marker scan tick = match tick.chunk with
      | none => { scan with lastResultScan := tick.now }
      | some chunk =>
        if marker <:+: scan.carry ++ chunk then ⟨some tick.now, scan.carry, tick.now⟩
        else ⟨none, (scan.carry ++ chunk).rtake (marker.length - 1), tick.now⟩ := by
  unfold scanLog
  rw [if_pos]
  · rfl
  · rw [Bool.and_eq_true, Option.isNone_iff_eq_none, decide_eq_true_eq]
    exact due

/-- A scan that cannot read the log leaves it for the next one. -/
theorem readLog_unreadable (due : Due reader.scan turn.now) (closed : turn.log = none) :
    readLog marker reader turn =
      ⟨{ reader.scan with lastResultScan := turn.now }, reader.offset⟩ := by
  have chunk : (reader.tick turn).chunk = none := by rw [Reader.tick, closed]; rfl
  rw [readLog, if_pos due, scanLog_due due, chunk]
  rfl

/-- A scan of a log that has grown finds the marker exactly where the log holds it, and else has
read all of the log. -/
theorem readLog_readable {old : List UInt8} (searched : Searched marker old reader)
    (due : Due reader.scan turn.now) (opened : turn.log = some log) (grown : old <+: log) :
    (marker <:+: log →
      (readLog marker reader turn).scan.resultSeenAt = some turn.now) ∧
    (¬ marker <:+: log → Searched marker log (readLog marker reader turn) ∧
      (readLog marker reader turn).scan.lastResultScan = turn.now) := by
  obtain ⟨chunk, rfl⟩ := grown
  have read : (reader.tick turn).chunk = some chunk := by
    rw [Reader.tick, opened, Option.map_some, searched.offset, List.drop_left]
  have carried : marker <:+: reader.scan.carry ++ chunk ↔ marker <:+: old ++ chunk := by
    rw [searched.carry]
    exact StreamSearch.infix_kept_iff (by omega) searched.absent
  rw [readLog, if_pos due, scanLog_due due, read]
  constructor
  · intro found
    dsimp only
    rw [if_pos (carried.mpr found)]
    rfl
  · intro absent
    dsimp only
    rw [if_neg fun found => absent (carried.mp found)]
    refine ⟨⟨rfl, ?_, ?_, absent⟩, rfl⟩
    · rw [searched.offset, Option.getD_some, List.length_append]
    · dsimp only
      rw [searched.carry, StreamSearch.rtake_append]

/-! ## Whole runs -/

theorem readAll_seen {at_ : ℚ} (seen : reader.scan.resultSeenAt = some at_) (turns : List Turn) :
    readAll marker reader turns = reader := by
  induction turns with
  | nil => rfl
  | cons turn rest ih =>
    have idle : ¬ Due reader.scan turn.now := by
      rintro ⟨unseen, -⟩
      rw [seen] at unseen
      exact absurd unseen (by simp)
    rw [readAll, List.foldl_cons, readLog_idle idle]
    exact ih

/-- From a log that was searched, the marker is seen at the first scan whose log shows it. -/
theorem readAll_searched (searched : Searched marker log reader)
    (grows : (log :: turns.filterMap Turn.log).Pairwise (· <+: ·)) :
    (readAll marker reader turns).scan.resultSeenAt =
      ((scans reader.scan.lastResultScan turns).find? (shows marker)).map Turn.now := by
  induction turns generalizing reader log with
  | nil => exact searched.unseen
  | cons turn rest ih =>
    rw [readAll, List.foldl_cons]
    by_cases late : resultScanIntervalS ≤ turn.now - reader.scan.lastResultScan
    · have due : Due reader.scan turn.now := ⟨searched.unseen, late⟩
      rw [scans, if_pos late]
      cases opened : turn.log with
      | none =>
        rw [List.filterMap_cons_none opened] at grows
        have hidden : ¬ shows marker turn = true := by
          rw [shows, opened]
          exact Bool.false_ne_true
        rw [List.find?_cons_of_neg hidden, readLog_unreadable due opened]
        exact ih ⟨searched.unseen, searched.offset, searched.carry, searched.absent⟩ grows
      | some new =>
        rw [List.filterMap_cons_some opened] at grows
        obtain ⟨grown, later⟩ := List.pairwise_cons.mp grows
        obtain ⟨finds, goesOn⟩ := readLog_readable searched due opened
          (grown new List.mem_cons_self)
        by_cases found : marker <:+: new
        · have shown : shows marker turn = true := by
            rw [shows, opened, Option.any_some, decide_eq_true found]
          rw [List.find?_cons_of_pos shown, Option.map_some]
          have stays := @readAll_seen marker _ _ (finds found) rest
          rw [readAll] at stays
          rw [stays, finds found]
        · have hidden : ¬ shows marker turn = true := by
            rw [shows, opened, Option.any_some, decide_eq_false found]
            exact Bool.false_ne_true
          obtain ⟨kept, last⟩ := goesOn found
          rw [List.find?_cons_of_neg hidden, ← last]
          exact ih kept later
    · rw [scans, if_neg late, readLog_idle fun due => late due.2]
      refine ih searched ?_
      cases opened : turn.log with
      | none => rwa [List.filterMap_cons_none opened] at grows
      | some new =>
        rw [List.filterMap_cons_some opened] at grows
        exact grows.sublist ((List.sublist_cons_self _ _).cons_cons _)

/-- Where the loop goes on, it has come to the scan at every turn. -/
theorem watch_reads {timeoutS maxGraceS : ℤ} (armed : 0 < maxGraceS) (marked : marker ≠ [])
    {before : List Turn} (after : List Turn)
    (running : watch timeoutS maxGraceS marker reader.scan (ticks marker reader before) = none) :
    watch timeoutS maxGraceS marker reader.scan (ticks marker reader (before ++ after)) =
      watch timeoutS maxGraceS marker (readAll marker reader before).scan
        (ticks marker (readAll marker reader before) after) := by
  induction before generalizing reader with
  | nil => rfl
  | cons turn rest ih =>
    rw [ticks, watch] at running
    rw [List.cons_append, ticks, watch]
    have scanned : (readLog marker reader turn).scan =
        scanLog marker reader.scan (reader.tick turn) := rfl
    split at running
    · exact absurd running (by simp)
    · split at running
      · exact absurd running (by simp)
      · rename_i inTime
        rw [if_pos ⟨armed, marked⟩] at running
        dsimp only at running
        split at running
        · exact absurd running (by simp)
        · rename_i waits
          rw [if_neg inTime, if_pos ⟨armed, marked⟩]
          dsimp only
          rw [← scanned] at running waits ⊢
          rw [if_neg waits]
          exact ih running

variable (marker) (turns)

/-- **Reading on is searching the whole.**  However the log grows between the scans, and whichever
of them cannot read it, the countdown starts at the first due scan whose log holds the marker, and
only there; and the loop has these variables at every turn that it lives to see. -/
theorem countdown_starts_where_log_shows (marked : marker ≠ []) (grows : Grows turns) :
    (readAll marker unread turns).scan.resultSeenAt =
        ((scans 0 turns).find? (shows marker)).map Turn.now ∧
      ∀ timeoutS maxGraceS : ℤ, 0 < maxGraceS → ∀ before after, turns = before ++ after →
        watch timeoutS maxGraceS marker noScan (ticks marker unread before) = none →
        watch timeoutS maxGraceS marker noScan (ticks marker unread turns) =
          watch timeoutS maxGraceS marker (readAll marker unread before).scan
            (ticks marker (readAll marker unread before) after) := by
  refine ⟨readAll_searched (searched_unread marked)
    (List.pairwise_cons.mpr ⟨fun log _ => List.nil_prefix, grows⟩), ?_⟩
  rintro timeoutS maxGraceS armed before after rfl running
  have running : watch timeoutS maxGraceS marker unread.scan (ticks marker unread before) = none :=
    running
  exact watch_reads armed marked after running

/-- A log that grows by the second half of `[1, 2]` while it cannot be read. -/
def halves : List Turn :=
  [⟨1, none, some [0, 1], true⟩, ⟨2, none, none, true⟩, ⟨3, none, some [0, 1, 2], true⟩]

/-- A marker split between two scans is seen by the second. -/
theorem split_marker_is_seen :
    (readAll [1, 2] unread halves).scan.resultSeenAt = some 3 ∧
      watch 9 1 [1, 2] noScan (ticks [1, 2] unread halves) =
        watch 9 1 [1, 2] (readAll [1, 2] unread (halves.take 2)).scan
          (ticks [1, 2] (readAll [1, 2] unread (halves.take 2)) (halves.drop 2)) := by
  have grows : Grows halves := by
    unfold Grows
    decide
  have law := countdown_starts_where_log_shows [1, 2] halves (by decide) grows
  refine ⟨law.1.trans (by decide +kernel), ?_⟩
  exact law.2 9 1 (by decide) (halves.take 2) _ rfl (by decide +kernel)

end AgentRunner.MarkerScan
