import AgentRunner.IntText
import AgentRunner.JsonText
import AgentRunner.RoundEnv
import AgentRunner.IsoTime
import Mathlib.Data.List.Sort
import Mathlib.Data.List.DropRight

/-! The round logs of a log directory, and the round counter that `round_log.py` reads
off them and off `status.json`: what a prune unlinks, the next number, and the number
the child of a round goes by. -/
namespace AgentRunner.RoundLogs
open IntText IsoTime JsonText PyValue RoundEnv

/-! ## The log directory -/

inductive EntryKind where
  | regular
  | link

/-- The entries of a log directory by name, in the order they are listed in. -/
abbrev LogFiles := Dict String EntryKind

def roundCurrentLink : String := "round-current.log"

/-- A name that `round-*.log` matches, other than the link to the current log. -/
def isRoundLog (name : String) : Bool :=
  "round-".toList.isPrefixOf name.toList && ".log".toList.isSuffixOf name.toList &&
    name != roundCurrentLink

/-- `Path(name).stem`, for a name with a suffix. -/
def stem (name : String) : List Char := (name.toList.rdropWhile (· != '.')).dropLast

/-- The number in the name of a round log, if it is one. -/
def logNumber (name : String) : Option ℤ :=
  (splitAtChar '-' (stem name)).bind fun parts => intOf parts.2

/-! ## Pruning -/

structure PruneOutcome where
  deleted : ℕ
  deferred : ℕ
  existing : ℕ
  deriving DecidableEq

def pruningDisabled (keep : ℕ) : Bool := keep == 0

def isBulk (stale keep : ℕ) : Bool := decide (keep < stale)

/-- `_mtime_or_none`; no entry vanishes while a pass looks at it. -/
def mtimeOrNone (mtime : String → ℚ) (entry : String × EntryKind) : Option ℚ :=
  match entry.2 with
  | .regular => some (mtime entry.1)
  | .link => none

/-- The logs a pass considers, each with its modification time. -/
def presentLogs (mtime : String → ℚ) (dir : LogFiles) : List (String × ℚ) :=
  dir.entries.filterMap fun entry =>
    if isRoundLog entry.1 then (mtimeOrNone mtime entry).map (entry.1, ·) else none

def newestFirst (mtime : String → ℚ) (dir : LogFiles) : List String :=
  ((presentLogs mtime dir).insertionSort fun p q => q.2 ≤ p.2).map Prod.fst

/-- A pass of `prune_old_round_logs` up to its unlinks: what it reports, and what it
is going to unlink, in that order. -/
def prunePlan (mtime : String → ℚ) (dir : LogFiles) (retention : ℕ) :
    PruneOutcome × List String :=
  if pruningDisabled retention then (⟨0, 0, 0⟩, [])
  else
    let logs := newestFirst mtime dir
    let stale := logs.drop retention
    if isBulk stale.length retention then (⟨0, stale.length, logs.length⟩, [])
    else (⟨stale.length, 0, logs.length⟩, stale)

def unlink (dir : LogFiles) (names : List String) : LogFiles := names.foldl Dict.erase dir

/-- `prune_old_round_logs`, where every unlink succeeds. -/
def pruneOldRoundLogs (mtime : String → ℚ) (dir : LogFiles) (retention : ℕ) :
    PruneOutcome × LogFiles :=
  ((prunePlan mtime dir retention).1, unlink dir (prunePlan mtime dir retention).2)

/-- `atomic_relink(log_dir / ROUND_CURRENT_LINK, ..)`. -/
def relinkCurrent (dir : LogFiles) : LogFiles := dir.set roundCurrentLink .link

/-- `open("w")`: a name that is there already stays what it is. -/
def openLog (dir : LogFiles) (name : String) : LogFiles :=
  if dir.contains name then dir else dir.set name .regular

/-! ## The counter -/

/-- `read_json`: `none` in place of a text is a file that is missing, cannot be read or
is not UTF-8. -/
def readJson (i : Interpreter) (text : Option (List Char)) : Except PyErr (Option Json) :=
  match text with
  | none => .ok none
  | some text =>
    match loads i text with
    | .error .valueError => .ok none
    | read => read

/-- `read_round_num`: a status that lacks `round_num` or `running`, its two required
fields, or whose number is no integer, counts as none. -/
def readRoundNum (i : Interpreter) (status : Option (List Char)) : Except PyErr ℤ := do
  match ← readJson i status with
  | some (.obj fields) =>
    match fields.lookup "round_num" with
    | some (.int n) => return if (fields.lookup "running").isSome then n else 0
    | _ => return 0
  | _ => return 0

/-- The numbers of the round logs that have one. -/
def fileNums (dir : LogFiles) : List ℤ :=
  dir.entries.filterMap fun entry => if isRoundLog entry.1 then logNumber entry.1 else none

def nextRoundNum (i : Interpreter) (status : Option (List Char)) (dir : LogFiles) :
    Except PyErr ℤ := do
  let statusNum ← readRoundNum i status
  return max statusNum ((fileNums dir).max?.getD 0) + 1

/-- `runner._resolve_round_num`. -/
def resolveRoundNum (i : Interpreter) (env : Env) (status : Option (List Char)) (dir : LogFiles) :
    Except PyErr ℤ :=
  match (env.get? roundNumKey).bind fun raw => intOf raw.toList with
  | some n => .ok n
  | none => nextRoundNum i status dir

/-- `f"round-{n}.log"`; `none` where the number has too many digits to be written. -/
def roundLogName (n : ℤ) : Option String := (strOf n).map fun text => "round-" ++ text ++ ".log"

/-! ## Names and numbers -/

theorem roundLogName_toList {n : ℤ} {name : String} (named : roundLogName n = some name) :
    ∃ text, strOf n = some text ∧
      name.toList = ("round".toList ++ '-' :: text.toList) ++ ".log".toList := by
  obtain ⟨text, written, rfl⟩ := Option.map_eq_some_iff.mp named
  refine ⟨text, written, ?_⟩
  rw [String.toList_append, String.toList_append]
  rfl

theorem stem_log {front : List Char} {name : String} (ends : name.toList = front ++ ".log".toList) :
    stem name = front := by
  have dotted : name.toList = (((front ++ ['.']) ++ ['l']) ++ ['o']) ++ ['g'] := by
    rw [ends, List.append_assoc, List.append_assoc, List.append_assoc]
    rfl
  rw [stem, dotted, List.rdropWhile_concat_pos _ _ _ (by decide),
    List.rdropWhile_concat_pos _ _ _ (by decide), List.rdropWhile_concat_pos _ _ _ (by decide),
    List.rdropWhile_concat_neg _ _ _ (by decide), List.dropLast_concat]

/-- The counter reads back the number a log was named with. -/
theorem logNumber_roundLogName {n : ℤ} {name : String} (named : roundLogName n = some name) :
    logNumber name = some n := by
  obtain ⟨text, written, spelled⟩ := roundLogName_toList named
  rw [logNumber, stem_log spelled, splitAtChar_append (by decide), Option.bind_some]
  exact intOf_strOf written

theorem isRoundLog_roundLogName {n : ℤ} {name : String} (named : roundLogName n = some name) :
    isRoundLog name = true := by
  obtain ⟨text, written, spelled⟩ := roundLogName_toList named
  have other : name ≠ roundCurrentLink := by
    rintro rfl
    have read := logNumber_roundLogName named
    have none_read : logNumber roundCurrentLink = none := by decide +kernel
    rw [none_read] at read
    cases read
  simp only [isRoundLog, Bool.and_eq_true, bne_iff_ne, List.isPrefixOf_iff_prefix,
    List.isSuffixOf_iff_suffix]
  refine ⟨⟨⟨text.toList ++ ".log".toList, ?_⟩, ⟨_, spelled.symm⟩⟩, other⟩
  rw [spelled, List.append_assoc]
  rfl

/-! ## What is in the directory -/

theorem mem_fileNums {dir : LogFiles} {n : ℤ} :
    n ∈ fileNums dir ↔
      ∃ name kind, dir.get? name = some kind ∧ isRoundLog name = true ∧
        logNumber name = some n := by
  simp only [fileNums, List.mem_filterMap, Prod.exists, Dict.get?_eq_some]
  refine exists₂_congr fun name kind => and_congr_right fun _ => ?_
  by_cases log : isRoundLog name = true
  · simp [log]
  · simp [log]

theorem mem_presentLogs {mtime : String → ℚ} {dir : LogFiles} {p : String × ℚ} :
    p ∈ presentLogs mtime dir ↔
      dir.get? p.1 = some .regular ∧ isRoundLog p.1 = true ∧ p.2 = mtime p.1 := by
  obtain ⟨name, stamp⟩ := p
  simp only [presentLogs, List.mem_filterMap, Prod.exists, Dict.get?_eq_some]
  constructor
  · rintro ⟨key, kind, held, found⟩
    split at found
    · rename_i log
      cases kind with
      | link => cases found
      | regular =>
        cases found
        exact ⟨held, log, rfl⟩
    · cases found
  · rintro ⟨held, log, rfl⟩
    exact ⟨name, .regular, held, by rw [if_pos log]; rfl⟩

theorem mem_newestFirst {mtime : String → ℚ} {dir : LogFiles} {name : String} :
    name ∈ newestFirst mtime dir ↔ dir.get? name = some .regular ∧ isRoundLog name = true := by
  simp only [newestFirst, List.mem_map, List.mem_insertionSort, mem_presentLogs, Prod.exists,
    exists_and_right, exists_eq_right]
  constructor
  · rintro ⟨stamp, held, log, -⟩
    exact ⟨held, log⟩
  · rintro ⟨held, log⟩
    exact ⟨mtime name, held, log, rfl⟩

/-- Newest first, by their modification times. -/
theorem newestFirst_sorted (mtime : String → ℚ) (dir : LogFiles) :
    (newestFirst mtime dir).Pairwise fun newer older => mtime older ≤ mtime newer := by
  rw [newestFirst, List.pairwise_map]
  refine (List.pairwise_insertionSort (fun p q : String × ℚ => q.2 ≤ p.2) _).imp_of_mem ?_
  intro p q first second ordered
  rw [List.mem_insertionSort, mem_presentLogs] at first second
  rwa [first.2.2, second.2.2] at ordered

/-- Each log is considered once. -/
theorem newestFirst_nodup (mtime : String → ℚ) (dir : LogFiles) :
    (newestFirst mtime dir).Nodup := by
  have distinct : ((presentLogs mtime dir).map Prod.fst).Nodup := by
    have keys : dir.entries.Pairwise fun p q => p.1 ≠ q.1 := List.pairwise_map.mp dir.nodup
    refine List.pairwise_map.mpr (List.pairwise_filterMap.mpr (keys.imp ?_))
    intro p q different first found second found'
    have named : ∀ {entry : String × EntryKind} {r : String × ℚ},
        (if isRoundLog entry.1 then (mtimeOrNone mtime entry).map (entry.1, ·) else none) = some r →
          r.1 = entry.1 := by
      intro entry r picked
      split at picked
      · obtain ⟨_, -, rfl⟩ := Option.map_eq_some_iff.mp picked
        rfl
      · cases picked
    rw [named found, named found']
    exact different
  exact ((List.perm_insertionSort _ _).map Prod.fst).nodup_iff.mpr distinct

theorem get?_unlink (dir : LogFiles) (names : List String) (name : String) :
    (unlink dir names).get? name = if name ∈ names then none else dir.get? name := by
  induction names generalizing dir with
  | nil => simp [unlink]
  | cons first rest ih =>
    rw [unlink, List.foldl_cons, ← unlink, ih, Dict.get?_erase]
    by_cases here : name = first
    · simp [here]
    · simp [here]

end AgentRunner.RoundLogs
