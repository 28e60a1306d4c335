import AgentRunner.ConfigParsers
import AgentRunner.ContainerRun
import AgentRunner.Metered
import AgentRunner.TextLines
import AgentRunner.Utf8
import Mathlib.Algebra.Order.Ring.Rat
import Mathlib.Data.List.Infix
import Mathlib.Tactic.Linarith
import Mathlib.Tactic.NormNum

/-! `agent_runtime.run`: the loop that watches the agent, and the kill that ends it. What the
agent does and how long it takes to die is left open. The stop of the supervisor itself, the
progress callbacks and the strays that are killed along are left out. -/
namespace AgentRunner.AgentRun
open ContainerRun Effects Metered

/-! ## What a round child waits for -/

inductive Work where
  | reap
  | containerStop (cid : String)
  | check (name : String)
  | git (argv : List String)

/-- One thing it has waited for, and how long. -/
structure Spent where
  work : Work
  seconds : ℚ

def total : List Spent → ℚ
  | [] => 0
  | spent :: rest => spent.seconds + total rest

theorem total_append (before after : List Spent) :
    total (before ++ after) = total before + total after := by
  induction before with
  | nil => rw [List.nil_append, total, zero_add]
  | cons spent rest ih => rw [List.cons_append, total, total, ih, add_assoc]

theorem total_snoc (before : List Spent) (work : Work) (seconds : ℚ) :
    total (before ++ [⟨work, seconds⟩]) = total before + seconds := by
  rw [total_append, total, total, add_zero]

/-! ## The loop -/

/-- `_RESULT_SCAN_INTERVAL_S`. -/
def resultScanIntervalS : ℚ := 1

/-- `clock.sleep(0.2)`. -/
def pollS : ℚ := 1 / 5

/-- What one turn of the loop sees: the seconds since the start, `proc.poll()`, what the log
holds behind what was scanned (`none` is unreadable), and whether a worker is still running. -/
structure Tick where
  now : ℚ
  ret : Option Int
  chunk : Option (List UInt8)
  live : Bool

structure Scan where
  resultSeenAt : Option ℚ
  carry : List UInt8
  lastResultScan : ℚ

/-- The scan for the marker: what is kept of the haystack can still begin one. -/
def scanLog (marker : List UInt8) (scan : Scan) (tick : Tick) : Scan :=
  if scan.resultSeenAt.isNone && decide (resultScanIntervalS ≤ tick.now - scan.lastResultScan) then
    match tick.chunk with
    | none => { scan with lastResultScan := tick.now }
    | some chunk =>
      let haystack := scan.carry ++ chunk
      if marker <:+: haystack then ⟨some tick.now, scan.carry, tick.now⟩
      else ⟨none, haystack.drop (haystack.length - (marker.length - 1)), tick.now⟩
  else scan

/-- How the loop is left: the agent is gone, or is to be terminated. -/
inductive Ending where
  | exited (now : ℚ) (ret : Int)
  | wall (now : ℚ)
  | grace (now : ℚ)

def Ending.now : Ending → ℚ
  | .exited now _ | .wall now | .grace now => now

/-- The result was seen longer ago than it may be. -/
def overdue (maxGraceS : ℤ) (scan : Scan) (now : ℚ) : Bool :=
  scan.resultSeenAt.any fun seen => decide ((maxGraceS : ℚ) < now - seen)

/-- The loop of `run` over the turns it takes; `none` is still running. -/
def watch (timeoutS maxGraceS : ℤ) (marker : List UInt8) : Scan → List Tick → Option Ending
  | _, [] => none
  | scan, tick :: rest =>
    match tick.ret with
    | some ret => some (.exited tick.now ret)
    | none =>
      if (timeoutS : ℚ) < tick.now then some (.wall tick.now)
      else if 0 < maxGraceS ∧ marker ≠ [] then
        let scan := scanLog marker scan tick
        if overdue maxGraceS scan tick.now && !tick.live then some (.grace tick.now)
        else watch timeoutS maxGraceS marker scan rest
      else watch timeoutS maxGraceS marker scan rest

def noScan : Scan := ⟨none, [], 0⟩

/-! ## The kill -/

/-- How the agent takes being killed: the seconds until it is gone after the first signal and
after the kill, where it goes at all, and its return code; then what the container's id file
holds, and how its stop ends (`none` raises) after how many seconds. -/
structure Agent where
  afterSignal : Option ℚ
  afterKill : Option ℚ
  returncode : Int
  cidBytes : String → Option (List UInt8)
  stop : String → String → Option (Int × String) × ℚ

/-- `wait_exit` for a process with so many seconds left: whether it exited, and the wait. -/
def waitExit (left : Option ℚ) (deadlineS : ℚ) : Bool × ℚ :=
  match left with
  | some seconds => if seconds ≤ deadlineS then (true, seconds) else (false, deadlineS)
  | none => (false, deadlineS)

def finalWaitS : ℚ := 10

/-- `_kill_pgroup`: whether the agent is gone, and how long that took. -/
def killPgroup (agent : Agent) (reapGraceS : ℤ) : Bool × ℚ :=
  let first := waitExit agent.afterSignal reapGraceS
  let last := waitExit (if first.1 then some 0 else agent.afterKill) finalWaitS
  (last.1, first.2 + last.2)

def cidfileReadCap : ℕ := 128

/-- `_CONTAINER_STOP_TIMEOUT_S`. -/
def containerStopTimeoutS : ℤ := RoundEnv.reapGraceS + 5

def isHex (c : Char) : Bool :=
  ('0' ≤ c && c ≤ '9') || ('a' ≤ c && c ≤ 'f') || ('A' ≤ c && c ≤ 'F')

/-- `_CONTAINER_ID_RE.match(cid)`. -/
def isContainerId (cid : List Char) : Bool :=
  12 ≤ cid.length && cid.length ≤ 64 && cid.all isHex

/-- The container id in an id file. -/
def readCid (bytes : List UInt8) : Option String :=
  let cid := TextLines.strip (Utf8.decode bytes)
  if bytes.length ≤ cidfileReadCap ∧ isContainerId cid then some (String.ofList cid) else none

variable {ε : Type}

/-- `_best_effort_container_stop`. -/
def bestEffortContainerStop (agent : Agent) (runtime : String) (cidfile : Option String) :
    Command (List Spent) ε (Option String × Option Bool) :=
  match (cidfile.bind agent.cidBytes).bind readCid with
  | none => pure (none, none)
  | some cid => perform fun spent =>
    let answer := agent.stop runtime cid
    let stopped := answer.1.any fun result =>
      result.1 == 0 || ConfigParsers.hasText "no such container".toList
        (result.2.toList.map Char.toLower)
    (.ok (some cid, some stopped), spent ++ [⟨.containerStop cid, answer.2⟩])

/-- The stop of a recognized container; what comes of it is only reported. -/
def stopContainer (agent : Agent) (container : Container) : Command (List Spent) ε Unit :=
  match container.runtime with
  | none => pure ()
  | some runtime => do
    let _ ← bestEffortContainerStop agent runtime container.cidfile
    return ()

/-- `_terminate_agent`: whether the agent is gone. -/
def terminateAgent (agent : Agent) (container : Container) (reapGraceS : ℤ) :
    Command (List Spent) ε Bool := do
  let killed := killPgroup agent reapGraceS
  perform fun spent => (.ok (), spent ++ [⟨.reap, killed.2⟩])
  stopContainer agent container
  return killed.1

/-- `RunResult`, without its duration and process id. -/
structure RunResult where
  exitCode : Int
  timedOut : Bool
  killedForGrace : Bool

/-- `RunResult.ok`. -/
def RunResult.ok (result : RunResult) : Bool := result.exitCode == 0 && !result.timedOut

/-- What `run` does once its loop is left. -/
def conclude (agent : Agent) (container : Container) (reapGraceS : ℤ) :
    Ending → Command (List Spent) ε RunResult
  | .exited _ ret => pure ⟨ret, false, false⟩
  | .wall _ => do
    let gone ← terminateAgent agent container reapGraceS
    return ⟨if gone then agent.returncode else -1, true, false⟩
  | .grace _ => do
    let gone ← terminateAgent agent container reapGraceS
    return ⟨if gone then agent.returncode else -1, true, true⟩

/-! ## How long it takes -/

/-- What is waited for of the agent takes no longer than its timeouts. -/
structure Agent.Within (agent : Agent) : Prop where
  signal : ∀ seconds ∈ agent.afterSignal, 0 ≤ seconds
  kill : ∀ seconds ∈ agent.afterKill, 0 ≤ seconds
  stop : ∀ runtime cid, 0 ≤ (agent.stop runtime cid).2 ∧
    (agent.stop runtime cid).2 ≤ containerStopTimeoutS

theorem waitExit_le (left : Option ℚ) (deadlineS : ℚ) :
    (waitExit left deadlineS).2 ≤ deadlineS := by
  unfold waitExit
  split
  · split
    · assumption
    · exact le_refl _
  · exact le_refl _

theorem killPgroup_le (agent : Agent) (reapGraceS : ℤ) :
    (killPgroup agent reapGraceS).2 ≤ reapGraceS + finalWaitS :=
  add_le_add (waitExit_le ..) (waitExit_le ..)

/-- The seconds a container stop can take. -/
def stopAllowanceS (container : Container) : ℚ :=
  if container.cidfile.isSome then containerStopTimeoutS else 0

theorem stopAllowanceS_nonneg (container : Container) : 0 ≤ stopAllowanceS container := by
  unfold stopAllowanceS
  split
  · norm_num [containerStopTimeoutS, RoundEnv.reapGraceS]
  · exact le_refl _

theorem spends_containerStop {agent : Agent} (within : agent.Within) (runtime : String)
    (container : Container) :
    Spends total (bestEffortContainerStop agent runtime container.cidfile :
      Command (List Spent) ε _) (stopAllowanceS container) := by
  unfold bestEffortContainerStop
  split
  · exact (spends_pure _).mono (stopAllowanceS_nonneg container)
  · rename_i cid found
    have some_ : container.cidfile.isSome = true := by
      cases file : container.cidfile with
      | none => simp [file] at found
      | some _ => rfl
    refine spends_perform fun spent => ?_
    rw [total_snoc, stopAllowanceS, if_pos some_]
    exact add_le_add_right (within.stop runtime cid).2 _

theorem spends_stopContainer {agent : Agent} (within : agent.Within) (container : Container) :
    Spends total (stopContainer agent container : Command (List Spent) ε _)
      (stopAllowanceS container) := by
  unfold stopContainer
  split
  · exact (spends_pure _).mono (stopAllowanceS_nonneg container)
  · exact (spends_bind (spends_containerStop within _ container) (fun _ _ _ _ => spends_pure _)
      (le_refl 0)).mono (add_zero _).le

theorem spends_terminateAgent {agent : Agent} (within : agent.Within) (container : Container)
    (reapGraceS : ℤ) :
    Spends total (terminateAgent agent container reapGraceS : Command (List Spent) ε _)
      (reapGraceS + finalWaitS + stopAllowanceS container) := by
  unfold terminateAgent
  refine spends_bind (spends_perform fun spent => ?_) (fun _ _ _ _ => ?_)
    (stopAllowanceS_nonneg container)
  · rw [total_snoc]
    exact add_le_add_right (killPgroup_le agent reapGraceS) _
  · exact (spends_bind (spends_stopContainer within container) (fun _ _ _ _ => spends_pure _)
      (le_refl 0)).mono (add_zero _).le

/-! ## When an agent is killed for its grace -/

/-- The marker is seen a scan interval after the start at the earliest. -/
def Late (scan : Scan) : Prop :=
  0 ≤ scan.lastResultScan ∧ ∀ at_ ∈ scan.resultSeenAt, resultScanIntervalS ≤ at_

theorem scanLog_late {marker : List UInt8} {scan : Scan} (tick : Tick) (early : Late scan) :
    Late (scanLog marker scan tick) := by
  unfold scanLog
  split
  · rename_i due
    have late : resultScanIntervalS ≤ tick.now := by
      have due := of_decide_eq_true (Bool.and_eq_true _ _ ▸ due).2
      have := early.1
      linarith
    have past : 0 ≤ tick.now := le_trans (by norm_num [resultScanIntervalS]) late
    split
    · exact ⟨past, early.2⟩
    · dsimp only
      split
      · refine ⟨past, fun at_ same => ?_⟩
        cases same
        exact late
      · exact ⟨past, fun _ other => by cases other⟩
  · exact early

/-- A grace kill comes after a scan that saw the marker, and before the wall. -/
theorem watch_grace {timeoutS maxGraceS : ℤ} {marker : List UInt8} {scan : Scan}
    {ticks : List Tick} {now : ℚ} (early : Late scan)
    (killed : watch timeoutS maxGraceS marker scan ticks = some (.grace now)) :
    0 < maxGraceS ∧ marker ≠ [] ∧ resultScanIntervalS + maxGraceS < now ∧ now ≤ timeoutS := by
  induction ticks generalizing scan with
  | nil => cases killed
  | cons tick rest ih =>
    have scanned : Late (scanLog marker scan tick) := scanLog_late tick early
    rw [watch] at killed
    split at killed
    · cases killed
    · split at killed
      · cases killed
      · rename_i inTime
        split at killed
        · rename_i armed
          dsimp only at killed
          split at killed
          · rename_i lingered
            cases killed
            refine ⟨armed.1, armed.2, ?_, not_lt.mp inTime⟩
            have lingered := (Bool.and_eq_true _ _ ▸ lingered).1
            unfold overdue at lingered
            cases at_ : (scanLog marker scan tick).resultSeenAt with
            | none => simp [at_] at lingered
            | some first =>
              rw [at_, Option.any_some, decide_eq_true_eq] at lingered
              have := scanned.2 first at_
              linarith
          · exact ih scanned killed
        · exact ih early killed

/-- An agent that writes its marker in time and then lingers is killed at the wall. -/
theorem watch_lingering {timeoutS maxGraceS : ℤ} {marker : List UInt8} (armed : 0 < maxGraceS)
    (marked : marker ≠ []) (room : resultScanIntervalS + maxGraceS < (timeoutS : ℚ)) :
    watch timeoutS maxGraceS marker noScan
      [⟨resultScanIntervalS, none, some marker, true⟩, ⟨timeoutS, none, none, false⟩] =
      some (.grace timeoutS) := by
  have positive : (0 : ℚ) < maxGraceS := Int.cast_pos.mpr armed
  have inTime : ¬ (timeoutS : ℚ) < resultScanIntervalS := by linarith
  have first : scanLog marker noScan ⟨resultScanIntervalS, none, some marker, true⟩ =
      ⟨some resultScanIntervalS, [], resultScanIntervalS⟩ := by
    simp [scanLog, noScan]
  have last : scanLog marker ⟨some resultScanIntervalS, [], resultScanIntervalS⟩
      ⟨timeoutS, none, none, false⟩ = ⟨some resultScanIntervalS, [], resultScanIntervalS⟩ := by
    simp [scanLog]
  have lingered : (maxGraceS : ℚ) < timeoutS - resultScanIntervalS := by linarith
  simp only [watch, if_neg inTime, armed, marked, first, last, overdue, lt_irrefl, lingered, ne_eq,
    not_false_eq_true, and_self, if_true, if_false, Option.any_some, sub_self, Bool.not_true,
    Bool.and_false, Bool.not_false, Bool.and_true, decide_true, Bool.false_eq_true]

end AgentRunner.AgentRun
