import AgentRunner.BackOff
import AgentRunner.HostHealth
import AgentRunner.PhaseOverlap
import AgentRunner.PhaseSelect
import AgentRunner.RoundCeiling
import AgentRunner.RoundLogs
import AgentRunner.ServePolicy
import AgentRunner.Triples

/-! `cli/serve_cmd.cmd`, the supervisor: one lock for a lifetime, a round in a process of
its own for each turn of the loop, and the gates in between. What the disk, the clocks,
git and a round answer, when a call raises, when a signal arrives and when the process is
killed are left open. -/
namespace AgentRunner.Serve
open Effects Triples PyValue ConfigModels Schedule Events Throttle RoundVerdicts RoundEnv
open ServePolicy

/-! ## What can be raised -/

/-- An exception. `killed` is none: the process is no more, and runs no finalizer. -/
inductive Raised where
  | osError (text : String)
  | valueError (text : String)
  | configError (text : String)
  | exception
  | killed
  deriving DecidableEq

/-- `except OSError`. -/
def Raised.isOSError : Raised → Bool
  | .osError _ => true
  | _ => false

/-- `except (OSError, ValueError)`. -/
def Raised.isStartupFailure : Raised → Bool
  | .osError _ | .valueError _ => true
  | _ => false

def Raised.isKilled : Raised → Bool
  | .killed => true
  | _ => false

def Raised.text : Raised → String
  | .osError text | .valueError text | .configError text => text
  | .exception | .killed => ""

/-- What a reader of the events tail raises. -/
def raisedBy : PyErr → Raised
  | .valueError => .valueError ""
  | _ => .exception

/-! ## What it does -/

/-- The events of the supervisor, with what they say. -/
inductive Emission where
  | selfTerminated (reason : String)
  | maxRoundsReached (roundsCompleted : ℕ) (maxRounds : Int)
  | stopFileDetected (stopFile content : String) (roundsCompleted : ℕ)
  | configBroken (reason : String)
  | roundLogsPruneDeferred (directory : String) (existing keep wouldDelete : ℕ)
  | hostCgroupMemoryLimit (memoryMax memorySwapMax : Option Int) (defer : Bool)
  | schedulePaused (activeWindow resumeAt timezone phase : String)
  | scheduleResumed (pausedForS : Int)
  | schedulePhaseSkipped (roundNum : Int) (skipped : List String) (chosen : Option String)
      (activeWindow : String)
  | roundDeferred (severity signal message : String)
  | roundResumed (deferredForS : Int)
  | recovered (classification agent : String) (throttledForS : Int)
  | backedOff (emission : BackOff.Emission)
  | freshEyesRoundTriggered (roundNum everyN : Int)
  | sessionResumed (sessionId phase : String)
  | substrateBefore (roundNum : Int) (gitHead pathsHash : Option String)
  | substrateAfter (roundNum : Int) (gitHead pathsHash : Option String)
  | cgroupTrail (kind : String) (fields : Event)
  | gaveUp (event : GiveUpEvent)

/-- A round child, as it is spawned. -/
structure Child where
  argv : List String
  env : Env
  log : String
  timeoutS : Int
  roundNum : Int
  deferToCgroup : Bool

/-- One thing that happened. Of a call that raised only that is kept, a round apart. -/
inductive Step where
  | asked
  | failed
  | stopRequested
  | polled (requested : Bool)
  | waited (seconds : ℚ)
  | locked (held : Bool)
  | unlocked
  | pidWritten
  | pidUnlinked
  | emitted (emission : Emission)
  | spawned (child : Child) (answer : Except Raised Int)
  | relinked
  | judged (round : Round)

/-- The process: what has happened, whether its handlers are armed, `stop["requested"]`,
and the memory sample before the next one. -/
structure Process where
  steps : List Step
  armed : Bool
  stop : Bool
  prev : HostHealth.Sample

/-- The `argparse` values. -/
structure Args where
  config : String
  once : Bool
  maxRounds : Option Int
  ignoreSchedule : Bool

/-- The bounds of the process's own cgroup and of its host. -/
structure Budget where
  memoryMax : Option Int
  memorySwapMax : Option Int
  memTotal : Int
  swapTotal : Int

/-- The world it runs in: every answer may depend on all that happened before. -/
structure World where
  host : Host
  interpreter : JsonText.Interpreter
  manifests : List PluginManifest
  uuids : Uuids
  zones : Option String → ℤ
  isoformat : DateTime → String
  executable : String
  environ : Env
  /-- How often a loop is turned before one stops looking. -/
  patience : ℕ
  signals : List Step → Bool
  mkdir : List Step → Except Raised Unit
  lock : List Step → Except Raised Bool
  unlock : List Step → Except Raised Unit
  /-- Whether the doorbell it opened is live. -/
  openDoorbell : List Step → Except Raised Bool
  unlinkDone : List Step → Except Raised Unit
  doneExists : List Step → Except Raised Bool
  doneText : List Step → Except Raised String
  stopFileExists : List Step → Except Raised Bool
  stopFileText : List Step → Except Raised String
  logs : List Step → RoundLogs.LogFiles
  mtime : List Step → String → ℚ
  unlinkLogs : List Step → List String → Except Raised Unit
  status : List Step → Option (List Char)
  budget : List Step → Except Raised Budget
  writePid : List Step → Except Raised Unit
  unlinkPid : List Step → Except Raised Unit
  events : List Step → LogDir
  epoch : List Step → ℚ
  monotonic : List Step → ℚ
  utc : List Step → ℤ
  sample : List Step → HostHealth.Sample
  surroundings : List Step → BackOff.Surroundings
  jitter : List Step → BackOff.Jitter
  wait : List Step → Except Raised Unit
  gitHead : List Step → Except Raised (Option String)
  pathsHash : List Step → Except Raised (Option String)
  spawn : List Step → Child → Except Raised Int
  relink : List Step → Except Raised Unit
  /-- The events of `_emit_round_cgroup_memory` and `_maybe_emit_oom_killed`. -/
  cgroupTrail : List Step → Except Raised (List (String × Event))
  emit : List Step → Emission → Except Raised Unit

abbrev Cmd := Command Process Raised

section
variable (world : World)

/-! ## Elementary commands -/

/-- Signals are taken between two calls; `graceful` is all they do. -/
def arrive (p : Process) : Process :=
  if p.armed && world.signals p.steps then
    { p with steps := p.steps ++ [.stopRequested], stop := true }
  else p

/-- One call to the world. -/
def act {α : Type} (answer : List Step → Except Raised α) (step : Except Raised α → Step) :
    Cmd α :=
  perform fun p =>
    let p := arrive world p
    (answer p.steps, { p with steps := p.steps ++ [step (answer p.steps)] })

/-- What is kept of a call: the step it is if it returned. -/
def returned {α : Type} (step : α → Step) : Except Raised α → Step
  | .ok a => step a
  | .error _ => .failed

/-- A call that only reads, or whose effect no one else sees. -/
def look {α : Type} (answer : List Step → Except Raised α) : Cmd α :=
  act world answer (returned fun _ => .asked)

/-- A reading that does not raise. -/
def reading {α : Type} (answer : List Step → α) : Cmd α := look world (.ok ∘ answer)

/-- What the readers of the events tail raise is raised on. -/
def lift {α : Type} (answer : Except PyErr α) : Cmd α :=
  look world fun _ => answer.mapError raisedBy

def emit (emission : Emission) : Cmd Unit :=
  act world (world.emit · emission) (returned fun _ => .emitted emission)

def emitIf (due : Bool) (emission : Emission) : Cmd Unit :=
  if due then emit world emission else return ()

def emitAll : List Emission → Cmd Unit
  | [] => return ()
  | emission :: rest => do
    emit world emission
    emitAll rest

/-- `stop["requested"]`. -/
def requested : Cmd Bool :=
  perform fun p =>
    let p := arrive world p
    (.ok p.stop, { p with steps := p.steps ++ [.polled p.stop] })

/-- `stop["requested"] = True`. -/
def requestStop : Cmd Unit :=
  perform fun p => (.ok (), { p with steps := p.steps ++ [.stopRequested], stop := true })

def wait (seconds : ℚ) : Cmd Unit := act world world.wait (returned fun _ => .waited seconds)

/-- `text[:200]`. -/
def excerpt (text : String) : String := String.ofList (text.toList.take 200)

/-! ## The lock -/

/-- `_acquire_serve_lock`. -/
def acquireServeLock : Cmd Bool := act world world.lock (returned .locked)

/-- `_release_serve_lock`. -/
def releaseServeLock : Cmd Unit := act world world.unlock (returned fun _ => .unlocked)

/-- `signal.signal(…, graceful)`. -/
def armSignals : Cmd Unit := perform fun p => (.ok (), { p with armed := true })

/-! ## Before the loop -/

/-- `_resolve_max_rounds`. -/
def resolveMaxRounds (cliValue configValue : Option Int) : Except Raised (Option Int) :=
  match cliValue.or configValue with
  | none => .ok none
  | some effective =>
    if effective < 1 then
      .error (.valueError s!"--max-rounds must be positive integer, got {effective}")
    else .ok (some effective)

variable (cfg : Config) (args : Args)

/-- `_prune_serve_round_logs`. -/
def pruneServeRoundLogs : Cmd Unit := do
  let retention := cfg.runtime.roundLogRetention.toNat
  let (outcome, stale) ← reading world fun steps =>
    RoundLogs.prunePlan (world.mtime steps) (world.logs steps) retention
  look world (world.unlinkLogs · stale)
  emitIf world (outcome.deferred != 0) (.roundLogsPruneDeferred cfg.runtime.logDir
    outcome.existing retention outcome.deferred)

/-- The `try` of `_prepare_loop`. -/
def prepare : Cmd (Option Int) := do
  look world world.unlinkDone
  pruneServeRoundLogs world cfg
  look world fun _ => resolveMaxRounds args.maxRounds cfg.runtime.maxRounds

/-- `_prepare_loop`: an exit code, or the effective limit on rounds. -/
def prepareLoop : Cmd (Except Int (Option Int)) := do
  match ← attempt Raised.isStartupFailure (prepare world cfg args) with
  | .ok limit => return .ok limit
  | .error e =>
    emit world (.configBroken ("deterministic startup failure: " ++ e.text ++
      "; run `agent-runner migrate`"))
    return .error permanentConfigExit

/-- The `defer` of `_probe_and_emit_cgroup_defer`. -/
def Budget.defer (budget : Budget) : Bool :=
  match budget.memoryMax, budget.memorySwapMax with
  | some memoryMax, some swapMax =>
    decide (memoryMax < budget.memTotal) && decide (swapMax ≤ budget.swapTotal)
  | _, _ => false

/-- `_probe_and_emit_cgroup_defer`. -/
def probeAndEmitCgroupDefer : Cmd Bool := do
  let budget ← look world world.budget
  emit world (.hostCgroupMemoryLimit budget.memoryMax budget.memorySwapMax budget.defer)
  return budget.defer

/-- `describe_overlaps`. -/
def describeOverlaps (overlaps : List PhaseOverlap.WindowOverlap) : String :=
  "; ".intercalate (overlaps.map fun o =>
    o.phaseA ++ " (" ++ o.windowA ++ ") vs " ++ o.phaseB ++ " (" ++ o.windowB ++ ")")

/-! ## The gates at the top -/

/-- `read_sentinel_content`. -/
def readSentinelContent : Cmd (Option String) := do
  if ← look world world.doneExists then
    match ← attempt Raised.isOSError (look world world.doneText) with
    | .ok text => return some (excerpt text)
    | .error _ => return some ""
  else return none

/-- `check_self_terminated_sentinel`. -/
def checkSelfTerminatedSentinel : Cmd Bool := do
  match ← readSentinelContent world with
  | none => return false
  | some reason =>
    emit world (.selfTerminated reason)
    return true

/-- `_stop_file_predicate`. -/
def stopFileThere : Cmd Bool :=
  match cfg.runtime.stopFile with
  | none => return false
  | some _ => look world world.stopFileExists

/-- The stop file of `cmd`. -/
def stopFileDetected (roundsCompleted : ℕ) : Cmd Bool := do
  if ← stopFileThere world cfg then
    let content ← attempt Raised.isOSError (look world world.stopFileText)
    emit world (.stopFileDetected (cfg.runtime.stopFile.getD "")
      (match content with
        | .ok text => excerpt text
        | .error _ => "") roundsCompleted)
    return true
  else return false

/-- The limit on rounds of `cmd`. -/
def maxRoundsReached (limit : Option Int) (roundsCompleted : ℕ) : Cmd Bool :=
  match limit with
  | none => return false
  | some maxRounds =>
    if maxRounds ≤ roundsCompleted then do
      emit world (.maxRoundsReached roundsCompleted maxRounds)
      return true
    else return false

/-! ## Pauses -/

/-- `_pause_poll`. -/
def pausePoll (runnable : Cmd Bool) : Cmd Bool :=
  loop .killed (fun _ => do
    if ← requested world then return .inr false
    else if ← stopFileThere world cfg then return .inr false
    else if ← runnable then return .inr true
    else
      wait world 30
      return .inl ()) world.patience ()

/-- The rest of a pause: its event, the poll, and another event unless it was interrupted. -/
def pause (paused : Emission) (resumed : Int → Emission) (runnable : Cmd Bool) : Cmd Unit := do
  let started ← reading world world.monotonic
  emit world paused
  if ← pausePoll world cfg runnable then
    let ended ← reading world world.monotonic
    emit world (resumed (trunc (ended - started)))
  else return ()

/-- `_memory_pressure_now`: the sample is kept for the next one. -/
def memoryPressureNow : Cmd (Option MidRound.Pressure) := do
  let cur ← reading world world.sample
  perform fun p => (.ok (HostHealth.memoryPressure world.host cfg.monitor.hostHealth cur p.prev),
    { p with prev := cur })

/-- `_pressure_is_critical`. -/
def pressureIsCritical (pressure : Option MidRound.Pressure) : Bool :=
  pressure.any fun p => p.severity = .critical

/-- `_maybe_pause_for_memory_pressure`. -/
def maybePauseForMemoryPressure : Cmd Bool := do
  match (← memoryPressureNow world cfg).filter fun p => p.severity = .critical with
  | none => return false
  | some pressure =>
    pause world cfg (.roundDeferred pressure.severity.text pressure.signal pressure.message)
      .roundResumed (do return !pressureIsCritical (← memoryPressureNow world cfg))
    return true

/-- `now_fn`. -/
def nowFn (steps : List Step) (timezone : Option String) : DateTime :=
  ⟨world.utc steps, world.zones timezone⟩

/-- `ScheduleConfig.enabled`. -/
def enabled (sched : ScheduleConfig) : Bool :=
  !sched.runWindows.isEmpty || !sched.pauseWindows.isEmpty

/-- `should_run` of a schedule, now. -/
def openNow (sched : ScheduleConfig) (steps : List Step) : Bool :=
  shouldRun (nowFn world steps sched.timezone) sched.runWindows sched.pauseWindows

/-- `_maybe_pause_for_schedule`. -/
def maybePauseForSchedule : Cmd Bool := do
  if enabled cfg.schedule then
    let decision ← reading world fun steps => evaluate cfg.schedule.runWindows
      cfg.schedule.pauseWindows (nowFn world steps cfg.schedule.timezone)
    if decision.paused then
      pause world cfg (.schedulePaused (decision.activeWindow.getD "")
        ((decision.resumeAt.map world.isoformat).getD "")
        (cfg.schedule.timezone.getD "local") "") .scheduleResumed
        (reading world (openNow world cfg.schedule))
      return true
    else return false
  else return false

/-- `_phase_aware`. -/
def phaseAware : Bool :=
  !(cfg.phases.list.getD []).isEmpty &&
    (cfg.phases.phasePolicy == "skip" || cfg.phases.overrides.any fun ov => ov.2.schedule.isSome)

/-- `_pause_until_selectable`. -/
def pauseUntilSelectable (roundNum : Int) (sel : PhaseSelect.Selection)
    (throttledPhases : List String) (wakeEpoch : Option Int) : Cmd Unit :=
  pause world cfg (.schedulePaused (sel.activeWindow.getD "")
    ((sel.resumeAt.map world.isoformat).getD "") (sel.resumeTimezone.getD "local")
    (sel.resumePhase.getD "")) .scheduleResumed
    (reading world fun steps =>
      (wakeEpoch.any fun wake => decide ((wake : ℚ) ≤ world.epoch steps)) ||
        PhaseSelect.pollWindows cfg throttledPhases (nowFn world steps) roundNum)

/-! ## Throttles -/

/-- `_skip_around`. -/
def skipAround : Bool :=
  phaseAware cfg && cfg.phases.phasePolicy == "skip" && !args.ignoreSchedule

/-- `_apply_back_off`: whether it was interrupted. -/
def applyBackOff (throttle : TransientErrorState) : Cmd Bool := do
  let (interrupted, after) ← look world fun steps =>
    (BackOff.applyBackOff world.host (world.surroundings steps) (world.events steps) throttle
      (world.jitter steps) 30 (.start (world.epoch steps))).mapError raisedBy
  emitAll world (after.emitted.map .backedOff)
  return interrupted

/-- `_gate_throttle`: whether the loop goes on. -/
def gateThrottle (throttle : Option TransientErrorState) : Cmd Bool :=
  match throttle with
  | none => return true
  | some throttle =>
    if cfg.runtime.transientErrorAction = "back_off" then
      return !(← applyBackOff world throttle)
    else if cfg.runtime.transientErrorAction = "stop" then do
      emit world (.selfTerminated "rate_limit")
      return false
    else return true

/-- What `_throttle_skip_context` collects: the throttled phases, and the earliest of
their resets. -/
def throttledPhases (active : Dict String TransientErrorState) : List String × Option Int :=
  (cfg.phases.list.getD []).foldl (fun found phase =>
    match (binary (cfg.profileFor (some phase)).agent).bind active.get? with
    | none => found
    | some st => (found.1 ++ [phase],
        some (found.2.elim st.resetAtEpoch fun wake => min wake st.resetAtEpoch))) ([], none)

/-- `_throttle_skip_context`. -/
def throttleSkipContext : Cmd (List String × Option Int) := do
  let (active, _) ← look world fun steps =>
    (activeThrottles world.host (world.events steps) (world.epoch steps) none none).mapError
      raisedBy
  let pending ← look world fun steps =>
    (pendingRecovered world.host (world.events steps) (world.epoch steps) (some active)).mapError
      raisedBy
  emitAll world (pending.map fun cleared => .recovered cleared.2.1 cleared.1 cleared.2.2)
  return throttledPhases cfg active

/-- `_round_throttle_gate`: nothing where the loop is to stop. -/
def roundThrottleGate : Cmd (Option (List String × Option Int)) := do
  if skipAround cfg args then
    return some (← throttleSkipContext world cfg)
  else
    let (throttle, _) ← look world fun steps =>
      (checkThrottleState world.host (world.events steps) (world.epoch steps) none).mapError
        raisedBy
    if ← gateThrottle world cfg throttle then return some ([], none) else return none

/-! ## Selection -/

/-- `_select_and_gate`, once memory allows a round: nothing is `_PAUSED_CONTINUE`. -/
def selectOpen (roundNum : Int) (throttled : List String) (wakeEpoch : Option Int) :
    Cmd (Option (Option String)) := do
  if args.ignoreSchedule then return some none
  else if !phaseAware cfg then
    if ← maybePauseForSchedule world cfg then return none else return some none
  else
    let sel ← reading world fun steps =>
      PhaseSelect.selectPhase cfg throttled (nowFn world steps) roundNum
    if sel.paused then
      if !throttled.isEmpty && cfg.runtime.transientErrorAction == "stop" then
        emit world (.selfTerminated "rate_limit")
        requestStop
        return none
      else
        pauseUntilSelectable world cfg roundNum sel throttled wakeEpoch
        return none
    else
      emitIf world (!sel.skipped.isEmpty) (.schedulePhaseSkipped roundNum sel.skipped sel.phase
        (sel.activeWindow.getD ""))
      return some sel.phase

/-- `_select_and_gate`. -/
def selectAndGate (roundNum : Int) (throttled : List String) (wakeEpoch : Option Int) :
    Cmd (Option (Option String)) := do
  if ← maybePauseForMemoryPressure world cfg then return none
  else selectOpen world cfg args roundNum throttled wakeEpoch

/-! ## A round -/

/-- What a lifetime carries from turn to turn. -/
structure Carried where
  roundsCompleted : ℕ
  sessions : Sessions
  streaks : Streaks

/-- `_capture_substrate`. -/
def captureSubstrate (emission : Option String → Option String → Emission) : Cmd Unit := do
  let gitHead ← look world world.gitHead
  let pathsHash ← look world world.pathsHash
  emit world (emission gitHead pathsHash)

/-- `_is_fresh_eyes_round`. -/
def isFreshEyesRound (roundNum : Int) (everyN : Option Int) : Bool :=
  match everyN with
  | none => false
  | some n => decide (0 < roundNum) && roundNum % n == 0

/-- The environment of a round, and the events of its making. -/
def publish (sessions : Sessions) (roundNum : Int) (phase : Option String) : Cmd Sessions := do
  let fresh := isFreshEyesRound roundNum cfg.runtime.freshEyesEveryN
  emitIf world fresh (.freshEyesRoundTriggered roundNum (cfg.runtime.freshEyesEveryN.getD 0))
  let env := applyRoundNumEnv (applyFreshEyes sessions.env fresh) roundNum
  let env := applyReapGraceEnv cfg world.manifests env phase
  let env := applyCooperativeSignalEnv cfg world.manifests env phase
  let (sessions, resumed) :=
    applyResumeEnv cfg world.manifests world.uuids { sessions with env := env } phase fresh
  match resumed with
  | none => return sessions
  | some (id, phase) =>
    emit world (.sessionResumed id phase)
    return sessions

/-- The arguments of `_spawn_round`. -/
def child (cgroupProbeDefer : Bool) (env : Env) (roundNum : Int) (log : String)
    (phase : Option String) : Child where
  argv := [world.executable, "-m", "agent_runner.cli", "--config", args.config, "round"] ++
    (phase.map fun name => ["--phase", name]).getD []
  env := env
  log := log
  timeoutS := RoundCeiling.outerRoundCeilingS cfg phase
  roundNum := roundNum
  deferToCgroup := cgroupProbeDefer &&
    (ContainerRun.detectContainerRun
      (ContainerRun.spawnCommand (cfg.profileFor phase).agent cfg.runtime.workDir)).isNone

/-- `_spawn_round`. -/
def spawnRound (c : Child) : Cmd Int := act world (world.spawn · c) (.spawned c)

/-- `_round_scan`. -/
def roundScan (phase : Option String) (steps : List Step) :
    Except PyErr (Bool × RoundOutcome) := do
  let ranAgent := phase.bind fun name => binary (cfg.profileFor (some name)).agent
  let outcome ← roundOutcome world.host (world.events steps) ranAgent
  if outcome.memTerminated then return (true, outcome)
  else
    let (active, _) ← activeThrottles world.host (world.events steps) (world.epoch steps)
      (some outcome.backoffExponentByAgent) (some outcome.latestTransientPerAgent)
    return (match phase with
      | none => !active.entries.isEmpty
      | some _ => ranAgent.any active.contains, outcome)

theorem roundScan_excused {phase : Option String} {steps : List Step} {scan : Bool × RoundOutcome}
    (scanned : roundScan world cfg phase steps = .ok scan) :
    scan.2.memTerminated = true → scan.1 = true := by
  intro terminated
  unfold roundScan at scanned
  cases outcome : roundOutcome world.host (world.events steps)
      (phase.bind fun name => binary (cfg.profileFor (some name)).agent) with
  | error e => simp [outcome, bind, Except.bind] at scanned
  | ok o =>
    simp only [outcome, bind, Except.bind] at scanned
    split at scanned
    · rw [← Except.ok.inj scanned]
    · rename_i alive
      split at scanned
      · cases scanned
      · rw [← Except.ok.inj scanned] at terminated
        exact absurd terminated alive

/-- A round, as it is judged. -/
def scanned (phase : Option String) (returncode : Int) (durationS : ℚ) : Cmd Round :=
  look world fun steps =>
    match read : roundScan world cfg phase steps with
    | .error e => .error (raisedBy e)
    | .ok scan => .ok ⟨returncode, durationS, scan.1, scan.2, world.events steps,
        world.epoch steps, roundScan_excused world cfg read⟩

/-- `post_round_verdicts`: the trail of the cgroup lies between the two readings of the
events tail. -/
def postRoundVerdicts (streaks : Streaks) (round : Round) : Cmd Verdicts := do
  let _ ← lift world (round.noProgress world.host)
  let trail ← look world world.cgroupTrail
  emitAll world (trail.map fun event => .cgroupTrail event.1 event.2)
  let round ← act world (fun steps => .ok
    { round with logDir := world.events steps, now := world.epoch steps }) (returned .judged)
  let verdicts ← lift world
    (ServePolicy.postRoundVerdicts world.host cfg.runtime.restartDelayS streaks round)
  emitAll world (verdicts.emitted.toList.map .gaveUp)
  return verdicts

/-- One turn of `_interruptible_sleep`. -/
def sleepTurn (live : Bool) (remaining : ℚ) : Cmd (ℚ ⊕ Bool) := do
  if 0 < remaining then
    if ← requested world then return .inr true
    else if ← stopFileThere world cfg then return .inr true
    else
      let nap := min 30 remaining
      let started ← reading world world.monotonic
      wait world nap
      let ended ← reading world world.monotonic
      return .inl (remaining - if live then max 0 (ended - started) else nap)
  else return .inr false

/-- `_interruptible_sleep`. -/
def interruptibleSleep (live : Bool) (totalS : ℚ) : Cmd Bool :=
  loop .killed (sleepTurn world cfg live) world.patience totalS

/-- `cmd`, behind a round: an exit code, or the sleep before the next turn. -/
def afterRound (live : Bool) (carried : Carried) (verdicts : Verdicts) : Cmd (Carried ⊕ Int) := do
  match verdicts.exit with
  | some exit => return .inr exit
  | none =>
    if args.once then return .inr 0
    else if ← requested world then return .inr 0
    else
      let _ ← interruptibleSleep world cfg live verdicts.delayS
      return .inl carried

/-- `cmd`, from the selection of a round to its end. -/
def runRound (live cgroupProbeDefer : Bool) (carried : Carried) (roundNum : Int)
    (phase : Option String) : Cmd (Carried ⊕ Int) := do
  captureSubstrate world (.substrateBefore roundNum)
  let sessions ← publish world cfg carried.sessions roundNum phase
  let log ← look world fun _ =>
    ((RoundLogs.roundLogName roundNum).map .ok).getD (.error (.valueError ""))
  let started ← reading world world.monotonic
  let returncode ← spawnRound world
    (child world cfg args cgroupProbeDefer sessions.env roundNum log phase)
  let durationS := (← reading world world.monotonic) - started
  act world world.relink (returned fun _ => .relinked)
  captureSubstrate world (.substrateAfter roundNum)
  let round ← scanned world cfg phase returncode durationS
  let verdicts ← postRoundVerdicts world cfg carried.streaks round
  afterRound world cfg args live ⟨carried.roundsCompleted + 1, sessions, verdicts.streaks⟩ verdicts

/-! ## The loop -/

/-- `cmd`, from the number of a round on. -/
def selectAndRun (live cgroupProbeDefer : Bool) (carried : Carried) (throttled : List String)
    (wakeEpoch : Option Int) : Cmd (Carried ⊕ Int) := do
  let roundNum ← look world fun steps =>
    (RoundLogs.nextRoundNum world.interpreter (world.status steps) (world.logs steps)).mapError
      raisedBy
  match ← selectAndGate world cfg args roundNum throttled wakeEpoch with
  | none => return .inl carried
  | some phase =>
    if ← requested world then return .inr 0
    else runRound world cfg args live cgroupProbeDefer carried roundNum phase

/-- One turn of the loop of `cmd`. -/
def turn (limit : Option Int) (live cgroupProbeDefer : Bool) (carried : Carried) :
    Cmd (Carried ⊕ Int) := do
  if ← requested world then return .inr 0
  else if ← checkSelfTerminatedSentinel world then return .inr 0
  else
    match ← roundThrottleGate world cfg args with
    | none => return .inr 0
    | some (throttled, wakeEpoch) =>
      if ← stopFileDetected world cfg carried.roundsCompleted then return .inr 0
      else if ← maxRoundsReached world limit carried.roundsCompleted then return .inr 0
      else selectAndRun world cfg args live cgroupProbeDefer carried throttled wakeEpoch

/-- What the first turn starts from. -/
def boot : Carried :=
  ⟨0, ⟨world.environ.set "AGENT_RUNNER_LOG_DIR" cfg.runtime.logDir, .empty, 0⟩, .zero⟩

/-- The `try` of `cmd`. -/
def serveLoop (limit : Option Int) (live cgroupProbeDefer : Bool) : Cmd Int := do
  act world world.writePid (returned fun _ => .pidWritten)
  loop .killed (turn world cfg args limit live cgroupProbeDefer) world.patience (boot world cfg)

/-- The `finally` of `cmd`. -/
def cleanUp : Cmd Unit := do
  act world world.unlinkPid (returned fun _ => .pidUnlinked)
  releaseServeLock world

/-- `cmd`, once the lock is held. -/
def cmdLocked : Cmd Int := do
  armSignals
  let live ← look world world.openDoorbell
  match ← prepareLoop world cfg args with
  | .error failCode =>
    releaseServeLock world
    return failCode
  | .ok limit =>
    let cgroupProbeDefer ← probeAndEmitCgroupDefer world
    let overlaps := PhaseOverlap.findPhaseWindowOverlaps cfg
    if overlaps.isEmpty then
      ensure Raised.isKilled (serveLoop world cfg args limit live cgroupProbeDefer) (cleanUp world)
    else
      releaseServeLock world
      raise (.configError ("phase-window overlap: " ++ describeOverlaps overlaps ++
        "; run `agent-runner doctor` for details"))

/-- `cmd`. -/
def cmd : Cmd Int := do
  look world world.mkdir
  if ← acquireServeLock world then cmdLocked world cfg args
  else return 1

/-- A process before it has done anything. -/
def fresh : Process := ⟨[], false, false, ⟨none, none, none, none, none⟩⟩

/-- `main` over `cmd`: the exit status, unless the process is killed. -/
def exitStatus : Except Raised Int → Option Int
  | .ok code => some code
  | .error (.configError _) => some permanentConfigExit
  | .error .killed => none
  | .error _ => some 1

end

end AgentRunner.Serve
