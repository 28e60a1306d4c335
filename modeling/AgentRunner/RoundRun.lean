import AgentRunner.ConfigDigest
import AgentRunner.ContextStore
import AgentRunner.RoundCeiling
import AgentRunner.RoundLogs
import AgentRunner.ServePolicy
import AgentRunner.Triples

/-! `cli/round_cmd.cmd` over `runner.run_one_round`: one round, in a process of its own. It
takes the lock of its log directory, tells the agent what the last rounds left, runs it,
stashes or commits the tree it leaves, and writes down how it ended. What the disk, git,
the agent and the plugins answer, where a call raises, where a signal interrupts and where
the process is killed are left open. -/
namespace AgentRunner.RoundRun
open Effects Triples PyValue JsonRoundTrip ConfigModels ConfigDigest ContextStore PromptAssembly
open AgentRun DirtyTree RoundCeiling RoundEnv ServePolicy

/-! ## What can be raised -/

/-- The argument of `sys.exit`. -/
inductive ExitArg where
  | number (code : Int)
  | nothing
  | text

/-- An exception. `killed` is none: the process is no more, and runs no finalizer. -/
inductive Raised where
  | configError
  | tomlDecodeError
  | osError
  | lockHeld
  | git (error : GitError)
  | exception
  | systemExit (arg : ExitArg)
  | keyboardInterrupt
  | killed

def Raised.isKilled : Raised → Bool
  | .killed => true
  | _ => false

/-- `except OSError`. -/
def Raised.isOSError : Raised → Bool
  | .osError => true
  | _ => false

/-- `except (OSError, tomllib.TOMLDecodeError)`. -/
def Raised.isUnreadable : Raised → Bool
  | .osError | .tomlDecodeError => true
  | _ => false

def Raised.isConfigError : Raised → Bool
  | .configError => true
  | _ => false

/-- `except Exception`. -/
def Raised.isException : Raised → Bool
  | .systemExit _ | .keyboardInterrupt | .killed => false
  | _ => true

def Raised.isKeyboardInterrupt : Raised → Bool
  | .keyboardInterrupt => true
  | _ => false

/-- `except GitTimeout`. -/
def Raised.isGitTimeout : Raised → Bool
  | .git error => error.isGitTimeout
  | _ => false

/-- `except StashError`. -/
def Raised.isStashError : Raised → Bool
  | .git error => error.isStashError
  | _ => false

/-- `except AutoCommitError`. -/
def Raised.isAutoCommitError : Raised → Bool
  | .git error => error.isAutoCommitError
  | _ => false

/-- `str(exc)`, of what git raises. -/
def Raised.text : Raised → String
  | .git error => error.text
  | _ => ""

/-- `isinstance(exc, EnvironmentalError)`. -/
def Raised.isEnvironmental : Raised → Bool
  | .lockHeld => true
  | e => e.isGitTimeout

/-- `classify_round_exit`. -/
def classifyRoundExit : Raised → Int
  | .systemExit (.number code) => code
  | .keyboardInterrupt => 130
  | .configError => permanentConfigExit
  | e => if e.isEnvironmental then envBatteryExit else 1

/-! ## What it does -/

/-- What a round gives its agent, as `agent_runtime.run` takes it. -/
structure Launch where
  command : List String
  promptArgTemplate : List String
  prompt : List Char
  promptDelivery : String
  timeoutS : Int
  workDir : String
  logPath : String
  envExtra : Dict String String
  maxGraceAfterResultS : Int
  terminalMarker : String
  progressIntervalS : Int
  graceKillIgnorePatterns : List String
  reapGraceS : Int
  cooperativeFirstSignal : CooperativeStop
  resumeArgs : List String

/-- What the agent is watched with reports back while it runs. -/
inductive Callback where
  | progress (stats : Event)
  | graceExtended (live ignored : List Event)
  | containerOrphanRisk (runtime : String) (containerId : Option String) (stopOk : Option Bool)

/-- The events of a round, with what they say. -/
inductive Emission where
  | smokeCheckFailed (reason : String)
  | statusRecovered (reason : String)
  | roundLogsPruneDeferred (directory : String) (existing keep wouldDelete : ℕ)
  | roundStart (roundNum : Int) (fields : Event)
  | agentSpawn (roundNum timeoutS : Int)
  | roundProgress (roundNum : Int) (stats : Event)
  | roundGraceExtended (roundNum graceS : Int) (live ignored : List Event)
  | roundContainerOrphanRisk (roundNum : Int) (runtime : String) (containerId : Option String)
      (stopOk : Option Bool)
  | agentExit (roundNum exitCode : Int) (durationS : PyFloat) (timedOut : Bool) (exitCause : String)
  | agentNetworkBlip (roundNum : Int) (phase : Option String) (found : String)
      (roundDurationS : PyFloat) (exitCode : Int) (timedOut : Bool)
  | dirtyCheckFailed (roundNum : Int) (reason : String)
  | dirtyDetected (roundNum : Int) (files : List String)
  | dirtyCommitFailed (roundNum : Int) (phase : Option String) (reason : String)
  | dirtyAutoCommitted (roundNum : Int) (files : List String) (ref : String)
  | orphanStashFailed (roundNum : Int) (phase : Option String) (reason : String)
  | orphanStashed (roundNum : Int) (ref reason : String)
  | orphanIdempotentSkip (roundNum : Int) (ref reason : String)
  | roundGraceKill (roundNum graceS : Int)
  | roundTimeoutKill (roundNum : Int) (reason : String)
  | roundEnd (roundNum : Int)
  | hookFailed (hookName : String) (payload : Event)

/-- One thing that happened; of a call that raised only that is kept. `gone` is the end of
the process. -/
inductive Step where
  | asked
  | failed (e : Raised)
  | checked (failures : List CheckResult)
  | refused
  | locked
  | sidecarWritten
  | statusRead (content : Json)
  | orphanRead (content : Json)
  | contextWritten (context : Event)
  | emitted (emission : Emission)
  | launched (launch : Launch)
  | returned (result : RunResult) (durationS : PyFloat)
  | treeFound (dirty : List String)
  | orphanWritten (orphan : OrphanState)
  | orphanCleared
  | statusWritten (status : Status)
  | sidecarUnlinked
  | unlocked
  | gone

/-- `HookContext`; the name of its agent and of its project are left out. -/
structure HookContext where
  workDir : String
  logDir : String
  roundNum : Int
  phase : Option String
  agentBinary : Option String
  agentLogPath : String
  dryRun : Bool
  anomalyRepetitiveWindow : Int
  anomalyRepetitiveThreshold : Int
  dirtyAction : String
  stashIdempotencyS : Int

structure RoundResult where
  roundNum : Int
  phase : Option String
  startedAt : String
  endedAt : String
  exitCode : Int
  durationS : PyFloat
  timedOut : Bool
  logPath : String
  dirtyFiles : List String
  stashed : Bool
  dirtyOutcome : Option DirtyOutcome
  killedForGrace : Bool

/-- The world it runs in: every answer may depend on all that the process did before. -/
structure World where
  interpreter : JsonText.Interpreter
  validators : Validators.Env
  environ : Env
  /-- Whether the escape hatch is set. -/
  escape : Bool
  sha256 : List UInt8 → String
  signalNames : ℕ → Option String
  hooks : List String
  summarizeError : Raised → Event
  /-- A moment at which a signal may be taken or the process killed. -/
  interrupts : List Step → Except Raised Unit
  loadConfig : List Step → Except Raised Config
  mkdir : List Step → Except Raised Unit
  checks : List Step → HostChecks
  files : List Step → PromptAssembly.Files
  openLock : List Step → Except Raised Unit
  flock : List Step → Except Raised Bool
  formatHolderMsg : List Step → Except Raised Unit
  writeSidecar : List Step → Except Raised Unit
  unlinkSidecar : List Step → Except Raised Unit
  closeLock : List Step → Except Raised Unit
  readStatus : List Step → Except Raised Json
  statusExists : List Step → Except Raised Bool
  statusText : List Step → Option (List Char)
  logs : List Step → RoundLogs.LogFiles
  now : List Step → String
  stamp : List Step → String
  readOrphan : List Step → Except Raised Json
  mkdirRounds : List Step → Except Raised Unit
  agentLogs : List Step → List String
  unlinkLogs : List Step → List String → Except Raised Unit
  writeContext : List Step → Event → Except Raised Unit
  steerGoal : List Step → Except Raised Unit
  hashed : List Step → ConfigDigest.Files
  events : List Step → List Event
  logMetrics : List Step → Except Raised Unit
  callbacks : List Step → Launch → List Callback
  run : List Step → Launch → Except Raised (RunResult × PyFloat)
  goalChecks : List Step → Except Raised Unit
  /-- What the network patterns find in the round's log. -/
  networkMatch : List Step → Except Raised (Option String)
  repo : List Step → Repo
  writeOrphan : List Step → OrphanState → Except Raised Unit
  clearOrphan : List Step → Except Raised Unit
  writeStatus : List Step → Status → Except Raised Unit
  afterRound : List Step → String → HookContext → RoundResult → Except Raised Unit
  emit : List Step → Emission → Except Raised Unit

abbrev Cmd := Command (List Step) Raised

section
variable (world : World)

/-! ## Elementary commands -/

/-- What is kept of a call: the step it is if it returned. -/
def recorded {α : Type} (step : α → Step) : Except Raised α → Step
  | .ok a => step a
  | .error e => .failed e

/-- One call to the world. -/
def act {α : Type} (answer : List Step → Except Raised α) (step : α → Step) : Cmd α :=
  perform fun steps => (answer steps, steps ++ [recorded step (answer steps)])

/-- A call that only reads, or whose effect no one else sees. -/
def look {α : Type} (answer : List Step → Except Raised α) : Cmd α := act answer fun _ => .asked

/-- A reading that does not raise. -/
def reading {α : Type} (answer : List Step → α) : Cmd α := look (.ok ∘ answer)

def emit (emission : Emission) : Cmd Unit := act (world.emit · emission) fun _ => .emitted emission

def emitAll : List Emission → Cmd Unit
  | [] => return ()
  | emission :: rest => do
    emit world emission
    emitAll rest

/-- A call into `vcs_state`. -/
def viaGit {α : Type} (x : Repo → Git α) (step : α → Step) : Cmd α :=
  act (fun steps => do
    world.interrupts steps
    (outcome (x (world.repo steps)) []).1.mapError .git) step

/-! ## The startup battery -/

variable (cfg : Config)

/-- `battery_exit_code`. -/
def batteryExitCode (failures : List CheckResult) : Int :=
  if failures.any (·.permanent) then permanentConfigExit else envBatteryExit

/-- `[r for r in run_battery(cfg) if not r.ok]`. -/
def failedChecks (steps : List Step) : List CheckResult :=
  (runBattery world.validators (world.files steps) (world.checks steps) world.escape cfg).filter
    fun r => !r.ok

/-- Each failure leaves an event, unless the log cannot take it. -/
def reportFailures : List CheckResult → Cmd Unit
  | [] => return ()
  | r :: rest => do
    let _ ← attempt Raised.isOSError (emit world (.smokeCheckFailed s!"{r.name}: {r.reason}"))
    reportFailures rest

/-! ## The lock -/

/-- `_acquire_lock_or_raise`. -/
def acquireLockOrRaise : Cmd Unit := do
  look world.mkdir
  look world.openLock
  let held ← act world.flock fun held => if held then .locked else .refused
  if held then act world.writeSidecar fun _ => .sidecarWritten
  else do
    look world.formatHolderMsg
    raise .lockHeld

/-- The `finally` of `run_one_round`. -/
def releaseLock : Cmd Unit := do
  act world.unlinkSidecar fun _ => .sidecarUnlinked
  act world.closeLock fun _ => .unlocked

/-! ## What the last rounds left -/

/-- The status of the last round, if there is one that can be read. -/
def readPrevious : Cmd (Option Status) := do
  let content ← act world.readStatus .statusRead
  let prev := readStatus content
  let «exists» ← look world.statusExists
  if «exists» && prev.isNone then emit world (.statusRecovered "status.json could not be parsed")
  return prev

/-- Which round this is. -/
structure Plan where
  roundNum : Int
  phase : Option String
  phaseIdx : ℕ
  startedAt : String

/-- The number and the phase of the round; an override that no longer fits is a
`ConfigError`. -/
def choosePlan (phaseOverride : Option String) : Cmd Plan := do
  let roundNum ← look fun steps =>
    (RoundLogs.resolveRoundNum world.interpreter world.environ (world.statusText steps)
      (world.logs steps)).mapError fun _ => .exception
  match phaseFor roundNum cfg.phases.list phaseOverride with
  | none => raise .configError
  | some (phase, phaseIdx) => do
    let startedAt ← reading world.now
    return ⟨roundNum, phase, phaseIdx, startedAt⟩

/-- The `orphan_stash` block of the context. -/
def orphanBlock (orphan : Option OrphanState) : Option Event :=
  match orphan with
  | some state =>
    if state.stashedRef.truthy then
      some [("ref", state.stashedRef), ("message", state.stashMessage), ("files", state.files)]
    else none
  | none => none

/-- `_previous_block`. -/
def previousBlock (prev : Option Status) (dirtyLast : Bool) : Option Event :=
  prev.map fun status => [("exit_code", status.lastExitCode), ("duration_s", status.lastDurationS),
    ("ended_at", status.lastCompletedAt), ("had_dirty_tree", .bool dirtyLast)]

/-- A field of the context that may be left out. -/
def field (key : String) (block : Option Event) : Event :=
  (block.map fun fields => (key, Json.obj fields)).toList

/-- `_round_context_for_prompt`, and the previous block merged into it. -/
def roundContext (plan : Plan) (prev : Option Status) (orphan : Option OrphanState) : Event :=
  [("round_num", .int plan.roundNum), ("started_at", .str plan.startedAt)] ++
    (plan.phase.map fun phase => ("phase", Json.str phase)).toList ++
    field "orphan_stash" (orphanBlock orphan) ++
    field "previous" (previousBlock prev orphan.isSome)

/-- The number of an agent log, `_AGENT_ROUND_LOG_RE`. -/
def agentLogNumber (name : String) : Option ℕ :=
  match name.toList with
  | 'R' :: rest =>
    let digits := rest.takeWhile fun c => (IntText.digitValue c).isSome
    if (rest.drop digits.length).head? = some '-' ∧ ".log".toList.isSuffixOf rest then
      IntText.readNat digits
    else none
  | _ => none

/-- `prune_rounds_dir` up to its unlinks: what it reports, and what it is going to unlink. -/
def pruneRoundsDir (names : List String) (keep : ℕ) : RoundLogs.PruneOutcome × List String :=
  if RoundLogs.pruningDisabled keep then (⟨0, 0, 0⟩, [])
  else
    let numbered := names.filterMap fun name => (agentLogNumber name).map (·, name)
    let stale := (numbered.insertionSort fun p q => q.1 ≤ p.1).drop keep
    if RoundLogs.isBulk stale.length keep then (⟨0, stale.length, numbered.length⟩, [])
    else (⟨stale.length, 0, numbered.length⟩, stale.map Prod.snd)

def roundsDir : String := cfg.runtime.logDir ++ "/rounds"

/-- The pass over the logs of earlier rounds, before this one has its own. -/
def pruneAgentLogs : Cmd Unit := do
  let keep := cfg.runtime.roundLogRetention.toNat
  let (pruned, stale) ← reading fun steps => pruneRoundsDir (world.agentLogs steps) keep
  look (world.unlinkLogs · stale)
  if pruned.deferred ≠ 0 then
    emit world (.roundLogsPruneDeferred (roundsDir cfg) pruned.existing keep pruned.deferred)

/-- What the round is told: its context, and the path of its log. -/
def handover (plan : Plan) (prev : Option Status) : Cmd (Event × String) := do
  let content ← act world.readOrphan .orphanRead
  look world.mkdirRounds
  pruneAgentLogs world cfg
  let stamp ← reading world.stamp
  let context := roundContext plan prev (readOrphanState content)
  act (world.writeContext · context) fun _ => .contextWritten context
  return (context, s!"{roundsDir cfg}/R{plan.roundNum}-{stamp}.log")

/-! ## The agent -/

/-- The advisory fold; the round does not depend on it. -/
def steerGoal : Cmd Unit := do
  if cfg.goal.isSome then
    let _ ← attempt Raised.isOSError (look world.steerGoal)

def announceStart (plan : Plan) : Cmd Unit := do
  let fields ← reading fun steps =>
    roundStartFields world.validators world.interpreter world.sha256 (world.hashed steps) cfg
      plan.phase (world.events steps) plan.roundNum
  emit world (.roundStart plan.roundNum fields)
  look world.logMetrics

/-- `_format_context_block`. -/
def formatContextBlock (context : Event) : List Char :=
  "```json round-context\n".toList ++ write world.interpreter .indented 0 (.obj context) ++
    "\n```\n\n".toList

/-- `_resolve_cooperative_signal`. -/
def resolveCooperativeSignal (env : Env) : CooperativeStop :=
  match env.get? stopSignalKey with
  | some name => if name = CooperativeStop.sigint.name then .sigint else .sigterm
  | none => .sigterm

/-- `{**framework_env, **profile.agent.env}`. -/
def envExtra (plan : Plan) : Dict String String :=
  (cfg.profileFor plan.phase).agent.env.foldl (fun env item => env.set item.1 item.2)
    (((Dict.empty.set "AGENT_RUNNER_LOG_DIR" cfg.runtime.logDir).set roundNumKey
      (toString plan.roundNum)).set "AGENT_RUNNER_PHASE" (plan.phase.getD ""))

def launchOf (plan : Plan) (prompt : List Char) (logPath : String) : Launch :=
  let profile := cfg.profileFor plan.phase
  { command := ContainerRun.spawnCommand profile.agent cfg.runtime.workDir
    promptArgTemplate := profile.agent.promptArgTemplate
    prompt
    promptDelivery := profile.agent.promptDelivery
    timeoutS := profile.runtime.roundBudgetS
    workDir := cfg.runtime.workDir
    logPath
    envExtra := envExtra cfg plan
    maxGraceAfterResultS := cfg.runtime.maxGraceAfterResultS
    terminalMarker := profile.agent.terminalMarker
    progressIntervalS := cfg.monitor.roundProgressIntervalS
    graceKillIgnorePatterns := cfg.runtime.graceKillIgnorePatterns
    reapGraceS := resolveReapGraceS world.environ
    cooperativeFirstSignal := resolveCooperativeSignal world.environ
    resumeArgs := resolveResumeArgs world.environ }

/-- `signal_name`. -/
def signalName (exitCode : Int) : Option String :=
  if exitCode < 0 then world.signalNames (-exitCode).toNat
  else if 128 < exitCode then world.signalNames (exitCode - 128).toNat
  else none

/-- `_exit_cause`. -/
def exitCause (result : RunResult) : String :=
  if result.killedForGrace then "grace_kill"
  else if result.timedOut then "timeout"
  else match signalName world result.exitCode with
    | some name => s!"signal:{name}"
    | none => if result.exitCode = 0 then "clean" else "error"

def assemble (plan : Plan) (context : Event) : Cmd (List Char) :=
  look fun steps =>
    (assemblePrompt world.validators (world.files steps) cfg plan.phase
      (some (formatContextBlock world context))).mapError fun
        | .fileNotFound _ => .osError
        | _ => .exception

/-- `_progress_emit`, `_grace_extended_emit` and `_container_orphan_risk_emit`. -/
def callbackEmission (plan : Plan) : Callback → Emission
  | .progress stats => .roundProgress plan.roundNum stats
  | .graceExtended live ignored =>
    .roundGraceExtended plan.roundNum cfg.runtime.maxGraceAfterResultS live ignored
  | .containerOrphanRisk runtime containerId stopOk =>
    .roundContainerOrphanRisk plan.roundNum runtime containerId stopOk

/-- The agent's run, from the prompt to its exit. -/
def runAgent (plan : Plan) (context : Event) (logPath : String) : Cmd (RunResult × PyFloat) := do
  let prompt ← assemble world cfg plan context
  emit world (.agentSpawn plan.roundNum (cfg.profileFor plan.phase).runtime.roundBudgetS)
  let launch := launchOf world cfg plan prompt logPath
  act world.interrupts fun _ => .launched launch
  let callbacks ← reading fun steps => world.callbacks steps launch
  emitAll world (callbacks.map (callbackEmission cfg plan))
  let (result, durationS) ← act (world.run · launch) fun ran => .returned ran.1 ran.2
  emit world (.agentExit plan.roundNum result.exitCode durationS result.timedOut
    (exitCause world result))
  return (result, durationS)

/-! ## The tree it leaves -/

/-- `_scan_round_log_for_network_blip`. -/
def scanForNetworkBlip (plan : Plan) (result : RunResult) (durationS : PyFloat) : Cmd Unit := do
  if !result.ok && (signalName world result.exitCode).isNone then
    match ← look world.networkMatch with
    | some found => emit world (.agentNetworkBlip plan.roundNum plan.phase found durationS
      result.exitCode result.timedOut)
    | none => return ()

/-- `_resolve_stash`. -/
def resolveStash (plan : Plan) (dirty : List String) : Cmd DirtyOutcome := do
  match ← attempt Raised.isStashError (viaGit world (fun repo => stashOrphan repo
      cfg.runtime.workDir cfg.runtime.logDir plan.roundNum plan.phase cfg.vcs.stashIdempotencyS)
      fun _ => .asked) with
  | .error e => do
    emit world (.orphanStashFailed plan.roundNum plan.phase e.text)
    return .ignored
  | .ok none => return .ignored
  | .ok (some ref) => do
    let timestamp ← reading world.now
    let orphan : OrphanState := ⟨.int plan.roundNum, strings dirty, .str ref.sha, .str ref.message,
      .str timestamp, optional plan.phase⟩
    act (world.writeOrphan · orphan) fun _ => .orphanWritten orphan
    let reason := "clean_exit_with_dirty_tree"
    emit world (if ref.reused then .orphanIdempotentSkip plan.roundNum ref.sha reason
      else .orphanStashed plan.roundNum ref.sha reason)
    return .stashed ref.sha

/-- The auto-commit of `resolve_dirty_tree`. -/
def resolveCommit (plan : Plan) (dirty : List String) : Cmd DirtyOutcome := do
  match ← attempt Raised.isAutoCommitError (viaGit world (fun repo => tryAutoCommit repo
      cfg.runtime.workDir cfg.runtime.logDir plan.roundNum plan.phase) fun _ => .asked) with
  | .error e => do
    emit world (.dirtyCommitFailed plan.roundNum plan.phase e.text)
    return .ignored
  | .ok sha =>
    if sha = "" then return .ignored
    else do
      emit world (.dirtyAutoCommitted plan.roundNum (dirty.take 20) sha)
      return .committed sha

/-- `resolve_dirty_tree`. -/
def resolveDirtyTree (plan : Plan) (dirty : List String) : Cmd DirtyOutcome :=
  if cfg.vcs.dirtyAction = "ignore" then return .ignored
  else if cfg.vcs.dirtyAction = "auto_commit" then resolveCommit world cfg plan dirty
  else resolveStash world cfg plan dirty

/-- `run_goal_checks`, before the tree is touched. -/
def runGoalChecks : Cmd Unit := do
  if cfg.goal.isSome then look world.goalChecks

/-- What the agent leaves: the dirty files, and what became of them. A tree that could not
be looked at counts as neither dirty nor clean. -/
def settleTree (plan : Plan) (result : RunResult) (durationS : PyFloat) :
    Cmd (List String × Option DirtyOutcome) := do
  runGoalChecks world cfg
  scanForNetworkBlip world plan result durationS
  match ← attempt Raised.isGitTimeout (viaGit world detectDirtyFiles .treeFound) with
  | .error e => do
    emit world (.dirtyCheckFailed plan.roundNum (cut 200 e.text))
    return ([], none)
  | .ok [] => do
    act world.clearOrphan fun _ => .orphanCleared
    return ([], none)
  | .ok dirty => do
    emit world (.dirtyDetected plan.roundNum (dirty.take 20))
    if result.ok || result.killedForGrace then do
      let outcome ← resolveDirtyTree world cfg plan dirty
      return (dirty, some outcome)
    else return (dirty, none)

/-! ## The end of the round -/

/-- The status a round leaves. -/
def statusOf (plan : Plan) (completedAt : String) (result : RunResult) (durationS : PyFloat) :
    Status :=
  ⟨.int plan.roundNum, .bool false, .str completedAt, .int result.exitCode, .float durationS,
    optional plan.phase, .int plan.phaseIdx⟩

/-- Why the agent was killed, if it was. -/
def emitKill (plan : Plan) (result : RunResult) : Cmd Unit :=
  if result.killedForGrace then
    emit world (.roundGraceKill plan.roundNum cfg.runtime.maxGraceAfterResultS)
  else if result.timedOut then
    let budgetS := (cfg.profileFor plan.phase).runtime.roundBudgetS
    emit world (.roundTimeoutKill plan.roundNum s!"exceeded round_budget_s={budgetS}")
  else return ()

/-- The status and the end of the round; the time it ended at. -/
def closeRound (plan : Plan) (result : RunResult) (durationS : PyFloat) : Cmd String := do
  emitKill world cfg plan result
  let completedAt ← reading world.now
  let status := statusOf plan completedAt result durationS
  act (world.writeStatus · status) fun _ => .statusWritten status
  look world.logMetrics
  emit world (.roundEnd plan.roundNum)
  return completedAt

def hookContext (plan : Plan) (logPath : String) : HookContext where
  workDir := cfg.runtime.workDir
  logDir := cfg.runtime.logDir
  roundNum := plan.roundNum
  phase := plan.phase
  agentBinary := binary (cfg.profileFor plan.phase).agent
  agentLogPath := logPath
  dryRun := cfg.runtime.dryRun
  anomalyRepetitiveWindow := cfg.monitor.anomalyRepetitiveWindow
  anomalyRepetitiveThreshold := cfg.monitor.anomalyRepetitiveThreshold
  dirtyAction := cfg.vcs.dirtyAction
  stashIdempotencyS := cfg.vcs.stashIdempotencyS

/-- One turn of `_run_post_round_hooks`. -/
def runHook (ctx : HookContext) (result : RoundResult) (hook : String) : Cmd Unit := do
  match ← attempt Raised.isException (look (world.afterRound · hook ctx result)) with
  | .error e => emit world (.hookFailed hook (world.summarizeError e))
  | .ok _ => return ()

/-- `_run_post_round_hooks`. -/
def runPostRoundHooks (ctx : HookContext) (result : RoundResult) : List String → Cmd Unit
  | [] => return ()
  | hook :: rest => do
    runHook world ctx result hook
    runPostRoundHooks ctx result rest

def isStashed : Option DirtyOutcome → Bool
  | some (.stashed _) => true
  | _ => false

/-- `_run_one_round_inner`. -/
def runOneRoundInner (phaseOverride : Option String) : Cmd RoundResult := do
  let prev ← readPrevious world
  let plan ← choosePlan world cfg phaseOverride
  let (context, logPath) ← handover world cfg plan prev
  steerGoal world cfg
  announceStart world cfg plan
  let (result, durationS) ← runAgent world cfg plan context logPath
  let (dirtyFiles, dirtyOutcome) ← settleTree world cfg plan result durationS
  let endedAt ← closeRound world cfg plan result durationS
  let roundResult : RoundResult :=
    { roundNum := plan.roundNum, phase := plan.phase, startedAt := plan.startedAt, endedAt
      exitCode := result.exitCode, durationS, timedOut := result.timedOut, logPath, dirtyFiles
      stashed := isStashed dirtyOutcome, dirtyOutcome, killedForGrace := result.killedForGrace }
  runPostRoundHooks world (hookContext cfg plan logPath) roundResult world.hooks
  return roundResult

/-- `run_one_round`. -/
def runOneRound (phaseOverride : Option String) : Cmd RoundResult := do
  look world.mkdir
  let failures ← act (fun steps => do
    world.interrupts steps
    return failedChecks world cfg steps) .checked
  if !failures.isEmpty then do
    reportFailures world failures
    raise (.systemExit (.number (batteryExitCode failures)))
  else do
    acquireLockOrRaise world
    look world.interrupts
    ensure Raised.isKilled (runOneRoundInner world cfg phaseOverride) (releaseLock world)

end

/-! ## The process -/

section
variable (world : World)

/-- `cfg_from_args_or_config_error`. -/
def cfgFromArgsOrConfigError : Cmd Config := do
  match ← attempt Raised.isUnreadable (look world.loadConfig) with
  | .error _ => raise .configError
  | .ok cfg => return cfg

/-- A round counts as a crash unless the agent lingered or ran out of time. -/
def crashed (result : RoundResult) : Bool :=
  result.exitCode != 0 && !result.killedForGrace && !result.timedOut

/-- `except KeyboardInterrupt` and `except Exception`, one behind the other. -/
def Raised.endsRound (e : Raised) : Bool := e.isKeyboardInterrupt || e.isException

/-- `round_cmd.cmd`; `phaseOverride` is its `--phase`. -/
def cmd (phaseOverride : Option String) : Cmd Int := do
  look world.interrupts
  match ← attempt Raised.isConfigError (cfgFromArgsOrConfigError world) with
  | .error e => return classifyRoundExit e
  | .ok cfg =>
    match ← attempt Raised.endsRound (runOneRound world cfg phaseOverride) with
    | .error e => return classifyRoundExit e
    | .ok result => return if crashed result then 1 else 0

/-- `except ConfigError` and `except KeyboardInterrupt`, one behind the other. -/
def Raised.endsCommand (e : Raised) : Bool := e.isConfigError || e.isKeyboardInterrupt

/-- `cli.main`, once it has parsed its arguments. -/
def main (phaseOverride : Option String) : Cmd Int := do
  match ← attempt Raised.endsCommand (cmd world phaseOverride) with
  | .error e => return classifyRoundExit e
  | .ok code => return code

/-- What the interpreter makes of the argument of `sys.exit`. -/
def ExitArg.status : ExitArg → Int
  | .number code => code
  | .nothing => 0
  | .text => 1

/-- The exit status its parent sees; none where the process is killed. -/
def exitStatus : Except Raised Int → Option Int
  | .ok code => some (code % 256)
  | .error (.systemExit arg) => some (arg.status % 256)
  | .error .killed => none
  | .error _ => some 1

/-- All that a round process does, until it ends. -/
def history (phaseOverride : Option String) : List Step := (outcome (main world phaseOverride) []).2

/-- What it exits with. -/
def exitOf (phaseOverride : Option String) : Option Int :=
  exitStatus (outcome (main world phaseOverride) []).1

end

end AgentRunner.RoundRun
