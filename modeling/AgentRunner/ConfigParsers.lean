import AgentRunner.ConfigModels

/-! `config/parsers.py`: one parser for each table. -/
namespace AgentRunner.ConfigParsers
open PyValue Toml Validators ConfigModels

/-- `sub in text` for a text. -/
def hasText (sub : List Char) : List Char → Bool
  | [] => sub.isEmpty
  | c :: rest => sub.isPrefixOf (c :: rest) || hasText sub rest

/-- `"\x7bprompt\x7d" in token`. -/
def hasPlaceholder (token : String) : Bool := hasText "\x7bprompt\x7d".toList token.toList

/-- `table.get(key, default)`. -/
def getOr (t : Table) (key : String) (default : Value) : Value := (t.get? key).getD default

/-- `label.strip("[]")`. -/
def stripBrackets (label : String) : String :=
  String.ofList ((label.toList.dropWhile "[]".toList.contains).reverse.dropWhile
    "[]".toList.contains).reverse

def maxSigtermGraceS : Int := 12
def maxGoalCheckTimeoutS : Int := 30
def maxBrakeStepPct : Int := 50

variable (env : Env)

/-- A number that may not exceed `most`. -/
def requireAtMost (n most : Int) (field note : String) : Checked Int :=
  if most < n then refuse s!"{field}: must be <= {most}{note}, got {n}" else .ok n

/-- `_validate_sigterm_grace_s`. -/
def validateSigtermGraceS (value : Value) (field : String) : Checked Int := do
  let v ← requirePositiveInt env value field
  requireAtMost v maxSigtermGraceS field
    " (strictly inside the supervisor's own wait for the round leader)"

/-- `_validate_brake_step_pct`. -/
def validateBrakeStepPct (value : Value) (field : String) : Checked Int := do
  let v ← requireNonNegativeInt env value field
  requireAtMost v maxBrakeStepPct field ""

/-- The delivery checks of `_parse_agent`. -/
def checkDelivery (label delivery : String) (template : List String) (requirePlaceholder : Bool) :
    Checked Unit :=
  if !(["argv", "stdin"].contains delivery) then
    refuse (s!"invalid {label} prompt_delivery " ++ env.repr (.str delivery) ++
      ": use \"argv\" or \"stdin\"")
  else if delivery = "stdin" ∧ template.any hasPlaceholder = true then
    refuse (s!"stdin delivery: remove \x7bprompt\x7d from {label} prompt_arg_template " ++
      "(the prompt is piped to stdin, not placed in argv)")
  else if delivery = "argv" ∧ requirePlaceholder = true ∧ template.any hasPlaceholder = false then
    refuseMigrate (s!"{label} prompt_arg_template has no \x7bprompt\x7d placeholder: the " ++
      "prompt is never delivered to the agent; add \x7bprompt\x7d to one of the argv " ++
      "tokens (or, for a per-phase override, set that phase's prompt.files = [] " ++
      "if it truly sends no prompt); run `agent-runner migrate`")
  else .ok ()

/-- `_parse_agent`. -/
def parseAgent (agentD : Table) (label : String) (requirePlaceholder : Bool) :
    Checked AgentConfig := do
  rejectUnknownFields env agentD agentAllowedFields (stripBrackets label)
  let delivery := str env (getOr agentD "prompt_delivery" (.str "argv"))
  let template ← requireStrList env (← requireField agentD "prompt_arg_template")
    s!"{label} prompt_arg_template"
  checkDelivery env label delivery template requirePlaceholder
  let command ← requireStrList env (← requireField agentD "command") s!"{label} command"
  if command.isEmpty then
    refuseMigrate s!"{label} command: must be a non-empty list; run `agent-runner migrate`"
  let envD ← requireTable env agentD "env" (some (stripBrackets label ++ ".env"))
  let execPrefix ← requireStrList env (getOr agentD "exec_prefix" (.arr []))
    s!"{label} exec_prefix"
  let terminalMarker := str env (getOr agentD "terminal_marker" (.str "\"type\":\"result\""))
  let sigtermGraceS ← validateSigtermGraceS env (getOr agentD "sigterm_grace_s" (.int 10))
    s!"{label} sigterm_grace_s"
  return ⟨command, template, agentD.get? "name", envD.map fun e => (e.1, str env e.2), delivery,
    execPrefix, terminalMarker, sigtermGraceS⟩

/-- The windows of `_parse_list`. -/
def parseWindows (field : String) : List Value → Checked (List Window)
  | [] => .ok []
  | w :: rest =>
    match env.parseWindow (str env w) with
    | .error e => refuse s!"{field}: {e}"
    | .ok window => do return window :: (← parseWindows field rest)

/-- `_parse_list` of a `[schedule]` table. -/
def parseWindowList (scheduleD : Table) (label key : String) : Checked (List Window) :=
  match getOr scheduleD key (.arr []) with
  | .arr raw => parseWindows env s!"{label}.{key}" raw
  | _ => refuse s!"{label}.{key} must be a list of window strings"

/-- `_parse_schedule`. -/
def parseSchedule (scheduleD : Table) (label : String) : Checked ScheduleConfig := do
  rejectUnknownFields env scheduleD scheduleAllowedFields label
  let tz := (scheduleD.get? "timezone").map (str env)
  if tz.any fun zone => !env.validTimezone zone then
    refuse (s!"{label}.timezone: unknown IANA zone " ++ env.repr (.str (tz.getD "")))
  return ⟨tz, ← parseWindowList env scheduleD label "run_windows",
    ← parseWindowList env scheduleD label "pause_windows"⟩

/-! ## `[phases.<name>]` -/

/-- The phase's `round_budget_s`, nested or flat. -/
def parsePhaseRuntime (phaseName : String) (value : Table) : Checked (Option Int) := do
  let runtimeSub ← match value.get? "runtime" with
    | none => pure []
    | some (.table d) => pure d
    | some _ => refuse s!"[phases.{phaseName}.runtime] must be a table"
  match unknownFields runtimeSub phaseRuntimeAllowedFields with
  | [] => pure ()
  | unknown => refuse (s!"unknown field(s) under [phases.{phaseName}.runtime]: " ++
      reprNames env (sortedNames unknown) ++ "; allowed: round_budget_s")
  if value.has "round_budget_s" && Table.has runtimeSub "round_budget_s" then
    refuse (s!"[phases.{phaseName}] set both the flat field and " ++
      s!"[phases.{phaseName}.runtime].round_budget_s; use one")
  match Table.get? runtimeSub "round_budget_s", value.get? "round_budget_s" with
  | some raw, _ =>
    return some (← requirePositiveInt env raw s!"phases.{phaseName}.runtime.round_budget_s")
  | none, some raw =>
    return some (← requirePositiveInt env raw s!"phases.{phaseName}.round_budget_s")
  | none, none => return none

/-- The phase's prompt files; an empty list is no missing one. -/
def parsePhasePrompt (phaseName projectName workDir : String) (value : Table) :
    Checked (Option (List String)) :=
  match value.get? "prompt" with
  | none => .ok none
  | some (.table promptSub) =>
    match Table.get? promptSub "files" with
    | none => refuse s!"[phases.{phaseName}].prompt must have a 'files' list"
    | some raw => do
      rejectUnknownFields env promptSub phasePromptAllowedFields s!"phases.{phaseName}.prompt"
      let files ← requireStrList env raw s!"phases.{phaseName}.prompt.files"
      return some (← files.mapM fun p => expandAndResolve env p projectName workDir)
  | some _ => refuse s!"[phases.{phaseName}].prompt must have a 'files' list"

/-- The phase's agent, merged onto the base `[agent]` table. -/
def parsePhaseAgent (phaseName : String) (value agentD : Table)
    (promptFiles : Option (List String)) : Checked (Option AgentConfig) :=
  match value.get? "agent" with
  | none => .ok none
  | some (.table agentSub) =>
    if Table.has agentSub "exec_prefix" then
      refuse (s!"[phases.{phaseName}.agent] exec_prefix: not allowed per-phase — set " ++
        "exec_prefix once on the base [agent] table (it applies to every phase)")
    else do
      return some (← parseAgent env (agentD.merge agentSub) s!"[phases.{phaseName}.agent]"
        (promptFiles != some []))
  | some _ => refuse s!"[phases.{phaseName}.agent] must be a table"

/-- The phase's schedule. -/
def parsePhaseSchedule (phaseName : String) (value : Table) : Checked (Option ScheduleConfig) :=
  match value.get? "schedule" with
  | none => .ok none
  | some (.table schedSub) => do
    return some (← parseSchedule env schedSub s!"phases.{phaseName}.schedule")
  | some _ => refuse s!"[phases.{phaseName}.schedule] must be a table"

/-- One item of `[phases]` that is not `list` or `phase_policy`. -/
def parsePhaseOverride (phasesList : Option (List String)) (projectName workDir : String)
    (agentD : Table) (phaseName : String) (value : Value) : Checked PhaseOverride :=
  match value with
  | .table value => do
    if !(phasesList.getD []).contains phaseName then
      refuse (s!"[phases.{phaseName}] declared but " ++ env.repr (.str phaseName) ++
        " not in phases.list (" ++ (phasesList.map (reprNames env)).getD "None" ++ ")")
    match unknownFields value phaseOverrideAllowedFields with
    | [] => pure ()
    | unknown => refuse (s!"unknown per-phase field(s) under [phases.{phaseName}]: " ++
        reprNames env (sortedNames unknown) ++
        "; allowed: round_budget_s, prompt.files, agent, runtime, schedule")
    let roundBudgetS ← parsePhaseRuntime env phaseName value
    let promptFiles ← parsePhasePrompt env phaseName projectName workDir value
    let agent ← parsePhaseAgent env phaseName value agentD promptFiles
    let schedule ← parsePhaseSchedule env phaseName value
    return ⟨roundBudgetS, promptFiles, agent, schedule⟩
  | value =>
    let type := value.typeName
    refuseMigrate ("[phases] " ++ env.repr (.str phaseName) ++
      s!" must be a phase sub-table ([phases.{phaseName}]), got {type}; only " ++
      "'list'/'phase_policy' are scalar [phases] fields. Run `agent-runner migrate`.")

/-- `_parse_phase_overrides`. -/
def parsePhaseOverrides (phasesList : Option (List String)) (projectName workDir : String)
    (agentD : Table) : Table → Checked (List (String × PhaseOverride))
  | [] => .ok []
  | (key, value) :: rest =>
    if key = "list" ∨ key = "phase_policy" then
      parsePhaseOverrides phasesList projectName workDir agentD rest
    else do
      let override_ ← parsePhaseOverride env phasesList projectName workDir agentD key value
      return (key, override_) :: (← parsePhaseOverrides phasesList projectName workDir agentD rest)

/-! ## The base tables -/

/-- One `[[goal.checks]]` entry of `_parse_goal_check`. -/
def parseGoalCheck (index : Nat) (check : Value) : Checked GoalCheckConfig :=
  match check with
  | .table checkD => do
    let label := s!"goal.checks.{index}"
    rejectUnknownFields env checkD goalCheckAllowedFields label
    let name := str env (← requireField checkD "name")
    let cmd ← requireStrList env (← requireField checkD "cmd") s!"{label}.cmd"
    if cmd.isEmpty then refuse s!"{label}.cmd: must be a non-empty list"
    let cwd := (Table.get? checkD "cwd").map (str env)
    let timeoutS ← requirePositiveInt env (getOr checkD "timeout_s" (.int 10)) s!"{label}.timeout_s"
    let timeoutS ← requireAtMost timeoutS maxGoalCheckTimeoutS s!"{label}.timeout_s" ""
    return ⟨name, cmd, cwd, timeoutS⟩
  | check =>
    let type := check.typeName
    refuse s!"[[goal.checks]] entry {index}: must be a table, got {type}"

/-- The entries of `[[goal.checks]]`, numbered. -/
def parseGoalChecks (index : Nat) : List Value → Checked (List GoalCheckConfig)
  | [] => .ok []
  | check :: rest => do
    return (← parseGoalCheck env index check) :: (← parseGoalChecks (index + 1) rest)

/-- `_parse_goal`. -/
def parseGoal (goalD : Table) (projectName workDir : String) : Checked GoalConfig := do
  rejectUnknownFields env goalD goalAllowedFields "goal"
  let checks ← match getOr goalD "checks" (.arr []) with
    | .arr raw => parseGoalChecks env 0 raw
    | raw =>
      let type := raw.typeName
      refuse s!"goal.checks: must be a list of tables, got {type}"
  let ledger ← expandAndResolve env (str env (← requireField goalD "ledger")) projectName workDir
  return ⟨ledger, checks⟩

/-- A path field that may be missing. -/
def optionalPath (d : Table) (key projectName workDir : String) : Checked (Option String) :=
  match d.get? key with
  | none => .ok none
  | some raw => do return some (← expandAndResolve env (str env raw) projectName workDir)

/-- A positive int field that may be missing. -/
def optionalPositiveInt (d : Table) (key field : String) : Checked (Option Int) :=
  match d.get? key with
  | none => .ok none
  | some raw => do return some (← requirePositiveInt env raw field)

/-- `_parse_substrate_fingerprint_paths`. -/
def parseSubstrateFingerprintPaths (runtimeD : Table) : Checked (List String) :=
  match getOr runtimeD "substrate_fingerprint_paths" (.arr []) with
  | .arr raw => .ok (raw.map (str env))
  | _ => refuse "runtime.substrate_fingerprint_paths: must be list of glob strings"

/-- `_parse_runtime`. -/
def parseRuntime (runtimeD : Table) (projectName workDir : String) : Checked RuntimeConfig := do
  if runtimeD.has "round_timeout_per_phase" then
    refuseMigrate ("runtime.round_timeout_per_phase removed in 0.1.16; " ++
      "use [phases.<name>] round_budget_s = X. Run `agent-runner migrate`.")
  if runtimeD.has "rate_limit_action" then
    refuseMigrate ("runtime.rate_limit_action was removed in 0.1.29; use " ++
      "runtime.transient_error_action (same allowed values: " ++
      "back_off / skip / stop). Run `agent-runner migrate`.")
  rejectUnknownFields env runtimeD runtimeAllowedFields "runtime"
  let action := str env (getOr runtimeD "transient_error_action" (.str "back_off"))
  if !(["back_off", "skip", "stop"].contains action) then
    refuse ("runtime.transient_error_action: " ++ env.repr (.str action) ++
      " not in allowed values " ++ reprNames env ["back_off", "skip", "stop"])
  let rawLogDir := str env (← requireField runtimeD "log_dir")
  rejectControlChars env rawLogDir "runtime.log_dir"
  let logDir ← expandAndResolve env rawLogDir projectName workDir
  rejectControlChars env logDir "runtime.log_dir"
  return {
    workDir
    logDir
    roundBudgetS := ← requirePositiveInt env (getOr runtimeD "round_budget_s" (.int 1800))
      "runtime.round_budget_s"
    restartDelayS := ← requirePositiveInt env (getOr runtimeD "restart_delay_s" (.int 3))
      "runtime.restart_delay_s"
    roundLogRetention := ← requireNonNegativeInt env (getOr runtimeD "round_log_retention" (.int 0))
      "runtime.round_log_retention"
    narrativeFile := ← optionalPath env runtimeD "narrative_file" projectName workDir
    transientErrorAction := action
    maxRounds := ← optionalPositiveInt env runtimeD "max_rounds" "runtime.max_rounds"
    stopFile := ← optionalPath env runtimeD "stop_file" projectName workDir
    substrateFingerprintPaths := ← parseSubstrateFingerprintPaths env runtimeD
    freshEyesEveryN := ← optionalPositiveInt env runtimeD "fresh_eyes_every_n"
      "runtime.fresh_eyes_every_n"
    dryRun := ← requireBool env (getOr runtimeD "dry_run" (.bool false)) "runtime.dry_run"
    maxGraceAfterResultS := ← requireNonNegativeInt env
      (getOr runtimeD "max_grace_after_result_s" (.int 0)) "runtime.max_grace_after_result_s"
    graceKillIgnorePatterns := ← validateRegexList env
      (getOr runtimeD "grace_kill_ignore_patterns" (.arr []))
      "runtime.grace_kill_ignore_patterns" }

/-- `mode not in _VALID_INJECTION_MODES`: a list or a table cannot be hashed. -/
def checkInjectionMode (mode : Value) : Checked String :=
  match mode with
  | .arr _ | .table _ => .error (.other .typeError)
  | .str s =>
    if ["prepend", "file", "none"].contains s then .ok s
    else refuse ("prompt.context_injection_mode must be one of " ++
      reprNames env ["file", "none", "prepend"] ++ ", got " ++ env.repr mode)
  | mode => refuse ("prompt.context_injection_mode must be one of " ++
      reprNames env ["file", "none", "prepend"] ++ ", got " ++ env.repr mode)

/-- The files of `_parse_prompt`: one form, and not empty. -/
def parsePromptFiles (promptD : Table) (projectName workDir : String) :
    Checked (Option String × List String) :=
  match promptD.get? "file", promptD.get? "files" with
  | some _, some _ => refuse "set either prompt.file or prompt.files, not both"
  | none, none => refuse "missing required field: prompt.file or prompt.files"
  | some raw, none => do
    return (some (← expandAndResolve env (str env raw) projectName workDir), [])
  | none, some raw => do
    let files ← requireStrList env raw "prompt.files"
    if files.isEmpty then
      refuseMigrate ("prompt.files: must be a non-empty list (use a per-phase " ++
        "[phases.<name>.prompt] files = [] to disable prompts for a phase); " ++
        "run `agent-runner migrate`")
    return (none, ← files.mapM fun p => expandAndResolve env p projectName workDir)

/-- `_parse_prompt`. -/
def parsePrompt (promptD : Table) (projectName workDir : String) : Checked PromptConfig := do
  rejectUnknownFields env promptD promptAllowedFields "prompt"
  let mode ← checkInjectionMode env (getOr promptD "context_injection_mode" (.str "prepend"))
  let (file, files) ← parsePromptFiles env promptD projectName workDir
  return {
    file
    files
    injectContext := ← requireBool env (getOr promptD "inject_context" (.bool true))
      "prompt.inject_context"
    contextInjectionMode := mode
    concatSeparator := str env (getOr promptD "concat_separator" (.str "\n\n"))
    stripYamlFrontmatter := ← requireBool env (getOr promptD "strip_yaml_frontmatter" (.bool true))
      "prompt.strip_yaml_frontmatter" }

/-- `_parse_vcs`. -/
def parseVcs (vcsD : Table) : Checked VcsConfig := do
  if vcsD.has "orphan_action" then
    refuseMigrate ("vcs.orphan_action removed in 0.1.18; use vcs.dirty_action. " ++
      "Run `agent-runner migrate`.")
  rejectUnknownFields env vcsD vcsAllowedFields "vcs"
  let dirtyAction := str env (getOr vcsD "dirty_action" (.str "stash"))
  if !(["stash", "ignore", "auto_commit"].contains dirtyAction) then
    refuse ("vcs.dirty_action: " ++ env.repr (.str dirtyAction) ++
      " not in allowed values \x7b'stash', 'ignore', 'auto_commit'\x7d")
  return ⟨← requirePositiveInt env (getOr vcsD "stash_idempotency_s" (.int 5))
    "vcs.stash_idempotency_s", dirtyAction⟩

/-! ## `[monitor]` -/

/-- A field of a `[monitor.host_health]` sub-table: its value or its default. -/
def hostHealthField {α : Type} (check : Value → String → Checked α) (table : String) (d : Table)
    (key : String) (default : Value) : Checked α :=
  check (getOr d key default) s!"monitor.host_health.{table}.{key}"

def parseDisk (diskD : Table) : Checked HostHealthDiskConfig := do
  return {
    warningPct := ← hostHealthField (requirePct env) "disk" diskD "warning_pct"
      (.float (.finite 90))
    criticalPct := ← hostHealthField (requirePct env) "disk" diskD "critical_pct"
      (.float (.finite 95))
    growthWindowS := ← hostHealthField (requirePositiveInt env) "disk" diskD "growth_window_s"
      (.int 1800)
    diskGrowthPctPerHrWarning := ← hostHealthField (requirePositiveFloat env) "disk" diskD
      "disk_growth_pct_per_hr_warning" (.float (.finite 5))
    inodeGrowthPctPerHrWarning := ← hostHealthField (requirePositiveFloat env) "disk" diskD
      "inode_growth_pct_per_hr_warning" (.float (.finite 5)) }

def parseMemory (memD : Table) : Checked HostHealthMemoryConfig := do
  return {
    availMinMb := ← hostHealthField (requireNonNegativeInt env) "memory" memD "avail_min_mb"
      (.int 200)
    freeLowMb := ← hostHealthField (requirePositiveInt env) "memory" memD "free_low_mb" (.int 16)
    swapOutNoiseFloorMb := ← hostHealthField (requirePositiveInt env) "memory" memD
      "swap_out_noise_floor_mb" (.int 32) }

def parsePressure (presD : Table) : Checked HostHealthPressureConfig := do
  return {
    fullAvg10Critical := ← hostHealthField (requirePositivePct env) "pressure" presD
      "full_avg10_critical" (.float (.finite 60))
    someAvg10Warning := ← hostHealthField (requirePositivePct env) "pressure" presD
      "some_avg10_warning" (.float (.finite 5))
    criticalConsecutiveSamples := ← hostHealthField (requirePositiveInt env) "pressure" presD
      "critical_consecutive_samples" (.int 3)
    inRoundTerminate := ← hostHealthField (requireBool env) "pressure" presD
      "in_round_terminate" (.bool true)
    cgroupGrowthRateWarningMbPerMin := ← hostHealthField (requirePositiveFloat env) "pressure"
      presD "cgroup_growth_rate_warning_mb_per_min" (.float (.finite 512))
    inRoundNudge := ← hostHealthField (requireBool env) "pressure" presD "in_round_nudge"
      (.bool false) }

def parseBrake (brakeD : Table) : Checked HostHealthBrakeConfig := do
  return {
    memoryHigh := ← hostHealthField (requireBool env) "brake" brakeD "memory_high" (.bool false)
    memoryHighStepPct := ← hostHealthField (validateBrakeStepPct env) "brake" brakeD
      "memory_high_step_pct" (.int 0)
    warningConsecutiveSamples := ← hostHealthField (requirePositiveInt env) "brake" brakeD
      "warning_consecutive_samples" (.int 3) }

/-- A sub-table of `[monitor.host_health]` without unknown keys. -/
def hostHealthTable (hhD : Table) (key : String) (allowed : List String) : Checked Table := do
  let d ← requireTable env hhD key (some s!"monitor.host_health.{key}")
  rejectUnknownFields env d allowed s!"monitor.host_health.{key}"
  return d

/-- The `[monitor.host_health]` part of `_parse_monitor`. -/
def parseHostHealth (monitorD : Table) : Checked MonitorHostHealthConfig := do
  let hhD ← requireTable env monitorD "host_health" (some "monitor.host_health")
  rejectUnknownFields env hhD monitorHostHealthAllowedFields "monitor.host_health"
  let diskD ← hostHealthTable env hhD "disk" hostHealthDiskAllowedFields
  let memD ← hostHealthTable env hhD "memory" hostHealthMemoryAllowedFields
  let presD ← hostHealthTable env hhD "pressure" hostHealthPressureAllowedFields
  let brakeD ← hostHealthTable env hhD "brake" hostHealthBrakeAllowedFields
  return ⟨← parseDisk env diskD, ← parseMemory env memD, ← parsePressure env presD,
    ← parseBrake env brakeD⟩

def defaultAuthPatterns : List Value :=
  [.str ("\\b(oauth|unauthorized|401|api[_ ]key|" ++
    "auth(entication)?[_ -]?(failed|error|expired)|session.*expired)\\b")]

/-- `_validate_remote_failure_tolerance`. -/
def validateRemoteFailureTolerance (value : Value) : Checked Int := do
  let v ← requireNonNegativeInt env value "monitor.remote_failure_tolerance_s"
  requireAtMost v 3600 "monitor.remote_failure_tolerance_s" ""

/-- `_validate_auto_stop_on`. -/
def validateAutoStopOn (value : Value) : Checked (List String) := do
  let names ← requireStrList env value "monitor.auto_stop_on"
  match names.find? fun name => "goal".toList.isPrefixOf name.toList with
  | some name => refuse ("monitor.auto_stop_on: " ++ env.repr (.str name) ++
      " not allowed -- goal-steering kinds " ++
      "are advisory-only and can never opt into the auto-stop kill path")
  | none => return names

/-- `monitor.auto_stop_on`, where it is given. -/
def parseAutoStopOn (monitorD : Table) : Checked (List String) :=
  match monitorD.get? "auto_stop_on" with
  | none => .ok ["oauth_fail", "disk_critical"]
  | some raw => validateAutoStopOn env raw

/-- `monitor.supervisor_stale_threshold_s`, where it is given. -/
def parseSupervisorStaleThreshold (monitorD : Table) : Checked (Option Int) :=
  match monitorD.get? "supervisor_stale_threshold_s" with
  | none => .ok none
  | some raw => some <$> requireNonNegativeInt env raw "monitor.supervisor_stale_threshold_s"

/-- A threshold that its window can never reach. -/
def checkAnomaly (threshold window : Int) : Checked Unit :=
  if 0 < threshold ∧ 0 < window ∧ window < threshold then
    refuseMigrate (s!"monitor.anomaly_repetitive_threshold ({threshold}) " ++
      s!"must be <= anomaly_repetitive_window ({window}): " ++
      "the detector can never fire otherwise; run `agent-runner migrate`")
  else .ok ()

/-- `_parse_monitor`. -/
def parseMonitor (monitorD : Table) : Checked MonitorConfig := do
  rejectUnknownFields env monitorD monitorAllowedFields "monitor"
  let hostHealth ← parseHostHealth env monitorD
  let authFailPatterns ← validateRegexList env
    (getOr monitorD "auth_fail_patterns" (.arr defaultAuthPatterns)) "monitor.auth_fail_patterns"
  let authFailHint := str env (getOr monitorD "auth_fail_hint" (.str ""))
  let autoStopOn ← parseAutoStopOn env monitorD
  let remoteFailureToleranceS ← validateRemoteFailureTolerance env
    (getOr monitorD "remote_failure_tolerance_s" (.int 90))
  let window ← requireNonNegativeInt env (getOr monitorD "anomaly_repetitive_window" (.int 0))
    "monitor.anomaly_repetitive_window"
  let threshold ← requireNonNegativeInt env
    (getOr monitorD "anomaly_repetitive_threshold" (.int 0)) "monitor.anomaly_repetitive_threshold"
  let roundProgressIntervalS ← requireNonNegativeInt env
    (getOr monitorD "round_progress_interval_s" (.int 0)) "monitor.round_progress_interval_s"
  let supervisorStaleThresholdS ← parseSupervisorStaleThreshold env monitorD
  checkAnomaly threshold window
  return ⟨authFailPatterns, authFailHint, autoStopOn, remoteFailureToleranceS, window, threshold,
    hostHealth, roundProgressIntervalS, supervisorStaleThresholdS⟩

/-- `_parse_plugins`. -/
def parsePlugins (pluginsD : Table) : Checked PluginsConfig := do
  rejectUnknownFields env pluginsD pluginsAllowedFields "plugins"
  match pluginsD.get? "disable" with
  | none => return ⟨[]⟩
  | some raw => return ⟨← requireStrList env raw "plugins.disable"⟩

end AgentRunner.ConfigParsers
