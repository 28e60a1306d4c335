import AgentRunner.Validators

/-! `config/models.py`: a configuration once it is parsed, the keys each table accepts,
and the profile a phase runs with. -/
namespace AgentRunner.ConfigModels
open PyValue Toml Validators

structure AgentConfig where
  command : List String
  promptArgTemplate : List String
  name : Option Value
  env : List (String × String)
  promptDelivery : String
  execPrefix : List String
  terminalMarker : String
  sigtermGraceS : Int

structure RuntimeConfig where
  workDir : String
  logDir : String
  roundBudgetS : Int
  restartDelayS : Int
  roundLogRetention : Int
  narrativeFile : Option String
  transientErrorAction : String
  maxRounds : Option Int
  stopFile : Option String
  substrateFingerprintPaths : List String
  freshEyesEveryN : Option Int
  dryRun : Bool
  maxGraceAfterResultS : Int
  graceKillIgnorePatterns : List String

structure PromptConfig where
  file : Option String
  files : List String
  injectContext : Bool
  contextInjectionMode : String
  concatSeparator : String
  stripYamlFrontmatter : Bool

structure VcsConfig where
  stashIdempotencyS : Int
  dirtyAction : String

structure HostHealthDiskConfig where
  warningPct : PyFloat
  criticalPct : PyFloat
  growthWindowS : Int
  diskGrowthPctPerHrWarning : PyFloat
  inodeGrowthPctPerHrWarning : PyFloat

structure HostHealthMemoryConfig where
  availMinMb : Int
  freeLowMb : Int
  swapOutNoiseFloorMb : Int

structure HostHealthPressureConfig where
  fullAvg10Critical : PyFloat
  someAvg10Warning : PyFloat
  criticalConsecutiveSamples : Int
  inRoundTerminate : Bool
  cgroupGrowthRateWarningMbPerMin : PyFloat
  inRoundNudge : Bool

structure HostHealthBrakeConfig where
  memoryHigh : Bool
  memoryHighStepPct : Int
  warningConsecutiveSamples : Int

structure MonitorHostHealthConfig where
  disk : HostHealthDiskConfig
  memory : HostHealthMemoryConfig
  pressure : HostHealthPressureConfig
  brake : HostHealthBrakeConfig

structure MonitorConfig where
  authFailPatterns : List String
  authFailHint : String
  autoStopOn : List String
  remoteFailureToleranceS : Int
  anomalyRepetitiveWindow : Int
  anomalyRepetitiveThreshold : Int
  hostHealth : MonitorHostHealthConfig
  roundProgressIntervalS : Int
  supervisorStaleThresholdS : Option Int

structure ScheduleConfig where
  timezone : Option String
  runWindows : List Window
  pauseWindows : List Window

structure PluginsConfig where
  disable : List String

structure GoalCheckConfig where
  name : String
  cmd : List String
  cwd : Option String
  timeoutS : Int

structure GoalConfig where
  ledger : String
  checks : List GoalCheckConfig

/-- `PhaseOverride`: a field that is `none` is not overridden. -/
structure PhaseOverride where
  roundBudgetS : Option Int
  promptFiles : Option (List String)
  agent : Option AgentConfig
  schedule : Option ScheduleConfig

structure PhasesConfig where
  list : Option (List String)
  overrides : List (String × PhaseOverride)
  phasePolicy : String

structure Config where
  agent : AgentConfig
  runtime : RuntimeConfig
  prompt : PromptConfig
  vcs : VcsConfig
  monitor : MonitorConfig
  phases : PhasesConfig
  plugins : PluginsConfig
  schedule : ScheduleConfig
  goal : Option GoalConfig

/-- `Profile`; `promptFiles` is `none` where the phase does not override the prompt. -/
structure Profile where
  agent : AgentConfig
  runtime : RuntimeConfig
  schedule : ScheduleConfig
  promptFiles : Option (List String)

/-- `Config.profile_for`. -/
def Config.profileFor (cfg : Config) (phase : Option String) : Profile :=
  match phase.bind fun name => cfg.phases.overrides.lookup name with
  | none => ⟨cfg.agent, cfg.runtime, cfg.schedule, none⟩
  | some ov =>
    let runtime :=
      match ov.roundBudgetS with
      | some budget => { cfg.runtime with roundBudgetS := budget }
      | none => cfg.runtime
    let schedule :=
      match ov.schedule with
      | some own =>
        if own.timezone.isNone && cfg.schedule.timezone.isSome then
          { own with timezone := cfg.schedule.timezone }
        else own
      | none => cfg.schedule
    ⟨ov.agent.getD cfg.agent, runtime, schedule, ov.promptFiles⟩

/-! ## The keys each table accepts -/

def agentAllowedFields : List String :=
  ["command", "prompt_arg_template", "name", "env", "prompt_delivery", "exec_prefix",
    "terminal_marker", "sigterm_grace_s"]

def runtimeAllowedFields : List String :=
  ["work_dir", "log_dir", "round_budget_s", "restart_delay_s", "round_log_retention",
    "narrative_file", "transient_error_action", "max_rounds", "stop_file",
    "substrate_fingerprint_paths", "fresh_eyes_every_n", "dry_run", "max_grace_after_result_s",
    "grace_kill_ignore_patterns"]

def promptAllowedFields : List String :=
  ["file", "files", "inject_context", "context_injection_mode", "concat_separator",
    "strip_yaml_frontmatter"]

def vcsAllowedFields : List String := ["stash_idempotency_s", "dirty_action"]

def monitorAllowedFields : List String :=
  ["auth_fail_patterns", "auth_fail_hint", "auto_stop_on", "remote_failure_tolerance_s",
    "anomaly_repetitive_window", "anomaly_repetitive_threshold", "host_health",
    "round_progress_interval_s", "supervisor_stale_threshold_s"]

def monitorHostHealthAllowedFields : List String := ["disk", "memory", "pressure", "brake"]

def hostHealthDiskAllowedFields : List String :=
  ["warning_pct", "critical_pct", "growth_window_s", "disk_growth_pct_per_hr_warning",
    "inode_growth_pct_per_hr_warning"]

def hostHealthMemoryAllowedFields : List String :=
  ["avail_min_mb", "free_low_mb", "swap_out_noise_floor_mb"]

def hostHealthPressureAllowedFields : List String :=
  ["full_avg10_critical", "some_avg10_warning", "critical_consecutive_samples",
    "in_round_terminate", "cgroup_growth_rate_warning_mb_per_min", "in_round_nudge"]

def hostHealthBrakeAllowedFields : List String :=
  ["memory_high", "memory_high_step_pct", "warning_consecutive_samples"]

def pluginsAllowedFields : List String := ["disable"]

def scheduleAllowedFields : List String := ["timezone", "run_windows", "pause_windows"]

def goalAllowedFields : List String := ["ledger", "checks"]

def goalCheckAllowedFields : List String := ["name", "cmd", "cwd", "timeout_s"]

def phaseOverrideAllowedFields : List String :=
  ["round_budget_s", "prompt", "agent", "runtime", "schedule"]

def phaseRuntimeAllowedFields : List String := ["round_budget_s"]

def phasePromptAllowedFields : List String := ["files"]

end AgentRunner.ConfigModels
