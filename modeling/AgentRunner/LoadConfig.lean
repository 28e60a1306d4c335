import AgentRunner.ConfigParsers

/-! `config/loader.py`: the tables of a document, parsed in order into a `Config`, and
what `load_config` refuses of the whole. -/
namespace AgentRunner.LoadConfig
open PyValue Toml Validators ConfigModels ConfigParsers

def currentSchemaVersion : Int := 1

/-- What the last checks of `load_config` use: the resume flag a binary's plugin
declares, and `Path.is_relative_to`. -/
structure Registry where
  resumeFlag : String → Option String
  isRelativeTo : String → String → Bool

variable (env : Env)

/-- `_check_schema_version`. -/
def checkSchemaVersion (raw : Table) : Checked Unit :=
  match raw.get? "schema_version" with
  | none => refuseMigrate "config predates schema_version — run 'agent-runner migrate'"
  | some (.int version) =>
    if currentSchemaVersion < version then
      refuse (s!"config schema_version {version} is newer than this agent-runner " ++
        s!"supports (max {currentSchemaVersion}) — upgrade agent-runner")
    else if version < currentSchemaVersion then
      refuseMigrate (s!"config schema_version {version} is older than this agent-runner " ++
        "supports — run 'agent-runner migrate'")
    else .ok ()
  | some version => refuse ("schema_version must be an integer, got " ++ env.repr version)

/-- The work directory, anchored to the directory of the config file. -/
def parseWorkDir (raw : Table) (configDir : String) : Checked String := do
  let _ ← requireTable env raw "runtime" none
  let rawWorkDir := str env (← require ["runtime", "work_dir"] (.table raw) ["runtime", "work_dir"])
  rejectControlChars env rawWorkDir "runtime.work_dir"
  let workDir ← expandPath env rawWorkDir ""
  let workDir := if env.isAbsolute workDir then workDir else env.join configDir workDir
  let workDir ← lift (env.resolve workDir)
  rejectControlChars env workDir "runtime.work_dir"
  return workDir

/-- `phases.list`, where it is given. -/
def parsePhasesList (phasesD : Table) : Checked (Option (List String)) :=
  match phasesD.get? "list" with
  | none => .ok none
  | some value => some <$> requireStrList env value "phases.list"

/-- The `[phases]` table. -/
def parsePhases (raw agentD : Table) (projectName workDir : String) : Checked PhasesConfig := do
  let phasesD ← requireTable env raw "phases" none
  let list ← parsePhasesList env phasesD
  let phasePolicy := str env (getOr phasesD "phase_policy" (.str "wait"))
  if !(["wait", "skip"].contains phasePolicy) then
    refuse ("[phases] phase_policy: " ++ env.repr (.str phasePolicy) ++
      " not in allowed values ['skip', 'wait']")
  return ⟨list, ← parsePhaseOverrides env list projectName workDir agentD phasesD, phasePolicy⟩

/-- The `[goal]` table, where there is one. -/
def parseGoalTable (raw : Table) (projectName workDir : String) : Checked (Option GoalConfig) :=
  if raw.has "goal" then do
    let goalD ← requireTable env raw "goal" none
    return some (← parseGoal env goalD projectName workDir)
  else .ok none

/-- `load_config` up to the whole `Config`, for a file in `configDir`. -/
def parseConfig (configDir : String) (raw : Table) : Checked Config := do
  checkSchemaVersion env raw
  let agentD ← requireTable env raw "agent" none
  let agent ← parseAgent env agentD "[agent]" true
  let runtimeD ← requireTable env raw "runtime" none
  let workDir ← parseWorkDir env raw configDir
  let projectName := if env.pathName workDir = "" then "default" else env.pathName workDir
  let phases ← parsePhases env raw agentD projectName workDir
  let runtime ← parseRuntime env runtimeD projectName workDir
  let prompt ← parsePrompt env (← requireTable env raw "prompt" none) projectName workDir
  let vcs ← parseVcs env (← requireTable env raw "vcs" none)
  let monitor ← parseMonitor env (← requireTable env raw "monitor" none)
  let plugins ← parsePlugins env (← requireTable env raw "plugins" none)
  let schedule ← parseSchedule env (← requireTable env raw "schedule" none) "schedule"
  let goal ← parseGoalTable env raw projectName workDir
  return ⟨agent, runtime, prompt, vcs, monitor, phases, plugins, schedule, goal⟩

/-! ## What is refused of the whole -/

/-- An agent whose command already carries its resume flag. -/
def rejectResumeFlag (registry : Registry) (label : String) (agent : AgentConfig) : Checked Unit :=
  match (agent.command.head?.map env.pathName).bind registry.resumeFlag with
  | none => .ok ()
  | some flag =>
    if agent.command.contains flag || agent.promptArgTemplate.contains flag then
      refuse (s!"{label} command already contains " ++ env.repr (.str flag) ++
        ": agent-runner injects it " ++
        "per round for cross-round resume; remove it from the static command")
    else .ok ()

/-- `_reject_static_resume_flag`. -/
def rejectStaticResumeFlag (registry : Registry) (cfg : Config) : Checked Unit := do
  rejectResumeFlag env registry "[agent]" cfg.agent
  cfg.phases.overrides.forM fun entry =>
    match entry.2.agent with
    | some agent => rejectResumeFlag env registry s!"[phases.{entry.1}.agent]" agent
    | none => .ok ()

/-- The phases a check goes over: every listed one, or none at all. -/
def phaseNames (cfg : Config) : List (Option String) :=
  match cfg.phases.list with
  | none | some [] => [none]
  | some names => names.map some

/-- `_reject_goal_ledger_not_listed`. -/
def rejectGoalLedgerNotListed (cfg : Config) : Checked Unit :=
  match cfg.goal with
  | none => .ok ()
  | some goal =>
    (phaseNames cfg).forM fun phase =>
      let label := (phase.map fun name => s!"[phases.{name}.prompt]").getD "[prompt]"
      let files := ((cfg.profileFor phase).promptFiles).getD cfg.prompt.files
      if (files.drop 1).contains goal.ledger && files.head? != some goal.ledger then .ok ()
      else refuse (s!"{label}: [goal] ledger " ++ env.repr (.str goal.ledger) ++
        " is not listed in the resolved " ++
        "prompt files at index >= 1 (the single `file=` form can't carry it, " ++
        "and index 0 doesn't exist at cold start); list " ++ env.repr (.str goal.ledger) ++
        " in [prompt] files at index >= 1")

/-- `_reject_goal_ledger_in_stash_swept_tree`. -/
def rejectGoalLedgerInStashSweptTree (registry : Registry) (cfg : Config) : Checked Unit :=
  match cfg.goal with
  | none => .ok ()
  | some goal => do
    let ledger ← lift (env.resolve goal.ledger)
    let workDir ← lift (env.resolve cfg.runtime.workDir)
    let logDir ← lift (env.resolve cfg.runtime.logDir)
    if registry.isRelativeTo ledger workDir && !registry.isRelativeTo ledger logDir then
      refuse ("[goal] ledger " ++ env.repr (.str goal.ledger) ++
        s!" resolves inside runtime.work_dir ({workDir}) but outside runtime.log_dir ({logDir}): " ++
        "the default [vcs] dirty_action=\"stash\" would stash it away as orphan work after " ++
        "the round it fired for, so the steer would last only one round. Put " ++
        "the ledger under log_dir (e.g. ledger = \"logs/lessons.md\") or at an " ++
        "absolute path outside work_dir.")

/-- `load_config` of a parsed document. -/
def loadConfig (registry : Registry) (configDir : String) (raw : Table) : Checked Config := do
  let cfg ← parseConfig env configDir raw
  rejectStaticResumeFlag env registry cfg
  rejectGoalLedgerNotListed env cfg
  rejectGoalLedgerInStashSweptTree env registry cfg
  return cfg

/-- What is loaded is what was parsed. -/
theorem loadConfig_parses {env : Env} {registry : Registry} {configDir : String} {raw : Table}
    {cfg : Config} (loaded : loadConfig env registry configDir raw = .ok cfg) :
    parseConfig env configDir raw = .ok cfg := by
  rw [loadConfig, bind_eq_ok] at loaded
  obtain ⟨parsed, whole, rest⟩ := loaded
  simp only [bind_eq_ok] at rest
  obtain ⟨_, _, _, _, _, _, rest⟩ := rest
  exact Except.ok.inj rest ▸ whole

/-! ## A small document -/

/-- A host whose paths are their texts. -/
def plainEnv : Env where
  repr := fun _ => ""
  text := fun
    | .str s => s
    | .table _ => "\x7b\x7d"
    | .arr _ => "[]"
    | .bool true => "True"
    | .bool false => "False"
    | _ => "0"
  isprintable := fun _ => true
  floatOfInt := fun n => some n
  floatText := fun _ => ""
  regexError := fun _ => none
  expanduser := .ok
  isAbsolute := fun path => "/".toList.isPrefixOf path.toList
  join := fun dir path => dir ++ "/" ++ path
  resolve := .ok
  pathName := fun path => path
  validTimezone := fun _ => true
  parseWindow := fun _ => .error "no window"

/-- No plugin declares a resume flag. -/
def plainRegistry : Registry := ⟨fun _ => none, fun _ _ => false⟩

/-- The smallest tables, with the `[agent]` and the phases given. -/
def smallDocument (agent phases : Table) : Table :=
  [("schema_version", .int 1), ("agent", .table agent),
    ("runtime", .table [("work_dir", .str "/repo"), ("log_dir", .str "/log")]),
    ("prompt", .table [("file", .str "/prompt.md")]), ("phases", .table phases)]

/-- An agent that takes its prompt as an argument. -/
def argvAgent : Table :=
  [("command", .arr [.str "claude"]), ("prompt_arg_template", .arr [.str "\x7bprompt\x7d"])]

/-- One listed phase with its sub-table. -/
def onePhase (sub : Table) : Table := [("list", .arr [.str "dev"]), ("dev", .table sub)]

end AgentRunner.LoadConfig
