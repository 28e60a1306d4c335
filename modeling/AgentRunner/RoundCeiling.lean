import AgentRunner.DirtyTree
import AgentRunner.LoadConfig
import AgentRunner.PhaseSelect

/-! The outer ceiling of a round, `_lifecycle.outer_round_ceiling_s` over
`_serve_policy.timeout_budget`, and what it is to cover: all that `runner.run_one_round` still
waits for once its agent's budget is over. -/
namespace AgentRunner.RoundCeiling
open ConfigModels AgentRun ContainerRun DirtyTree Effects RoundEnv

/-! ## The ceiling -/

/-- `_REAP_GRACE_S`, `_GIT_COMMIT_TIMEOUT_S`, `_HOOK_ALLOWANCE_S`, `_ROUND_TERM_GRACE_S` and
`_STOP_GRACE_MARGIN_S`: the first two are literals that mirror the constants they are for. -/
def reapMarginS : ℤ := 5
def gitCommitMarginS : ℤ := 120
def hookAllowanceS : ℤ := 60
def roundTermGraceS : ℤ := 15
def stopGraceMarginS : ℤ := 10

/-- `timeout_budget`: `TimeoutStopSec` and the outer ceiling. -/
def timeoutBudget (roundBudgetS goalChecksAllowanceS : ℤ) : ℤ × ℤ :=
  let outerCeilingS := roundBudgetS + max reapMarginS roundTermGraceS + gitCommitMarginS +
    hookAllowanceS + goalChecksAllowanceS
  (outerCeilingS + roundTermGraceS + stopGraceMarginS, outerCeilingS)

/-- `GoalConfig.checks_allowance_s`. -/
def checksAllowanceS (goal : GoalConfig) : ℤ :=
  goal.checks.foldr (fun check allowance => check.timeoutS + allowance) 0 +
    goal.checks.length * 2 * killGraceS

/-- `Config.goal_checks_allowance_s`. -/
def goalChecksAllowanceS (cfg : Config) : ℤ := (cfg.goal.map checksAllowanceS).getD 0

def budgetFor (cfg : Config) (phase : Option String) : ℤ :=
  (cfg.profileFor phase).runtime.roundBudgetS

/-- `max(values, default=…)`. -/
def maxOr (default : ℤ) : List ℤ → ℤ
  | [] => default
  | first :: rest => rest.foldl max first

/-- The `inner` of `outer_round_ceiling_s`. -/
def innerBudgetS (cfg : Config) (phaseArg : Option String) : ℤ :=
  match phaseArg with
  | some phase => budgetFor cfg (some phase)
  | none =>
    maxOr cfg.runtime.roundBudgetS
      ((cfg.phases.list.getD []).map fun phase => budgetFor cfg (some phase))

def outerRoundCeilingS (cfg : Config) (phaseArg : Option String) : ℤ :=
  (timeoutBudget (innerBudgetS cfg phaseArg) (goalChecksAllowanceS cfg)).2

/-! ## The round child -/

/-- `_phase_for`: the phase and its index, or a `ConfigError`. -/
def phaseFor (roundNum : ℤ) (phases : Option (List String)) (override : Option String) :
    Option (Option String × ℕ) :=
  match override, phases.getD [] with
  | some _, [] => none
  | some phase, names => if phase ∈ names then some (some phase, names.idxOf phase) else none
  | none, [] => some (none, 0)
  | none, names =>
    let idx := PhaseSelect.rotationIndex roundNum names.length
    some (names[idx]?, idx)

/-- `_resolve_reap_grace_s`. -/
def resolveReapGraceS (env : Env) : ℤ :=
  match (env.get? reapGraceKey).bind fun raw => IntText.intOf raw.toList with
  | some parsed => if 0 < parsed then parsed else reapGraceS
  | none => reapGraceS

/-- The world of a round child: its agent and its repository, the directory its own id file
would be in, and how a goal check ends (`none` is not even spawned) after how many seconds. -/
structure World where
  agent : Agent
  repo : Repo
  ownCidfile : String
  check : List Spent → GoalCheckConfig → Option BoundedResult × ℚ

variable (world : World) (cfg : Config)

/-- One turn of `run_goal_checks`; a `dry_run` spawns nothing. -/
def runGoalCheck (check : GoalCheckConfig) : Git Unit :=
  if cfg.runtime.dryRun then pure ()
  else perform fun spent =>
    (.ok (), spent ++ [⟨.check check.name, (world.check spent check).2⟩])

/-- `run_goal_checks`. -/
def runGoalChecks : List GoalCheckConfig → Git Unit
  | [] => pure ()
  | check :: rest => do
    runGoalCheck world cfg check
    runGoalChecks rest

/-- The end of `_run_one_round_inner`: the goal checks, and the tree the agent leaves. A git
timeout leaves it unknown whether that is dirty. -/
def settle (roundNum : ℤ) (phase : Option String) (result : RunResult) :
    Git (Option DirtyOutcome) := do
  runGoalChecks world cfg ((cfg.goal.map (·.checks)).getD [])
  match ← attempt GitError.isGitTimeout (detectDirtyFiles world.repo) with
  | .error _ => return none
  | .ok dirty =>
    if dirty ≠ [] ∧ (result.ok || result.killedForGrace) then do
      let outcome ← resolveDirtyTree world.repo cfg.runtime.workDir cfg.runtime.logDir roundNum
        phase cfg.vcs.dirtyAction cfg.vcs.stashIdempotencyS
      return some outcome
    else return none

def container (phase : Option String) : Container :=
  containerFor world.ownCidfile (spawnCommand (cfg.profileFor phase).agent cfg.runtime.workDir)

/-- All that is waited for once the loop of `run` is left. -/
def aftermath (reapGraceS roundNum : ℤ) (phase : Option String) (ending : Ending) :
    Git (Option DirtyOutcome) := do
  let result ← conclude world.agent (container world cfg phase) reapGraceS ending
  settle world cfg roundNum phase result

/-- How the loop of `run` is left. -/
def watchAgent (phase : Option String) (ticks : List Tick) : Option Ending :=
  watch (budgetFor cfg phase) cfg.runtime.maxGraceAfterResultS
    (Utf8.encode (cfg.profileFor phase).agent.terminalMarker.toList) noScan ticks

/-- `_spawn_round` emits `round_supervisor_wedged` for a child that is alive for longer than
the ceiling: an exit at the deadline itself is still seen. -/
def supervisorWedged (timeoutS : ℤ) (aliveS : ℚ) : Bool := decide ((timeoutS : ℚ) < aliveS)

end AgentRunner.RoundCeiling
