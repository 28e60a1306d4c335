import AgentRunner.CeilingLaw
import AgentRunner.ServePolicy

/-! The unit of the supervisor, `service_unit.render_serve_unit`, and the time it leaves a stop:
no round that is inside its own ceiling is killed by the service manager. -/
namespace AgentRunner.ServiceUnit
open PyValue Validators ConfigModels RoundCeiling CeilingLaw LoadConfig
open ConfigLimits MigrationAgreement

/-! ## The unit -/

/-- `RESTART_PREVENT_EXIT_CODES`, in the order they are rendered in. -/
def restartPreventExitCodes : List Int :=
  [ServePolicy.permanentConfigExit, ServePolicy.crashLoopExit, ServePolicy.memLoopPersistentExit]

/-- `_unit_mode_lines`: an empty user is none. -/
def unitModeLines (user : Option String) : List String × String :=
  match user.filter (· ≠ "") with
  | some name => (["User=" ++ name, "Group=" ++ name], "multi-user.target")
  | none => ([], "default.target")

/-- `_validate_unit_paths`. -/
def validateUnitPaths (env : Env) (cfg : Config) (configPath : String) : Checked Unit := do
  rejectControlChars env cfg.runtime.workDir "runtime.work_dir"
  rejectControlChars env configPath "config path"

/-- One turn of the loop of `render_serve_unit`. -/
def longer (longest : ℤ) (override_ : PhaseOverride) : ℤ :=
  match override_.roundBudgetS with
  | some budget => max longest budget
  | none => longest

/-- The `max_timeout` that loop ends with. -/
def maxTimeout (cfg : Config) : ℤ :=
  (cfg.phases.overrides.map (·.2)).foldl longer cfg.runtime.roundBudgetS

def timeoutTotal (cfg : Config) : ℤ :=
  (timeoutBudget (maxTimeout cfg) (goalChecksAllowanceS cfg)).1

/-- The lines of a text, each with its end. -/
def unitText (lines : List String) : String := String.join (lines.map (· ++ "\n"))

/-- The lines of the unit in front of its stop timeout. -/
def serveUnitHead (env : Env) (cfg : Config) (scriptPath configPath : String)
    (userLines : List String) : List String :=
  ["[Unit]",
    "Description=Agent Runner Supervisor (" ++ env.pathName cfg.runtime.workDir ++ ")",
    "After=network.target",
    "StartLimitIntervalSec=300",
    "StartLimitBurst=5",
    "",
    "[Service]",
    "Type=simple"] ++
  userLines ++
  ["WorkingDirectory=" ++ cfg.runtime.workDir,
    "ExecStart=" ++ scriptPath ++ " serve --config " ++ configPath,
    "Restart=on-failure",
    "RestartPreventExitStatus=" ++ " ".intercalate (restartPreventExitCodes.map toString),
    "RestartSec=3",
    "KillMode=mixed",
    "KillSignal=SIGTERM"]

/-- The stop timeout and what is behind it. -/
def serveUnitTail (timeoutTotal : ℤ) (wantedBy : String) : List String :=
  ["TimeoutStopSec=" ++ toString timeoutTotal,
    "",
    "[Install]",
    "WantedBy=" ++ wantedBy]

/-- `render_serve_unit`. -/
def renderServeUnit (env : Env) (cfg : Config) (scriptPath configPath : String)
    (user : Option String) : Checked String := do
  validateUnitPaths env cfg configPath
  let (userLines, wantedBy) := unitModeLines user
  return unitText (serveUnitHead env cfg scriptPath configPath userLines ++
    serveUnitTail (timeoutTotal cfg) wantedBy)

/-- The last assignment of a unit to its stop timeout, which is the one that counts: only the
section that installs it is left behind it. -/
def StopsAfter (unit : String) (seconds : ℤ) : Prop :=
  ∃ before user,
    unit = unitText before ++ unitText (serveUnitTail seconds (unitModeLines user).2)

theorem unitText_append (before after : List String) :
    unitText (before ++ after) = unitText before ++ unitText after := by
  simp [unitText, String.join_append]

/-! ## The longest budget -/

theorem le_longer (longest : ℤ) (override_ : PhaseOverride) :
    longest ≤ longer longest override_ ∧
      ∀ budget ∈ override_.roundBudgetS, budget ≤ longer longest override_ := by
  unfold longer
  cases override_.roundBudgetS with
  | none => exact ⟨le_refl _, by simp⟩
  | some budget => exact ⟨le_max_left _ _, by simp⟩

/-- The loop ends with no less than it began with, and with no less than any override. -/
theorem le_foldl_longer (overrides : List PhaseOverride) (start : ℤ) :
    start ≤ overrides.foldl longer start ∧
      ∀ override_ ∈ overrides, ∀ budget ∈ override_.roundBudgetS,
        budget ≤ overrides.foldl longer start := by
  induction overrides generalizing start with
  | nil => exact ⟨le_refl _, List.forall_mem_nil _⟩
  | cons override_ rest ih =>
    obtain ⟨grows, others⟩ := ih (longer start override_)
    obtain ⟨kept, own⟩ := le_longer start override_
    rw [List.foldl_cons, List.forall_mem_cons]
    exact ⟨kept.trans grows, fun budget held => (own budget held).trans grows, others⟩

theorem budgetFor_le_maxTimeout (cfg : Config) (phase : Option String) :
    budgetFor cfg phase ≤ maxTimeout cfg := by
  obtain ⟨base, overrides⟩ :=
    le_foldl_longer (cfg.phases.overrides.map (·.2)) cfg.runtime.roundBudgetS
  unfold budgetFor Config.profileFor
  split
  · exact base
  · rename_i ov found
    obtain ⟨name, -, found⟩ := Option.bind_eq_some_iff.mp found
    have held : ov ∈ cfg.phases.overrides.map (·.2) := by
      obtain ⟨before, after, shape, -⟩ := List.lookup_eq_some_iff.mp found
      rw [shape, List.map_append]
      exact List.mem_append_right _ (.head _)
    cases own : ov.roundBudgetS with
    | none => exact base
    | some budget => exact overrides _ held budget own

theorem maxOr_le {default most : ℤ} {values : List ℤ} (base : default ≤ most)
    (each : ∀ n ∈ values, n ≤ most) : maxOr default values ≤ most := by
  cases values with
  | nil => exact base
  | cons first rest =>
    obtain ⟨start, others⟩ := List.forall_mem_cons.mp each
    rw [maxOr]
    clear each
    induction rest generalizing first with
    | nil => exact start
    | cons second rest ih =>
      obtain ⟨next, others⟩ := List.forall_mem_cons.mp others
      exact ih (max first second) (max_le start next) others

/-- However its phase is given, a round's own ceiling is over no larger a budget. -/
theorem innerBudgetS_le_maxTimeout (cfg : Config) (phaseArg : Option String) :
    innerBudgetS cfg phaseArg ≤ maxTimeout cfg := by
  cases phaseArg with
  | some phase => exact budgetFor_le_maxTimeout cfg (some phase)
  | none =>
    refine maxOr_le (budgetFor_le_maxTimeout cfg none) fun n member => ?_
    obtain ⟨phase, -, rfl⟩ := List.mem_map.mp member
    exact budgetFor_le_maxTimeout cfg (some phase)

theorem timeoutTotal_eq (cfg : Config) : timeoutTotal cfg =
    maxTimeout cfg + 195 + goalChecksAllowanceS cfg + roundTermGraceS + stopGraceMarginS := by
  simp only [timeoutTotal, timeoutBudget, reapMarginS, gitCommitMarginS, hookAllowanceS,
    roundTermGraceS, stopGraceMarginS]
  omega

/-! ## The stop deadline -/

theorem validateUnitPaths_ok {env : Env} {cfg : Config} {configPath : String} {done : Unit}
    (printable : env.isprintable cfg.runtime.workDir = true) :
    validateUnitPaths env cfg configPath = .ok done ↔ env.isprintable configPath = true := by
  rw [validateUnitPaths, bind_eq_ok, rejectControlChars_ok]
  simp only [rejectControlChars_ok, printable, true_and, exists_const]

/-- **The stop deadline covers every round.**  For every configuration the loader accepts: the
unit is rendered wherever the path of its file is printable, and the stop timeout it leaves is
no less than the outer ceiling of a round with any phase argument, configured or none, and
behind it the grace a round is given to end and the margin of the stop itself. -/
theorem stop_deadline_covers_rounds {env : Env} {registry : Registry} {configDir : String}
    {raw : Toml.Table} {cfg : Config} (loaded : loadConfig env registry configDir raw = .ok cfg)
    (scriptPath configPath : String) (user : Option String) :
    ((∃ unit, renderServeUnit env cfg scriptPath configPath user = .ok unit) ↔
      env.isprintable configPath = true) ∧
    ∀ unit, renderServeUnit env cfg scriptPath configPath user = .ok unit →
      ∃ seconds, StopsAfter unit seconds ∧ ∀ phaseArg,
        outerRoundCeilingS cfg phaseArg + roundTermGraceS + stopGraceMarginS ≤ seconds := by
  have valid := @validateUnitPaths_ok env cfg configPath () (loadConfig_runtime loaded).1
  constructor
  · constructor
    · rintro ⟨unit, rendered⟩
      obtain ⟨_, passed, -⟩ := bind_eq_ok.mp rendered
      exact valid.mp passed
    · intro printable
      exact ⟨_, bind_eq_ok.mpr ⟨(), valid.mpr printable, rfl⟩⟩
  · intro unit rendered
    obtain ⟨_, -, built⟩ := bind_eq_ok.mp rendered
    cases built
    refine ⟨timeoutTotal cfg, ⟨_, _, unitText_append _ _⟩, fun phaseArg => ?_⟩
    have fits := innerBudgetS_le_maxTimeout cfg phaseArg
    rw [timeoutTotal_eq, outerRoundCeilingS_eq]
    omega

/-- Two phases, of which one overrides the budget of the rest. -/
def phasedDocument : Toml.Table :=
  LoadConfig.smallDocument LoadConfig.argvAgent
    [("list", .arr [.str "dev", .str "qa"]), ("qa", .table [("round_budget_s", .int 7200)])]

/-- The unit waits 220 seconds longer than the longer of their budgets. -/
theorem phased_rounds_covered :
    ∃ cfg, loadConfig plainEnv plainRegistry "/repo" phasedDocument = .ok cfg ∧
      ∀ unit, renderServeUnit plainEnv cfg "/bin/ar" "/repo/a.toml" none = .ok unit →
        ∃ seconds, StopsAfter unit seconds ∧ ∀ phaseArg,
          outerRoundCeilingS cfg phaseArg + roundTermGraceS + stopGraceMarginS ≤ seconds :=
  ⟨_, rfl, (@stop_deadline_covers_rounds plainEnv plainRegistry "/repo" phasedDocument _ rfl
    "/bin/ar" "/repo/a.toml" none).2⟩

end AgentRunner.ServiceUnit
