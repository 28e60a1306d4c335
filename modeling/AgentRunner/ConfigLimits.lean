import AgentRunner.MigrationAgreement

/-! The numbers the loader admits: the grace of every agent a phase can run, and the timeout
of every goal check. -/
namespace AgentRunner.ConfigLimits
open PyValue Toml Validators ConfigModels ConfigParsers LoadConfig MigrationAgreement

variable {env : Env}

theorem requirePositiveInt_pos {value : Value} {field : String} {n : ℤ}
    (checked : requirePositiveInt env value field = .ok n) : 0 < n := by
  unfold requirePositiveInt at checked
  split at checked
  · split at checked
    · cases checked
    · cases checked
      omega
  · cases checked

theorem requireAtMost_le {m n most : ℤ} {field note : String}
    (checked : requireAtMost m most field note = .ok n) : n = m ∧ n ≤ most := by
  unfold requireAtMost at checked
  split at checked
  · cases checked
  · cases checked
    exact ⟨rfl, by omega⟩

/-- A grace the loader lets through. -/
def Graceful (agent : AgentConfig) : Prop :=
  0 < agent.sigtermGraceS ∧ agent.sigtermGraceS ≤ maxSigtermGraceS

theorem parseAgent_graceful {d : Table} {label : String} {required : Bool} {agent : AgentConfig}
    (parsed : parseAgent env d label required = .ok agent) : Graceful agent := by
  simp only [parseAgent, bind_eq_ok] at parsed
  obtain ⟨_, -, _, -, _, -, _, -, _, -, _, -, rest⟩ := parsed
  obtain ⟨-, rest⟩ := unless_refused rest
  simp only [bind_eq_ok] at rest
  obtain ⟨_, -, _, -, grace, checked, built⟩ := rest
  cases built
  rw [validateSigtermGraceS, bind_eq_ok] at checked
  obtain ⟨m, positive, capped⟩ := checked
  obtain ⟨rfl, most⟩ := requireAtMost_le capped
  exact ⟨requirePositiveInt_pos positive, most⟩

theorem parsePhaseOverride_graceful {list : Option (List String)} {project workDir : String}
    {agentD : Table} {name : String} {value : Value} {override_ : PhaseOverride}
    (parsed : parsePhaseOverride env list project workDir agentD name value = .ok override_) :
    ∀ agent ∈ override_.agent, Graceful agent := by
  obtain ⟨sub, rfl, shape⟩ := parsePhaseOverride_ok env parsed
  simp only [parsePhaseOverride] at parsed
  obtain ⟨-, parsed⟩ := unless_refused parsed
  rw [shape.keys] at parsed
  simp only [bind_eq_ok] at parsed
  obtain ⟨_, -, _, -, agent, own, _, -, built⟩ := parsed
  cases built
  unfold parsePhaseAgent at own
  split at own
  · cases own
    exact fun _ none_ => by cases none_
  · split at own
    · cases own
    · obtain ⟨parsedAgent, merged, built⟩ := bind_eq_ok.mp own
      cases built
      rintro _ ⟨⟩
      exact parseAgent_graceful merged
  · cases own

theorem parsePhaseOverrides_graceful {list : Option (List String)} {project workDir : String}
    {agentD phasesD : Table} {overrides : List (String × PhaseOverride)}
    (parsed : parsePhaseOverrides env list project workDir agentD phasesD = .ok overrides) :
    ∀ entry ∈ overrides, ∀ agent ∈ entry.2.agent, Graceful agent := by
  induction phasesD generalizing overrides with
  | nil =>
    cases parsed
    exact List.forall_mem_nil _
  | cons item rest ih =>
    obtain ⟨key, value⟩ := item
    rw [parsePhaseOverrides] at parsed
    split at parsed
    · exact ih parsed
    · simp only [bind_eq_ok] at parsed
      obtain ⟨_, one, _, others, built⟩ := parsed
      cases built
      exact List.forall_mem_cons.mpr ⟨parsePhaseOverride_graceful one, ih others⟩

theorem parseGoalChecks_timed {checks : List Value} {index : ℕ} {configs : List GoalCheckConfig}
    (parsed : parseGoalChecks env index checks = .ok configs) :
    ∀ config ∈ configs, 0 < config.timeoutS := by
  induction checks generalizing index configs with
  | nil =>
    cases parsed
    exact List.forall_mem_nil _
  | cons check rest ih =>
    simp only [parseGoalChecks, bind_eq_ok] at parsed
    obtain ⟨config, one, _, others, built⟩ := parsed
    cases built
    refine List.forall_mem_cons.mpr ⟨?_, ih others⟩
    unfold parseGoalCheck at one
    split at one
    · simp only [bind_eq_ok] at one
      obtain ⟨_, -, _, -, _, -, _, -, one⟩ := one
      obtain ⟨-, one⟩ := unless_refused one
      simp only [bind_eq_ok] at one
      obtain ⟨m, positive, n, capped, built⟩ := one
      cases built
      obtain ⟨rfl, -⟩ := requireAtMost_le capped
      exact requirePositiveInt_pos positive
    · cases one

theorem parseGoalTable_timed {raw : Table} {project workDir : String} {goal : Option GoalConfig}
    (parsed : parseGoalTable env raw project workDir = .ok goal) :
    ∀ config ∈ goal, ∀ check ∈ config.checks, 0 < check.timeoutS := by
  unfold parseGoalTable at parsed
  split at parsed
  · obtain ⟨_, -, rest⟩ := bind_eq_ok.mp parsed
    obtain ⟨config, own, built⟩ := bind_eq_ok.mp rest
    cases built
    rintro _ ⟨⟩
    simp only [parseGoal, bind_eq_ok] at own
    obtain ⟨_, -, rest⟩ := own
    split at rest
    · obtain ⟨_, checks, rest⟩ := bind_eq_ok.mp rest
      simp only [bind_eq_ok] at rest
      obtain ⟨_, -, _, -, built⟩ := rest
      cases built
      exact parseGoalChecks_timed checks
    · cases rest
  · cases parsed
    exact fun _ none_ => by cases none_

/-- What the numbers of a configuration keep to. -/
structure Admitted (cfg : Config) : Prop where
  grace : ∀ phase, Graceful (cfg.profileFor phase).agent
  checks : ∀ goal ∈ cfg.goal, ∀ check ∈ goal.checks, 0 < check.timeoutS

theorem profileFor_graceful {cfg : Config} (base : Graceful cfg.agent)
    (overrides : ∀ entry ∈ cfg.phases.overrides, ∀ agent ∈ entry.2.agent, Graceful agent)
    (phase : Option String) : Graceful (cfg.profileFor phase).agent := by
  unfold Config.profileFor
  split
  · exact base
  · rename_i ov found
    obtain ⟨name, -, found⟩ := Option.bind_eq_some_iff.mp found
    have held : (name, ov) ∈ cfg.phases.overrides := by
      obtain ⟨before, after, split_, -⟩ := List.lookup_eq_some_iff.mp found
      exact split_ ▸ List.mem_append_right _ (.head _)
    cases own : ov.agent with
    | none => exact base
    | some agent => exact overrides _ held agent own

theorem rejectControlChars_ok {value field : String} {done : Unit} :
    rejectControlChars env value field = .ok done ↔ env.isprintable value = true := by
  unfold rejectControlChars
  split <;> simp_all [refuse]

theorem parseRuntime_fields {runtimeD : Table} {project workDir : String} {runtime : RuntimeConfig}
    (parsed : parseRuntime env runtimeD project workDir = .ok runtime) :
    runtime.workDir = workDir ∧ 0 < runtime.restartDelayS := by
  simp only [parseRuntime] at parsed
  obtain ⟨-, parsed⟩ := unless_refused parsed
  obtain ⟨-, parsed⟩ := unless_refused parsed
  obtain ⟨_, -, parsed⟩ := bind_eq_ok.mp parsed
  obtain ⟨-, parsed⟩ := unless_refused parsed
  simp only [bind_eq_ok] at parsed
  obtain ⟨_, -, _, -, _, -, _, -, _, -, delay, positive, parsed⟩ := parsed
  obtain ⟨_, -, _, -, _, -, _, -, _, -, _, -, _, -, _, -, _, -, built⟩ := parsed
  cases built
  exact ⟨rfl, requirePositiveInt_pos positive⟩

/-- The runtime the loader accepts: a work directory that can be printed, and a delay. -/
theorem loadConfig_runtime {registry : Registry} {configDir : String} {raw : Table} {cfg : Config}
    (loaded : loadConfig env registry configDir raw = .ok cfg) :
    env.isprintable cfg.runtime.workDir = true ∧ 0 < cfg.runtime.restartDelayS := by
  have whole := loadConfig_parses loaded
  simp only [parseConfig, bind_eq_ok] at whole
  obtain ⟨_, -, _, -, _, -, _, -, workDir, checked, _, -, runtime, own, rest⟩ := whole
  obtain ⟨_, -, _, -, _, -, _, -, _, -, _, -, rest⟩ := rest
  obtain ⟨_, -, _, -, _, -, _, -, _, -, built⟩ := rest
  cases built
  obtain ⟨same, positive⟩ := parseRuntime_fields own
  simp only [parseWorkDir, bind_eq_ok] at checked
  obtain ⟨_, -, _, -, _, -, _, -, _, -, _, printable, built⟩ := checked
  cases built
  refine ⟨?_, positive⟩
  rw [same]
  exact rejectControlChars_ok.mp printable

/-- What the loader accepts keeps to its numbers. -/
theorem loadConfig_admitted {registry : Registry} {configDir : String} {raw : Table} {cfg : Config}
    (loaded : loadConfig env registry configDir raw = .ok cfg) : Admitted cfg := by
  have whole := loadConfig_parses loaded
  simp only [parseConfig, bind_eq_ok] at whole
  obtain ⟨_, -, agentD, -, agent, own, _, -, _, -, phases, phasesOwn, rest⟩ := whole
  obtain ⟨_, -, _, -, _, -, _, -, _, -, _, -, rest⟩ := rest
  obtain ⟨_, -, _, -, _, -, _, -, _, -, goal, goalOwn, built⟩ := rest
  cases built
  simp only [parsePhases, bind_eq_ok] at phasesOwn
  obtain ⟨_, -, _, -, phasesOwn⟩ := phasesOwn
  obtain ⟨-, phasesOwn⟩ := unless_refused phasesOwn
  obtain ⟨_, overrides, built⟩ := bind_eq_ok.mp phasesOwn
  cases built
  exact ⟨profileFor_graceful (parseAgent_graceful own) (parsePhaseOverrides_graceful overrides),
    parseGoalTable_timed goalOwn⟩

end AgentRunner.ConfigLimits
