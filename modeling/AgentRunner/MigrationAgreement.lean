import AgentRunner.Migrations

/-! The migrations beside the loader: on a document the loader accepts no migration fires,
except for a renamed plugin and for a template whose placeholder the two look for in
different places. -/
namespace AgentRunner.MigrationAgreement
open PyValue Toml Validators ConfigModels ConfigParsers LoadConfig MigrationEdits Migrations

variable (env : Env)

/-! ## The shape of an accepted document -/

/-- `prompt_delivery` as the loader reads it. -/
def delivery (d : Table) : String := str env (getOr d "prompt_delivery" (.str "argv"))

/-- What `_parse_agent` accepts of a table. -/
structure AgentShape (d : Table) (required : Bool) : Prop where
  keys : unknownFields d agentAllowedFields = []
  command : ∃ items, d.get? "command" = some (.arr items) ∧ items ≠ []
  template : ∃ items, d.get? "prompt_arg_template" = some (.arr items) ∧
    (delivery env d = "argv" ∨ delivery env d = "stdin") ∧
    (delivery env d = "stdin" → (items.map (str env)).any hasPlaceholder = false) ∧
    (delivery env d = "argv" → required = true → (items.map (str env)).any hasPlaceholder = true)

theorem checkDelivery_ok {label delivery : String} {template : List String} {required : Bool} :
    checkDelivery env label delivery template required = .ok () ↔
      (delivery = "argv" ∨ delivery = "stdin") ∧
      (delivery = "stdin" → template.any hasPlaceholder = false) ∧
      (delivery = "argv" → required = true → template.any hasPlaceholder = true) := by
  unfold checkDelivery
  split
  · rename_i unknown
    refine iff_of_false nofun fun ⟨known, _⟩ => ?_
    obtain rfl | rfl := known <;> cases unknown
  · rename_i known
    split
    · rename_i piped
      exact iff_of_false nofun fun ⟨_, plain, _⟩ =>
        absurd (piped.2.symm.trans (plain piped.1)) nofun
    · rename_i piped
      split
      · rename_i argued
        refine iff_of_false nofun fun ⟨_, _, carried⟩ => ?_
        exact absurd (argued.2.2.symm.trans (carried argued.1 argued.2.1)) nofun
      · rename_i argued
        refine iff_of_true rfl ⟨by simpa [imp_iff_not_or, or_comm] using known, ?_, ?_⟩
        · exact fun stdin => Bool.not_eq_true _ ▸ fun found => piped ⟨stdin, found⟩
        · exact fun argv needed => Bool.not_eq_false _ ▸ fun missing =>
            argued ⟨argv, needed, missing⟩

theorem parseAgent_shape {d : Table} {label : String} {required : Bool} {agent : AgentConfig}
    (parsed : parseAgent env d label required = .ok agent) : AgentShape env d required := by
  simp only [parseAgent, bind_eq_ok] at parsed
  obtain ⟨_, keys, rawTemplate, found, template, list, _, delivered, rest⟩ := parsed
  obtain ⟨rawCommand, given, command, commands, rest⟩ := rest
  obtain ⟨items, rfl, rfl⟩ := requireStrList_ok env list
  obtain ⟨tokens, rfl, rfl⟩ := requireStrList_ok env commands
  refine ⟨(rejectUnknownFields_ok env).mp keys, ⟨tokens, requireField_ok given, ?_⟩,
    items, requireField_ok found, (checkDelivery_ok env).mp delivered⟩
  rintro rfl
  cases rest

/-! ## Phases -/

theorem table_eq {p d : Table} {name : String} (found : p.get? name = some (.table d)) :
    table p name = d := by rw [table, found]

theorem table_missing {p : Table} {name : String} (missing : p.get? name = none) :
    table p name = [] := by rw [table, missing]

/-- What `_parse_phase_overrides` accepts of a phase's table over the base `[agent]`. -/
structure PhaseShape (agentD sub : Table) : Prop where
  keys : unknownFields sub phaseOverrideAllowedFields = []
  runtimeKeys : unknownFields (table sub "runtime") phaseRuntimeAllowedFields = []
  promptKeys : unknownFields (table sub "prompt") phasePromptAllowedFields = []
  scheduleKeys : unknownFields (table sub "schedule") scheduleAllowedFields = []
  files : ∀ value, (table sub "prompt").get? "files" = some value → ∃ items, value = .arr items
  agent : ∀ d, sub.get? "agent" = some (.table d) →
    AgentShape env (agentD.merge d) (!isEmptyField (table sub "prompt") "files")

theorem parsePhaseRuntime_ok {name : String} {sub : Table} {budget : Option Int}
    (parsed : parsePhaseRuntime env name sub = .ok budget) :
    unknownFields (table sub "runtime") phaseRuntimeAllowedFields = [] := by
  simp only [parsePhaseRuntime] at parsed
  split at parsed
  · rename_i missing
    rw [table_missing missing]
    rfl
  · rename_i runtime found
    rw [table_eq found]
    rw [pure_bind] at parsed
    split at parsed
    · assumption
    · obtain ⟨_, refused, -⟩ := bind_eq_ok.mp parsed
      cases refused
  · obtain ⟨_, refused, -⟩ := bind_eq_ok.mp parsed
    cases refused

theorem parsePhasePrompt_ok {name projectName workDir : String} {sub : Table}
    {files : Option (List String)}
    (parsed : parsePhasePrompt env name projectName workDir sub = .ok files) :
    unknownFields (table sub "prompt") phasePromptAllowedFields = [] ∧
      (∀ value, (table sub "prompt").get? "files" = some value → ∃ items, value = .arr items) ∧
      (files = some [] ↔ isEmptyField (table sub "prompt") "files" = true) := by
  unfold parsePhasePrompt at parsed
  split at parsed
  · rename_i missing
    cases parsed
    rw [table_missing missing]
    exact ⟨rfl, nofun, iff_of_false nofun nofun⟩
  · rename_i d found
    rw [table_eq found]
    split at parsed
    · cases parsed
    · rename_i raw given
      simp only [bind_eq_ok] at parsed
      obtain ⟨_, keys, texts, list, paths, mapped, built⟩ := parsed
      obtain ⟨items, rfl, rfl⟩ := requireStrList_ok env list
      cases built
      refine ⟨(rejectUnknownFields_ok env).mp keys, ?_, ?_⟩
      · intro value same
        rw [given] at same
        cases same
        exact ⟨items, rfl⟩
      · rw [isEmptyField, given, Option.some_inj, mapM_ok_nil mapped, List.map_eq_nil_iff]
        cases items with
        | nil => exact iff_of_true rfl rfl
        | cons => exact iff_of_false (List.cons_ne_nil _ _) nofun
  · cases parsed

/-- What is merged onto the base `[agent]`, for a prompt that may be disabled. -/
theorem parsePhaseAgent_ok {name : String} {sub agentD : Table} {files : Option (List String)}
    {agent : Option AgentConfig} (parsed : parsePhaseAgent env name sub agentD files = .ok agent)
    {d : Table} (own : sub.get? "agent" = some (.table d)) :
    AgentShape env (agentD.merge d) (files != some []) := by
  simp only [parsePhaseAgent, own] at parsed
  split at parsed
  · cases parsed
  · obtain ⟨agent, merged, -⟩ := bind_eq_ok.mp parsed
    exact parseAgent_shape env merged

theorem parseSchedule_ok {d : Table} {label : String} {schedule : ScheduleConfig}
    (parsed : parseSchedule env d label = .ok schedule) :
    unknownFields d scheduleAllowedFields = [] := by
  obtain ⟨_, keys, -⟩ := bind_eq_ok.mp parsed
  exact (rejectUnknownFields_ok env).mp keys

theorem parsePhaseSchedule_ok {name : String} {sub : Table} {schedule : Option ScheduleConfig}
    (parsed : parsePhaseSchedule env name sub = .ok schedule) :
    unknownFields (table sub "schedule") scheduleAllowedFields = [] := by
  unfold parsePhaseSchedule at parsed
  split at parsed
  · rename_i missing
    rw [table_missing missing]
    rfl
  · rename_i d found
    rw [table_eq found]
    obtain ⟨own, parsed, -⟩ := bind_eq_ok.mp parsed
    exact parseSchedule_ok env parsed
  · cases parsed

theorem parsePhaseOverride_ok {phasesList : Option (List String)} {projectName workDir : String}
    {agentD : Table} {name : String} {value : Value} {override_ : PhaseOverride}
    (parsed : parsePhaseOverride env phasesList projectName workDir agentD name value =
      .ok override_) :
    ∃ sub, value = .table sub ∧ PhaseShape env agentD sub := by
  unfold parsePhaseOverride at parsed
  split at parsed
  · rename_i sub
    refine ⟨sub, rfl, ?_⟩
    simp only at parsed
    split at parsed
    · obtain ⟨_, refused, -⟩ := bind_eq_ok.mp parsed
      cases refused
    · split at parsed
      · rename_i keys
        simp only [bind_eq_ok] at parsed
        obtain ⟨_, runtime, files, prompt, _, agent, _, schedule, -⟩ := parsed
        obtain ⟨promptKeys, list, disabled⟩ := parsePhasePrompt_ok env prompt
        refine ⟨keys, parsePhaseRuntime_ok env runtime, promptKeys,
          parsePhaseSchedule_ok env schedule, list, fun d own => ?_⟩
        have required : (files != some []) = !isEmptyField (table sub "prompt") "files" := by
          rw [Bool.eq_iff_iff, bne_iff_ne, ne_eq, disabled, Bool.not_eq_true, Bool.not_eq_true']
        exact required ▸ parsePhaseAgent_ok env agent own
      · obtain ⟨_, refused, -⟩ := bind_eq_ok.mp parsed
        cases refused
  · cases parsed

/-- Every item of `[phases]` but the two scalar ones is a phase's table. -/
theorem parsePhaseOverrides_ok {phasesList : Option (List String)} {projectName workDir : String}
    {agentD phasesD : Table} {overrides : List (String × PhaseOverride)}
    (parsed : parsePhaseOverrides env phasesList projectName workDir agentD phasesD =
      .ok overrides) :
    ∀ entry ∈ phasesD, entry.1 = "list" ∨ entry.1 = "phase_policy" ∨
      ∃ sub, entry.2 = .table sub ∧ PhaseShape env agentD sub := by
  induction phasesD generalizing overrides with
  | nil => nofun
  | cons entry rest ih =>
    obtain ⟨key, value⟩ := entry
    rw [parsePhaseOverrides] at parsed
    split at parsed
    · rename_i reserved
      rw [List.forall_mem_cons]
      exact ⟨reserved.elim .inl fun policy => .inr (.inl policy), ih parsed⟩
    · simp only [bind_eq_ok] at parsed
      obtain ⟨override_, one, later, others, -⟩ := parsed
      rw [List.forall_mem_cons]
      exact ⟨.inr (.inr (parsePhaseOverride_ok env one)), ih others⟩

/-! ## The whole document -/

/-- The field is missing or a list. -/
def ListField (d : Table) (key : String) : Prop :=
  ∀ value, d.get? key = some value → ∃ items, value = .arr items

/-- What `load_config` accepts of a document, as far as a migration looks at it. -/
structure DocumentShape (p : Table) : Prop where
  version : p.get? "schema_version" = some (.int currentSchemaVersion)
  tables : ∀ name ∈ topLevelTables, p.get? name = none ∨ ∃ d, p.get? name = some (.table d)
  agent : AgentShape env (table p "agent") true
  runtimeKeys : unknownFields (table p "runtime") runtimeAllowedFields = []
  promptKeys : unknownFields (table p "prompt") promptAllowedFields = []
  files : ListField (table p "prompt") "files" ∧ isEmptyField (table p "prompt") "files" = false
  vcsKeys : unknownFields (table p "vcs") vcsAllowedFields = []
  monitorKeys : unknownFields (table p "monitor") monitorAllowedFields = []
  hostHealthKeys : unknownFields (hostHealth p) monitorHostHealthAllowedFields = []
  autoStopOn : ListField (table p "monitor") "auto_stop_on"
  anomaly : ∃ threshold window,
    getOr (table p "monitor") "anomaly_repetitive_threshold" (.int 0) = .int threshold ∧
    getOr (table p "monitor") "anomaly_repetitive_window" (.int 0) = .int window ∧
    ¬ (0 < threshold ∧ 0 < window ∧ window < threshold)
  pluginsKeys : unknownFields (table p "plugins") pluginsAllowedFields = []
  disable : ListField (table p "plugins") "disable"
  scheduleKeys : unknownFields (table p "schedule") scheduleAllowedFields = []
  phasesList : ListField (table p "phases") "list"
  phasePolicy : ["wait", "skip"].contains
    (str env (getOr (table p "phases") "phase_policy" (.str "wait"))) = true
  phases : ∀ entry ∈ table p "phases", entry.1 = "list" ∨ entry.1 = "phase_policy" ∨
    ∃ sub, entry.2 = .table sub ∧ PhaseShape env (table p "agent") sub

theorem requireTable_shape {p d : Table} {name : String} {label : Option String}
    (passed : requireTable env p name label = .ok d) :
    (p.get? name = none ∨ ∃ d, p.get? name = some (.table d)) ∧ table p name = d := by
  obtain ⟨missing, rfl⟩ | found := requireTable_ok env passed
  · exact ⟨.inl missing, table_missing missing⟩
  · exact ⟨.inr ⟨d, found⟩, table_eq found⟩

theorem checkSchemaVersion_ok {p : Table} (passed : checkSchemaVersion env p = .ok ()) :
    p.get? "schema_version" = some (.int currentSchemaVersion) := by
  unfold checkSchemaVersion at passed
  split at passed
  · cases passed
  · rename_i version found
    split at passed
    · cases passed
    · split at passed
      · cases passed
      · rw [found, show version = currentSchemaVersion by omega]
  · cases passed

theorem parsePhasesList_ok {phasesD : Table} {list : Option (List String)}
    (parsed : parsePhasesList env phasesD = .ok list) : ListField phasesD "list" := by
  intro value found
  rw [parsePhasesList, found] at parsed
  obtain ⟨_, list, -⟩ := bind_eq_ok.mp parsed
  obtain ⟨items, same, -⟩ := requireStrList_ok env list
  exact ⟨items, same⟩

theorem parsePhases_ok {p agentD : Table} {projectName workDir : String} {phases : PhasesConfig}
    (parsed : parsePhases env p agentD projectName workDir = .ok phases) :
    (p.get? "phases" = none ∨ ∃ d, p.get? "phases" = some (.table d)) ∧
      ListField (table p "phases") "list" ∧
      ["wait", "skip"].contains
        (str env (getOr (table p "phases") "phase_policy" (.str "wait"))) = true ∧
      ∀ entry ∈ table p "phases", entry.1 = "list" ∨ entry.1 = "phase_policy" ∨
        ∃ sub, entry.2 = .table sub ∧ PhaseShape env agentD sub := by
  obtain ⟨phasesD, given, rest⟩ := bind_eq_ok.mp parsed
  obtain ⟨isTable, rfl⟩ := requireTable_shape env given
  obtain ⟨list, listed, rest⟩ := bind_eq_ok.mp rest
  obtain ⟨known, rest⟩ := unless_refused rest
  obtain ⟨_, parsed, -⟩ := bind_eq_ok.mp rest
  rw [Bool.not_eq_true, Bool.not_eq_false'] at known
  exact ⟨isTable, parsePhasesList_ok env listed, known, parsePhaseOverrides_ok env parsed⟩

theorem parseRuntime_ok {d : Table} {projectName workDir : String} {runtime : RuntimeConfig}
    (parsed : parseRuntime env d projectName workDir = .ok runtime) :
    unknownFields d runtimeAllowedFields = [] := by
  obtain ⟨-, rest⟩ := unless_refused parsed
  obtain ⟨-, rest⟩ := unless_refused rest
  obtain ⟨_, keys, -⟩ := bind_eq_ok.mp rest
  exact (rejectUnknownFields_ok env).mp keys

theorem parsePrompt_ok {d : Table} {projectName workDir : String} {prompt : PromptConfig}
    (parsed : parsePrompt env d projectName workDir = .ok prompt) :
    unknownFields d promptAllowedFields = [] ∧
      ListField d "files" ∧ isEmptyField d "files" = false := by
  simp only [parsePrompt, bind_eq_ok] at parsed
  obtain ⟨_, keys, _, -, _, files, -⟩ := parsed
  refine ⟨(rejectUnknownFields_ok env).mp keys, ?_⟩
  unfold parsePromptFiles at files
  split at files
  · cases files
  · cases files
  · rename_i missing
    rw [isEmptyField, missing]
    exact ⟨fun value found => absurd (missing.symm.trans found) nofun, rfl⟩
  · rename_i raw found
    obtain ⟨texts, list, rest⟩ := bind_eq_ok.mp files
    obtain ⟨filled, -⟩ := unless_refused rest
    obtain ⟨items, rfl, rfl⟩ := requireStrList_ok env list
    rw [ListField, isEmptyField, found]
    refine ⟨fun value same => ⟨items, (Option.some.inj same).symm⟩, ?_⟩
    cases items with
    | nil => exact absurd rfl filled
    | cons => rfl

theorem parseVcs_ok {d : Table} {vcs : VcsConfig} (parsed : parseVcs env d = .ok vcs) :
    unknownFields d vcsAllowedFields = [] := by
  obtain ⟨-, rest⟩ := unless_refused parsed
  obtain ⟨_, keys, -⟩ := bind_eq_ok.mp rest
  exact (rejectUnknownFields_ok env).mp keys

theorem parseHostHealth_ok {d : Table} {hostHealth : MonitorHostHealthConfig}
    (parsed : parseHostHealth env d = .ok hostHealth) :
    unknownFields (table d "host_health") monitorHostHealthAllowedFields = [] := by
  obtain ⟨hhD, given, rest⟩ := bind_eq_ok.mp parsed
  obtain ⟨_, keys, -⟩ := bind_eq_ok.mp rest
  rw [(requireTable_shape env given).2]
  exact (rejectUnknownFields_ok env).mp keys

theorem parseAutoStopOn_ok {d : Table} {names : List String}
    (parsed : parseAutoStopOn env d = .ok names) : ListField d "auto_stop_on" := by
  intro value found
  rw [parseAutoStopOn, found] at parsed
  obtain ⟨_, list, -⟩ := bind_eq_ok.mp parsed
  obtain ⟨items, same, -⟩ := requireStrList_ok env list
  exact ⟨items, same⟩

theorem checkAnomaly_ok {threshold window : Int} (passed : checkAnomaly threshold window = .ok ()) :
    ¬ (0 < threshold ∧ 0 < window ∧ window < threshold) := by
  intro unreachable
  rw [checkAnomaly, if_pos unreachable] at passed
  cases passed

theorem parseMonitor_ok {d : Table} {monitor : MonitorConfig}
    (parsed : parseMonitor env d = .ok monitor) :
    unknownFields d monitorAllowedFields = [] ∧
      unknownFields (table d "host_health") monitorHostHealthAllowedFields = [] ∧
      ListField d "auto_stop_on" ∧ ∃ threshold window,
        getOr d "anomaly_repetitive_threshold" (.int 0) = .int threshold ∧
        getOr d "anomaly_repetitive_window" (.int 0) = .int window ∧
        ¬ (0 < threshold ∧ 0 < window ∧ window < threshold) := by
  simp only [parseMonitor, bind_eq_ok] at parsed
  obtain ⟨_, keys, _, health, _, -, _, listed, _, -, window, w, threshold, t, rest⟩ := parsed
  obtain ⟨_, -, _, -, _, reachable, -⟩ := rest
  exact ⟨(rejectUnknownFields_ok env).mp keys, parseHostHealth_ok env health,
    parseAutoStopOn_ok env listed, threshold, window, requireInt_ok env t, requireInt_ok env w,
    checkAnomaly_ok reachable⟩

theorem parsePlugins_ok {d : Table} {plugins : PluginsConfig}
    (parsed : parsePlugins env d = .ok plugins) :
    unknownFields d pluginsAllowedFields = [] ∧ ListField d "disable" := by
  obtain ⟨_, keys, rest⟩ := bind_eq_ok.mp parsed
  refine ⟨(rejectUnknownFields_ok env).mp keys, fun value found => ?_⟩
  simp only [found] at rest
  obtain ⟨_, list, -⟩ := bind_eq_ok.mp rest
  obtain ⟨items, same, -⟩ := requireStrList_ok env list
  exact ⟨items, same⟩

/-- An accepted document has the shape. -/
theorem parseConfig_shape {configDir : String} {p : Table} {cfg : Config}
    (parsed : parseConfig env configDir p = .ok cfg) : DocumentShape env p := by
  simp only [parseConfig, bind_eq_ok] at parsed
  obtain ⟨_, version, agentD, agentT, _, agent, runtimeD, runtimeT, workDir, -, rest⟩ := parsed
  obtain ⟨_, phases, _, runtime, promptD, promptT, _, prompt, vcsD, vcsT, _, vcs, rest⟩ := rest
  obtain ⟨monitorD, monitorT, _, monitor, pluginsD, pluginsT, _, plugins, rest⟩ := rest
  obtain ⟨scheduleD, scheduleT, _, schedule, -⟩ := rest
  obtain ⟨agentGiven, rfl⟩ := requireTable_shape env agentT
  obtain ⟨runtimeGiven, rfl⟩ := requireTable_shape env runtimeT
  obtain ⟨promptGiven, rfl⟩ := requireTable_shape env promptT
  obtain ⟨vcsGiven, rfl⟩ := requireTable_shape env vcsT
  obtain ⟨monitorGiven, rfl⟩ := requireTable_shape env monitorT
  obtain ⟨pluginsGiven, rfl⟩ := requireTable_shape env pluginsT
  obtain ⟨scheduleGiven, rfl⟩ := requireTable_shape env scheduleT
  obtain ⟨phasesGiven, phasesList, phasePolicy, overrides⟩ := parsePhases_ok env phases
  obtain ⟨promptKeys, files⟩ := parsePrompt_ok env prompt
  obtain ⟨monitorKeys, hostHealthKeys, autoStopOn, anomaly⟩ := parseMonitor_ok env monitor
  obtain ⟨pluginsKeys, disable⟩ := parsePlugins_ok env plugins
  refine ⟨checkSchemaVersion_ok env version, ?_, parseAgent_shape env agent,
    parseRuntime_ok env runtime, promptKeys, files, parseVcs_ok env vcs, monitorKeys,
    hostHealthKeys, autoStopOn, anomaly, pluginsKeys, disable, parseSchedule_ok env schedule,
    phasesList, phasePolicy, overrides⟩
  simp only [topLevelTables, List.forall_mem_cons]
  exact ⟨agentGiven, runtimeGiven, promptGiven, vcsGiven, monitorGiven, phasesGiven, pluginsGiven,
    scheduleGiven, nofun⟩

end AgentRunner.MigrationAgreement
