import AgentRunner.MigrationSilence

/-! Which refusals ask for `agent-runner migrate`: a check that passes on, parser by
parser, and what of a table keeps each parser from asking. -/
namespace AgentRunner.HintedErrors
open PyValue Toml Validators ConfigModels ConfigParsers LoadConfig Migrations
open MigrationAgreement MigrationSilence

/-- The check does not ask for `agent-runner migrate`, whether or not it passes. -/
def Unhinted {α : Type} (check : Checked α) : Prop :=
  ∀ message, check ≠ .error (.config ⟨message, true⟩)

section Rules
variable {α β : Type}

@[simp] theorem unhinted_ok (a : α) : Unhinted (.ok a : Checked α) := fun _ => nofun

@[simp] theorem unhinted_pure (a : α) : Unhinted (pure a : Checked α) := fun _ => nofun

@[simp] theorem unhinted_refuse (message : String) : Unhinted (refuse message : Checked α) :=
  fun _ => nofun

@[simp] theorem unhinted_other (e : PyErr) : Unhinted (.error (.other e) : Checked α) :=
  fun _ => nofun

@[simp] theorem not_unhinted (message : String) :
    ¬ Unhinted (refuseMigrate message : Checked α) := fun unhinted => unhinted message rfl

@[simp] theorem refuse_bind (message : String) (next : α → Checked β) :
    (refuse message : Checked α) >>= next = refuse message := rfl

@[simp] theorem refuseMigrate_bind (message : String) (next : α → Checked β) :
    (refuseMigrate message : Checked α) >>= next = refuseMigrate message := rfl

/-- Of two checks the second only matters where the first passes. -/
theorem unhinted_bind {first : Checked α} {next : α → Checked β} :
    Unhinted (first >>= next) ↔ Unhinted first ∧ ∀ a, first = .ok a → Unhinted (next a) := by
  cases first with
  | ok a =>
    exact ⟨fun rest => ⟨unhinted_ok a, fun b same => by cases same; exact rest⟩,
      fun both => both.2 a rfl⟩
  | error e =>
    refine ⟨fun rest => ⟨fun message same => ?_, fun _ => nofun⟩, fun both message same => ?_⟩
    · cases same
      exact rest message rfl
    · cases same
      exact both.1 message rfl

theorem unhinted_ite {test : Prop} [Decidable test] {yes no : Checked α} :
    Unhinted (if test then yes else no) ↔ (test → Unhinted yes) ∧ (¬ test → Unhinted no) := by
  split
  · rename_i holds
    exact ⟨fun unhinted => ⟨fun _ => unhinted, absurd holds⟩, fun both => both.1 holds⟩
  · rename_i fails
    exact ⟨fun unhinted => ⟨fun holds => absurd holds fails, fun _ => unhinted⟩,
      fun both => both.2 fails⟩

@[simp] theorem unhinted_map {f : α → β} {check : Checked α} :
    Unhinted (f <$> check) ↔ Unhinted check := by
  cases check with
  | ok a => exact iff_of_true (unhinted_ok _) (unhinted_ok _)
  | error e =>
    constructor
    all_goals
      intro unhinted message same
      cases same
      exact unhinted message rfl

theorem unhinted_mapM {f : α → Checked β} (each : ∀ a, Unhinted (f a)) (xs : List α) :
    Unhinted (xs.mapM f) := by
  induction xs with
  | nil => exact unhinted_ok _
  | cons x rest ih =>
    rw [List.mapM_cons, unhinted_bind]
    refine ⟨each x, fun y _ => ?_⟩
    rw [unhinted_bind]
    exact ⟨ih, fun _ _ => unhinted_pure _⟩

end Rules

/-! ## Checks that never ask -/

variable (env : Env)

@[simp] theorem lift_unhinted {α : Type} (call : Except PyErr α) : Unhinted (lift call) := by
  cases call with
  | ok a => exact unhinted_ok a
  | error e => exact unhinted_other e

@[simp] theorem refuseType_unhinted {α : Type} (field wanted : String) (value : Value) :
    Unhinted (refuseType env field wanted value : Checked α) := unhinted_refuse _

@[simp] theorem rejectControlChars_unhinted (value field : String) :
    Unhinted (rejectControlChars env value field) := by
  simp [rejectControlChars, unhinted_ite]

@[simp] theorem require_unhinted (path : List String) (value : Value) (rest : List String) :
    Unhinted (require path value rest) := by
  induction rest generalizing value with
  | nil => cases value <;> exact unhinted_ok _
  | cons key rest ih =>
    cases value with
    | table d =>
      rw [require]
      split
      · exact ih _
      · exact unhinted_refuse _
    | _ => exact unhinted_refuse _

@[simp] theorem requireField_unhinted (d : Table) (field : String) :
    Unhinted (requireField d field) := require_unhinted _ _ _

@[simp] theorem expandPath_unhinted (path project : String) :
    Unhinted (expandPath env path project) := lift_unhinted _

@[simp] theorem expandAndResolve_unhinted (path project workDir : String) :
    Unhinted (expandAndResolve env path project workDir) := by
  simp [expandAndResolve, unhinted_bind, unhinted_ite]

@[simp] theorem requirePositiveInt_unhinted (value : Value) (field : String) :
    Unhinted (requirePositiveInt env value field) := by
  cases value <;> simp [requirePositiveInt, unhinted_ite]

@[simp] theorem requireNonNegativeInt_unhinted (value : Value) (field : String) :
    Unhinted (requireNonNegativeInt env value field) := by
  cases value <;> simp [requireNonNegativeInt, unhinted_ite]

@[simp] theorem requireBool_unhinted (value : Value) (field : String) :
    Unhinted (requireBool env value field) := by
  cases value <;> simp [requireBool]

@[simp] theorem requireNumber_unhinted (value : Value) (field : String) :
    Unhinted (requireNumber env value field) := by
  cases value with
  | int n =>
    rw [requireNumber]
    split
    · exact unhinted_ok _
    · exact unhinted_other _
  | _ => simp [requireNumber]

@[simp] theorem requirePct_unhinted (value : Value) (field : String) :
    Unhinted (requirePct env value field) := by
  rw [requirePct, unhinted_bind]
  refine ⟨requireNumber_unhinted _ _ _, fun v _ => ?_⟩
  cases v <;> simp [unhinted_ite]

@[simp] theorem requirePositivePct_unhinted (value : Value) (field : String) :
    Unhinted (requirePositivePct env value field) := by
  simp [requirePositivePct, unhinted_bind, unhinted_ite]

@[simp] theorem requirePositiveFloat_unhinted (value : Value) (field : String) :
    Unhinted (requirePositiveFloat env value field) := by
  simp [requirePositiveFloat, unhinted_bind, unhinted_ite]

@[simp] theorem validatePatterns_unhinted (field : String) (values : List Value) :
    Unhinted (validatePatterns env field values) := by
  induction values with
  | nil => exact unhinted_ok _
  | cons value rest ih =>
    cases value with
    | str p =>
      rw [validatePatterns]
      split
      · exact unhinted_refuse _
      · exact unhinted_map.mpr ih
    | _ => exact unhinted_refuse _

@[simp] theorem validateRegexList_unhinted (value : Value) (field : String) :
    Unhinted (validateRegexList env value field) := by
  cases value <;> simp [validateRegexList]

/-! ## Checks that ask -/

/-- The field is missing or a table. -/
def TableField (d : Table) (key : String) : Prop :=
  ∀ value, d.get? key = some value → ∃ t, value = .table t

theorem requireTable_unhinted {raw : Table} {key : String} {label : Option String} :
    Unhinted (requireTable env raw key label) ↔ TableField raw key := by
  unfold requireTable TableField
  split
  · rename_i missing
    exact iff_of_true (unhinted_ok _) fun value found => absurd (missing.symm.trans found) nofun
  · rename_i d found
    exact iff_of_true (unhinted_ok _) fun value same =>
      ⟨d, Option.some.inj (same.symm.trans found)⟩
  · rename_i value other found
    refine iff_of_false (not_unhinted _) fun tables => ?_
    obtain ⟨t, rfl⟩ := tables value found
    exact other t rfl

theorem rejectUnknownFields_unhinted {d : Table} {allowed : List String} {label : String} :
    Unhinted (rejectUnknownFields env d allowed label) ↔ unknownFields d allowed = [] := by
  unfold rejectUnknownFields
  split
  · rename_i none_
    exact iff_of_true (unhinted_ok _) none_
  · rename_i unknown some_
    exact iff_of_false (not_unhinted _) some_

theorem requireStrList_unhinted {value : Value} {field : String} :
    Unhinted (requireStrList env value field) ↔ ∃ items, value = .arr items := by
  cases value with
  | arr items => exact iff_of_true (unhinted_ok _) ⟨items, rfl⟩
  | _ => exact iff_of_false (not_unhinted _) nofun

theorem checkDelivery_unhinted {label delivery : String} {template : List String}
    {required : Bool}
    (carried : delivery = "argv" → required = true → template.any hasPlaceholder = true) :
    Unhinted (checkDelivery env label delivery template required) := by
  unfold checkDelivery
  split
  · exact unhinted_refuse _
  · split
    · exact unhinted_refuse _
    · split
      · rename_i argued
        exact absurd ((carried argued.1 argued.2.1).symm.trans argued.2.2) nofun
      · exact unhinted_ok _

/-- What keeps `_parse_agent` from asking. -/
structure AgentHintless (d : Table) (required : Bool) : Prop where
  keys : unknownFields d agentAllowedFields = []
  template : ListField d "prompt_arg_template"
  placeholder : required = true → delivery env d = "argv" →
    ∀ items, d.get? "prompt_arg_template" = some (.arr items) →
      (items.map (str env)).any hasPlaceholder = true
  command : ∀ value, d.get? "command" = some value → ∃ items, value = .arr items ∧ items ≠ []
  envTable : TableField d "env"
  execPrefix : ListField d "exec_prefix"

theorem getOr_list {d : Table} {key : String} (list : ListField d key) :
    ∃ items, ConfigParsers.getOr d key (.arr []) = .arr items := by
  rw [ConfigParsers.getOr]
  cases found : d.get? key with
  | none => exact ⟨[], rfl⟩
  | some value => exact list value found

theorem parseAgent_unhinted {d : Table} {label : String} {required : Bool}
    (hintless : AgentHintless env d required) : Unhinted (parseAgent env d label required) := by
  simp only [parseAgent, unhinted_bind]
  refine ⟨(rejectUnknownFields_unhinted env).mpr hintless.keys, fun _ _ =>
    ⟨requireField_unhinted _ _, fun rawTemplate found => ?_⟩⟩
  have template := requireField_ok found
  refine ⟨(requireStrList_unhinted env).mpr (hintless.template _ template), fun texts list => ?_⟩
  obtain ⟨items, rfl, rfl⟩ := requireStrList_ok env list
  refine ⟨checkDelivery_unhinted env fun argv needed => hintless.placeholder needed argv _ template,
    fun _ _ => ⟨requireField_unhinted _ _, fun rawCommand given => ?_⟩⟩
  obtain ⟨tokens, rfl, filled⟩ := hintless.command _ (requireField_ok given)
  refine ⟨(requireStrList_unhinted env).mpr ⟨tokens, rfl⟩, fun texts list => ?_⟩
  obtain ⟨_, same, rfl⟩ := requireStrList_ok env list
  cases same
  rw [unhinted_ite]
  refine ⟨fun empty => absurd (List.map_eq_nil_iff.mp (List.isEmpty_iff.mp empty)) filled,
    fun _ => ?_⟩
  simp only [unhinted_bind]
  refine ⟨(requireTable_unhinted env).mpr hintless.envTable, fun _ _ =>
    ⟨(requireStrList_unhinted env).mpr (getOr_list hintless.execPrefix), fun _ _ => ?_⟩⟩
  simp [validateSigtermGraceS, requireAtMost, unhinted_bind, unhinted_ite]

@[simp] theorem parseWindows_unhinted (field : String) (values : List Value) :
    Unhinted (parseWindows env field values) := by
  induction values with
  | nil => exact unhinted_ok _
  | cons value rest ih =>
    rw [parseWindows]
    split
    · exact unhinted_refuse _
    · exact unhinted_map.mpr ih

@[simp] theorem parseWindowList_unhinted (d : Table) (label key : String) :
    Unhinted (parseWindowList env d label key) := by
  unfold parseWindowList
  split
  · exact parseWindows_unhinted env _ _
  · exact unhinted_refuse _

theorem parseSchedule_unhinted {d : Table} {label : String}
    (keys : unknownFields d scheduleAllowedFields = []) :
    Unhinted (parseSchedule env d label) := by
  simp only [parseSchedule, unhinted_bind, unhinted_ite]
  simp [(rejectUnknownFields_unhinted env).mpr keys]

/-! ## Phases -/

@[simp] theorem parsePhaseRuntime_unhinted (name : String) (sub : Table) :
    Unhinted (parsePhaseRuntime env name sub) := by
  simp only [parsePhaseRuntime]
  split
  · simp only [pure_bind, unknownFields, Table.keys, List.map_nil, List.filter_nil, unhinted_ite]
    refine ⟨fun _ => unhinted_refuse _, fun _ => ?_⟩
    split <;> simp
  · simp only [pure_bind]
    split
    · rw [unhinted_ite]
      refine ⟨fun _ => unhinted_refuse _, fun _ => ?_⟩
      split <;> simp
    · exact unhinted_refuse _
  · exact unhinted_refuse _

/-- What keeps a phase's table from asking, over the base `[agent]`. -/
structure PhaseHintless (agentD sub : Table) : Prop where
  promptKeys : unknownFields (table sub "prompt") phasePromptAllowedFields = []
  files : ListField (table sub "prompt") "files"
  agent : ∀ d, sub.get? "agent" = some (.table d) → Table.has d "exec_prefix" = false →
    AgentHintless env (agentD.merge d) (!isEmptyField (table sub "prompt") "files")
  scheduleKeys : unknownFields (table sub "schedule") scheduleAllowedFields = []

theorem parsePhasePrompt_unhinted {name project workDir : String} {sub : Table}
    (keys : unknownFields (table sub "prompt") phasePromptAllowedFields = [])
    (files : ListField (table sub "prompt") "files") :
    Unhinted (parsePhasePrompt env name project workDir sub) := by
  unfold parsePhasePrompt
  split
  · exact unhinted_ok _
  · rename_i d found
    rw [table_eq found] at keys files
    split
    · exact unhinted_refuse _
    · rename_i raw given
      simp only [unhinted_bind]
      refine ⟨(rejectUnknownFields_unhinted env).mpr keys, fun _ _ =>
        ⟨(requireStrList_unhinted env).mpr (files _ given), fun texts _ => ⟨?_, ?_⟩⟩⟩
      · exact unhinted_mapM (fun _ => expandAndResolve_unhinted env _ _ _) _
      · exact fun _ _ => unhinted_pure _
  · exact unhinted_refuse _

theorem parsePhaseAgent_unhinted {name : String} {sub agentD : Table}
    {files : Option (List String)}
    (agent : ∀ d, sub.get? "agent" = some (.table d) → Table.has d "exec_prefix" = false →
      AgentHintless env (agentD.merge d) (files != some [])) :
    Unhinted (parsePhaseAgent env name sub agentD files) := by
  unfold parsePhaseAgent
  split
  · exact unhinted_ok _
  · rename_i d found
    split
    · exact unhinted_refuse _
    · rename_i plain
      exact unhinted_map.mpr (parseAgent_unhinted env (agent d found (Bool.not_eq_true _ ▸ plain)))
  · exact unhinted_refuse _

theorem parsePhaseSchedule_unhinted {name : String} {sub : Table}
    (keys : unknownFields (table sub "schedule") scheduleAllowedFields = []) :
    Unhinted (parsePhaseSchedule env name sub) := by
  unfold parsePhaseSchedule
  split
  · exact unhinted_ok _
  · rename_i d found
    rw [table_eq found] at keys
    exact unhinted_map.mpr (parseSchedule_unhinted env keys)
  · exact unhinted_refuse _

theorem parsePhaseOverride_unhinted {list : Option (List String)} {project workDir name : String}
    {agentD sub : Table} (hintless : PhaseHintless env agentD sub) :
    Unhinted (parsePhaseOverride env list project workDir agentD name (.table sub)) := by
  simp only [parsePhaseOverride, unhinted_ite]
  refine ⟨fun _ => unhinted_refuse _, fun _ => ?_⟩
  split
  · simp only [unhinted_bind]
    refine ⟨parsePhaseRuntime_unhinted env _ _, fun _ _ =>
      ⟨parsePhasePrompt_unhinted env hintless.promptKeys hintless.files, fun files prompt => ?_⟩⟩
    have required : (files != some []) = !isEmptyField (table sub "prompt") "files" := by
      rw [Bool.eq_iff_iff, bne_iff_ne, ne_eq, (parsePhasePrompt_ok env prompt).2.2,
        Bool.not_eq_true, Bool.not_eq_true']
    refine ⟨parsePhaseAgent_unhinted env (required ▸ hintless.agent), fun _ _ =>
      ⟨parsePhaseSchedule_unhinted env hintless.scheduleKeys, fun _ _ => unhinted_pure _⟩⟩
  · exact unhinted_refuse _

theorem parsePhaseOverrides_unhinted {list : Option (List String)} {project workDir : String}
    {agentD phasesD : Table}
    (hintless : ∀ entry ∈ phasesD, entry.1 = "list" ∨ entry.1 = "phase_policy" ∨
      ∃ sub, entry.2 = .table sub ∧ PhaseHintless env agentD sub) :
    Unhinted (parsePhaseOverrides env list project workDir agentD phasesD) := by
  induction phasesD with
  | nil => exact unhinted_ok _
  | cons entry rest ih =>
    obtain ⟨key, value⟩ := entry
    rw [List.forall_mem_cons] at hintless
    rw [parsePhaseOverrides, unhinted_ite]
    refine ⟨fun _ => ih hintless.2, fun other => ?_⟩
    obtain reserved | reserved | ⟨sub, rfl, phase⟩ := hintless.1
    · exact absurd (.inl reserved) other
    · exact absurd (.inr reserved) other
    · rw [unhinted_bind]
      exact ⟨parsePhaseOverride_unhinted env phase, fun _ _ => unhinted_map.mpr (ih hintless.2)⟩

/-! ## The base tables -/

@[simp] theorem requireAtMost_unhinted (n most : Int) (field note : String) :
    Unhinted (requireAtMost n most field note) := by
  simp [requireAtMost, unhinted_ite]

theorem parseRuntime_unhinted {d : Table} {project workDir : String}
    (keys : unknownFields d runtimeAllowedFields = []) :
    Unhinted (parseRuntime env d project workDir) := by
  have path : ∀ key, Unhinted (optionalPath env d key project workDir) := fun key => by
    unfold optionalPath
    split <;> simp
  have positive : ∀ key field, Unhinted (optionalPositiveInt env d key field) :=
    fun key field => by
      unfold optionalPositiveInt
      split <;> simp
  have globs : Unhinted (parseSubstrateFingerprintPaths env d) := by
    unfold parseSubstrateFingerprintPaths
    split <;> simp
  rw [parseRuntime, if_neg (by rw [has_of_unknown keys (by decide)]; exact nofun),
    if_neg (by rw [has_of_unknown keys (by decide)]; exact nofun)]
  simp [unhinted_bind, unhinted_ite, (rejectUnknownFields_unhinted env).mpr keys, path, positive,
    globs]

/-- The files of `[prompt]` are missing or a list with something in it. -/
def FilledField (d : Table) (key : String) : Prop :=
  ∀ value, d.get? key = some value → ∃ items, value = .arr items ∧ items ≠ []

theorem parsePrompt_unhinted {d : Table} {project workDir : String}
    (keys : unknownFields d promptAllowedFields = []) (files : FilledField d "files") :
    Unhinted (parsePrompt env d project workDir) := by
  have mode : ∀ value, Unhinted (checkInjectionMode env value) := by
    intro value
    cases value <;> simp [checkInjectionMode, unhinted_ite]
  have given : Unhinted (parsePromptFiles env d project workDir) := by
    unfold parsePromptFiles
    split
    · exact unhinted_refuse _
    · exact unhinted_refuse _
    · simp
    · rename_i raw _ found
      obtain ⟨items, rfl, filled⟩ := files raw found
      rw [unhinted_bind]
      refine ⟨(requireStrList_unhinted env).mpr ⟨items, rfl⟩, fun texts list => ?_⟩
      obtain ⟨_, same, rfl⟩ := requireStrList_ok env list
      cases same
      rw [unhinted_ite]
      refine ⟨fun empty => absurd (List.map_eq_nil_iff.mp (List.isEmpty_iff.mp empty)) filled,
        fun _ => unhinted_map.mpr (unhinted_mapM (fun _ => expandAndResolve_unhinted env _ _ _) _)⟩
  simp [parsePrompt, unhinted_bind, (rejectUnknownFields_unhinted env).mpr keys, mode, given]

theorem parseVcs_unhinted {d : Table} (keys : unknownFields d vcsAllowedFields = []) :
    Unhinted (parseVcs env d) := by
  rw [parseVcs, if_neg (by rw [has_of_unknown keys (by decide)]; exact nofun)]
  simp [unhinted_bind, unhinted_ite, (rejectUnknownFields_unhinted env).mpr keys]

def hostHealthTables : List (String × List String) :=
  [("disk", hostHealthDiskAllowedFields), ("memory", hostHealthMemoryAllowedFields),
    ("pressure", hostHealthPressureAllowedFields), ("brake", hostHealthBrakeAllowedFields)]

/-- The sub-tables of `[monitor.host_health]` are tables of known keys. -/
def HostHealthKnown (hhD : Table) : Prop :=
  ∀ entry ∈ hostHealthTables, TableField hhD entry.1 ∧
    unknownFields (table hhD entry.1) entry.2 = []

theorem parseHostHealth_unhinted {d : Table} (isTable : TableField d "host_health")
    (keys : unknownFields (table d "host_health") monitorHostHealthAllowedFields = [])
    (known : HostHealthKnown (table d "host_health")) : Unhinted (parseHostHealth env d) := by
  have sub : ∀ entry ∈ hostHealthTables,
      Unhinted (hostHealthTable env (table d "host_health") entry.1 entry.2) := by
    intro entry member
    obtain ⟨tables, fields⟩ := known entry member
    simp only [hostHealthTable, unhinted_bind]
    refine ⟨(requireTable_unhinted env).mpr tables, fun t given => ?_⟩
    rw [(requireTable_shape env given).2] at fields
    exact ⟨(rejectUnknownFields_unhinted env).mpr fields, fun _ _ => unhinted_pure _⟩
  simp only [hostHealthTables, List.forall_mem_cons] at sub
  obtain ⟨disk, memory, pressure, brake, -⟩ := sub
  simp only [parseHostHealth, unhinted_bind]
  refine ⟨(requireTable_unhinted env).mpr isTable, fun hhD given => ?_⟩
  obtain ⟨-, rfl⟩ := requireTable_shape env given
  refine ⟨(rejectUnknownFields_unhinted env).mpr keys, fun _ _ => ⟨disk, fun _ _ =>
    ⟨memory, fun _ _ => ⟨pressure, fun _ _ => ⟨brake, fun _ _ => ?_⟩⟩⟩⟩⟩
  simp [parseDisk, parseMemory, parsePressure, parseBrake, hostHealthField,
    validateBrakeStepPct, unhinted_bind]

theorem parsePlugins_unhinted {d : Table} (keys : unknownFields d pluginsAllowedFields = [])
    (disable : ListField d "disable") : Unhinted (parsePlugins env d) := by
  rw [parsePlugins, unhinted_bind]
  refine ⟨(rejectUnknownFields_unhinted env).mpr keys, fun _ _ => ?_⟩
  split
  · exact unhinted_pure _
  · rename_i raw found
    exact unhinted_map.mpr ((requireStrList_unhinted env).mpr (disable raw found))

/-! ## `[monitor]` and `[goal]` -/

theorem parseAutoStopOn_unhinted {d : Table} (list : ListField d "auto_stop_on") :
    Unhinted (parseAutoStopOn env d) := by
  unfold parseAutoStopOn
  split
  · exact unhinted_ok _
  · rename_i raw found
    rw [validateAutoStopOn, unhinted_bind]
    refine ⟨(requireStrList_unhinted env).mpr (list raw found), fun names _ => ?_⟩
    split
    · exact unhinted_refuse _
    · exact unhinted_pure _

@[simp] theorem parseSupervisorStaleThreshold_unhinted (d : Table) :
    Unhinted (parseSupervisorStaleThreshold env d) := by
  unfold parseSupervisorStaleThreshold
  split <;> simp

/-- The threshold does not lie above its window, where both are positive ints. -/
def Reachable (d : Table) : Prop :=
  ∀ threshold window, getOr d "anomaly_repetitive_threshold" (.int 0) = .int threshold →
    getOr d "anomaly_repetitive_window" (.int 0) = .int window →
    ¬ (0 < threshold ∧ 0 < window ∧ window < threshold)

theorem parseMonitor_unhinted {d : Table} (keys : unknownFields d monitorAllowedFields = [])
    (health : Unhinted (parseHostHealth env d)) (autoStopOn : ListField d "auto_stop_on")
    (reachable : Reachable d) : Unhinted (parseMonitor env d) := by
  simp only [parseMonitor, unhinted_bind]
  refine ⟨(rejectUnknownFields_unhinted env).mpr keys, fun _ _ => ⟨health, fun _ _ =>
    ⟨validateRegexList_unhinted env _ _, fun _ _ => ⟨parseAutoStopOn_unhinted env autoStopOn,
      fun _ _ => ⟨?_, fun _ _ => ⟨requireNonNegativeInt_unhinted env _ _, fun window w =>
        ⟨requireNonNegativeInt_unhinted env _ _, fun threshold t => ?_⟩⟩⟩⟩⟩⟩⟩
  · simp [validateRemoteFailureTolerance, unhinted_bind]
  · have low := reachable threshold window (requireInt_ok env t)
      (requireInt_ok env w)
    refine ⟨requireNonNegativeInt_unhinted env _ _, fun _ _ =>
      ⟨parseSupervisorStaleThreshold_unhinted env _, fun _ _ => ⟨?_, fun _ _ =>
        unhinted_pure _⟩⟩⟩
    rw [checkAnomaly, if_neg low]
    exact unhinted_ok _

/-- What keeps a `[[goal.checks]]` entry from asking. -/
def CheckHintless (check : Value) : Prop :=
  ∀ d, check = .table d → unknownFields d goalCheckAllowedFields = [] ∧ ListField d "cmd"

theorem parseGoalCheck_unhinted {check : Value} (hintless : CheckHintless check) (index : Nat) :
    Unhinted (parseGoalCheck env index check) := by
  unfold parseGoalCheck
  split
  · rename_i d
    obtain ⟨keys, cmd⟩ := hintless d rfl
    simp only [unhinted_bind]
    refine ⟨(rejectUnknownFields_unhinted env).mpr keys, fun _ _ =>
      ⟨requireField_unhinted _ _, fun _ _ => ⟨requireField_unhinted _ _, fun raw found =>
        ⟨(requireStrList_unhinted env).mpr (cmd raw (requireField_ok found)), fun _ _ => ?_⟩⟩⟩⟩
    simp [unhinted_bind, unhinted_ite]
  · exact unhinted_refuse _

theorem parseGoalChecks_unhinted {checks : List Value} (hintless : ∀ check ∈ checks,
    CheckHintless check) (index : Nat) : Unhinted (parseGoalChecks env index checks) := by
  induction checks generalizing index with
  | nil => exact unhinted_ok _
  | cons check rest ih =>
    rw [List.forall_mem_cons] at hintless
    simp only [parseGoalChecks, unhinted_bind]
    exact ⟨parseGoalCheck_unhinted env hintless.1 index, fun _ _ => ⟨ih hintless.2 _, fun _ _ =>
      unhinted_pure _⟩⟩

/-- What keeps the `[goal]` table from asking. -/
structure GoalHintless (p : Table) : Prop where
  isTable : TableField p "goal"
  keys : unknownFields (table p "goal") goalAllowedFields = []
  checks : ∀ items, (table p "goal").get? "checks" = some (.arr items) →
    ∀ check ∈ items, CheckHintless check

theorem parseGoalTable_unhinted {p : Table} {project workDir : String}
    (hintless : GoalHintless p) : Unhinted (parseGoalTable env p project workDir) := by
  unfold parseGoalTable
  split
  · simp only [unhinted_bind]
    refine ⟨(requireTable_unhinted env).mpr hintless.isTable, fun goalD given => ⟨?_, fun _ _ =>
      unhinted_pure _⟩⟩
    obtain ⟨-, rfl⟩ := requireTable_shape env given
    simp only [parseGoal, unhinted_bind]
    refine ⟨(rejectUnknownFields_unhinted env).mpr hintless.keys, fun _ _ => ?_⟩
    split
    · rename_i raw given
      rw [unhinted_bind]
      refine ⟨parseGoalChecks_unhinted env ?_ 0, fun _ _ => by simp [unhinted_bind]⟩
      rw [ConfigParsers.getOr] at given
      cases found : (table p "goal").get? "checks" with
      | none =>
        rw [found] at given
        cases given
        intro _ member
        cases member
      | some value =>
        rw [found] at given
        cases given
        exact hintless.checks _ found
    · exact unhinted_refuse _
  · exact unhinted_ok _

/-! ## The whole document -/

/-- The version is there, and no int below the current one. -/
def Versioned (p : Table) : Prop :=
  ∃ value, p.get? "schema_version" = some value ∧
    ∀ version, value = .int version → currentSchemaVersion ≤ version

/-- What keeps `load_config` from asking, apart from the version. -/
structure DocumentHintless (p : Table) : Prop where
  tables : ∀ name ∈ topLevelTables, TableField p name
  agent : AgentHintless env (table p "agent") true
  runtimeKeys : unknownFields (table p "runtime") runtimeAllowedFields = []
  promptKeys : unknownFields (table p "prompt") promptAllowedFields = []
  files : FilledField (table p "prompt") "files"
  vcsKeys : unknownFields (table p "vcs") vcsAllowedFields = []
  monitorKeys : unknownFields (table p "monitor") monitorAllowedFields = []
  hostHealthTable : TableField (table p "monitor") "host_health"
  hostHealthKeys : unknownFields (hostHealth p) monitorHostHealthAllowedFields = []
  hostHealthKnown : HostHealthKnown (hostHealth p)
  autoStopOn : ListField (table p "monitor") "auto_stop_on"
  reachable : Reachable (table p "monitor")
  pluginsKeys : unknownFields (table p "plugins") pluginsAllowedFields = []
  disable : ListField (table p "plugins") "disable"
  scheduleKeys : unknownFields (table p "schedule") scheduleAllowedFields = []
  phasesList : ListField (table p "phases") "list"
  phases : ∀ entry ∈ table p "phases", entry.1 = "list" ∨ entry.1 = "phase_policy" ∨
    ∃ sub, entry.2 = .table sub ∧ PhaseHintless env (table p "agent") sub
  goal : GoalHintless p

theorem checkSchemaVersion_unhinted {p : Table} (versioned : Versioned p) :
    Unhinted (checkSchemaVersion env p) := by
  obtain ⟨value, found, current⟩ := versioned
  rw [checkSchemaVersion, found]
  cases value with
  | int version =>
    simp only [unhinted_ite]
    exact ⟨fun _ => unhinted_refuse _, fun _ =>
      ⟨fun old => absurd (current version rfl) (by omega), fun _ => unhinted_ok _⟩⟩
  | _ => exact unhinted_refuse _

theorem parseWorkDir_unhinted {p : Table} (tables : TableField p "runtime")
    (configDir : String) : Unhinted (parseWorkDir env p configDir) := by
  simp [parseWorkDir, unhinted_bind, (requireTable_unhinted env).mpr tables]

theorem parsePhases_unhinted {p agentD : Table} {project workDir : String}
    (tables : TableField p "phases") (list : ListField (table p "phases") "list")
    (hintless : ∀ entry ∈ table p "phases", entry.1 = "list" ∨ entry.1 = "phase_policy" ∨
      ∃ sub, entry.2 = .table sub ∧ PhaseHintless env agentD sub) :
    Unhinted (parsePhases env p agentD project workDir) := by
  simp only [parsePhases, unhinted_bind]
  refine ⟨(requireTable_unhinted env).mpr tables, fun phasesD given => ?_⟩
  obtain ⟨-, rfl⟩ := requireTable_shape env given
  refine ⟨?_, fun list _ => ?_⟩
  · unfold parsePhasesList
    split
    · exact unhinted_ok _
    · rename_i value found
      exact unhinted_map.mpr ((requireStrList_unhinted env).mpr (list value found))
  · rw [unhinted_ite]
    refine ⟨fun _ => unhinted_refuse _, fun _ => ?_⟩
    rw [unhinted_bind]
    exact ⟨parsePhaseOverrides_unhinted env hintless, fun _ _ => unhinted_pure _⟩

/-- A versioned document without a hinted shape is parsed, or refused for something else. -/
theorem parseConfig_unhinted {p : Table} (versioned : Versioned p)
    (hintless : DocumentHintless env p) (configDir : String) :
    Unhinted (parseConfig env configDir p) := by
  have tables := hintless.tables
  simp only [topLevelTables, List.forall_mem_cons] at tables
  obtain ⟨agentT, runtimeT, promptT, vcsT, monitorT, phasesT, pluginsT, scheduleT, -⟩ := tables
  simp only [parseConfig, unhinted_bind]
  have shape : ∀ {name : String} {d : Table}, requireTable env p name none = .ok d →
      table p name = d := fun given => (requireTable_shape env given).2
  refine ⟨checkSchemaVersion_unhinted env versioned, fun _ _ =>
    ⟨(requireTable_unhinted env).mpr agentT, fun agentD given => ?_⟩⟩
  obtain rfl := shape given
  refine ⟨parseAgent_unhinted env hintless.agent, fun _ _ =>
    ⟨(requireTable_unhinted env).mpr runtimeT, fun runtimeD given => ?_⟩⟩
  obtain rfl := shape given
  refine ⟨parseWorkDir_unhinted env runtimeT _, fun _ _ =>
    ⟨parsePhases_unhinted env phasesT hintless.phasesList hintless.phases, fun _ _ =>
    ⟨parseRuntime_unhinted env hintless.runtimeKeys, fun _ _ =>
    ⟨(requireTable_unhinted env).mpr promptT, fun promptD given => ?_⟩⟩⟩⟩
  obtain rfl := shape given
  refine ⟨parsePrompt_unhinted env hintless.promptKeys hintless.files, fun _ _ =>
    ⟨(requireTable_unhinted env).mpr vcsT, fun vcsD given => ?_⟩⟩
  obtain rfl := shape given
  refine ⟨parseVcs_unhinted env hintless.vcsKeys, fun _ _ =>
    ⟨(requireTable_unhinted env).mpr monitorT, fun monitorD given => ?_⟩⟩
  obtain rfl := shape given
  refine ⟨parseMonitor_unhinted env hintless.monitorKeys
    (parseHostHealth_unhinted env hintless.hostHealthTable hintless.hostHealthKeys
      hintless.hostHealthKnown) hintless.autoStopOn hintless.reachable, fun _ _ =>
    ⟨(requireTable_unhinted env).mpr pluginsT, fun pluginsD given => ?_⟩⟩
  obtain rfl := shape given
  refine ⟨parsePlugins_unhinted env hintless.pluginsKeys hintless.disable, fun _ _ =>
    ⟨(requireTable_unhinted env).mpr scheduleT, fun scheduleD given => ?_⟩⟩
  obtain rfl := shape given
  exact ⟨parseSchedule_unhinted env hintless.scheduleKeys, fun _ _ =>
    ⟨parseGoalTable_unhinted env hintless.goal, fun _ _ => unhinted_pure _⟩⟩

theorem unhinted_forM {α : Type} {f : α → Checked Unit} (each : ∀ a, Unhinted (f a))
    (xs : List α) : Unhinted (xs.forM f) := by
  induction xs with
  | nil => exact unhinted_ok _
  | cons x rest ih =>
    exact unhinted_bind.mpr ⟨each x, fun _ _ => ih⟩

/-- What `load_config` refuses of the whole never asks. -/
theorem loadConfig_unhinted {registry : Registry} {configDir : String} {p : Table}
    (unhinted : Unhinted (parseConfig env configDir p)) :
    Unhinted (loadConfig env registry configDir p) := by
  have resume : ∀ label agent, Unhinted (rejectResumeFlag env registry label agent) :=
    fun label agent => by
      unfold rejectResumeFlag
      split
      · exact unhinted_ok _
      · simp [unhinted_ite]
  simp only [loadConfig, unhinted_bind]
  refine ⟨unhinted, fun cfg _ => ⟨?_, fun _ _ => ⟨?_, fun _ _ => ⟨?_, fun _ _ =>
    unhinted_pure _⟩⟩⟩⟩
  · rw [rejectStaticResumeFlag, unhinted_bind]
    refine ⟨resume _ _, fun _ _ => unhinted_forM (fun entry => ?_) _⟩
    split
    · exact resume _ _
    · exact unhinted_ok _
  · unfold rejectGoalLedgerNotListed
    split
    · exact unhinted_ok _
    · exact unhinted_forM (fun phase => by simp [unhinted_ite]) _
  · unfold rejectGoalLedgerInStashSweptTree
    split
    · exact unhinted_ok _
    · simp [unhinted_bind, unhinted_ite]

end AgentRunner.HintedErrors
