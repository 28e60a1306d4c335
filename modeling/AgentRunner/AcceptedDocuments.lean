import AgentRunner.HintedErrors

/-! What the loader accepts asks for nothing: an accepted document has every field in the
shape that keeps its parser from asking. -/
namespace AgentRunner.AcceptedDocuments
open PyValue Toml Validators ConfigModels ConfigParsers LoadConfig Migrations
open MigrationAgreement MigrationSilence HintedErrors

variable {env : Env}

/-- A check that passes does not ask. -/
theorem unhinted_of_ok {α : Type} {check : Checked α} {a : α} (passed : check = .ok a) :
    Unhinted check := passed ▸ unhinted_ok a

theorem tableField_of_ok {raw d : Table} {key : String} {label : Option String}
    (passed : requireTable env raw key label = .ok d) : TableField raw key :=
  (requireTable_unhinted env).mp (unhinted_of_ok passed)

theorem listField_of_default {d : Table} {key field : String} {texts : List String}
    {default : Value} (passed : requireStrList env (ConfigParsers.getOr d key default) field =
      .ok texts) : ListField d key := by
  intro value found
  rw [ConfigParsers.getOr, found, Option.getD_some] at passed
  exact (requireStrList_unhinted env).mp (unhinted_of_ok passed)

theorem parseAgent_hintless {d : Table} {label : String} {required : Bool} {agent : AgentConfig}
    (parsed : parseAgent env d label required = .ok agent) : AgentHintless env d required := by
  obtain ⟨keys, ⟨tokens, command, filled⟩, items, template, -, -, carried⟩ :=
    parseAgent_shape env parsed
  simp only [parseAgent, bind_eq_ok] at parsed
  obtain ⟨_, -, _, -, _, -, _, -, _, -, _, -, rest⟩ := parsed
  obtain ⟨-, rest⟩ := unless_refused rest
  simp only [bind_eq_ok] at rest
  obtain ⟨_, envTable, _, execPrefix, -⟩ := rest
  refine ⟨keys, fun value found => ⟨items, Option.some.inj (found.symm.trans template)⟩, ?_,
    fun value found => ⟨tokens, Option.some.inj (found.symm.trans command), filled⟩,
    tableField_of_ok envTable, listField_of_default execPrefix⟩
  intro needed argv others found
  cases found.symm.trans template
  exact carried argv needed

theorem parsePhaseOverride_hintless {list : Option (List String)} {project workDir : String}
    {agentD : Table} {name : String} {value : Value} {override_ : PhaseOverride}
    (parsed : parsePhaseOverride env list project workDir agentD name value = .ok override_) :
    ∃ sub, value = .table sub ∧ PhaseHintless env agentD sub := by
  obtain ⟨sub, rfl, shape⟩ := parsePhaseOverride_ok env parsed
  refine ⟨sub, rfl, shape.promptKeys, shape.files, fun d own _ => ?_, shape.scheduleKeys⟩
  simp only [parsePhaseOverride] at parsed
  obtain ⟨-, parsed⟩ := unless_refused parsed
  rw [shape.keys] at parsed
  simp only [bind_eq_ok] at parsed
  obtain ⟨_, -, files, prompt, _, agent, -⟩ := parsed
  have required : (files != some []) = !isEmptyField (table sub "prompt") "files" := by
    rw [Bool.eq_iff_iff, bne_iff_ne, ne_eq, (parsePhasePrompt_ok env prompt).2.2,
      Bool.not_eq_true, Bool.not_eq_true']
  simp only [parsePhaseAgent, own] at agent
  split at agent
  · cases agent
  · obtain ⟨_, merged, -⟩ := bind_eq_ok.mp agent
    exact required ▸ parseAgent_hintless merged

theorem parsePhaseOverrides_hintless {list : Option (List String)} {project workDir : String}
    {agentD phasesD : Table} {overrides : List (String × PhaseOverride)}
    (parsed : parsePhaseOverrides env list project workDir agentD phasesD = .ok overrides) :
    ∀ entry ∈ phasesD, entry.1 = "list" ∨ entry.1 = "phase_policy" ∨
      ∃ sub, entry.2 = .table sub ∧ PhaseHintless env agentD sub := by
  induction phasesD generalizing overrides with
  | nil => nofun
  | cons entry rest ih =>
    obtain ⟨key, value⟩ := entry
    rw [parsePhaseOverrides] at parsed
    rw [List.forall_mem_cons]
    split at parsed
    · rename_i reserved
      exact ⟨reserved.elim .inl fun policy => .inr (.inl policy), ih parsed⟩
    · simp only [bind_eq_ok] at parsed
      obtain ⟨_, one, _, others, -⟩ := parsed
      exact ⟨.inr (.inr (parsePhaseOverride_hintless one)), ih others⟩

theorem parseHostHealth_hintless {d : Table} {config : MonitorHostHealthConfig}
    (parsed : parseHostHealth env d = .ok config) :
    TableField d "host_health" ∧ HostHealthKnown (table d "host_health") := by
  simp only [parseHostHealth, bind_eq_ok] at parsed
  obtain ⟨hhD, given, _, -, _, disk, _, memory, _, pressure, _, brake, -⟩ := parsed
  have sub : ∀ {key : String} {allowed : List String} {t : Table},
      hostHealthTable env hhD key allowed = .ok t →
        TableField hhD key ∧ unknownFields (table hhD key) allowed = [] := by
    intro key allowed t passed
    simp only [hostHealthTable, bind_eq_ok] at passed
    obtain ⟨t, isTable, _, keys, -⟩ := passed
    rw [(requireTable_shape env isTable).2]
    exact ⟨tableField_of_ok isTable, (rejectUnknownFields_ok env).mp keys⟩
  rw [(requireTable_shape env given).2]
  refine ⟨tableField_of_ok given, ?_⟩
  simp only [HostHealthKnown, hostHealthTables, List.forall_mem_cons]
  exact ⟨sub disk, sub memory, sub pressure, sub brake, List.forall_mem_nil _⟩

theorem parseGoalChecks_hintless {checks : List Value} {index : Nat}
    {configs : List GoalCheckConfig} (parsed : parseGoalChecks env index checks = .ok configs) :
    ∀ check ∈ checks, CheckHintless check := by
  induction checks generalizing index configs with
  | nil => nofun
  | cons check rest ih =>
    simp only [parseGoalChecks, bind_eq_ok] at parsed
    obtain ⟨_, one, _, others, -⟩ := parsed
    rw [List.forall_mem_cons]
    refine ⟨?_, ih others⟩
    rintro d rfl
    simp only [parseGoalCheck, bind_eq_ok] at one
    obtain ⟨_, keys, _, -, raw, found, _, cmd, -⟩ := one
    refine ⟨(rejectUnknownFields_ok env).mp keys, fun value same => ?_⟩
    cases same.symm.trans (requireField_ok found)
    exact (requireStrList_unhinted env).mp (unhinted_of_ok cmd)

theorem parseGoalTable_hintless {p : Table} {project workDir : String}
    {goal : Option GoalConfig} (parsed : parseGoalTable env p project workDir = .ok goal) :
    GoalHintless p := by
  unfold parseGoalTable at parsed
  split at parsed
  · obtain ⟨goalD, given, rest⟩ := bind_eq_ok.mp parsed
    obtain ⟨-, rfl⟩ := requireTable_shape env given
    obtain ⟨_, parsed, -⟩ := bind_eq_ok.mp rest
    simp only [parseGoal, bind_eq_ok] at parsed
    obtain ⟨_, keys, rest⟩ := parsed
    refine ⟨tableField_of_ok given, (rejectUnknownFields_ok env).mp keys, fun items found => ?_⟩
    rw [ConfigParsers.getOr, found, Option.getD_some] at rest
    obtain ⟨_, checks, -⟩ := bind_eq_ok.mp rest
    exact parseGoalChecks_hintless checks
  · rename_i absent
    have missing := Option.not_isSome_iff_eq_none.mp absent
    refine ⟨fun value found => absurd (missing.symm.trans found) (Option.some_ne_none _).symm,
      ?_, ?_⟩
    all_goals rw [table_missing missing]
    · rfl
    · intro _ found
      cases found

/-- **What the loader accepts has every hinted shape left out.** -/
theorem parseConfig_hintless {configDir : String} {p : Table} {cfg : Config}
    (parsed : parseConfig env configDir p = .ok cfg) : DocumentHintless env p := by
  have shape := parseConfig_shape env parsed
  simp only [parseConfig, bind_eq_ok] at parsed
  obtain ⟨_, -, agentD, agentT, _, agent, runtimeD, -, workDir, -, rest⟩ := parsed
  obtain ⟨_, phases, _, -, promptD, promptT, _, prompt, _, -, _, -, rest⟩ := rest
  obtain ⟨monitorD, monitorT, _, monitor, _, -, _, -, _, -, _, -, goal, parsedGoal, -⟩ := rest
  obtain ⟨-, rfl⟩ := requireTable_shape env agentT
  obtain ⟨-, rfl⟩ := requireTable_shape env promptT
  obtain ⟨-, rfl⟩ := requireTable_shape env monitorT
  simp only [parseMonitor, bind_eq_ok] at monitor
  obtain ⟨_, -, _, health, -⟩ := monitor
  obtain ⟨isTable, known⟩ := parseHostHealth_hintless health
  obtain ⟨phasesD, given, rest⟩ := bind_eq_ok.mp phases
  obtain ⟨-, rfl⟩ := requireTable_shape env given
  obtain ⟨_, -, rest⟩ := bind_eq_ok.mp rest
  obtain ⟨-, rest⟩ := unless_refused rest
  obtain ⟨_, overrides, -⟩ := bind_eq_ok.mp rest
  refine ⟨fun name member value found => ?_, parseAgent_hintless agent, shape.runtimeKeys,
    shape.promptKeys, fun value found => ?_, shape.vcsKeys, shape.monitorKeys, isTable,
    shape.hostHealthKeys, known, shape.autoStopOn, fun threshold window t w => ?_,
    shape.pluginsKeys, shape.disable, shape.scheduleKeys, shape.phasesList,
    parsePhaseOverrides_hintless overrides, parseGoalTable_hintless parsedGoal⟩
  · obtain missing | ⟨d, isTable⟩ := shape.tables name member
    · cases missing.symm.trans found
    · exact ⟨d, Option.some.inj (found.symm.trans isTable)⟩
  · obtain ⟨items, rfl⟩ := shape.files.1 value found
    refine ⟨items, rfl, ?_⟩
    rintro rfl
    have filled := shape.files.2
    rw [isEmptyField, found] at filled
    cases filled
  · obtain ⟨_, _, sameT, sameW, reachable⟩ := shape.anomaly
    cases sameT.symm.trans t
    cases sameW.symm.trans w
    exact reachable

end AgentRunner.AcceptedDocuments
