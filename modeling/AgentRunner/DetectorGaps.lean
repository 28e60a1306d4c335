import AgentRunner.HintedErrors
import AgentRunner.UpgradeGate

/-! The detectors beside the loader's checks: what a document on which no migration fires
may still hold that the loader asks to migrate. -/
namespace AgentRunner.DetectorGaps
open PyValue Toml Validators ConfigModels ConfigParsers LoadConfig MigrationEdits Migrations
open MigrationAgreement MigrationSilence UpgradeGate HintedErrors

variable (env : Env)

/-! ## The shapes no detector looks for -/

/-- The field is missing, a text or a list. -/
def TextOrList (d : Table) (key : String) : Prop :=
  ∀ value, d.get? key = some value → (∃ s, value = .str s) ∨ ∃ items, value = .arr items

/-- An `[agent]` table's own fields are of the kinds the detectors tell apart. -/
structure AgentCovered (d : Table) : Prop where
  command : TextOrList d "command"
  template : TextOrList d "prompt_arg_template"
  envTable : TableField d "env"

/-- A phase's `[agent]` has known keys, and where it turns a base that pipes to stdin back to
argv it brings a template of its own. -/
structure PhaseCovered (agentD sub : Table) : Prop where
  agent : AgentCovered (table sub "agent")
  keys : unknownFields (table sub "agent") agentAllowedFields = []
  placeholder : isEmptyField (table sub "prompt") "files" = false →
    (table sub "agent").get? "prompt_delivery" = some (.str "argv") →
    (table sub "agent").get? "prompt_arg_template" = none →
    ∀ items, agentD.get? "prompt_arg_template" = some (.arr items) →
      (items.map (str env)).any hasPlaceholder = true

/-- The document has none of the shapes that the loader asks to migrate and no migration
knows. -/
structure Covered (p : Table) : Prop where
  agent : AgentCovered (table p "agent")
  execPrefix : ListField (table p "agent") "exec_prefix"
  files : TextOrList (table p "prompt") "files"
  hostHealthTable : TableField (table p "monitor") "host_health"
  hostHealthKnown : HostHealthKnown (hostHealth p)
  autoStopOn : TextOrList (table p "monitor") "auto_stop_on"
  disable : TextOrList (table p "plugins") "disable"
  phasesList : TextOrList (table p "phases") "list"
  phases : ∀ entry ∈ table p "phases", entry.1 = "list" ∨ entry.1 = "phase_policy" ∨
    ∀ sub, entry.2 = .table sub → TextOrList (table sub "prompt") "files" ∧
      (Table.has (table sub "agent") "exec_prefix" = false →
        PhaseCovered env (table p "agent") sub)
  goal : GoalHintless p

/-! ## What a quiet migration tells -/

/-- The migration has nothing to report: it is advisory, or it does not fire. -/
def Quiet (p : Table) (m : Migration) : Prop := m.advisory = true ∨ m.detect p = .ok false

@[simp] theorem quiet_auto {p : Table} {detect : Table → Bool} {apply : Text → Text}
    {describe : String} :
    Quiet p (auto detect apply describe) ↔ detect p = false :=
  ⟨fun quiet => Except.ok.inj (quiet.resolve_left nofun), fun silent => .inr (congrArg _ silent)⟩

@[simp] theorem quiet_manual {p : Table} {detect : Table → Bool} {describe : Table → String} :
    Quiet p (manual detect describe) ↔ detect p = false :=
  ⟨fun quiet => Except.ok.inj (quiet.resolve_left nofun), fun silent => .inr (congrArg _ silent)⟩

theorem bareStr_none {value : Option String} (plain : wrappable value = false)
    (spaced : hasSpace value = false) : value = none := by
  cases value with
  | none => rfl
  | some s =>
    rw [wrappable, spaced] at plain
    cases plain

theorem list_of_bareStr {p : Table} {name key : String}
    (given : TextOrList (table p name) key) (none_ : bareStr p name key = none) :
    ListField (table p name) key := by
  intro value found
  obtain ⟨s, rfl⟩ | list := given value found
  · rw [bareStr, found] at none_
    cases none_
  · exact list

theorem filled_of_list {d : Table} {key : String} (list : ListField d key)
    (some_ : isEmptyField d key = false) : FilledField d key := by
  intro value found
  obtain ⟨items, rfl⟩ := list value found
  refine ⟨items, rfl, ?_⟩
  rintro rfl
  rw [isEmptyField, found] at some_
  cases some_

/-- What is allowed along with removed keys that are not there is allowed without them. -/
theorem unknownFields_removed {d : Table} {allowed removed : List String}
    (known : unknownFields d (allowed ++ removed) = [])
    (none_ : ∀ key ∈ removed, Table.has d key = false) : unknownFields d allowed = [] := by
  rw [unknownFields, List.filter_eq_nil_iff] at known ⊢
  intro key member
  have held := known key member
  simp only [Bool.not_eq_true, Bool.not_eq_false', List.contains_eq_mem, decide_eq_true_eq,
    List.mem_append] at held ⊢
  refine held.resolve_right fun gone => ?_
  have absent := none_ key gone
  rw [(Table.has_iff_mem d key).mpr member] at absent
  cases absent

theorem sortedNames_nil {names : List String} (none_ : sortedNames names = []) : names = [] := by
  have sorted := @List.length_mergeSort _ (fun a b => decide (a ≤ b)) names
  rw [← List.length_eq_zero_iff, ← sorted]
  exact List.length_eq_zero_iff.mpr none_

section Quiet
variable {env : Env} {p : Table}

theorem quiet_unknownKeys {name year : String} {allowed legacy : List String} :
    Quiet p (unknownKeys env name allowed legacy year) ↔
      unknownFields (table p name) (allowed ++ legacy) = [] := by
  rw [unknownKeys, quiet_manual, hasUnknown_false]

theorem quiet_phaseUnknownKeys {name year : String} {allowed : List String} :
    Quiet p (phaseUnknownKeys env name allowed year) ↔
      ∀ sub ∈ phaseSubtables p, unknownFields (table sub name) allowed = [] := by
  simp only [phaseUnknownKeys, quiet_manual, anyPhase_false, hasUnknown_false]

theorem quiet_wrapped {name key : String} :
    Quiet p (wrapped name key) ↔ bareStr p name key = none := by
  rw [wrapped, quiet_auto, Option.isSome_eq_false_iff, Option.isNone_iff_eq_none]

theorem quiet_agentBareString {key example_ : String}
    (quiet : ∀ m ∈ agentBareString key example_, Quiet p m) : bareStr p "agent" key = none := by
  simp only [agentBareString, List.forall_mem_cons, quiet_auto, quiet_manual] at quiet
  exact bareStr_none quiet.1 quiet.2.1

/-- What the quiet detectors of bare strings and empty lists leave of the base tables. -/
structure QuietLists (p : Table) : Prop where
  command : bareStr p "agent" "command" = none ∧ isEmptyField (table p "agent") "command" = false
  template : bareStr p "agent" "prompt_arg_template" = none
  files : bareStr p "prompt" "files" = none ∧ isEmptyField (table p "prompt") "files" = false
  autoStopOn : bareStr p "monitor" "auto_stop_on" = none
  disable : bareStr p "plugins" "disable" = none
  phasesList : bareStr p "phases" "list" = none

theorem quiet_lists (bare : ∀ m ∈ bareStringMigrations, Quiet p m)
    (empty : ∀ m ∈ emptyListMigrations, Quiet p m) : QuietLists p := by
  simp only [bareStringMigrations, List.forall_mem_append, List.forall_mem_cons] at bare
  obtain ⟨⟨command, template⟩, list, files, autoStopOn, disable, -⟩ := bare
  simp only [emptyListMigrations, List.forall_mem_cons, quiet_manual] at empty
  obtain ⟨emptyCommand, emptyFiles, -⟩ := empty
  exact ⟨⟨quiet_agentBareString command, emptyCommand⟩, quiet_agentBareString template,
    ⟨quiet_wrapped.mp files, emptyFiles⟩, quiet_wrapped.mp autoStopOn, quiet_wrapped.mp disable,
    quiet_wrapped.mp list⟩

/-- The same of a phase's tables. -/
structure QuietPhase (sub : Table) : Prop where
  command : bareStr sub "agent" "command" = none ∧
    isEmptyField (table sub "agent") "command" = false
  template : bareStr sub "agent" "prompt_arg_template" = none
  files : bareStr sub "prompt" "files" = none
  promptKeys : unknownFields (table sub "prompt") phasePromptAllowedFields = []
  scheduleKeys : unknownFields (table sub "schedule") scheduleAllowedFields = []
  placeholder : phaseMissingPromptPlaceholder sub = false

/-- What the quiet detectors leave of the keys of the base tables. -/
structure QuietKeys (p : Table) : Prop where
  agent : unknownFields (table p "agent") agentAllowedFields = []
  runtime : unknownFields (table p "runtime") runtimeAllowedFields = []
  prompt : unknownFields (table p "prompt") promptAllowedFields = []
  vcs : unknownFields (table p "vcs") vcsAllowedFields = []
  monitor : unknownFields (table p "monitor") monitorAllowedFields = []
  hostHealth : unknownFields (hostHealth p) monitorHostHealthAllowedFields = []
  plugins : unknownFields (table p "plugins") pluginsAllowedFields = []
  schedule : unknownFields (table p "schedule") scheduleAllowedFields = []

section Registry
variable (quiet : ∀ m ∈ migrations env, Quiet p m)

include quiet

theorem quiet_phases : ∀ sub ∈ phaseSubtables p, QuietPhase sub := by
  simp only [migrations, List.forall_mem_append] at quiet
  obtain ⟨⟨⟨⟨⟨⟨-, empty⟩, bare⟩, strict⟩, placeholders⟩, -⟩, -⟩ := quiet
  simp only [emptyListMigrations, List.forall_mem_cons, quiet_manual, anyPhase_false] at empty
  simp only [phaseBareStringMigrations, phaseBareString, List.forall_mem_cons, quiet_auto,
    quiet_manual, anyPhase_false] at bare
  simp only [strictMigrations, List.forall_mem_cons, quiet_phaseUnknownKeys] at strict
  simp only [placeholderMigrations, List.forall_mem_cons, quiet_manual,
    anyPhase_false] at placeholders
  obtain ⟨command, spaced, template, files, -⟩ := bare
  obtain ⟨schedule, -, -, -, -, -, -, -, -, -, -, prompt, -⟩ := strict
  intro sub member
  have apart := Bool.or_eq_false_iff.mp (spaced sub member)
  exact ⟨⟨bareStr_none (command sub member) apart.1, empty.2.2.1 sub member⟩,
    bareStr_none (template sub member) apart.2,
    Option.isNone_iff_eq_none.mp (Option.isSome_eq_false_iff.mp (files sub member)),
    prompt sub member, schedule sub member, placeholders.2.1 sub member⟩

theorem quiet_keys : QuietKeys p := by
  simp only [migrations, List.forall_mem_append] at quiet
  obtain ⟨⟨⟨⟨⟨⟨⟨⟨⟨⟨keys, -⟩, removals⟩, -⟩, -⟩, -⟩, -⟩, strict⟩, -⟩, -⟩, health⟩ := quiet
  simp only [keyMigrations, List.forall_mem_cons, quiet_auto, quiet_manual] at keys
  obtain ⟨action, orphan, perPhase, -⟩ := keys
  simp only [pluginRemovals, removedPlugin, List.forall_mem_cons, quiet_manual] at removals
  obtain ⟨sandbox, spawn, pin, -⟩ := removals
  simp only [strictMigrations, List.forall_mem_cons, quiet_unknownKeys, List.append_nil] at strict
  obtain ⟨-, prompt, schedule, -, -, agent, runtime, vcs, monitor, plugins, -⟩ := strict
  simp only [List.forall_mem_singleton, hostHealthUnknown, quiet_manual, hasUnknown_false] at health
  refine ⟨agent, unknownFields_removed runtime ?_, prompt, unknownFields_removed vcs ?_, monitor,
    health, unknownFields_removed plugins ?_, schedule⟩
  · simp only [runtimeLegacyFields, List.forall_mem_cons]
    exact ⟨perPhase, action, List.forall_mem_nil _⟩
  · simp only [vcsLegacyFields, List.forall_mem_cons]
    exact ⟨orphan, List.forall_mem_nil _⟩
  · simp only [pluginsLegacyFields, List.forall_mem_cons]
    exact ⟨sandbox, pin, spawn, List.forall_mem_nil _⟩

theorem quiet_tables : ∀ name ∈ topLevelTables, TableField p name := by
  simp only [migrations, List.forall_mem_append] at quiet
  obtain ⟨⟨⟨⟨-, strict⟩, -⟩, -⟩, -⟩ := quiet
  simp only [strictMigrations, List.forall_mem_cons, quiet_manual] at strict
  obtain ⟨-, -, -, -, scalars, -⟩ := strict
  rw [Bool.not_eq_false', List.isEmpty_iff, scalarTables, List.filter_eq_nil_iff] at scalars
  intro name member value found
  have isTable := scalars name member
  rw [found] at isTable
  cases value with
  | table t => exact ⟨t, rfl⟩
  | _ => exact absurd rfl isTable

theorem quiet_phaseTables : ∀ entry ∈ table p "phases", entry.1 = "list" ∨
    entry.1 = "phase_policy" ∨ ∃ sub, entry.2 = .table sub := by
  simp only [migrations, List.forall_mem_append] at quiet
  obtain ⟨⟨⟨⟨-, strict⟩, -⟩, -⟩, -⟩ := quiet
  simp only [strictMigrations, List.forall_mem_cons, quiet_manual] at strict
  obtain ⟨-, -, -, -, -, -, -, -, -, -, scalars, -⟩ := strict
  rw [Bool.not_eq_false', List.isEmpty_iff, phasesScalarKeys] at scalars
  intro entry member
  have named := List.filter_eq_nil_iff.mp (List.map_eq_nil_iff.mp (sortedNames_nil scalars)) entry
    member
  obtain ⟨key, value⟩ := entry
  cases value with
  | table sub => exact .inr (.inr ⟨sub, rfl⟩)
  | _ => simpa [Value.isTable, imp_iff_not_or, or_comm] using named

theorem quiet_anomaly : Reachable (table p "monitor") := by
  simp only [migrations, List.forall_mem_append] at quiet
  obtain ⟨⟨⟨⟨-, strict⟩, -⟩, -⟩, -⟩ := quiet
  simp only [strictMigrations, List.forall_mem_cons] at strict
  obtain ⟨-, -, -, anomaly, -⟩ := strict
  have silent : anomalyUnreachable p = .ok false := anomaly.resolve_left Bool.false_ne_true
  rintro threshold window t w ⟨posT, posW, high⟩
  simp only [anomalyUnreachable, positive_int t, positive_int w, posT, posW, decide_true,
    exceeds_int posT posW t w, high, bind, Except.bind, if_true] at silent
  cases silent

theorem quiet_document :
    QuietLists p ∧ agentMissingPromptPlaceholder (table p "agent") = false := by
  simp only [migrations, List.forall_mem_append] at quiet
  obtain ⟨⟨⟨⟨⟨⟨⟨⟨-, bare⟩, -⟩, empty⟩, -⟩, -⟩, placeholders⟩, -⟩, -⟩ := quiet
  simp only [placeholderMigrations, List.forall_mem_cons, quiet_manual] at placeholders
  exact ⟨quiet_lists bare empty, placeholders.1⟩

end Registry
end Quiet

/-! ## Merged tables -/

/-- What holds of a field of both tables holds of the merged one. -/
theorem merge_field {base sub : Table} {key : String} {holds : Value → Prop}
    (inBase : ∀ value, base.get? key = some value → holds value)
    (inSub : ∀ value, sub.get? key = some value → holds value) :
    ∀ value, Table.get? (base.merge sub) key = some value → holds value := by
  intro value found
  rw [Table.get?_merge] at found
  obtain own | ⟨-, inherited⟩ := Option.or_eq_some_iff.mp found
  · exact inSub value own
  · exact inBase value inherited

theorem merge_own {base sub : Table} {key : String} {value : Value}
    (own : sub.get? key = some value) : Table.get? (base.merge sub) key = some value := by
  rw [Table.get?_merge, own, Option.some_or]

theorem unknownFields_nil {d : Table} {allowed : List String} :
    unknownFields d allowed = [] ↔ ∀ key value, d.get? key = some value → key ∈ allowed := by
  rw [unknownFields, List.filter_eq_nil_iff]
  simp only [Bool.not_eq_true, Bool.not_eq_false', List.contains_eq_mem, decide_eq_true_eq]
  constructor
  · intro known key value found
    exact known key ((Table.has_iff_mem d key).mp (by rw [Table.has, found]; rfl))
  · intro known key member
    obtain ⟨value, found⟩ := Option.isSome_iff_exists.mp ((Table.has_iff_mem d key).mpr member)
    exact known key value found

theorem unknownFields_merge {base sub : Table} {allowed : List String} :
    unknownFields (base.merge sub) allowed = [] ↔
      unknownFields base allowed = [] ∧ unknownFields sub allowed = [] := by
  simp only [unknownFields_nil]
  constructor
  · refine fun known => ⟨fun key value found => ?_, fun key value own =>
      known key value (merge_own own)⟩
    cases own : sub.get? key with
    | none => exact known key value (by rw [Table.get?_merge, own, Option.none_or, found])
    | some above => exact known key above (merge_own own)
  · exact fun known key => merge_field (known.1 key) (known.2 key)

/-! ## Covered documents -/

section Documents
variable {env : Env} (texts : PlainTexts env)

include texts in
/-- A quiet detector has seen the placeholder in an argv template. -/
theorem carried_of_quiet {d : Table} (quiet : agentMissingPromptPlaceholder d = false)
    (argv : delivery env d = "argv") {items : List Value}
    (found : d.get? "prompt_arg_template" = some (.arr items)) :
    (items.map (str env)).any hasPlaceholder = true := by
  rw [← Bool.not_eq_true, agentMissing_iff] at quiet
  have carries : CarriesPlaceholder d := not_not.mp fun missing =>
    quiet ⟨(delivery_argv texts).mp argv, ⟨items, found⟩, missing⟩
  exact carries_text carries found

include texts in
theorem phase_placeholder {agentD sub : Table} (base : AgentHintless env agentD true)
    (quiet : phaseMissingPromptPlaceholder sub = false) (covered : PhaseCovered env agentD sub)
    (prompted : isEmptyField (table sub "prompt") "files" = false)
    (argv : delivery env (agentD.merge (table sub "agent")) = "argv") {items : List Value}
    (found : Table.get? (agentD.merge (table sub "agent")) "prompt_arg_template" =
      some (.arr items)) : (items.map (str env)).any hasPlaceholder = true := by
  have silent : agentMissingPromptPlaceholder (table sub "agent") = false := by
    rwa [phaseMissingPromptPlaceholder, prompted, Bool.not_false, Bool.and_true] at quiet
  rw [Table.get?_merge] at found
  cases template : (table sub "agent").get? "prompt_arg_template" with
  | some value =>
    rw [template, Option.some_or] at found
    rw [← template] at found
    cases delivered : (table sub "agent").get? "prompt_delivery" with
    | none =>
      have argv : delivery env (table sub "agent") = "argv" := by
        rw [delivery, ConfigParsers.getOr, delivered]
        rfl
      exact carried_of_quiet texts silent argv found
    | some _ => exact carried_of_quiet texts silent (delivery_merge_own delivered ▸ argv) found
  | none =>
    rw [template, Option.none_or] at found
    cases delivered : (table sub "agent").get? "prompt_delivery" with
    | none => exact base.placeholder rfl (delivery_merge_base delivered ▸ argv) items found
    | some value =>
      rw [delivery_merge_own delivered, delivery_argv texts, ConfigParsers.getOr, delivered,
        Option.getD_some] at argv
      exact covered.placeholder prompted (delivered.trans (congrArg _ argv)) template items found

include texts in
/-- A covered phase over a base that does not ask does not ask. -/
theorem phase_hintless {agentD sub : Table} (base : AgentHintless env agentD true)
    (quiet : QuietPhase sub) (files : TextOrList (table sub "prompt") "files")
    (covered : Table.has (table sub "agent") "exec_prefix" = false →
      PhaseCovered env agentD sub) : PhaseHintless env agentD sub := by
  refine ⟨quiet.promptKeys, list_of_bareStr files quiet.files, ?_, quiet.scheduleKeys⟩
  intro d own plain
  rw [← table_eq own] at plain ⊢
  have phase := covered plain
  have command := filled_of_list (list_of_bareStr phase.agent.command quiet.command.1)
    quiet.command.2
  refine ⟨unknownFields_merge.mpr ⟨base.keys, phase.keys⟩,
    merge_field base.template (list_of_bareStr phase.agent.template quiet.template), ?_,
    merge_field base.command command, merge_field base.envTable phase.agent.envTable,
    merge_field base.execPrefix fun value found => ?_⟩
  · intro prompted argv items found
    exact phase_placeholder texts base quiet.placeholder phase (Bool.not_eq_true' _ ▸ prompted)
      argv found
  · rw [Table.has, found] at plain
    cases plain

/-- What does not ask of a phase is covered. -/
theorem phaseCovered_of_hintless {agentD sub : Table} (hintless : PhaseHintless env agentD sub)
    (plain : Table.has (table sub "agent") "exec_prefix" = false) :
    PhaseCovered env agentD sub := by
  have bare : table sub "agent" = [] → PhaseCovered env agentD sub := fun none_ => by
    refine ⟨⟨?_, ?_, ?_⟩, ?_, ?_⟩
    all_goals rw [none_]
    · exact fun _ => nofun
    · exact fun _ => nofun
    · exact fun _ => nofun
    · rfl
    · exact fun _ => nofun
  cases own : sub.get? "agent" with
  | none => exact bare (table_missing own)
  | some value =>
    cases value with
    | table d =>
      have agent := hintless.agent d own (table_eq own ▸ plain)
      rw [← table_eq own] at agent
      refine ⟨⟨fun value found => ?_,
        fun value found => .inr (agent.template value (merge_own found)),
        fun value found => agent.envTable value (merge_own found)⟩,
        (unknownFields_merge.mp agent.keys).2, fun prompted delivered template items found => ?_⟩
      · obtain ⟨items, rfl, -⟩ := agent.command value (merge_own found)
        exact .inr ⟨items, rfl⟩
      · refine agent.placeholder (by rw [prompted]; rfl) ?_ items ?_
        · rw [delivery_merge_own delivered, delivery, ConfigParsers.getOr, delivered]
          rfl
        · rw [Table.get?_merge, template, Option.none_or, found]
    | _ => exact bare (by rw [table, own])

theorem covered_of_hintless {p : Table} (hintless : DocumentHintless env p) : Covered env p := by
  have list : ∀ {d : Table} {key : String}, ListField d key → TextOrList d key :=
    fun given value found => .inr (given value found)
  have filled : ∀ {d : Table} {key : String}, FilledField d key → TextOrList d key :=
    fun given value found => .inr ((given value found).imp fun _ => And.left)
  refine ⟨⟨filled hintless.agent.command, list hintless.agent.template, hintless.agent.envTable⟩,
    hintless.agent.execPrefix, filled hintless.files, hintless.hostHealthTable,
    hintless.hostHealthKnown, list hintless.autoStopOn, list hintless.disable,
    list hintless.phasesList, fun entry member => ?_, hintless.goal⟩
  obtain named | policy | ⟨own, isTable, phase⟩ := hintless.phases entry member
  · exact .inl named
  · exact .inr (.inl policy)
  · refine .inr (.inr fun sub same => ?_)
    cases isTable.symm.trans same
    exact ⟨list phase.files, phaseCovered_of_hintless phase⟩

include texts in
/-- **On a document no migration fires on, what the loader may ask to migrate is exactly what
no detector looks for.** -/
theorem hintless_iff_covered {p : Table} (quiet : ∀ m ∈ migrations env, Quiet p m) :
    DocumentHintless env p ↔ Covered env p := by
  refine ⟨covered_of_hintless, fun covered => ?_⟩
  have keys := quiet_keys quiet
  obtain ⟨lists, placeholder⟩ := quiet_document quiet
  have agent : AgentHintless env (table p "agent") true :=
    ⟨keys.agent, list_of_bareStr covered.agent.template lists.template,
      fun _ argv _ found => carried_of_quiet texts placeholder argv found,
      filled_of_list (list_of_bareStr covered.agent.command lists.command.1) lists.command.2,
      covered.agent.envTable, covered.execPrefix⟩
  refine ⟨quiet_tables quiet, agent, keys.runtime, keys.prompt,
    filled_of_list (list_of_bareStr covered.files lists.files.1) lists.files.2, keys.vcs,
    keys.monitor, covered.hostHealthTable, keys.hostHealth, covered.hostHealthKnown,
    list_of_bareStr covered.autoStopOn lists.autoStopOn, quiet_anomaly quiet, keys.plugins,
    list_of_bareStr covered.disable lists.disable, keys.schedule,
    list_of_bareStr covered.phasesList lists.phasesList, fun entry member => ?_, covered.goal⟩
  obtain named | policy | ⟨sub, isTable⟩ := quiet_phaseTables quiet entry member
  · exact .inl named
  · exact .inr (.inl policy)
  · obtain named | policy | phase := covered.phases entry member
    · exact .inl named
    · exact .inr (.inl policy)
    · obtain ⟨files, covered⟩ := phase sub isTable
      have held : sub ∈ phaseSubtables p :=
        List.mem_filterMap.mpr ⟨entry, member, by rw [isTable]⟩
      exact .inr (.inr ⟨sub, isTable,
        phase_hintless texts agent (quiet_phases quiet sub held) files covered⟩)

end Documents

end AgentRunner.DetectorGaps
