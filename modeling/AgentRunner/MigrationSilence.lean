import AgentRunner.MigrationAgreement

/-! Group by group, the migrations that do not fire on a document of the loader's shape. -/
namespace AgentRunner.MigrationSilence
open PyValue Toml Validators ConfigModels ConfigParsers LoadConfig MigrationEdits Migrations
open MigrationAgreement

/-- The migration does not fire. -/
def Silent (p : Table) (m : Migration) : Prop := m.detect p = .ok false

@[simp] theorem silent_auto {p : Table} {detect : Table → Bool} {apply : Text → Text}
    {describe : String} : Silent p (auto detect apply describe) ↔ detect p = false :=
  Except.ok.injEq .. ▸ Iff.rfl

@[simp] theorem silent_manual {p : Table} {detect : Table → Bool} {describe : Table → String} :
    Silent p (manual detect describe) ↔ detect p = false := Except.ok.injEq .. ▸ Iff.rfl

theorem anyPhase_false {p : Table} {test : Table → Bool} :
    anyPhase test p = false ↔ ∀ sub ∈ phaseSubtables p, test sub = false := by
  simp [anyPhase, List.any_eq_false]

theorem hasUnknown_false {allowed : List String} {d : Table} :
    hasUnknown allowed d = false ↔ unknownFields d allowed = [] := by
  rw [hasUnknown, Bool.not_eq_false', List.isEmpty_iff]

/-- What is known stays known when more is allowed. -/
theorem unknownFields_more {d : Table} {allowed : List String}
    (known : unknownFields d allowed = []) (more : List String) :
    unknownFields d (allowed ++ more) = [] := by
  rw [unknownFields, List.filter_eq_nil_iff] at known ⊢
  intro key member
  have held := known key member
  simp only [Bool.not_eq_true, Bool.not_eq_false', List.contains_eq_mem, decide_eq_true_eq,
    List.mem_append] at held ⊢
  exact .inl held

/-! ## The fields the shape fixes -/

theorem bareStr_list {p : Table} {name key : String} (list : ListField (table p name) key) :
    bareStr p name key = none := by
  unfold bareStr
  split
  · rename_i s found
    obtain ⟨items, same⟩ := list _ found
    cases same
  · rfl

theorem isEmptyField_list {d : Table} {key : String}
    (filled : ∀ value, d.get? key = some value → ∃ items, value = .arr items ∧ items ≠ []) :
    isEmptyField d key = false := by
  rw [isEmptyField]
  cases found : d.get? key with
  | none => rfl
  | some value =>
    obtain ⟨items, rfl, some_⟩ := filled value found
    cases items with
    | nil => exact absurd rfl some_
    | cons => rfl

variable {env : Env}

/-- The commands and templates of a phase's own `[agent]` are lists. -/
theorem own_command {agentD sub : Table} (shape : PhaseShape env agentD sub) :
    ∀ value, (table sub "agent").get? "command" = some value →
      ∃ items, value = .arr items ∧ items ≠ [] := by
  intro value found
  rw [table] at found
  split at found
  · rename_i d own
    obtain ⟨items, merged, some_⟩ := (shape.agent d own).command
    rw [Table.get?_merge, found, Option.some_or, Option.some_inj] at merged
    exact ⟨items, merged, some_⟩
  · cases found

theorem own_template {agentD sub : Table} (shape : PhaseShape env agentD sub) :
    ListField (table sub "agent") "prompt_arg_template" := by
  intro value found
  rw [table] at found
  split at found
  · rename_i d own
    obtain ⟨items, merged, -⟩ := (shape.agent d own).template
    rw [Table.get?_merge, found, Option.some_or, Option.some_inj] at merged
    exact ⟨items, merged⟩
  · cases found

/-- The loader's own words never come from a value that is no string. -/
def PlainTexts (env : Env) : Prop :=
  ∀ value, (∀ s, value ≠ .str s) → env.text value ∉ ["argv", "stdin", "wait", "skip"]

theorem unique_fields {entries : Table} (unique : UniqueFields entries) :
    ∀ entry ∈ entries, entry.2.Unique := by
  induction entries with
  | nil => nofun
  | cons entry rest ih =>
    rw [UniqueFields] at unique
    exact List.forall_mem_cons.mpr ⟨unique.1, ih unique.2⟩

theorem unique_table (document : Document) (name : String) :
    ((table document.entries name).map Prod.fst).Nodup := by
  have unique := document.unique
  rw [Value.Unique] at unique
  rw [table]
  split
  · rename_i d found
    have inner := unique_fields unique.2 _ (Table.mem_of_get? found)
    rw [Value.Unique] at inner
    exact inner.1
  · exact List.nodup_nil

/-- Every table under `[phases]` is a phase's. -/
theorem phaseSubtables_shape (texts : PlainTexts env) (document : Document)
    (shape : DocumentShape env document.entries) :
    ∀ sub ∈ phaseSubtables document.entries,
      PhaseShape env (table document.entries "agent") sub := by
  intro sub member
  obtain ⟨⟨key, value⟩, held, shown⟩ := List.mem_filterMap.mp member
  have found := Table.get?_of_mem (unique_table document "phases") held
  cases value with
  | table d =>
    cases shown
    obtain rfl | rfl | ⟨_, same, own⟩ := shape.phases _ held
    · obtain ⟨items, same⟩ := shape.phasesList _ found
      cases same
    · have policy := shape.phasePolicy
      rw [ConfigParsers.getOr, found, Option.getD_some, List.contains_eq_mem,
        decide_eq_true_eq] at policy
      refine absurd (List.mem_append_right ["argv", "stdin"] policy) (texts _ nofun)
    · cases same
      exact own
  | _ => cases shown

/-! ## The groups -/

section Groups
variable {document : Document} (texts : PlainTexts env)
  (shape : DocumentShape env document.entries)

include texts shape in
theorem keyMigrations_silent : ∀ m ∈ keyMigrations, Silent document.entries m := by
  have phase := phaseSubtables_shape texts document shape
  simp only [keyMigrations, List.forall_mem_cons, silent_auto, silent_manual, anyPhase_false]
  exact ⟨has_of_unknown shape.runtimeKeys (by decide), has_of_unknown shape.vcsKeys (by decide),
    has_of_unknown shape.runtimeKeys (by decide), has_of_unknown shape.runtimeKeys (by decide),
    fun sub member => has_of_unknown (phase sub member).keys (by decide),
    fun sub member => has_of_unknown (phase sub member).runtimeKeys (by decide),
    has_of_unknown shape.runtimeKeys (by decide),
    fun sub member => has_of_unknown (phase sub member).keys (by decide),
    fun sub member => has_of_unknown (phase sub member).runtimeKeys (by decide), nofun⟩

include shape in
theorem pluginRemovals_silent : ∀ m ∈ pluginRemovals, Silent document.entries m := by
  simp only [pluginRemovals, removedPlugin, List.forall_mem_cons, silent_manual]
  exact ⟨has_of_unknown shape.pluginsKeys (by decide),
    has_of_unknown shape.pluginsKeys (by decide), has_of_unknown shape.pluginsKeys (by decide),
    nofun⟩

theorem agentBareString_silent {p : Table} {key example_ : String}
    (list : ListField (table p "agent") key) :
    ∀ m ∈ agentBareString key example_, Silent p m := by
  simp only [agentBareString, List.forall_mem_cons, silent_auto, silent_manual, bareStr_list list]
  exact ⟨rfl, rfl, nofun⟩

theorem wrapped_silent {p : Table} {name key : String} (list : ListField (table p name) key) :
    Silent p (wrapped name key) := by
  rw [wrapped, silent_auto, bareStr_list list]
  rfl

include shape in
theorem bareStringMigrations_silent : ∀ m ∈ bareStringMigrations, Silent document.entries m := by
  obtain ⟨tokens, command, -⟩ := shape.agent.command
  obtain ⟨items, template, -⟩ := shape.agent.template
  have commands : ListField (table document.entries "agent") "command" := fun value found =>
    ⟨tokens, Option.some.inj (found.symm.trans command)⟩
  have templates : ListField (table document.entries "agent") "prompt_arg_template" :=
    fun value found => ⟨items, Option.some.inj (found.symm.trans template)⟩
  simp only [bareStringMigrations, List.forall_mem_append, List.forall_mem_cons]
  exact ⟨⟨agentBareString_silent commands, agentBareString_silent templates⟩,
    wrapped_silent shape.phasesList, wrapped_silent shape.files.1,
    wrapped_silent shape.autoStopOn, wrapped_silent shape.disable, nofun⟩

include texts shape in
theorem emptyListMigrations_silent : ∀ m ∈ emptyListMigrations, Silent document.entries m := by
  have phase := phaseSubtables_shape texts document shape
  obtain ⟨tokens, command, some_⟩ := shape.agent.command
  simp only [emptyListMigrations, List.forall_mem_cons, silent_manual, anyPhase_false]
  refine ⟨isEmptyField_list fun value found => ?_, shape.files.2,
    fun sub member => isEmptyField_list (own_command (phase sub member)), nofun⟩
  exact ⟨tokens, Option.some.inj (found.symm.trans command), some_⟩

include texts shape in
theorem phaseBareStringMigrations_silent :
    ∀ m ∈ phaseBareStringMigrations, Silent document.entries m := by
  have phase := phaseSubtables_shape texts document shape
  have commands : ∀ sub ∈ phaseSubtables document.entries, bareStr sub "agent" "command" = none :=
    fun sub member => bareStr_list fun value found =>
      (own_command (phase sub member) value found).imp fun _ => And.left
  have templates : ∀ sub ∈ phaseSubtables document.entries,
      bareStr sub "agent" "prompt_arg_template" = none :=
    fun sub member => bareStr_list (own_template (phase sub member))
  simp only [phaseBareStringMigrations, phaseBareString, List.forall_mem_cons, silent_auto,
    silent_manual, anyPhase_false]
  refine ⟨fun sub member => ?_, fun sub member => ?_, fun sub member => ?_,
    fun sub member => ?_, nofun⟩
  · rw [commands sub member]
    rfl
  · rw [commands sub member, templates sub member]
    rfl
  · rw [templates sub member]
    rfl
  · rw [bareStr_list (phase sub member).files]
    rfl

theorem phaseUnknownKeys_silent {p : Table} {name year : String} {allowed : List String}
    (known : ∀ sub ∈ phaseSubtables p, unknownFields (table sub name) allowed = []) :
    Silent p (phaseUnknownKeys env name allowed year) := by
  simp only [phaseUnknownKeys, silent_manual, anyPhase_false, hasUnknown_false]
  exact known

theorem unknownKeys_silent {p : Table} {name year : String} {allowed : List String}
    (known : unknownFields (table p name) allowed = []) (legacy : List String) :
    Silent p (unknownKeys env name allowed legacy year) := by
  simp only [unknownKeys, silent_manual, hasUnknown_false]
  exact unknownFields_more known legacy

/-- An int that may be missing is tested as what it defaults to. -/
theorem positive_int {d : Table} {key : String} {n : Int}
    (given : ConfigParsers.getOr d key (.int 0) = .int n) :
    positive (d.get? key) = .ok (decide (0 < n)) := by
  rw [ConfigParsers.getOr] at given
  cases found : d.get? key with
  | none =>
    rw [found] at given
    cases given
    rfl
  | some value =>
    rw [found, Option.getD_some] at given
    rw [given, positive]

theorem exceeds_int {d : Table} {key other : String} {m n : Int} (posM : 0 < m) (posN : 0 < n)
    (givenM : ConfigParsers.getOr d key (.int 0) = .int m)
    (givenN : ConfigParsers.getOr d other (.int 0) = .int n) :
    exceeds (d.get? key) (d.get? other) = decide (n < m) := by
  rw [ConfigParsers.getOr] at givenM givenN
  cases foundM : d.get? key with
  | none =>
    rw [foundM] at givenM
    cases givenM
    omega
  | some value =>
    cases foundN : d.get? other with
    | none =>
      rw [foundN] at givenN
      cases givenN
      omega
    | some bound =>
      rw [foundM, Option.getD_some] at givenM
      rw [foundN, Option.getD_some] at givenN
      rw [givenM, givenN]
      simp only [exceeds, number, Option.bind_some, gt, Rat.intCast_lt_intCast]

include shape in
theorem anomaly_silent : Silent document.entries anomalyMigration := by
  obtain ⟨threshold, window, t, w, reachable⟩ := shape.anomaly
  rw [Silent, anomalyMigration]
  simp only [anomalyUnreachable, positive_int t, positive_int w]
  by_cases posT : 0 < threshold
  · by_cases posW : 0 < window
    · rw [exceeds_int posT posW t w]
      have low : ¬ window < threshold := fun high => reachable ⟨posT, posW, high⟩
      simp [posT, posW, low, bind, Except.bind, pure, Except.pure]
    · simp [posT, posW, bind, Except.bind, pure, Except.pure]
  · simp [posT, bind, Except.bind, pure, Except.pure]

include shape in
theorem scalarTables_nil : scalarTables document.entries = [] := by
  refine List.filter_eq_nil_iff.mpr fun name member => ?_
  obtain missing | ⟨d, found⟩ := shape.tables name member
  · rw [missing]
    exact nofun
  · rw [found]
    exact nofun

include shape in
theorem phasesScalarKeys_nil : phasesScalarKeys document.entries = [] := by
  have none_ : (table document.entries "phases").filter (fun entry =>
      !(["list", "phase_policy"].contains entry.1) && !entry.2.isTable) = [] := by
    refine List.filter_eq_nil_iff.mpr fun entry member => ?_
    obtain named | named | ⟨sub, isTable, -⟩ := shape.phases entry member
    · rw [named]
      exact nofun
    · rw [named]
      exact nofun
    · rw [isTable]
      simp [Value.isTable]
  rw [phasesScalarKeys, none_, List.map_nil, sortedNames, List.mergeSort_nil]

include texts shape in
theorem strictMigrations_silent : ∀ m ∈ strictMigrations env, Silent document.entries m := by
  have phase := phaseSubtables_shape texts document shape
  simp only [strictMigrations, List.forall_mem_cons, silent_manual, scalarTables_nil shape,
    phasesScalarKeys_nil shape]
  exact ⟨phaseUnknownKeys_silent fun sub member => (phase sub member).scheduleKeys,
    unknownKeys_silent shape.promptKeys [], unknownKeys_silent shape.scheduleKeys [],
    anomaly_silent shape, rfl, unknownKeys_silent shape.agent.keys [],
    unknownKeys_silent shape.runtimeKeys _, unknownKeys_silent shape.vcsKeys _,
    unknownKeys_silent shape.monitorKeys [], unknownKeys_silent shape.pluginsKeys _, rfl,
    phaseUnknownKeys_silent fun sub member => (phase sub member).promptKeys, nofun⟩

include shape in
theorem hostHealth_silent : ∀ m ∈ hostHealthRelocations.map relocation ++ [hostHealthUnknown env],
    Silent document.entries m := by
  have other : ∀ entry ∈ hostHealthRelocations, entry.1 ∉ monitorHostHealthAllowedFields := by
    decide
  simp only [List.forall_mem_append, List.forall_mem_map, List.forall_mem_cons]
  refine ⟨fun entry member => ?_, ?_, nofun⟩
  · obtain ⟨old, new, sub⟩ := entry
    rw [relocation, silent_auto]
    exact has_of_unknown shape.hostHealthKeys (other _ member)
  · rw [hostHealthUnknown, silent_manual, hasUnknown_false]
    exact shape.hostHealthKeys

end Groups

end AgentRunner.MigrationSilence
