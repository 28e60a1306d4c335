import AgentRunner.MigrationSilence

/-! What `upgrade` refuses over: the manual reports of `run_migrations` on a config that
the loader accepts. -/
namespace AgentRunner.UpgradeGate
open PyValue Toml Validators ConfigModels ConfigParsers LoadConfig MigrationEdits Migrations
open MigrationAgreement MigrationSilence

/-! ## A run that rewrites nothing -/

/-- The detector returns and finds the shape. -/
def fires (p : Table) (m : Migration) : Bool :=
  match m.detect p with
  | .ok fired => fired
  | .error _ => false

/-- The reports of the migrations that fire, the advisory or the other ones. -/
def reports (advisory : Bool) (p : Table) (ms : List Migration) : List String :=
  (ms.filter fun m => fires p m && m.advisory == advisory).map fun m => m.describe p

/-- The migration leaves the text alone: it does not fire, or it can only report. -/
def Reporting (p : Table) (m : Migration) : Prop :=
  Silent p m ∨ m.apply = none ∧ ∃ fired, m.detect p = .ok fired

theorem reports_append (advisory : Bool) (p : Table) (first second : List Migration) :
    reports advisory p (first ++ second) =
      reports advisory p first ++ reports advisory p second := by
  rw [reports, List.filter_append, List.map_append]
  rfl

theorem reports_silent {advisory : Bool} {p : Table} {ms : List Migration}
    (silent : ∀ m ∈ ms, Silent p m) : reports advisory p ms = [] := by
  rw [reports, List.map_eq_nil_iff, List.filter_eq_nil_iff]
  intro m member
  rw [fires, silent m member]
  exact nofun

variable (loads : Loads)

theorem runOne_reporting {p : Table} {m : Migration} (reporting : Reporting p m)
    (r : MigrationResult) :
    runOne loads p r m = .ok { r with
      manual := r.manual ++ reports false p [m]
      advisory := r.advisory ++ reports true p [m] } := by
  obtain silent | ⟨manual, fired, detected⟩ := reporting
  · rw [reports_silent (List.forall_mem_singleton.mpr silent),
      reports_silent (List.forall_mem_singleton.mpr silent), List.append_nil, List.append_nil]
    rw [runOne, silent]
    rfl
  · cases fired with
    | false =>
      rw [reports_silent (List.forall_mem_singleton.mpr detected),
        reports_silent (List.forall_mem_singleton.mpr detected), List.append_nil, List.append_nil]
      rw [runOne, detected]
      rfl
    | true =>
      have fired : fires p m = true := by rw [fires, detected]
      rw [runOne, detected]
      cases kind : m.advisory with
      | false => simp [reports, fired, kind, manual, bind, Except.bind, pure, Except.pure]
      | true => simp [reports, fired, kind, bind, Except.bind, pure, Except.pure]

/-- A pass over migrations that leave the text alone collects their reports. -/
theorem pass_reporting {p : Table} {ms : List Migration} (reporting : ∀ m ∈ ms, Reporting p m)
    (r : MigrationResult) :
    ms.foldlM (runOne loads p) r = .ok { r with
      manual := r.manual ++ reports false p ms
      advisory := r.advisory ++ reports true p ms } := by
  induction ms generalizing r with
  | nil => simp [reports, pure, Except.pure]
  | cons m rest ih =>
    rw [List.foldlM_cons, runOne_reporting loads (reporting m (.head _)),
      show m :: rest = [m] ++ rest from rfl, reports_append, reports_append, ← List.append_assoc,
      ← List.append_assoc]
    exact ih (fun m member => reporting m (.tail _ member)) _

variable (env : Env)

/-- Where no migration rewrites and the version is current, a run only reports. -/
theorem run_reporting {p : Table} (reporting : ∀ m ∈ migrations env, Reporting p m)
    (current : p.get? "schema_version" = some (.int currentSchemaVersion)) (text : Text) :
    runMigrations env loads text p = .ok ⟨text, [], reports false p (migrations env),
      reports true p (migrations env)⟩ := by
  have pass := pass_reporting loads reporting ⟨text, [], [], []⟩
  rw [List.nil_append, List.nil_append] at pass
  rw [runMigrations, maxMigrationPasses, runPasses, runMigrationsPass, pass]
  simp only [liftRun, stampSchemaVersion, current, le_refl, if_true]
  exact if_pos rfl

/-! ## Where the detectors and the loader look for the placeholder -/

/-- A string of the table's template carries `\x7bprompt\x7d`. -/
def CarriesPlaceholder (d : Table) : Prop :=
  ∃ items s, d.get? "prompt_arg_template" = some (.arr items) ∧ .str s ∈ items ∧
    hasPlaceholder s = true

/-- An argv template carries the placeholder in a string. -/
def BaseAgrees (d : Table) : Prop := delivery env d = "argv" → CarriesPlaceholder d

/-- A phase with its own template and a prompt brings its own delivery over a base that
pipes to stdin, and an argv template carries the placeholder in a string. -/
def PhaseAgrees (agentD sub : Table) : Prop :=
  isEmptyField (table sub "prompt") "files" = false →
    (table sub "agent").has "prompt_arg_template" = true →
    ((table sub "agent").has "prompt_delivery" = false → delivery env agentD ≠ "stdin") ∧
    (delivery env (agentD.merge (table sub "agent")) = "argv" →
      CarriesPlaceholder (table sub "agent"))

/-- The loader's check of a table's template passes. -/
def CheckPasses (d : Table) (label : String) (required : Bool) : Prop :=
  ∃ raw template, d.get? "prompt_arg_template" = some raw ∧
    requireStrList env raw s!"{label} prompt_arg_template" = .ok template ∧
    checkDelivery env label (delivery env d) template required = .ok ()

theorem stringPlaceholder_iff {items : List Value} :
    items.any stringPlaceholder = true ↔ ∃ s, .str s ∈ items ∧ hasPlaceholder s = true := by
  rw [List.any_eq_true]
  constructor
  · rintro ⟨value, member, found⟩
    cases value with
    | str s => exact ⟨s, member, found⟩
    | _ => cases found
  · rintro ⟨s, member, found⟩
    exact ⟨.str s, member, found⟩

/-- `_agent_missing_prompt_placeholder` fires on an argv template that is a list. -/
theorem agentMissing_iff {d : Table} :
    agentMissingPromptPlaceholder d = true ↔
      ConfigParsers.getOr d "prompt_delivery" (.str "argv") = .str "argv" ∧
      (∃ items, d.get? "prompt_arg_template" = some (.arr items)) ∧ ¬ CarriesPlaceholder d := by
  have argv : ∀ value, isText "argv" value = true ↔ value = .str "argv" := by
    intro value
    cases value with
    | str s => simp [isText]
    | _ => exact iff_of_false nofun nofun
  rw [agentMissingPromptPlaceholder, Bool.and_eq_true, argv]
  refine and_congr_right fun _ => ?_
  split
  · rename_i items found
    rw [Bool.not_eq_true', ← Bool.not_eq_true, stringPlaceholder_iff]
    constructor
    · rintro missing
      refine ⟨⟨items, found⟩, fun ⟨other, s, same, member, carries⟩ => missing ⟨s, ?_, carries⟩⟩
      rw [found] at same
      cases same
      exact member
    · rintro ⟨-, missing⟩ ⟨s, member, carries⟩
      exact missing ⟨items, s, found, member, carries⟩
  · rename_i other
    exact iff_of_false nofun fun ⟨⟨items, found⟩, _⟩ => other items found

theorem delivery_argv {env : Env} (texts : PlainTexts env) {d : Table} :
    delivery env d = "argv" ↔
      ConfigParsers.getOr d "prompt_delivery" (.str "argv") = .str "argv" := by
  rw [delivery]
  cases given : ConfigParsers.getOr d "prompt_delivery" (.str "argv") with
  | str s => exact (Value.str.injEq ..).symm ▸ Iff.rfl
  | _ =>
    exact iff_of_false (fun same => absurd (List.mem_cons.mpr (.inl same))
      (texts _ fun _ => nofun)) nofun

theorem checkPasses_list {env : Env} {d : Table} {label : String} {required : Bool}
    (passes : CheckPasses env d label required) :
    ∃ items, d.get? "prompt_arg_template" = some (.arr items) ∧
      (delivery env d = "argv" ∨ delivery env d = "stdin") ∧
      (delivery env d = "stdin" → (items.map (str env)).any hasPlaceholder = false) := by
  obtain ⟨raw, template, found, list, checked⟩ := passes
  obtain ⟨items, rfl, rfl⟩ := requireStrList_ok env list
  obtain ⟨known, piped, -⟩ := (checkDelivery_ok env).mp checked
  exact ⟨items, found, known, piped⟩

/-- Under a passed check the base detector is silent exactly if the table agrees. -/
theorem base_silent_iff {env : Env} (texts : PlainTexts env) {d : Table} {label : String}
    {required : Bool} (passes : CheckPasses env d label required) :
    agentMissingPromptPlaceholder d = false ↔ BaseAgrees env d := by
  obtain ⟨items, found, -, -⟩ := checkPasses_list passes
  rw [← Bool.not_eq_true, agentMissing_iff, BaseAgrees, delivery_argv texts]
  constructor
  · exact fun silent argv => not_not.mp fun missing => silent ⟨argv, ⟨items, found⟩, missing⟩
  · exact fun agrees ⟨argv, _, missing⟩ => missing (agrees argv)

/-- A string with the placeholder shows in the texts of the template. -/
theorem carries_text {env : Env} {d : Table} (carries : CarriesPlaceholder d) {items : List Value}
    (found : d.get? "prompt_arg_template" = some (.arr items)) :
    (items.map (str env)).any hasPlaceholder = true := by
  obtain ⟨other, s, same, member, holds⟩ := carries
  rw [found] at same
  cases same
  exact List.any_eq_true.mpr ⟨s, List.mem_map.mpr ⟨_, member, rfl⟩, holds⟩

theorem delivery_merge_own {env : Env} {agentD d : Table} {value : Value}
    (own : d.get? "prompt_delivery" = some value) :
    delivery env (agentD.merge d) = delivery env d := by
  rw [delivery, delivery, ConfigParsers.getOr, ConfigParsers.getOr, Table.get?_merge, own,
    Option.some_or]

theorem delivery_merge_base {env : Env} {agentD d : Table}
    (missing : d.get? "prompt_delivery" = none) :
    delivery env (agentD.merge d) = delivery env agentD := by
  rw [delivery, delivery, ConfigParsers.getOr, ConfigParsers.getOr, Table.get?_merge, missing,
    Option.none_or]

/-- The same of a phase, whose own table the detector reads and whose merged table the
loader checks. -/
theorem phase_silent_iff {env : Env} (texts : PlainTexts env) {agentD sub : Table}
    {label : String} {required : Bool}
    (passes : CheckPasses env (agentD.merge (table sub "agent")) label required) :
    phaseMissingPromptPlaceholder sub = false ↔ PhaseAgrees env agentD sub := by
  obtain ⟨items, found, known, piped⟩ := checkPasses_list passes
  rw [Table.get?_merge] at found
  rw [← Bool.not_eq_true, phaseMissingPromptPlaceholder, Bool.and_eq_true, Bool.not_eq_true',
    agentMissing_iff]
  constructor
  · intro silent prompted template
    obtain ⟨value, own⟩ := Option.isSome_iff_exists.mp template
    rw [own, Option.some_or, Option.some_inj] at found
    subst found
    have carries : ConfigParsers.getOr (table sub "agent") "prompt_delivery" (.str "argv") =
        .str "argv" → CarriesPlaceholder (table sub "agent") :=
      fun argv => not_not.mp fun missing => silent ⟨⟨argv, ⟨items, own⟩, missing⟩, prompted⟩
    constructor
    · intro none_ stdin
      have missing := Option.not_isSome_iff_eq_none.mp (Bool.not_eq_true _ ▸ none_)
      have argv : ConfigParsers.getOr (table sub "agent") "prompt_delivery" (.str "argv") =
          .str "argv" := by rw [ConfigParsers.getOr, missing, Option.getD_none]
      have shown : (items.map (str env)).any hasPlaceholder = true :=
        carries_text (carries argv) own
      rw [piped ((delivery_merge_base missing).trans stdin)] at shown
      cases shown
    · intro argv
      cases delivered : (table sub "agent").get? "prompt_delivery" with
      | none => exact carries (by rw [ConfigParsers.getOr, delivered, Option.getD_none])
      | some value =>
        rw [delivery_merge_own delivered, delivery_argv texts] at argv
        exact carries argv
  · rintro agrees ⟨⟨argv, ⟨own, template⟩, missing⟩, prompted⟩
    obtain ⟨inherits, carries⟩ := agrees prompted (by rw [Table.has, template]; rfl)
    refine missing (carries ?_)
    cases delivered : (table sub "agent").get? "prompt_delivery" with
    | none =>
      rw [delivery_merge_base delivered] at known ⊢
      exact known.resolve_right (inherits (by rw [Table.has, delivered]; rfl))
    | some value => rw [delivery_merge_own delivered, delivery_argv texts, argv]

/-! ## The gate -/

/-- The reports of the two `[plugins] disable` renames. -/
def renameReports (p : Table) : List String := reports false p (disableRenames env)

/-- `_migrate_config_file` of a file with `text`, where migration is not skipped: what is
written, the applied and the manual reports. -/
def migrateConfigFile (text : Text) :
    Except RunError (Option Text × List String × List String) := do
  match ← liftRun (loads text) with
  | none => return (none, [], [])
  | some document =>
    let result ← runMigrations env loads text document.entries
    if !result.manual.isEmpty then return (none, [], result.manual)
    else if !result.applied.isEmpty then return (some result.newText, result.applied, [])
    else return (none, [], [])

/-- A run that applies nothing writes nothing: its manual reports are all there is. -/
theorem migrateConfigFile_reports {text : Text} {document : Document} {result : MigrationResult}
    (parsed : loads text = .ok (some document))
    (ran : runMigrations env loads text document.entries = .ok result)
    (nothing : result.applied = []) :
    migrateConfigFile loads env text = .ok (none, [], result.manual) := by
  rw [migrateConfigFile, parsed]
  simp only [liftRun, bind, Except.bind, ran, nothing]
  cases result.manual <;> rfl

/-- The base and every phase agree with what the detectors look for. -/
def DocumentAgrees (p : Table) : Prop :=
  BaseAgrees env (table p "agent") ∧
    ∀ sub ∈ phaseSubtables p, PhaseAgrees env (table p "agent") sub

/-- The run reports the renames and nothing else, and `upgrade` blocks on no more. -/
def NeverBlocks (text : Text) (document : Document) : Prop :=
  (∃ result, runMigrations env loads text document.entries = .ok result ∧
    result.manual = renameReports env document.entries) ∧
  migrateConfigFile loads env text = .ok (none, [], renameReports env document.entries)

/-- A parsed agent table has passed the check. -/
theorem checkPasses_shape {env : Env} {d : Table} {required : Bool}
    (shape : AgentShape env d required) (label : String) : CheckPasses env d label required := by
  obtain ⟨items, found, checked⟩ := shape.template
  exact ⟨_, _, found, rfl, (checkDelivery_ok env).mpr checked⟩

theorem phase_shape_silent_iff {env : Env} (texts : PlainTexts env) {agentD sub : Table}
    (shape : PhaseShape env agentD sub) :
    phaseMissingPromptPlaceholder sub = false ↔ PhaseAgrees env agentD sub := by
  have bare : table sub "agent" = [] →
      (phaseMissingPromptPlaceholder sub = false ↔ PhaseAgrees env agentD sub) := by
    intro none_
    rw [PhaseAgrees, phaseMissingPromptPlaceholder, none_]
    exact iff_of_true rfl nofun
  cases own : sub.get? "agent" with
  | none => exact bare (table_missing own)
  | some value =>
    cases value with
    | table d =>
      have passes := checkPasses_shape (shape.agent d own) ""
      rw [← table_eq own] at passes
      exact phase_silent_iff texts passes
    | _ =>
      apply bare
      rw [table, own]

theorem reports_placeholder {p : Table} :
    reports false p placeholderMigrations = [] ↔
      agentMissingPromptPlaceholder (table p "agent") = false ∧
        ∀ sub ∈ phaseSubtables p, phaseMissingPromptPlaceholder sub = false := by
  rw [reports, List.map_eq_nil_iff, List.filter_eq_nil_iff]
  simp only [placeholderMigrations, List.forall_mem_cons]
  simp [fires, manual, anyPhase]

section Accepted
variable {env : Env} {document : Document} (texts : PlainTexts env)
  (shape : DocumentShape env document.entries)

include texts shape in
theorem reporting_accepted : ∀ m ∈ migrations env, Reporting document.entries m := by
  have told : ∀ m, m.apply = none → (∃ fired, m.detect document.entries = .ok fired) →
      Reporting document.entries m := fun m manual returns => .inr ⟨manual, returns⟩
  simp only [migrations, List.forall_mem_append]
  refine ⟨⟨⟨⟨⟨⟨⟨⟨⟨⟨?_, ?_⟩, ?_⟩, ?_⟩, ?_⟩, ?_⟩, ?_⟩, ?_⟩, ?_⟩, ?_⟩, ?_⟩
  · exact fun m member => .inl (keyMigrations_silent texts shape m member)
  · exact List.forall_mem_singleton.mpr (told _ rfl ⟨_, rfl⟩)
  · exact fun m member => .inl (pluginRemovals_silent shape m member)
  · exact fun m member => .inl (bareStringMigrations_silent shape m member)
  · simp only [disableRenames, List.forall_mem_cons]
    exact ⟨told _ rfl ⟨_, rfl⟩, told _ rfl ⟨_, rfl⟩, nofun⟩
  · exact fun m member => .inl (emptyListMigrations_silent texts shape m member)
  · exact fun m member => .inl (phaseBareStringMigrations_silent texts shape m member)
  · exact fun m member => .inl (strictMigrations_silent texts shape m member)
  · simp only [placeholderMigrations, List.forall_mem_cons]
    exact ⟨told _ rfl ⟨_, rfl⟩, told _ rfl ⟨_, rfl⟩, nofun⟩
  · exact fun m member => .inl (hostHealth_silent shape m (List.mem_append_left _ member))
  · exact fun m member => .inl (hostHealth_silent shape m (List.mem_append_right _ member))

include texts shape in
/-- Of all migrations the renames and the placeholder detectors report. -/
theorem reports_accepted : reports false document.entries (migrations env) =
    renameReports env document.entries ++ reports false document.entries placeholderMigrations := by
  have flat : reports false document.entries [flatPhaseOverride] = [] := by
    simp [reports, flatPhaseOverride]
  rw [migrations, List.append_assoc _ (hostHealthRelocations.map relocation)]
  simp only [reports_append]
  rw [reports_silent (keyMigrations_silent texts shape), flat,
    reports_silent (pluginRemovals_silent shape),
    reports_silent (bareStringMigrations_silent shape),
    reports_silent (emptyListMigrations_silent texts shape),
    reports_silent (phaseBareStringMigrations_silent texts shape),
    reports_silent (strictMigrations_silent texts shape), ← reports_append,
    reports_silent (hostHealth_silent shape)]
  simp only [List.nil_append, List.append_nil]
  rfl

include texts shape in
theorem placeholder_accepted_iff :
    reports false document.entries placeholderMigrations = [] ↔
      DocumentAgrees env document.entries := by
  rw [reports_placeholder, DocumentAgrees,
    base_silent_iff texts (checkPasses_shape shape.agent "")]
  refine and_congr_right fun _ => forall₂_congr fun sub member => ?_
  exact phase_shape_silent_iff texts (phaseSubtables_shape texts document shape sub member)

end Accepted

/-- **A loadable config never blocks an upgrade, where the placeholder is where the
detectors look.**  On every document the parsers accept the run reports the two renames
and nothing else, and `upgrade` blocks on no more, exactly if no argv template hides its
placeholder from the string test and no phase inherits stdin for a template of its own;
and table by table, a detector is silent under the loader's passed check exactly then. -/
theorem loadable_never_blocks (texts : PlainTexts env) :
    (∀ configDir document cfg, parseConfig env configDir document.entries = .ok cfg →
      ∀ loads text, loads text = .ok (some document) →
        (NeverBlocks loads env text document ↔ DocumentAgrees env document.entries)) ∧
    (∀ agentD label, CheckPasses env agentD label true →
      (agentMissingPromptPlaceholder agentD = false ↔ BaseAgrees env agentD)) ∧
    ∀ agentD sub label, CheckPasses env (agentD.merge (table sub "agent")) label
        (!isEmptyField (table sub "prompt") "files") →
      (phaseMissingPromptPlaceholder sub = false ↔ PhaseAgrees env agentD sub) := by
  refine ⟨?_, fun _ _ passes => base_silent_iff texts passes,
    fun _ _ _ passes => phase_silent_iff texts passes⟩
  intro configDir document cfg loaded loads text parsed
  have shape := parseConfig_shape env loaded
  have run := run_reporting loads env (reporting_accepted texts shape) shape.version text
  rw [reports_accepted texts shape] at run
  rw [← placeholder_accepted_iff texts shape]
  constructor
  · rintro ⟨⟨result, ran, same⟩, -⟩
    cases run.symm.trans ran
    exact List.append_right_eq_self.mp same
  · intro none_
    rw [none_, List.append_nil] at run
    exact ⟨⟨_, run, rfl⟩, migrateConfigFile_reports loads env parsed run rfl⟩

theorem plain_texts : PlainTexts plainEnv := by
  intro value other
  cases value with
  | str s => exact absurd rfl (other s)
  | bool b => cases b <;> decide
  | arr xs => exact (by decide : "[]" ∉ ["argv", "stdin", "wait", "skip"])
  | table d => exact (by decide : "\x7b\x7d" ∉ ["argv", "stdin", "wait", "skip"])
  | _ => exact (by decide : "0" ∉ ["argv", "stdin", "wait", "skip"])

/-- A phase with a template of its own, of one token. -/
def phaseTemplate (agent : Table) (token : String) : Table :=
  smallDocument agent (onePhase [("agent", .table [("prompt_arg_template", .arr [.str token])])])

theorem phaseTemplate_unique {agent : Table} (unique : (Value.table agent).Unique)
    (token : String) : (Value.table (phaseTemplate agent token)).Unique := by
  rw [Value.Unique] at unique
  simp [phaseTemplate, smallDocument, onePhase, Value.Unique, UniqueFields, UniqueItems, unique]

theorem argvAgent_unique : (Value.table argvAgent).Unique := by
  simp [argvAgent, Value.Unique, UniqueFields, UniqueItems]

def argvDocument : Document := ⟨_, phaseTemplate_unique argvAgent_unique "\x7bprompt\x7d"⟩

/-- A text of the document: its tables in order. -/
def argvText : Text := ("schema_version = 1\n[agent]\ncommand = [\"claude\"]\n" ++
  "prompt_arg_template = [\"\x7bprompt\x7d\"]\n[runtime]\nwork_dir = \"/repo\"\n" ++
  "log_dir = \"/log\"\n[prompt]\nfile = \"/prompt.md\"\n[phases]\nlist = [\"dev\"]\n" ++
  "[phases.dev.agent]\nprompt_arg_template = [\"\x7bprompt\x7d\"]\n").toList

theorem argv_document_agrees :
    DocumentAgrees plainEnv argvDocument.entries ∧
      CheckPasses plainEnv argvAgent "[agent]" true := by
  have carries : CarriesPlaceholder argvAgent := ⟨_, _, rfl, .head _, by decide⟩
  refine ⟨⟨fun _ => carries, ?_⟩, _, _, rfl, rfl, rfl⟩
  refine List.forall_mem_singleton.mpr fun _ _ => ⟨fun _ => by decide, fun _ => ?_⟩
  exact ⟨_, _, rfl, .head _, by decide⟩

/-- A loader that knows one text. -/
def onlyLoads (known : Text) (document : Document) : Loads :=
  fun text => .ok (if text = known then some document else none)

theorem onlyLoads_known (known : Text) (document : Document) :
    onlyLoads known document known = .ok (some document) := congrArg _ (if_pos rfl)

theorem argv_document_never_blocks :
    NeverBlocks (onlyLoads argvText argvDocument) plainEnv argvText argvDocument ∧
      agentMissingPromptPlaceholder argvAgent = false := by
  obtain ⟨agrees, passes⟩ := argv_document_agrees
  obtain ⟨documents, tables, -⟩ := loadable_never_blocks plainEnv plain_texts
  refine ⟨(documents "/repo" argvDocument _ rfl _ argvText (onlyLoads_known ..)).mpr agrees, ?_⟩
  exact (tables argvAgent "[agent]" passes).mpr agrees.1

/-- An agent that takes its prompt on stdin. -/
def stdinAgent : Table :=
  [("command", .arr [.str "claude"]), ("prompt_arg_template", .arr [.str "-p"]),
    ("prompt_delivery", .str "stdin")]

theorem stdinAgent_unique : (Value.table stdinAgent).Unique := by
  simp [stdinAgent, Value.Unique, UniqueFields, UniqueItems]

def stdinDocument : Document := ⟨_, phaseTemplate_unique stdinAgent_unique "-v"⟩

/-- A text of the document: its tables in order. -/
def stdinText : Text := ("schema_version = 1\n[agent]\ncommand = [\"claude\"]\n" ++
  "prompt_arg_template = [\"-p\"]\nprompt_delivery = \"stdin\"\n[runtime]\n" ++
  "work_dir = \"/repo\"\nlog_dir = \"/log\"\n[prompt]\nfile = \"/prompt.md\"\n[phases]\n" ++
  "list = [\"dev\"]\n[phases.dev.agent]\nprompt_arg_template = [\"-v\"]\n").toList

/-- A phase that inherits stdin for its own template is accepted, is reported as a manual
fix, and `upgrade` refuses over it. -/
theorem inherited_stdin_blocks :
    ∃ cfg result, parseConfig plainEnv "/repo" stdinDocument.entries = .ok cfg ∧
      onlyLoads stdinText stdinDocument stdinText = .ok (some stdinDocument) ∧
      runMigrations plainEnv (onlyLoads stdinText stdinDocument) stdinText stdinDocument.entries =
        .ok result ∧
      result.manual.length = 1 ∧ renameReports plainEnv stdinDocument.entries = [] ∧
      migrateConfigFile (onlyLoads stdinText stdinDocument) plainEnv stdinText =
        .ok (none, [], result.manual) ∧
      ¬ NeverBlocks (onlyLoads stdinText stdinDocument) plainEnv stdinText stdinDocument := by
  have loaded : ∃ cfg, parseConfig plainEnv "/repo" stdinDocument.entries = .ok cfg := ⟨_, rfl⟩
  obtain ⟨cfg, loaded⟩ := loaded
  have shape := parseConfig_shape plainEnv loaded
  have ran := run_reporting (onlyLoads stdinText stdinDocument) plainEnv
    (reporting_accepted plain_texts shape) shape.version stdinText
  have one : (reports false stdinDocument.entries (migrations plainEnv)).length = 1 := by
    rw [reports_accepted plain_texts shape]
    rfl
  have known := onlyLoads_known stdinText stdinDocument
  refine ⟨cfg, _, loaded, known, ran, one, rfl, ?_, ?_⟩
  · exact migrateConfigFile_reports _ _ known ran rfl
  · rintro ⟨⟨other, again, same⟩, -⟩
    have shown := Except.ok.inj (ran.symm.trans again)
    rw [← shown] at same
    exact absurd (one.symm.trans (congrArg List.length same)) (Nat.succ_ne_zero 0)

end AgentRunner.UpgradeGate
