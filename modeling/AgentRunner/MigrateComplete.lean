import AgentRunner.AcceptedDocuments
import AgentRunner.DetectorGaps
import AgentRunner.RewriteProgress

/-! A run of the migrations that reports nothing manual, and what the loader still asks of
its result. -/
namespace AgentRunner.MigrateComplete
open PyValue Toml Validators ConfigModels ConfigParsers LoadConfig MigrationEdits Migrations
open MigrationAgreement MigrationSilence UpgradeGate RewriteProgress
open HintedErrors AcceptedDocuments DetectorGaps

variable (env : Env) (loads : Loads)

/-- The texts and documents that the passes of a run start from. -/
inductive PassStart (text : Text) (document : Document) : Text → Document → Prop where
  | first : PassStart text document text document
  | next {t : Text} {d next : Document} {pass : MigrationResult} :
      PassStart text document t d → runMigrationsPass env loads t d.entries = .ok pass →
      pass.newText ≠ t → loads pass.newText = .ok (some next) →
      PassStart text document pass.newText next

/-- The pass from `t` and `d` gives its text back, and `result` is what the run returns. -/
structure LastPass (text : Text) (document : Document) (result : MigrationResult) (t : Text)
    (d : Document) : Prop where
  start : PassStart env loads text document t d
  ended : ∃ pass, runMigrationsPass env loads t d.entries = .ok pass ∧ pass.newText = t ∧
    pass.manual = result.manual
  stamped : result.newText = (stampSchemaVersion t d.entries).1

variable {env loads}

theorem passStart_loads {text t : Text} {document d : Document}
    (parsed : loads text = .ok (some document)) (start : PassStart env loads text document t d) :
    loads t = .ok (some d) := by
  cases start with
  | first => exact parsed
  | next _ _ _ again => exact again

/-- A run that returns has a last pass. -/
theorem runPasses_lastPass {left : Nat} {text t : Text} {document d : Document}
    {applied : List String} {result : MigrationResult}
    (start : PassStart env loads text document t d)
    (ran : runPasses env loads left t d.entries applied = .ok result) :
    ∃ t d, LastPass env loads text document result t d := by
  induction left generalizing t d applied with
  | zero => cases ran
  | succ left ih =>
    obtain ⟨pass, passed, rest⟩ := bind_eq_ok.mp ran
    split at rest
    · rename_i same
      cases rest
      exact ⟨t, d, start, ⟨pass, liftRun_ok passed, same, rfl⟩, rfl⟩
    · rename_i changed
      obtain ⟨parsed, again, rest⟩ := bind_eq_ok.mp rest
      cases parsed with
      | none => cases rest
      | some next => exact ih (.next start (liftRun_ok passed) changed (liftRun_ok again)) rest

/-! ## The stamp -/

/-- The documents differ in the version only, and the second has a current one. -/
def Stamped (d stamped : Table) : Prop :=
  (∃ version, stamped.get? "schema_version" = some (.int version) ∧
    currentSchemaVersion ≤ version) ∧
  ∀ name, name ≠ "schema_version" → stamped.get? name = d.get? name

/-- Where a version is stamped, the stamped text is one of the document with that version. -/
def StampTakes (loads : Loads) (t : Text) (d : Document) : Prop :=
  (stampSchemaVersion t d.entries).2.isSome = true →
    ∃ stamped, loads (stampSchemaVersion t d.entries).1 = .ok (some stamped) ∧
      Stamped d.entries stamped.entries

/-- Where it is not, the version is current. -/
theorem stamped_always {t : Text} {d : Document} (parsed : loads t = .ok (some d))
    (takes : StampTakes loads t d) :
    ∃ stamped, loads (stampSchemaVersion t d.entries).1 = .ok (some stamped) ∧
      Stamped d.entries stamped.entries := by
  have kept : ∀ version, d.entries.get? "schema_version" = some (.int version) →
      currentSchemaVersion ≤ version → stampSchemaVersion t d.entries = (t, none) := by
    intro version found current
    rw [stampSchemaVersion, found]
    exact if_pos current
  by_cases current : ∃ version, d.entries.get? "schema_version" = some (.int version) ∧
      currentSchemaVersion ≤ version
  · obtain ⟨version, found, le⟩ := current
    rw [kept version found le]
    exact ⟨d, parsed, ⟨version, found, le⟩, fun _ _ => rfl⟩
  · refine takes ?_
    rw [stampSchemaVersion]
    split
    · rename_i version found
      rw [if_neg fun le => current ⟨version, found, le⟩]
      rfl
    · rfl

theorem stamped_versioned {d stamped : Table} (same : Stamped d stamped) : Versioned stamped := by
  obtain ⟨⟨version, found, current⟩, -⟩ := same
  refine ⟨_, found, fun other equal => ?_⟩
  cases equal
  exact current

/-- What keeps the loader from asking says nothing of the version. -/
theorem hintless_congr {p q : Table}
    (same : ∀ name, name ≠ "schema_version" → q.get? name = p.get? name)
    (hintless : DocumentHintless env p) : DocumentHintless env q := by
  have tables : ∀ name, name ≠ "schema_version" → table q name = table p name :=
    fun name other => by rw [table, same _ other, table]
  have agent := tables "agent" (by decide)
  have prompt := tables "prompt" (by decide)
  have monitor := tables "monitor" (by decide)
  have plugins := tables "plugins" (by decide)
  have phases := tables "phases" (by decide)
  have goal := tables "goal" (by decide)
  have health : hostHealth q = hostHealth p := by rw [hostHealth, monitor, hostHealth]
  have named : ∀ name ∈ topLevelTables, name ≠ "schema_version" := by decide
  exact {
    tables := fun name member value found =>
      hintless.tables name member value (same name (named name member) ▸ found)
    agent := agent ▸ hintless.agent
    runtimeKeys := tables "runtime" (by decide) ▸ hintless.runtimeKeys
    promptKeys := prompt ▸ hintless.promptKeys
    files := prompt ▸ hintless.files
    vcsKeys := tables "vcs" (by decide) ▸ hintless.vcsKeys
    monitorKeys := monitor ▸ hintless.monitorKeys
    hostHealthTable := monitor ▸ hintless.hostHealthTable
    hostHealthKeys := health ▸ hintless.hostHealthKeys
    hostHealthKnown := health ▸ hintless.hostHealthKnown
    autoStopOn := monitor ▸ hintless.autoStopOn
    reachable := monitor ▸ hintless.reachable
    pluginsKeys := plugins ▸ hintless.pluginsKeys
    disable := plugins ▸ hintless.disable
    scheduleKeys := tables "schedule" (by decide) ▸ hintless.scheduleKeys
    phasesList := phases ▸ hintless.phasesList
    phases := phases ▸ agent ▸ hintless.phases
    goal := ⟨fun value found => hintless.goal.isTable value (same "goal" (by decide) ▸ found),
      goal ▸ hintless.goal.keys, goal ▸ hintless.goal.checks⟩ }

/-! ## The result of a run -/

/-- The last pass of a run without manual reports finds nothing. -/
theorem lastPass_quiet {text t : Text} {document d : Document} {result : MigrationResult}
    (last : LastPass env loads text document result t d) (nothing : result.manual = []) :
    ∀ m ∈ migrations env, Quiet d.entries m := by
  obtain ⟨pass, passed, same, manual⟩ := last.ended
  obtain ⟨-, -, quiet⟩ := pass_onward (migrations_moveOn env) passed
  exact quiet same (manual.trans nothing)

/-- What the run of an accepted document that agrees with the detectors returns. -/
theorem run_agreeing (texts : PlainTexts env) {document : Document}
    (shape : DocumentShape env document.entries) (agrees : DocumentAgrees env document.entries)
    (kept : renameReports env document.entries = []) (text : Text) :
    runMigrations env loads text document.entries =
      .ok ⟨text, [], [], reports true document.entries (migrations env)⟩ := by
  rw [run_reporting loads env (reporting_accepted texts shape) shape.version text,
    reports_accepted texts shape, (placeholder_accepted_iff texts shape).mpr agrees, kept,
    List.nil_append]

/-- An argv agent whose `exec_prefix` is a bare string. -/
def nicedAgent : Table := argvAgent ++ [("exec_prefix", .str "nice")]

theorem nicedAgent_unique : (Value.table nicedAgent).Unique := by
  simp [nicedAgent, argvAgent, Value.Unique, UniqueFields, UniqueItems]

theorem plainDocument_unique {agent : Table} (unique : (Value.table agent).Unique) :
    (Value.table (smallDocument agent [])).Unique := by
  rw [Value.Unique] at unique
  simp [smallDocument, Value.Unique, UniqueFields, unique]

def nicedDocument : Document := ⟨_, plainDocument_unique nicedAgent_unique⟩

/-- A text of the document: its tables in order. -/
def nicedText : Text := ("schema_version = 1\n[agent]\ncommand = [\"claude\"]\n" ++
  "prompt_arg_template = [\"\x7bprompt\x7d\"]\nexec_prefix = \"nice\"\n[runtime]\n" ++
  "work_dir = \"/repo\"\nlog_dir = \"/log\"\n[prompt]\nfile = \"/prompt.md\"\n[phases]\n").toList

end AgentRunner.MigrateComplete
