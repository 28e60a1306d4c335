import AgentRunner.LoadConfig
import AgentRunner.MigrationEdits

/-! `migrations.py`: the registry, each migration a detector on the parsed document with a
rewrite of the text or a manual fix, and the passes over it up to a fixpoint. -/
namespace AgentRunner.Migrations
open PyValue Toml Validators ConfigModels ConfigParsers LoadConfig MigrationEdits

/-- `Migration`: without `apply` it is manual; an `advisory` one describes a valid shape. -/
structure Migration where
  detect : Table → Except PyErr Bool
  apply : Option (Text → Text)
  describe : Table → String
  advisory : Bool

structure MigrationResult where
  newText : Text
  applied : List String
  manual : List String
  advisory : List String

/-! ## What the detectors look at -/

/-- `_table`: anything but a table reads as an empty one. -/
def table (p : Table) (name : String) : Table :=
  match p.get? name with
  | some (.table d) => d
  | _ => []

def topLevelTables : List String :=
  ["agent", "runtime", "prompt", "vcs", "monitor", "phases", "plugins", "schedule"]

/-- `_scalar_tables`. -/
def scalarTables (p : Table) : List String :=
  topLevelTables.filter fun name => (p.get? name).any fun value => !value.isTable

/-- `_phase_subtables`: every table under `[phases]`, whatever its key. -/
def phaseSubtables (parsed : Table) : List Table :=
  (table parsed "phases").filterMap fun entry =>
    match entry.2 with
    | .table sub => some sub
    | _ => none

/-- `_phases_scalar_keys`. -/
def phasesScalarKeys (p : Table) : List String :=
  sortedNames (((table p "phases").filter fun entry =>
    !(["list", "phase_policy"].contains entry.1) && !entry.2.isTable).map Prod.fst)

/-- `_has_flat_phase_override`. -/
def hasFlatPhaseOverride (parsed : Table) : Bool :=
  (table parsed "phases").any fun entry =>
    !(["list", "phase_policy"].contains entry.1) &&
      match entry.2 with
      | .table sub => Table.has sub "round_budget_s"
      | _ => false

/-- `_bare_str` of a field of a table. -/
def bareStr (p : Table) (name key : String) : Option String :=
  match (table p name).get? key with
  | some (.str s) => some s
  | _ => none

/-- A bare string that the rewrites wrap. -/
def wrappable (value : Option String) : Bool := value.isSome && !hasSpace value

/-- `value == []` of a field that may be missing. -/
def isEmptyField (d : Table) (key : String) : Bool := (d.get? key).any Value.isEmptyList

/-- A string of the list with the placeholder. -/
def stringPlaceholder : Value → Bool
  | .str s => hasPlaceholder s
  | _ => false

/-- `value == text`. -/
def isText (text : String) : Value → Bool
  | .str s => s == text
  | _ => false

/-- `_agent_missing_prompt_placeholder`. -/
def agentMissingPromptPlaceholder (agentD : Table) : Bool :=
  isText "argv" (getOr agentD "prompt_delivery" (.str "argv")) &&
    match agentD.get? "prompt_arg_template" with
    | some (.arr template) => !template.any stringPlaceholder
    | _ => false

/-- `_phase_missing_prompt_placeholder`. -/
def phaseMissingPromptPlaceholder (sub : Table) : Bool :=
  agentMissingPromptPlaceholder (table sub "agent") && !isEmptyField (table sub "prompt") "files"

/-- `(value or 0) > 0`. -/
def positive : Option Value → Except PyErr Bool
  | some (.int n) => .ok (decide (0 < n))
  | some (.float x) => .ok (isPositive x)
  | some (.bool b) => .ok b
  | none | some (.str "") | some (.arr []) | some (.table []) => .ok false
  | some _ => .error .typeError

def number : Value → Option PyFloat
  | .int n => some (.finite n)
  | .float x => some x
  | .bool b => some (.finite (if b then 1 else 0))
  | _ => none

/-- `x > y` of two floats. -/
def gt : PyFloat → PyFloat → Bool
  | .finite x, .finite y => decide (y < x)
  | .posInf, .finite _ | .posInf, .negInf | .finite _, .negInf => true
  | _, _ => false

/-- `threshold > window`, once both are known to be positive. -/
def exceeds (threshold window : Option Value) : Bool :=
  match threshold.bind number, window.bind number with
  | some x, some y => gt x y
  | _, _ => false

/-- The anomaly threshold lies above its window. -/
def anomalyUnreachable (p : Table) : Except PyErr Bool := do
  let threshold := (table p "monitor").get? "anomaly_repetitive_threshold"
  let window := (table p "monitor").get? "anomaly_repetitive_window"
  if ← positive threshold then
    if ← positive window then return exceeds threshold window else return false
  else return false

def oldPluginDisableNames : List (String × String) :=
  [("claude_error_detector", "claude"), ("gemini_error_detector", "gemini"),
    ("codewhale_error_detector", "codewhale"), ("kimi_error_detector", "kimi"),
    ("pi_error_detector", "pi")]

def renamedPluginDisableNames : List (String × String) := [("claude_rate_limit", "claude")]

/-- `_plugin_disable_renames`. -/
def pluginDisableRenames (p : Table) (mapping : List (String × String)) :
    List (String × String) :=
  match (table p "plugins").get? "disable" with
  | some (.arr listed) => mapping.filter fun entry => listed.any (isText entry.1)
  | _ => []

/-! ## The registry -/

variable (env : Env)

/-- A detected shape with a rewrite. -/
def auto (detect : Table → Bool) (apply : Text → Text) (describe : String) : Migration :=
  ⟨fun p => .ok (detect p), some apply, fun _ => describe, false⟩

/-- A detected shape without one. -/
def manual (detect : Table → Bool) (describe : Table → String) : Migration :=
  ⟨fun p => .ok (detect p), none, describe, false⟩

/-- A detector over the tables under `[phases]`. -/
def anyPhase (test : Table → Bool) (p : Table) : Bool := (phaseSubtables p).any test

def runtimeLegacyFields : List String := ["round_timeout_per_phase", "rate_limit_action"]
def vcsLegacyFields : List String := ["orphan_action"]
def pluginsLegacyFields : List String := ["sandbox", "pin", "spawn_override_allow"]

/-- The table has a key outside `allowed`. -/
def hasUnknown (allowed : List String) (d : Table) : Bool := !(unknownFields d allowed).isEmpty

/-- The text of `_unknown_key_desc` and `_unknown_key_desc_nested` for a table `d`. -/
def unknownKeyText (label : String) (d : Table) (allowed legacy : List String) (year : String) :
    String :=
  let bad := sortedNames (unknownFields d (allowed ++ legacy))
  s!"unknown [{label}] key(s) rejected in {year}" ++
    (if bad.isEmpty then "" else ": " ++ reprNames env bad) ++
    "; delete them (allowed: " ++ reprNames env (sortedNames allowed) ++ ")"

/-- The unknown keys of a top-level table. -/
def unknownKeys (name : String) (allowed legacy : List String) (year : String) : Migration :=
  manual (fun p => hasUnknown (allowed ++ legacy) (table p name))
    fun p => unknownKeyText env name (table p name) allowed legacy year

/-- Keys renamed or dropped under `[runtime]`, `[vcs]` and the phases. -/
def keyMigrations : List Migration :=
  [auto (fun p => (table p "runtime").has "rate_limit_action")
      (renameKey "rate_limit_action" "transient_error_action" (.literal "runtime"))
      "runtime.rate_limit_action → runtime.transient_error_action",
    auto (fun p => (table p "vcs").has "orphan_action")
      (renameKey "orphan_action" "dirty_action" (.literal "vcs"))
      "vcs.orphan_action → vcs.dirty_action",
    manual (fun p => (table p "runtime").has "round_timeout_per_phase")
      fun _ => "runtime.round_timeout_per_phase (removed 0.1.16) must be moved " ++
        "manually to [phases.<name>] round_budget_s",
    auto (fun p => (table p "runtime").has "round_timeout_s")
      (renameKey "round_timeout_s" "round_budget_s" (.literal "runtime"))
      "runtime.round_timeout_s → runtime.round_budget_s",
    auto (anyPhase fun sub => sub.has "round_timeout_s")
      (renameKey "round_timeout_s" "round_budget_s" (.phases ""))
      "phases.<name>.round_timeout_s → phases.<name>.round_budget_s",
    auto (anyPhase fun sub => (table sub "runtime").has "round_timeout_s")
      (renameKey "round_timeout_s" "round_budget_s" (.phases ".runtime"))
      "phases.<name>.runtime.round_timeout_s → phases.<name>.runtime.round_budget_s",
    auto (fun p => (table p "runtime").has "disable_pre_round_hooks")
      (dropKey "disable_pre_round_hooks" (.literal "runtime"))
      "runtime.disable_pre_round_hooks (removed 0.3.9 — PreRoundHook seam dropped)",
    auto (anyPhase fun sub => sub.has "disable_pre_round_hooks")
      (dropKey "disable_pre_round_hooks" (.phases ""))
      "phases.<name>.disable_pre_round_hooks (removed 0.3.9 — PreRoundHook seam dropped)",
    auto (anyPhase fun sub => (table sub "runtime").has "disable_pre_round_hooks")
      (dropKey "disable_pre_round_hooks" (.phases ".runtime"))
      ("phases.<name>.runtime.disable_pre_round_hooks " ++
        "(removed 0.3.9 — PreRoundHook seam dropped)")]

/-- The flat `round_budget_s` of a phase is a valid alias. -/
def flatPhaseOverride : Migration :=
  ⟨fun p => .ok (hasFlatPhaseOverride p), none, fun _ =>
    "flat round_budget_s under [phases.<name>] should move under a " ++
      "nested [phases.<name>.runtime] sub-table (the flat form still works as an alias)", true⟩

/-- A removed key of `[plugins]`. -/
def removedPlugin (key describe : String) : Migration :=
  manual (fun p => (table p "plugins").has key) fun _ => describe

def pluginRemovals : List Migration :=
  [removedPlugin "sandbox" ("plugins.sandbox (removed 0.3.9 — the third-party sandbox " ++
      "trampoline was dropped); delete the key"),
    removedPlugin "spawn_override_allow" ("plugins.spawn_override_allow (removed 0.3.9 — the " ++
      "SpawnHook seam was dropped); delete the key"),
    removedPlugin "pin" ("[plugins.pin] (removed 0.3.9 — the third-party checksum-pin gate " ++
      "was dropped); delete the table")]

/-- A bare string where a list belongs, whatever is in it. -/
def wrapped (name key : String) : Migration :=
  auto (fun p => (bareStr p name key).isSome) (wrapBareStringList key (.literal name) false)
    (s!"{name}.{key} \"x\" → [\"x\"]")

/-- A bare string of `[agent]`; one with spaces is not split. -/
def agentBareString (key example_ : String) : List Migration :=
  [auto (fun p => wrappable (bareStr p "agent" key))
      (wrapBareStringList key (.literal "agent") false) (s!"agent.{key} \"x\" → [\"x\"]"),
    manual (fun p => hasSpace (bareStr p "agent" key)) fun _ => example_]

def bareStringMigrations : List Migration :=
  agentBareString "command" ("[agent] command is a quoted string with spaces; rewrite it as an " ++
      "argv list, e.g. command = [\"claude\", \"-p\"] " ++
      "(auto-split is unsafe — shell quoting rules differ)") ++
    agentBareString "prompt_arg_template" ("[agent] prompt_arg_template is a quoted string " ++
      "with spaces; rewrite it as a list, e.g. prompt_arg_template = [\"-p\", \"\x7bprompt\x7d\"]") ++
    [wrapped "phases" "list", wrapped "prompt" "files", wrapped "monitor" "auto_stop_on",
      wrapped "plugins" "disable"]

/-- The names of `[plugins] disable` that were renamed. -/
def disableRename (mapping : List (String × String)) (text : String) : Migration :=
  manual (fun p => !(pluginDisableRenames p mapping).isEmpty) fun p =>
    let found := pluginDisableRenames p mapping
    text ++ env.repr (.table ((if found.isEmpty then mapping else found).map fun entry =>
      (entry.1, .str entry.2)))

def disableRenames : List Migration :=
  [disableRename env oldPluginDisableNames ("[plugins] disable names a 0.2.x hook-level name; " ++
      "0.3.0's PluginManifest ABI disables by plugin name instead — rewrite manually: "),
    disableRename env renamedPluginDisableNames
      "[plugins] disable names a plugin renamed in 0.3.9; rewrite manually: "]

def emptyListMigrations : List Migration :=
  [manual (fun p => isEmptyField (table p "agent") "command") fun _ =>
      "[agent] command is empty; set a real argv list, e.g. command = [\"claude\"] " ++
        "(no auto-fix — a real value is needed)",
    manual (fun p => isEmptyField (table p "prompt") "files") fun _ =>
      "empty top-level [prompt] files; give it real paths or remove the key " ++
        "(per-phase [phases.<name>.prompt] files = [] stays valid)",
    manual (anyPhase fun sub => isEmptyField (table sub "agent") "command") fun _ =>
      "a [phases.<name>.agent] command is empty; set a real argv list " ++
        "(no auto-fix — a real value is needed)"]

/-- A bare string of a phase's `[agent]`. -/
def phaseBareString (key : String) : Migration :=
  auto (anyPhase fun sub => wrappable (bareStr sub "agent" key))
    (wrapBareStringList key (.phases ".agent") true) (s!"phases.<name>.agent.{key} \"x\" → [\"x\"]")

def phaseBareStringMigrations : List Migration :=
  [phaseBareString "command",
    manual (anyPhase fun sub => hasSpace (bareStr sub "agent" "command") ||
        hasSpace (bareStr sub "agent" "prompt_arg_template")) fun _ =>
      "a [phases.<name>.agent] command/prompt_arg_template is a quoted string " ++
        "with spaces; rewrite it as an argv list (auto-split is unsafe)",
    phaseBareString "prompt_arg_template",
    auto (anyPhase fun sub => (bareStr sub "prompt" "files").isSome)
      (wrapBareStringList "files" (.phases ".prompt") false)
      "phases.<name>.prompt.files \"x\" → [\"x\"]"]

/-- The unknown keys of a sub-table of a phase. -/
def phaseUnknownKeys (name : String) (allowed : List String) (year : String) : Migration :=
  manual (anyPhase fun sub => hasUnknown allowed (table sub name)) fun _ =>
    s!"unknown [phases.<name>.{name}] key(s) rejected in {year}; delete them (allowed: " ++
      reprNames env (sortedNames allowed) ++ ")"

/-- `monitor.anomaly_repetitive_threshold` above its window. -/
def anomalyMigration : Migration :=
  ⟨anomalyUnreachable, none, fun _ =>
    "monitor.anomaly_repetitive_threshold > anomaly_repetitive_window: " ++
      "lower the threshold or raise the window so the detector can fire", false⟩

def strictMigrations : List Migration :=
  [phaseUnknownKeys env "schedule" scheduleAllowedFields "0.2.12",
    unknownKeys env "prompt" promptAllowedFields [] "0.2.12",
    unknownKeys env "schedule" scheduleAllowedFields [] "0.2.12",
    anomalyMigration,
    manual (fun p => !(scalarTables p).isEmpty) fun p =>
      let names := scalarTables p
      "[" ++ (if names.isEmpty then "<table>" else ", ".intercalate names) ++
        "] given as a scalar, not a table; give it real [table] content (no auto-fix possible)",
    unknownKeys env "agent" agentAllowedFields [] "0.2.13",
    unknownKeys env "runtime" runtimeAllowedFields runtimeLegacyFields "0.2.13",
    unknownKeys env "vcs" vcsAllowedFields vcsLegacyFields "0.2.13",
    unknownKeys env "monitor" monitorAllowedFields [] "0.2.13",
    unknownKeys env "plugins" pluginsAllowedFields pluginsLegacyFields "0.3.9",
    manual (fun p => !(phasesScalarKeys p).isEmpty) fun p =>
      let names := phasesScalarKeys p
      "[phases] key(s) " ++ reprNames env (if names.isEmpty then ["<name>"] else names) ++
        " must be phase sub-tables ([phases.<name>]); only 'list'/'phase_policy' are scalar " ++
        "[phases] fields",
    phaseUnknownKeys env "prompt" phasePromptAllowedFields "0.2.13"]

/-- The two missing `\x7bprompt\x7d` detectors. -/
def placeholderMigrations : List Migration :=
  [manual (fun p => agentMissingPromptPlaceholder (table p "agent")) fun _ =>
      "[agent] prompt_arg_template has no \x7bprompt\x7d placeholder; the prompt is " ++
        "never delivered to the agent — add \x7bprompt\x7d to one of the argv tokens",
    manual (anyPhase phaseMissingPromptPlaceholder) fun _ =>
      "a [phases.<name>.agent] prompt_arg_template has no \x7bprompt\x7d placeholder; " ++
        "add one, or set that phase's prompt.files = [] if it truly sends no prompt"]

def hostHealthRelocations : List (String × String × String) :=
  [("mem_avail_min_mb", "avail_min_mb", "memory"), ("disk_warning_pct", "warning_pct", "disk"),
    ("disk_critical_pct", "critical_pct", "disk"),
    ("swap_sout_noise_floor_mb", "swap_out_noise_floor_mb", "memory"),
    ("mem_free_low_mb", "free_low_mb", "memory"),
    ("psi_full_avg10_critical", "full_avg10_critical", "pressure"),
    ("psi_some_avg10_warning", "some_avg10_warning", "pressure"),
    ("mem_critical_consecutive_samples", "critical_consecutive_samples", "pressure"),
    ("in_round_mem_terminate", "in_round_terminate", "pressure")]

/-- `[monitor.host_health]` of a document. -/
def hostHealth (p : Table) : Table := table (table p "monitor") "host_health"

def relocation : String × String × String → Migration
  | (old, new, sub) =>
    auto (fun p => (hostHealth p).has old)
      (relocateKey old new "monitor.host_health" s!"monitor.host_health.{sub}")
      s!"monitor.host_health.{old} → monitor.host_health.{sub}.{new}"

/-- The unknown keys of `[monitor.host_health]`. -/
def hostHealthUnknown : Migration :=
  manual (fun p => hasUnknown monitorHostHealthAllowedFields (hostHealth p)) fun p =>
    unknownKeyText env "monitor.host_health" (hostHealth p) monitorHostHealthAllowedFields [] "0.3.0"

/-- `MIGRATIONS`. -/
def migrations : List Migration :=
  keyMigrations ++ [flatPhaseOverride] ++ pluginRemovals ++ bareStringMigrations ++
    disableRenames env ++ emptyListMigrations ++ phaseBareStringMigrations ++
    strictMigrations env ++ placeholderMigrations ++ hostHealthRelocations.map relocation ++
    [hostHealthUnknown env]

/-! ## Running them -/

/-- `tomllib.loads`: `none` is a `TOMLDecodeError`. -/
abbrev Loads := Text → Except PyErr (Option Document)

variable (loads : Loads)

/-- One turn of `_run_migrations_pass`. -/
def runOne (parsed : Table) (r : MigrationResult) (m : Migration) : Except PyErr MigrationResult := do
  if !(← m.detect parsed) then return r
  let desc := m.describe parsed
  if m.advisory then return { r with advisory := r.advisory ++ [desc] }
  match m.apply with
  | none => return { r with manual := r.manual ++ [desc] }
  | some apply =>
    let rewritten := apply r.newText
    if rewritten = r.newText then return { r with manual := r.manual ++ [desc] }
    match ← loads rewritten with
    | none => return { r with manual := r.manual ++ [desc ++
        " (target key already present — remove the deprecated key manually)"] }
    | some _ => return { r with newText := rewritten, applied := r.applied ++ [desc] }

/-- `_run_migrations_pass`. -/
def runMigrationsPass (text : Text) (parsed : Table) : Except PyErr MigrationResult :=
  (migrations env).foldlM (runOne loads parsed) ⟨text, [], [], []⟩

/-- `_stamp_schema_version`. -/
def stampSchemaVersion (text : Text) (parsed : Table) : Text × Option String :=
  let stamped := (stampText currentSchemaVersion text,
    some s!"stamped schema_version = {currentSchemaVersion}")
  match parsed.get? "schema_version" with
  | some (.int version) => if currentSchemaVersion ≤ version then (text, none) else stamped
  | _ => stamped

/-- What `run_migrations` raises. -/
inductive RunError where
  | raised (e : PyErr)
  | notConverged
  deriving DecidableEq

def liftRun {α : Type} : Except PyErr α → Except RunError α
  | .ok a => .ok a
  | .error e => .error (.raised e)

/-- The passes of `run_migrations`, as many as are left. -/
def runPasses : Nat → Text → Table → List String → Except RunError MigrationResult
  | 0, _, _, _ => .error .notConverged
  | left + 1, text, parsed, applied => do
    let pass ← liftRun (runMigrationsPass env loads text parsed)
    if pass.newText = text then
      let (stamped, version) := stampSchemaVersion text parsed
      return ⟨stamped, applied ++ pass.applied ++ version.toList, pass.manual, pass.advisory⟩
    else
      match ← liftRun (loads pass.newText) with
      | none => .error (.raised .valueError)
      | some document => runPasses left pass.newText document.entries (applied ++ pass.applied)

def maxMigrationPasses : Nat := 12

/-- `run_migrations`. -/
def runMigrations (text : Text) (parsed : Table) : Except RunError MigrationResult :=
  runPasses env loads maxMigrationPasses text parsed []

end AgentRunner.Migrations
