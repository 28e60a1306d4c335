import AgentRunner.LoadConfig
import AgentRunner.TextLines

/-! The prompt of a round: the files a phase resolves to, read and joined, and the boot
checks that assemble every prompt once before any round runs. -/
namespace AgentRunner.PromptAssembly
open PyValue Toml Validators ConfigModels LoadConfig TextLines

/-- Why `Path.read_text` raises. -/
inductive ReadError where
  | notFound
  | other (what : String)
  deriving DecidableEq

/-- The files, by their paths. -/
abbrev Files := String → Except ReadError (List Char)

/-- What escapes `assemble_prompt`. -/
inductive AssemblyError where
  | valueError (message : String)
  | fileNotFound (message : String)
  | unreadable (what : String)
  deriving DecidableEq

/-! ## `prompt_loader.py` -/

namespace PromptLoader

/-- What follows the first occurrence of `sub`. -/
def afterFirst (sub : List Char) : List Char → Option (List Char)
  | [] => none
  | c :: rest =>
    if sub.isPrefixOf (c :: rest) then some ((c :: rest).drop sub.length) else afterFirst sub rest

/-- `strip_yaml_frontmatter`. -/
def stripYamlFrontmatter (text : List Char) : List Char :=
  if "---\n".toList.isPrefixOf text then
    match afterFirst "\n---\n".toList (text.drop 4) with
    | some rest => lstrip rest
    | none => text
  else text

/-- The files' bodies: the first must be there, a later one may be missing. -/
def bodies (read : Files) (stripFirst : Bool) : Nat → List String →
    Except AssemblyError (List (List Char))
  | _, [] => .ok []
  | i, path :: rest =>
    match read path with
    | .ok body => do
      let body := if i = 0 ∧ stripFirst = true then stripYamlFrontmatter body else body
      return body :: (← bodies read stripFirst (i + 1) rest)
    | .error .notFound =>
      if i = 0 then .error (.fileNotFound s!"prompt.files[0] missing: {path}")
      else bodies read stripFirst (i + 1) rest
    | .error (.other what) => .error (.unreadable what)

/-- `assemble_prompt`; `block` is the formatted context, where there is one. -/
def assemblePrompt (read : Files) (promptFiles : List String) (block : Option (List Char))
    (injectContext : Bool) (mode : String) (concatSeparator : List Char)
    (stripFirstFrontmatter : Bool) : Except AssemblyError (List Char) :=
  if promptFiles.isEmpty then
    .error (.valueError "assemble_prompt: prompt_files must be non-empty")
  else do
    let body := concatSeparator.intercalate (← bodies read stripFirstFrontmatter 0 promptFiles)
    match block with
    | some block => return if injectContext = true ∧ mode = "prepend" then block ++ body else body
    | none => return body

end PromptLoader

/-! ## `_round_support.py` -/

variable (env : Env) (read : Files)

/-- The files of a phase: its own, else the base list, else the base file. -/
def filesFor (cfg : Config) (phase : Option String) : Except AssemblyError (List String) :=
  match (cfg.profileFor phase).promptFiles with
  | some files => .ok files
  | none =>
    if !cfg.prompt.files.isEmpty then .ok cfg.prompt.files
    else match cfg.prompt.file with
    | some file => .ok [file]
    | none => .error (.valueError "no prompt files configured (set prompt.files or prompt.file)")

/-- A path against the work directory. -/
def resolved (cfg : Config) (path : String) : String :=
  if env.isAbsolute path then path else env.join cfg.runtime.workDir path

/-- `assemble_prompt`. -/
def assemblePrompt (cfg : Config) (phase : Option String) (block : Option (List Char)) :
    Except AssemblyError (List Char) := do
  let files ← filesFor cfg phase
  PromptLoader.assemblePrompt read (files.map (resolved env cfg)) block cfg.prompt.injectContext
    cfg.prompt.contextInjectionMode cfg.prompt.concatSeparator.toList cfg.prompt.stripYamlFrontmatter

/-! ## `startup_check.py` -/

structure CheckResult where
  name : String
  ok : Bool
  reason : String
  howToFix : String
  permanent : Bool

def passed (name : String) : CheckResult := ⟨name, true, "", "", false⟩

/-- A failure no retry heals. -/
def broken (name reason howToFix : String) : CheckResult := ⟨name, false, reason, howToFix, true⟩

def minPromptBytes : Nat := 500

def forbiddenFirstChars : List Char := ['-', ' ', '\n', '\t', '\r']

def AssemblyError.text : AssemblyError → String
  | .valueError message => message
  | .fileNotFound message => message
  | .unreadable what => what

/-- `_check_prompt_smoke`; `repr` is the text of a character in the report. -/
def checkPromptSmoke (repr : Char → String) (cfg : Config) (phase : Option String)
    (name : String) : CheckResult :=
  match assemblePrompt env read cfg phase none with
  | .error e => broken name ("assembly failed: " ++ e.text) ""
  | .ok [] => broken name "assembled prompt is empty" ""
  | .ok (first :: rest) =>
    if forbiddenFirstChars.contains first then
      broken name ("first char " ++ repr first ++ " is forbidden (R721 — agent CLI argv parsers " ++
        "may reject leading dash/whitespace as a flag terminator)")
        "ensure the prompt body does not start with -, space, or newline"
    else if (String.ofList (first :: rest)).utf8ByteSize < minPromptBytes then
      let size := (String.ofList (first :: rest)).utf8ByteSize
      broken name s!"prompt is {size} bytes < {minPromptBytes} minimum"
        "add substantive content — a stub prompt suggests a broken config"
    else passed name

/-- `_check_prompt_file`. -/
def checkPromptFile (fileExists : String → Bool) (cfg : Config) : CheckResult :=
  match cfg.prompt.file.toList ++ cfg.prompt.files with
  | [] => broken "prompt_file_exists" "no prompt files configured"
      "set prompt.file or prompt.files in agent-runner.toml"
  | first :: _ =>
    if fileExists first then passed "prompt_file_exists"
    else broken "prompt_file_exists" s!"{first} does not exist"
      "create the prompt .md file or fix prompt.file / prompt.files[0] in config"

/-- `_phase_qualified`. -/
def phaseQualified (base : String) : Option String → String
  | none => base
  | some phase => s!"{base}:{phase}"

/-- The checks that look at the host: the log directory, git and the phases' windows for
the whole configuration, the agent's target and its container for each profile. -/
structure HostChecks where
  repr : Char → String
  fileExists : String → Bool
  logDir : Config → CheckResult
  workDirIsGit : Config → CheckResult
  phaseWindowOverlap : Config → CheckResult
  perProfile : List (Config → Profile → Option String → CheckResult)

/-- `_agent_override_phases`. -/
def agentOverridePhases (cfg : Config) : List String :=
  (cfg.phases.list.getD []).filter fun phase =>
    (cfg.phases.overrides.lookup phase).any fun ov => ov.agent.isSome

/-- `_prompt_override_phases`. -/
def promptOverridePhases (cfg : Config) : List String :=
  (cfg.phases.list.getD []).filter fun phase => (cfg.profileFor (some phase)).promptFiles.isSome

/-- `run_battery`; `escape` tells the environment variable that skips it. -/
def runBattery (host : HostChecks) (escape : Bool) (cfg : Config) : List CheckResult :=
  if escape then []
  else
    [passed "config_loaded", host.logDir cfg, host.workDirIsGit cfg,
      checkPromptFile host.fileExists cfg,
      checkPromptSmoke env read host.repr cfg none "prompt_smoke_passes",
      host.phaseWindowOverlap cfg] ++
    (none :: (agentOverridePhases cfg).map some).flatMap (fun phase =>
      host.perProfile.map fun check => check cfg (cfg.profileFor phase) phase) ++
    (promptOverridePhases cfg).map fun phase =>
      checkPromptSmoke env read host.repr cfg (some phase)
        (phaseQualified "prompt_smoke_passes" (some phase))

/-! ## What the loader promises -/

theorem parsePromptFiles_given {promptD : Table} {projectName workDir : String}
    {file : Option String} {files : List String}
    (parsed : ConfigParsers.parsePromptFiles env promptD projectName workDir = .ok (file, files)) :
    files ≠ [] ∨ ∃ path, file = some path := by
  unfold ConfigParsers.parsePromptFiles at parsed
  split at parsed
  · cases parsed
  · cases parsed
  · obtain ⟨path, -, built⟩ := bind_eq_ok.mp parsed
    cases built
    exact .inr ⟨path, rfl⟩
  · obtain ⟨names, -, rest⟩ := bind_eq_ok.mp parsed
    refine .inl fun none_ => ?_
    split at rest
    · cases rest
    · rename_i filled
      obtain ⟨paths, mapped, built⟩ := bind_eq_ok.mp rest
      cases built
      exact filled (List.isEmpty_iff.mpr ((mapM_ok_nil mapped).mp none_))

/-- A parsed `[prompt]` names a file. -/
theorem parsePrompt_given {promptD : Table} {projectName workDir : String} {prompt : PromptConfig}
    (parsed : ConfigParsers.parsePrompt env promptD projectName workDir = .ok prompt) :
    prompt.files ≠ [] ∨ ∃ file, prompt.file = some file := by
  simp only [ConfigParsers.parsePrompt, bind_eq_ok] at parsed
  obtain ⟨-, -, _, -, ⟨file, files⟩, given, _, -, _, -, built⟩ := parsed
  cases built
  exact parsePromptFiles_given env given

theorem loadConfig_given {registry : Registry} {configDir : String} {raw : Table} {cfg : Config}
    (loaded : loadConfig env registry configDir raw = .ok cfg) :
    cfg.prompt.files ≠ [] ∨ ∃ file, cfg.prompt.file = some file := by
  have whole := loadConfig_parses loaded
  simp only [parseConfig, bind_eq_ok] at whole
  obtain ⟨-, -, _, -, _, -, _, -, _, -, _, -, _, -, _, -, prompt, given, rest⟩ := whole
  obtain ⟨_, -, _, -, _, -, _, -, _, -, _, -, _, -, _, -, _, -, built⟩ := rest
  cases built
  exact parsePrompt_given env given

/-! ## Running a phase -/

/-- The path can be read. -/
def Readable (path : String) : Prop := ∃ text, read path = .ok text

theorem bodies_return {strip : Bool} {paths : List String} (i : Nat)
    (readable : ∀ path ∈ paths, Readable read path) :
    ∃ texts, PromptLoader.bodies read strip i paths = .ok texts := by
  induction paths generalizing i with
  | nil => exact ⟨[], rfl⟩
  | cons path rest ih =>
    obtain ⟨text, found⟩ := readable path (.head _)
    obtain ⟨texts, later⟩ := ih (i + 1) fun p member => readable p (.tail _ member)
    simp only [PromptLoader.bodies, found, later]
    exact ⟨_, rfl⟩

/-- Readable files make a prompt, and no files make none. -/
theorem loader_returns_iff {paths : List String} (readable : ∀ path ∈ paths, Readable read path)
    (block : Option (List Char)) (inject : Bool) (mode : String) (separator : List Char)
    (strip : Bool) :
    (∃ text, PromptLoader.assemblePrompt read paths block inject mode separator strip = .ok text) ↔
      paths ≠ [] := by
  obtain ⟨texts, found⟩ : ∃ texts, PromptLoader.bodies read strip 0 paths = .ok texts :=
    bodies_return read 0 readable
  rw [PromptLoader.assemblePrompt, found]
  cases paths with
  | nil =>
    exact iff_of_false (fun returned => nomatch returned.choose_spec) fun filled => filled rfl
  | cons path rest =>
    refine iff_of_true ?_ (List.cons_ne_nil _ _)
    cases block <;> exact ⟨_, rfl⟩

/-- The phase disables its prompt. -/
def Disabled (cfg : Config) (phase : Option String) : Prop :=
  (cfg.profileFor phase).promptFiles = some []

/-- The phase can be run: its prompt is assembled, and the battery does not refuse for
good a phase that disables it. -/
def CanRun (host : HostChecks) (escape : Bool) (cfg : Config) (phase : Option String)
    (block : Option (List Char)) : Prop :=
  (∃ text, assemblePrompt env read cfg phase block = .ok text) ∧
    (Disabled cfg phase → ∀ result ∈ runBattery env read host escape cfg,
      result.name = phaseQualified "prompt_smoke_passes" phase → result.permanent = false)

/-- The files an accepted configuration gives a phase are none only where it disables
its prompt. -/
theorem filesFor_given {registry : Registry} {configDir : String} {raw : Table} {cfg : Config}
    (loaded : loadConfig env registry configDir raw = .ok cfg) (phase : Option String) :
    ∃ files, filesFor cfg phase = .ok files ∧ (files = [] ↔ Disabled cfg phase) := by
  rw [filesFor, Disabled]
  cases own : (cfg.profileFor phase).promptFiles with
  | some files => exact ⟨files, rfl, Option.some_inj.symm⟩
  | none =>
    by_cases base : cfg.prompt.files = []
    · obtain filled | ⟨file, single⟩ := loadConfig_given env loaded
      · exact absurd base filled
      · simp only [base, List.isEmpty_nil, Bool.not_true, Bool.false_eq_true, if_false, single]
        exact ⟨[file], rfl, iff_of_false (List.cons_ne_nil _ _) nofun⟩
    · have filled : (!cfg.prompt.files.isEmpty) = true := by
        rw [Bool.not_eq_true', List.isEmpty_eq_false_iff]
        exact base
      simp only [filled, if_true]
      exact ⟨_, rfl, iff_of_false base nofun⟩

/-- **Accepted phases can be run, unless they disable their prompt.**  For every
configuration the loader accepts and every phase whose files can all be read: the prompt
is assembled, and the battery accepts a disabled one, exactly if the phase does not set
`[phases.<name>.prompt] files = []`. -/
theorem accepted_phase_can_run (registry : Registry) (configDir : String) (raw : Table)
    (cfg : Config) (loaded : loadConfig env registry configDir raw = .ok cfg) (host : HostChecks)
    (escape : Bool) (phase : Option String) (block : Option (List Char))
    (readable : ∀ files, filesFor cfg phase = .ok files →
      ∀ path ∈ files, Readable read (resolved env cfg path)) :
    CanRun env read host escape cfg phase block ↔
      ¬ (cfg.profileFor phase).promptFiles = some [] := by
  obtain ⟨files, own, none_⟩ := filesFor_given env loaded phase
  have all : ∀ path ∈ files.map (resolved env cfg), Readable read path := by
    intro path member
    obtain ⟨name, held, rfl⟩ := List.mem_map.mp member
    exact readable files own name held
  have assembles : (∃ text, assemblePrompt env read cfg phase block = .ok text) ↔
      ¬ Disabled cfg phase := by
    rw [assemblePrompt, own]
    apply (loader_returns_iff read all ..).trans
    rw [ne_eq, List.map_eq_nil_iff, none_]
  constructor
  · exact fun runs => assembles.mp runs.1
  · exact fun given => ⟨assembles.mpr given, fun disabled => absurd disabled given⟩

/-- A host on which every check but the prompt's own passes. -/
def plainHost : HostChecks where
  repr := fun _ => ""
  fileExists := fun _ => true
  logDir := fun _ => passed "log_dir_writable"
  workDirIsGit := fun _ => passed "work_dir_is_git"
  phaseWindowOverlap := fun _ => passed "phase_window_overlap"
  perProfile := []

theorem own_prompt_can_run :
    ∃ cfg, loadConfig plainEnv plainRegistry "/repo" (smallDocument argvAgent
        (onePhase [("prompt", .table [("files", .arr [.str "/dev.md"])])])) = .ok cfg ∧
      CanRun plainEnv (fun _ => .ok ['x']) plainHost false cfg (some "dev") none :=
  ⟨_, rfl, (accepted_phase_can_run plainEnv (fun _ => .ok ['x']) plainRegistry "/repo"
    (smallDocument argvAgent (onePhase [("prompt", .table [("files", .arr [.str "/dev.md"])])])) _
    rfl plainHost false (some "dev") none fun _ _ _ _ => ⟨_, rfl⟩).mpr nofun⟩

/-- A listed phase with `files = []` is accepted; its prompt raises and the battery
refuses it for good, although every file it resolves to can be read. -/
theorem disabled_prompt_cannot_run :
    ∃ cfg, loadConfig plainEnv plainRegistry "/repo"
        (smallDocument argvAgent (onePhase [("prompt", .table [("files", .arr [])])])) = .ok cfg ∧
      cfg.phases.list = some ["dev"] ∧
      filesFor cfg (some "dev") = .ok [] ∧
      assemblePrompt plainEnv (fun _ => .ok ['x']) cfg (some "dev") none =
        .error (.valueError "assemble_prompt: prompt_files must be non-empty") ∧
      (∃ result ∈ runBattery plainEnv (fun _ => .ok ['x']) plainHost false cfg,
        result.name = "prompt_smoke_passes:dev" ∧ result.permanent = true) ∧
      ¬ CanRun plainEnv (fun _ => .ok ['x']) plainHost false cfg (some "dev") none := by
  refine ⟨_, rfl, rfl, rfl, rfl, ⟨_, .tail _ (.tail _ (.tail _ (.tail _ (.tail _ (.tail _
    (.head _)))))), rfl, rfl⟩, ?_⟩
  rintro ⟨⟨text, assembled⟩, -⟩
  cases assembled

end AgentRunner.PromptAssembly
