import AgentRunner.Effects
import AgentRunner.PyValue
import AgentRunner.TextLines
import Mathlib.Data.List.Infix

/-! `cli/upgrade_cmd.py`: the orchestrated upgrade of a systemd user service, from the stop
to the start or the rollback. What the tools it spawns, the service and the disk answer, and
when they raise, is left open; what it prints is left out. -/
namespace AgentRunner.Upgrade
open Effects PyValue

/-! ## What can be raised -/

/-- Where an exception stands: an `OSError`, another `Exception`, or none of these. -/
inductive RaisedKind where
  | osError
  | exception
  | baseException
  deriving DecidableEq

/-- An exception: its kind, its type's name and its text. -/
structure Raised where
  kind : RaisedKind
  name : String
  text : String

/-- `except OSError`. -/
def Raised.isOSError (e : Raised) : Bool := e.kind == .osError

/-- `except Exception`. -/
def Raised.isException (e : Raised) : Bool := e.kind != .baseException

/-- `text[:n]`. -/
def clip (n : Nat) (text : String) : String := String.ofList (text.toList.take n)

/-- `f"{type(e).__name__}: {str(e)[:150]}"`. -/
def Raised.excerpt (e : Raised) : String := e.name ++ ": " ++ clip 150 e.text

def fileNotFound (path : String) : Raised :=
  ⟨.osError, "FileNotFoundError", "[Errno 2] No such file or directory: '" ++ path ++ "'"⟩

/-! ## The host -/

/-- `subprocess.CompletedProcess`. -/
structure CompletedProcess where
  returncode : Int
  stdout : String
  stderr : String

/-- What `api.stop` returns; the other fields are not read. -/
structure ServiceStatus where
  active : Bool

/-- The tools it spawns. -/
inductive Tool where
  | pip (spec : String) (forceReinstall : Bool) (extra : List String)
  | version
  | migrate (cfgPath : String)
  | peek (cfgPath : String)

def Tool.argv (executable : String) : Tool → List String
  | .pip spec forceReinstall extra =>
    [executable, "-m", "pip", "install"] ++ (if forceReinstall then ["--force-reinstall"] else []) ++
      ["--upgrade", spec] ++ extra
  | .version => [executable, "-m", "agent_runner.cli", "--version"]
  | .migrate cfgPath => [executable, "-m", "agent_runner.cli", "--config", cfgPath, "migrate"]
  | .peek cfgPath => [executable, "-m", "agent_runner.cli", "--config", cfgPath, "peek", "--json"]

/-- An event it emits. -/
structure Emission where
  kind : String
  fields : List (String × Json)

/-- One thing it did to the host, and the answer. -/
inductive Step where
  | madeDir (answer : Except Raised Unit)
  | stopped (answer : Except Raised ServiceStatus)
  | ran (tool : Tool) (answer : Except Raised CompletedProcess)
  | read (answer : Except Raised String)
  | wrote (text : String) (answer : Except Raised Unit)
  | started (answer : Except Raised Unit)
  | emitted (emission : Emission) (answer : Except Raised Unit)

/-- The text of the config file, if there is one, and what was done so far. -/
structure Host where
  config : Option String
  steps : List Step

/-- The world it runs in: every answer may depend on all that was done before. -/
structure World where
  executable : String
  venv : Bool
  userSite : Bool
  serveUnit : String
  repr : String → String
  monotonic : List Step → ℚ
  mkdir : List Step → Except Raised Unit
  stop : List Step → Except Raised ServiceStatus
  run : List Step → List String → Except Raised CompletedProcess
  /-- The file the new version's `migrate` leaves, where there was one. -/
  migrated : List Step → String → Option String
  readFault : List Step → Option Raised
  /-- A failed write, and what it leaves of the file. -/
  writeFault : List Step → Option (Raised × Option String)
  start : List Step → Except Raised Unit
  emit : List Step → Emission → Except Raised Unit

variable (world : World)

/-- Do one thing that leaves the config file alone. -/
def act {α : Type} (answer : List Step → Except Raised α) (step : Except Raised α → Step) :
    Command Host Raised α :=
  perform fun host =>
    (answer host.steps, { host with steps := host.steps ++ [step (answer host.steps)] })

def subprocess (tool : Tool) : Command Host Raised CompletedProcess :=
  act (world.run · (tool.argv world.executable)) (.ran tool)

/-- The run of the new version's `migrate`, which may write the config file. -/
def migrateProcess (cfgPath : String) : Command Host Raised CompletedProcess :=
  perform fun host =>
    let answer := world.run host.steps ((Tool.migrate cfgPath).argv world.executable)
    (answer, ⟨host.config.bind (world.migrated host.steps),
      host.steps ++ [.ran (.migrate cfgPath) answer]⟩)

/-- `cfg_path.read_text()`. -/
def readText (cfgPath : String) : Command Host Raised String :=
  perform fun host =>
    let answer := match world.readFault host.steps with
      | some e => .error e
      | none => match host.config with
        | none => .error (fileNotFound cfgPath)
        | some text => .ok text
    (answer, { host with steps := host.steps ++ [.read answer] })

/-- `cfg_path.write_text(text)`. -/
def writeText (text : String) : Command Host Raised Unit :=
  perform fun host =>
    match world.writeFault host.steps with
    | none => (.ok (), ⟨some text, host.steps ++ [.wrote text (.ok ())]⟩)
    | some (e, left) => (.error e, ⟨left, host.steps ++ [.wrote text (.error e)]⟩)

/-- `cfg_path.exists()`. -/
def pathExists : Command Host Raised Bool := perform fun host => (.ok host.config.isSome, host)

def monotonic : Command Host Raised ℚ :=
  perform fun host => (.ok (world.monotonic host.steps), host)

def start : Command Host Raised Unit := act world.start .started

def emit (kind : String) (fields : List (String × Json)) : Command Host Raised Unit :=
  act (world.emit · ⟨kind, fields⟩) (.emitted ⟨kind, fields⟩)

/-! ## The tools -/

/-- `_pip_env_flags`. -/
def pipEnvFlags : List String :=
  if world.venv then []
  else (if world.userSite then ["--user"] else []) ++ ["--break-system-packages"]

/-- The install ran into PEP 668. -/
def externallyManaged (r : CompletedProcess) : Prop :=
  "externally-managed-environment".toList <:+: r.stderr.toList

instance (r : CompletedProcess) : Decidable (externallyManaged r) :=
  inferInstanceAs (Decidable (_ <:+: _))

/-- `_pip_install`. -/
def pipInstall (spec : String) (forceReinstall : Bool) : Command Host Raised CompletedProcess := do
  let r ← subprocess world (.pip spec forceReinstall [])
  if r.returncode = 0 ∨ ¬ externallyManaged r then
    return r
  else if pipEnvFlags world = [] then
    return r
  else
    subprocess world (.pip spec forceReinstall (pipEnvFlags world))

/-- `text.strip()`. -/
def strip (text : String) : String := String.ofList (TextLines.strip text.toList)

/-- `re.match(r"agent-runner\s+(\S+)", text)`: the group, where it matches. -/
def matchVersion (text : String) : Option String :=
  let name := "agent-runner".toList
  let after := text.toList.drop name.length
  let version := (after.dropWhile TextLines.isSpace).takeWhile fun c => !TextLines.isSpace c
  if name.isPrefixOf text.toList && after.head?.any TextLines.isSpace && !version.isEmpty then
    some (String.ofList version)
  else none

/-- What `_smoke_version` makes of a run of `--version`. -/
def versionOf (repr : String → String) (r : CompletedProcess) : Int × String :=
  if r.returncode ≠ 0 then (r.returncode, clip 200 (strip r.stderr))
  else match matchVersion (strip r.stdout) with
    | none => (1, "unparseable --version output: " ++ repr r.stdout)
    | some version => (0, version)

/-- `_smoke_version`. -/
def smokeVersion : Command Host Raised (Int × String) := do
  let r ← subprocess world .version
  return versionOf world.repr r

/-- `_smoke_migrate`. -/
def smokeMigrate (cfgPath : String) : Command Host Raised (Int × String) := do
  let r ← migrateProcess world cfgPath
  return if r.returncode ≠ 0 then (r.returncode, clip 200 (strip (r.stdout ++ r.stderr)))
    else (0, "")

/-- `_smoke_peek`. -/
def smokePeek (cfgPath : String) : Command Host Raised (Int × String) := do
  let r ← subprocess world (.peek cfgPath)
  return if r.returncode ≠ 0 then (r.returncode, clip 200 (strip r.stderr)) else (0, "")

/-! ## The rollback -/

/-- `_rollback_failed`. -/
def rollbackFailed (attemptedVersion restoreTargetVersion failureReason : String) :
    Command Host Raised Int := do
  let _ ← attempt Raised.isException (emit world "service_upgrade_rollback_failed"
    [("attempted_version", .str attemptedVersion),
      ("restore_target_version", .str restoreTargetVersion),
      ("failure_reason", .str (clip 200 failureReason))])
  return 2

/-- Write the config back, where it is not as before. -/
def restoreConfig (cfgPath : String) : Option String → Command Host Raised Unit
  | none => return ()
  | some text => do
    let now ← readText world cfgPath
    if now ≠ text then writeText world text else return ()

/-- `_rollback`, once the sanity smoke has passed. -/
def rollbackStart (fromVersion attemptedVersion failureReason : String) (startedAt : ℚ) :
    Command Host Raised Int := do
  match ← attempt Raised.isException (start world) with
  | .error e =>
    rollbackFailed world attemptedVersion fromVersion
      ("api.start raised after rollback: " ++ e.excerpt)
  | .ok _ =>
    let elapsed := (← monotonic world) - startedAt
    emit world "service_upgrade_rolled_back"
      [("attempted_version", .str attemptedVersion), ("restored_version", .str fromVersion),
        ("failure_reason", .str failureReason), ("duration_s", .float (.finite elapsed))]
    return 1

/-- `_rollback`, once the config is written back. -/
def rollbackSmoke (fromVersion attemptedVersion failureReason : String) (startedAt : ℚ) :
    Command Host Raised Int := do
  let (rcV, versionOrErr) ← smokeVersion world
  if rcV ≠ 0 then
    rollbackFailed world attemptedVersion fromVersion
      s!"sanity smoke failed (rc={rcV}): {versionOrErr}"
  else if versionOrErr ≠ fromVersion then
    rollbackFailed world attemptedVersion fromVersion
      s!"sanity smoke version mismatch: expected {fromVersion}, got {versionOrErr}"
  else
    rollbackStart world fromVersion attemptedVersion failureReason startedAt

/-- `_rollback`. -/
def rollback (fromVersion attemptedVersion failureReason : String) (startedAt : ℚ)
    (cfgPath : String) (restore : Option String) : Command Host Raised Int := do
  let rollbackPip ← pipInstall world ("cli-agent-runner==" ++ fromVersion) true
  if rollbackPip.returncode ≠ 0 then
    let stderr := clip 200 (strip rollbackPip.stderr)
    rollbackFailed world attemptedVersion fromVersion
      s!"pip --force-reinstall failed (rc={rollbackPip.returncode}): {stderr}"
  else
    match ← attempt Raised.isOSError (restoreConfig world cfgPath restore) with
    | .error e =>
      rollbackFailed world attemptedVersion fromVersion
        ("config restore failed after pip rollback: " ++ e.excerpt)
    | .ok _ => rollbackSmoke world fromVersion attemptedVersion failureReason startedAt

/-! ## The upgrade -/

/-- `_orchestrated_upgrade`, once the new version has passed its smokes. -/
def startUpgraded (fromVersion toVersion : String) (t0 : ℚ) : Command Host Raised Int := do
  match ← attempt Raised.isException (start world) with
  | .error e =>
    emit world "upgrade_start_failed"
      [("to_version", .str toVersion), ("failure_reason", .str e.excerpt),
        ("remedy", .str ("systemctl --user status " ++ world.serveUnit))]
    return 2
  | .ok _ =>
    let elapsed := (← monotonic world) - t0
    emit world "service_upgraded"
      [("from_version", .str fromVersion), ("to_version", .str toVersion),
        ("duration_s", .float (.finite elapsed))]
    return 0

/-- `target or "latest"`. -/
def attempted (target : Option String) : String := (target.filter (· ≠ "")).getD "latest"

/-- `_orchestrated_upgrade`, from the smokes on. -/
def smokeUpgraded (target : Option String) (cfgPath fromVersion : String) (t0 : ℚ)
    (preMigrate : Option String) : Command Host Raised Int := do
  let (rcV, versionOrErr) ← smokeVersion world
  if rcV ≠ 0 then
    rollback world fromVersion (attempted target) versionOrErr t0 cfgPath preMigrate
  else
    let (rcP, peekErr) ← smokePeek world cfgPath
    if rcP ≠ 0 then
      rollback world fromVersion versionOrErr peekErr t0 cfgPath preMigrate
    else
      startUpgraded world fromVersion versionOrErr t0

/-- The text of the config before the new version migrates it. -/
def preMigrateText (cfgPath : String) : Command Host Raised (Option String) := do
  if ← pathExists then
    return some (← readText world cfgPath)
  else
    return none

/-- `_smoke_migrate`, unless migration is off. -/
def migrateUnless (noMigrate : Bool) (cfgPath : String) : Command Host Raised (Int × String) :=
  if noMigrate then return (0, "") else smokeMigrate world cfgPath

/-- `_orchestrated_upgrade`, once the package is installed. -/
def migrateUpgraded (target : Option String) (cfgPath fromVersion : String) (noMigrate : Bool)
    (t0 : ℚ) : Command Host Raised Int := do
  let preMigrate ← preMigrateText world cfgPath
  let (rcM, migrateErr) ← migrateUnless world noMigrate cfgPath
  if rcM ≠ 0 then
    rollback world fromVersion (attempted target)
      s!"new-binary migrate failed (rc={rcM}): {migrateErr}" t0 cfgPath preMigrate
  else
    smokeUpgraded world target cfgPath fromVersion t0 preMigrate

def packageSpec : Option String → String
  | none => "cli-agent-runner"
  | some version => "cli-agent-runner==" ++ version

/-- `_orchestrated_upgrade`, once `api.stop` has returned. -/
def installUpgraded (target : Option String) (cfgPath fromVersion : String) (noMigrate : Bool)
    (t0 : ℚ) : Command Host Raised Int := do
  let pipResult ← pipInstall world (packageSpec target) false
  if pipResult.returncode ≠ 0 then
    return 1
  else
    migrateUpgraded world target cfgPath fromVersion noMigrate t0

/-- `_orchestrated_upgrade`. What `api.stop` returns is not looked at. -/
def orchestratedUpgrade (target : Option String) (cfgPath fromVersion : String)
    (noMigrate : Bool) : Command Host Raised Int := do
  act world.mkdir .madeDir
  let t0 ← monotonic world
  match ← attempt Raised.isException (act world.stop .stopped) with
  | .error _ => return 1
  | .ok _ => installUpgraded world target cfgPath fromVersion noMigrate t0

end AgentRunner.Upgrade
