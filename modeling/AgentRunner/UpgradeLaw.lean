import AgentRunner.Upgrade

/-! What a run of the orchestrated upgrade leaves, and when it keeps its word: pip runs only
behind a stop that reported the service inactive, and each return value says what is in place. -/
namespace AgentRunner.UpgradeLaw
open Effects Upgrade

/-! ## The law -/

/-- A run of `pip install --force-reinstall`. -/
def isReinstall : Step → Bool
  | .ran (.pip _ true _) _ => true
  | _ => false

/-- What a run does from its first forced reinstall on: the rollback. -/
def rollbackOf (steps : List Step) : List Step := steps.dropWhile fun step => !isReinstall step

/-- The version was reinstalled and reports itself, the config is as before, and the service
was started. -/
structure Restored (repr : String → String) (version : String) (before config : Option String)
    (steps : List Step) : Prop where
  reinstalled : ∃ extra r,
    .ran (.pip ("cli-agent-runner==" ++ version) true extra) (.ok r) ∈ steps ∧ r.returncode = 0
  reports : ∃ r, .ran .version (.ok r) ∈ steps ∧ versionOf repr r = (0, version)
  config_eq : config = before
  started : .started (.ok ()) ∈ steps

/-- A package was installed, passed both smokes, and the service was started. -/
def Upgraded (repr : String → String) (cfgPath : String) (steps : List Step) : Prop :=
  ∃ earlier spec extra pip smoke peek emission,
    steps = earlier ++ [.ran .version (.ok smoke), .ran (.peek cfgPath) (.ok peek),
      .started (.ok ()), .emitted emission (.ok ())] ∧
    .ran (.pip spec false extra) (.ok pip) ∈ earlier ∧ pip.returncode = 0 ∧
    (versionOf repr smoke).1 = 0 ∧ peek.returncode = 0

/-- What the upgrade promises of a run that began with the config `before`. -/
structure Lawful (repr : String → String) (cfgPath version : String) (before : Option String)
    (result : Except Raised Int) (host : Host) : Prop where
  inactive : ∀ earlier spec force extra answer later,
    host.steps = earlier ++ .ran (.pip spec force extra) answer :: later →
      ∃ status, .stopped (.ok status) ∈ earlier ∧ status.active = false
  zero : result = .ok 0 → Upgraded repr cfgPath host.steps
  one : rollbackOf host.steps ≠ [] → result = .ok 1 →
    Restored repr version before host.config (rollbackOf host.steps)
  two : rollbackOf host.steps ≠ [] →
    ¬ Restored repr version before host.config (rollbackOf host.steps) → result = .ok 2

/-- A step of the rollback did not raise what the rollback lets through. -/
def Handled : Step → Prop
  | .ran _ answer => ∀ e, answer ≠ .error e
  | .read answer => ∀ e, answer = .error e → e.isOSError = true
  | .wrote _ answer => ∀ e, answer = .error e → e.isOSError = true
  | .started answer => ∀ e, answer = .error e → e.isException = true
  | .emitted emission answer => emission.kind = "service_upgrade_rollback_failed" →
      ∀ e, answer = .error e → e.isException = true
  | _ => True

/-- The stop, where it returned, reported the service inactive, and no step of the rollback
raised what it lets through. -/
structure Orderly (steps : List Step) : Prop where
  inactive : ∀ status, .stopped (.ok status) ∈ steps → status.active = false
  handled : ∀ step ∈ rollbackOf steps, Handled step

/-! ## What a command adds -/

def isStop : Step → Bool
  | .stopped _ => true
  | _ => false

/-- The service was started. -/
def isStart : Step → Bool
  | .started (.ok _) => true
  | _ => false

variable {world : World} {α : Type} {host after : Host}

theorem ends_act {answer : List Step → Except Raised α} {step : Except Raised α → Step}
    {r : Except Raised α} : Ends (act answer step) host r after ↔
      r = answer host.steps ∧
        after = ⟨host.config, host.steps ++ [step (answer host.steps)]⟩ := by
  rw [act, ends_perform, Prod.mk.injEq]
  exact and_congr eq_comm eq_comm

theorem ends_subprocess {tool : Tool} {r : Except Raised CompletedProcess} :
    Ends (subprocess world tool) host r after ↔
      r = world.run host.steps (tool.argv world.executable) ∧
        after = ⟨host.config, host.steps ++ [.ran tool r]⟩ := by
  rw [subprocess, ends_act]
  exact and_congr_right fun same => by rw [same]

theorem ends_monotonic {r : Except Raised ℚ} : Ends (monotonic world) host r after ↔
    r = .ok (world.monotonic host.steps) ∧ after = host := by
  rw [monotonic, ends_perform, Prod.mk.injEq]
  exact and_congr eq_comm eq_comm

/-- An event, and then a return value: the value is returned where the event was written. -/
theorem ends_emit {kind : String} {fields : List (String × PyValue.Json)} {n : Int}
    {result : Except Raised Int}
    (ends : Ends (do emit world kind fields; return n) host result after) :
    ∃ answer, after = ⟨host.config, host.steps ++ [.emitted ⟨kind, fields⟩ answer]⟩ ∧
      ∀ m, result = .ok m → answer = .ok () ∧ m = n := by
  simp only [ends_bind, emit, ends_act, ends_pure] at ends
  obtain ⟨⟨⟩, _, ⟨answer, rfl⟩, rfl, rfl⟩ | ⟨e, ⟨answer, rfl⟩, rfl⟩ := ends
  · exact ⟨_, rfl, fun m same => ⟨answer.symm, (Except.ok.inj same).symm⟩⟩
  · exact ⟨_, rfl, fun m absurdly => by cases absurdly⟩

/-- The steps of a pip run: all are of it, the last gives the answer, and none raised where
that one did not. -/
structure PipRun (spec : String) (force : Bool) (r : Except Raised CompletedProcess)
    (steps : List Step) : Prop where
  own : ∀ step ∈ steps, ∃ extra answer, step = .ran (.pip spec force extra) answer
  last : ∃ extra, .ran (.pip spec force extra) r ∈ steps
  handled : ∀ c, r = .ok c → ∀ step ∈ steps, Handled step

theorem pipRun_single {spec : String} {force : Bool} (r : Except Raised CompletedProcess) :
    PipRun spec force r [.ran (.pip spec force []) r] where
  own := List.forall_mem_singleton.mpr ⟨[], r, rfl⟩
  last := ⟨[], .head _⟩
  handled c same := by simp [Handled, same]

theorem ends_pipInstall {spec : String} {force : Bool} {r : Except Raised CompletedProcess}
    (ends : Ends (pipInstall world spec force) host r after) :
    ∃ more, after = ⟨host.config, host.steps ++ more⟩ ∧ PipRun spec force r more := by
  rw [pipInstall, ends_bind] at ends
  obtain ⟨c, middle, first, ends⟩ | ⟨e, first, rfl⟩ := ends
  · obtain ⟨-, rfl⟩ := ends_subprocess.mp first
    split at ends
    · obtain ⟨rfl, rfl⟩ := ends_pure.mp ends
      exact ⟨_, rfl, pipRun_single _⟩
    split at ends
    · obtain ⟨rfl, rfl⟩ := ends_pure.mp ends
      exact ⟨_, rfl, pipRun_single _⟩
    · obtain ⟨-, rfl⟩ := ends_subprocess.mp ends
      refine ⟨_, congrArg _ (List.append_assoc ..), ?_, ⟨_, .tail _ (.head _)⟩, fun c same => ?_⟩
      · exact List.forall_mem_cons.mpr ⟨⟨_, _, rfl⟩, List.forall_mem_singleton.mpr ⟨_, _, rfl⟩⟩
      · simp [Handled, same]
  · obtain ⟨-, rfl⟩ := ends_subprocess.mp first
    exact ⟨_, rfl, pipRun_single _⟩

/-! ## The rollback -/

/-- Where a rollback stands that has taken some steps and returned or raised: all is restored
and it did not return 2, or the service was not started, and it returned 2 unless a step
raised what it lets through. -/
inductive Verdict (repr : String → String) (version : String) (before config : Option String)
    (steps : List Step) : Except Raised Int → Prop where
  | restored {result : Except Raised Int} (all : Restored repr version before config steps)
      (handled : ∀ step ∈ steps, Handled step) (one : ∀ n, result = .ok n → n = 1) :
      Verdict repr version before config steps result
  | failed (stopped : ∀ step ∈ steps, isStart step = false)
      (handled : ∀ step ∈ steps, Handled step) : Verdict repr version before config steps (.ok 2)
  | raised (e : Raised) (stopped : ∀ step ∈ steps, isStart step = false)
      (through : ∃ step ∈ steps, ¬ Handled step) :
      Verdict repr version before config steps (.error e)

variable {version : String} {before : Option String} {steps : List Step}
  {result : Except Raised Int}

/-- What a rollback that has taken some steps goes on to do ends in a verdict. -/
def Concludes (repr : String → String) (version : String) (before : Option String)
    (steps : List Step) (host after : Host) (result : Except Raised Int) : Prop :=
  ∃ more, after.steps = host.steps ++ more ∧ (∀ step ∈ more, isStop step = false) ∧
    Verdict repr version before after.config (steps ++ more) result

theorem Concludes.behind {repr : String → String} {middle : Host} {more : List Step}
    (grown : middle.steps = host.steps ++ more) (quiet : ∀ step ∈ more, isStop step = false)
    (concludes : Concludes repr version before (steps ++ more) middle after result) :
    Concludes repr version before steps host after result := by
  obtain ⟨later, grown', quiet', verdict⟩ := concludes
  refine ⟨more ++ later, ?_, List.forall_mem_append.mpr ⟨quiet, quiet'⟩, ?_⟩
  · rw [grown', grown, List.append_assoc]
  · rwa [← List.append_assoc]

theorem Concludes.raise {repr : String → String} {more : List Step} {e : Raised}
    (stopped : ∀ step ∈ steps, isStart step = false) (grown : after.steps = host.steps ++ more)
    (quiet : ∀ step ∈ more, isStop step = false) (stopped' : ∀ step ∈ more, isStart step = false)
    (through : ∃ step ∈ more, ¬ Handled step) :
    Concludes repr version before steps host after (.error e) := by
  obtain ⟨step, member, unhandled⟩ := through
  exact ⟨more, grown, quiet, .raised e (List.forall_mem_append.mpr ⟨stopped, stopped'⟩)
    ⟨step, List.mem_append_right _ member, unhandled⟩⟩

theorem ends_rollbackFailed {attempted target reason : String}
    (ends : Ends (rollbackFailed world attempted target reason) host result after)
    (stopped : ∀ step ∈ steps, isStart step = false) (handled : ∀ step ∈ steps, Handled step) :
    Concludes world.repr version before steps host after result := by
  rw [rollbackFailed, ends_bind] at ends
  simp only [ends_attempt, emit, ends_act, ends_pure] at ends
  obtain ⟨answer, middle, ⟨r, ⟨rfl, rfl⟩, caught⟩, rfl, rfl⟩ | ⟨e, ⟨r, ⟨rfl, rfl⟩, caught⟩, rfl⟩ :=
    ends
  · obtain ⟨-, known⟩ := caughtBy_eq_ok.mp caught.symm
    refine ⟨_, rfl, List.forall_mem_singleton.mpr rfl, .failed ?_ ?_⟩
    · exact List.forall_mem_append.mpr ⟨stopped, List.forall_mem_singleton.mpr rfl⟩
    · exact List.forall_mem_append.mpr
        ⟨handled, List.forall_mem_singleton.mpr fun _ e raised => known e raised⟩
  · obtain ⟨raised, unknown⟩ := caughtBy_eq_error.mp caught.symm
    refine .raise stopped rfl (List.forall_mem_singleton.mpr rfl)
      (List.forall_mem_singleton.mpr rfl) ⟨_, List.mem_singleton_self _, fun handled => ?_⟩
    rw [handled rfl e raised] at unknown
    cases unknown

theorem ends_rollbackStart {attempted reason : String} {startedAt : ℚ}
    (ends : Ends (rollbackStart world version attempted reason startedAt) host result after)
    (stopped : ∀ step ∈ steps, isStart step = false) (handled : ∀ step ∈ steps, Handled step)
    (reinstalled : ∃ extra r,
      .ran (.pip ("cli-agent-runner==" ++ version) true extra) (.ok r) ∈ steps ∧ r.returncode = 0)
    (reports : ∃ r, .ran .version (.ok r) ∈ steps ∧ versionOf world.repr r = (0, version))
    (config_eq : host.config = before) :
    Concludes world.repr version before steps host after result := by
  rw [rollbackStart, ends_bind] at ends
  simp only [ends_attempt, start, ends_act] at ends
  obtain ⟨answer, middle, ⟨r, ⟨rfl, rfl⟩, caught⟩, ends⟩ | ⟨e, ⟨r, ⟨rfl, rfl⟩, caught⟩, rfl⟩ := ends
  · obtain ⟨rfl, known⟩ := caughtBy_eq_ok.mp caught.symm
    have handled' : ∀ step ∈ steps ++ [.started (world.start host.steps)], Handled step :=
      List.forall_mem_append.mpr ⟨handled, List.forall_mem_singleton.mpr known⟩
    cases answer : world.start host.steps with
    | error e =>
      simp only [answer] at ends handled'
      refine .behind rfl (List.forall_mem_singleton.mpr rfl) (ends_rollbackFailed ends ?_ handled')
      exact List.forall_mem_append.mpr ⟨stopped, List.forall_mem_singleton.mpr rfl⟩
    | ok =>
      simp only [answer] at ends handled'
      have restored : ∀ more, Restored world.repr version before host.config
          (steps ++ [.started (.ok ())] ++ more) := by
        intro more
        refine ⟨?_, ?_, config_eq, ?_⟩
        · exact reinstalled.imp fun _ => .imp fun _ => .imp_left fun member => by simp [member]
        · exact reports.imp fun _ => .imp_left fun member => by simp [member]
        · simp
      obtain ⟨elapsed, _, reading, ends⟩ | ⟨_, reading, -⟩ := ends_bind.mp ends
      · obtain ⟨-, rfl⟩ := ends_monotonic.mp reading
        obtain ⟨written, rfl, one⟩ := ends_emit ends
        refine .behind rfl (List.forall_mem_singleton.mpr rfl) ⟨_, rfl,
          List.forall_mem_singleton.mpr rfl, .restored (restored _) ?_ fun n same => (one n same).2⟩
        refine List.forall_mem_append.mpr ⟨handled', List.forall_mem_singleton.mpr fun other => ?_⟩
        have apart : "service_upgrade_rolled_back" ≠ "service_upgrade_rollback_failed" := by decide
        exact absurd other apart
      · cases (ends_monotonic.mp reading).1
  · obtain ⟨raised, unknown⟩ := caughtBy_eq_error.mp caught.symm
    refine .raise stopped rfl (List.forall_mem_singleton.mpr rfl)
      (List.forall_mem_singleton.mpr ?_) ⟨_, List.mem_singleton_self _, fun handled => ?_⟩
    · rw [raised]
      rfl
    · rw [handled e raised] at unknown
      cases unknown

theorem ends_smokeVersion {r : Except Raised (Int × String)}
    (ends : Ends (smokeVersion world) host r after) :
    ∃ answer, after = ⟨host.config, host.steps ++ [.ran .version answer]⟩ ∧
      ((∃ c, answer = .ok c ∧ r = .ok (versionOf world.repr c)) ∨
        ∃ e, answer = .error e ∧ r = .error e) := by
  rw [smokeVersion, ends_bind] at ends
  simp only [ends_subprocess, ends_pure] at ends
  obtain ⟨c, _, ⟨-, rfl⟩, rfl, rfl⟩ | ⟨e, ⟨-, rfl⟩, rfl⟩ := ends
  · exact ⟨_, rfl, .inl ⟨c, rfl, rfl⟩⟩
  · exact ⟨_, rfl, .inr ⟨e, rfl, rfl⟩⟩

theorem ends_rollbackSmoke {attempted reason : String} {startedAt : ℚ}
    (ends : Ends (rollbackSmoke world version attempted reason startedAt) host result after)
    (stopped : ∀ step ∈ steps, isStart step = false) (handled : ∀ step ∈ steps, Handled step)
    (reinstalled : ∃ extra r,
      .ran (.pip ("cli-agent-runner==" ++ version) true extra) (.ok r) ∈ steps ∧ r.returncode = 0)
    (config_eq : host.config = before) :
    Concludes world.repr version before steps host after result := by
  rw [rollbackSmoke, ends_bind] at ends
  obtain ⟨reported, middle, smoke, ends⟩ | ⟨e, smoke, rfl⟩ := ends
  · obtain ⟨answer, rfl, ⟨c, rfl, same⟩ | ⟨_, -, absurdly⟩⟩ := ends_smokeVersion smoke
    · obtain rfl := Except.ok.inj same
      have stopped' : ∀ step ∈ steps ++ [.ran .version (.ok c)], isStart step = false :=
        List.forall_mem_append.mpr ⟨stopped, List.forall_mem_singleton.mpr rfl⟩
      have handled' : ∀ step ∈ steps ++ [.ran .version (.ok c)], Handled step :=
        List.forall_mem_append.mpr ⟨handled, by simp [Handled]⟩
      suffices later : Concludes world.repr version before (steps ++ [.ran .version (.ok c)])
          ⟨host.config, host.steps ++ [.ran .version (.ok c)]⟩ after result from
        .behind rfl (List.forall_mem_singleton.mpr rfl) later
      cases spoken : versionOf world.repr c with
      | mk rcV said =>
      simp only [spoken] at ends
      split at ends
      · exact ends_rollbackFailed ends stopped' handled'
      split at ends
      · exact ends_rollbackFailed ends stopped' handled'
      · rename_i clean own
        refine ends_rollbackStart ends stopped' handled' ?_ ⟨c, by simp, ?_⟩ config_eq
        · exact reinstalled.imp fun _ => .imp fun _ => .imp_left fun member => by simp [member]
        · rw [spoken, not_not.mp clean, not_not.mp own]
    · cases absurdly
  · obtain ⟨answer, rfl, ⟨_, -, absurdly⟩ | ⟨_, rfl, -⟩⟩ := ends_smokeVersion smoke
    · cases absurdly
    · refine .raise stopped rfl (List.forall_mem_singleton.mpr rfl)
        (List.forall_mem_singleton.mpr rfl) ⟨_, List.mem_singleton_self _, ?_⟩
      simp [Handled]

/-- A step of the restoring of the config: a read or a write. -/
def isConfigStep : Step → Bool
  | .read _ | .wrote _ _ => true
  | _ => false

/-- A read gives the config, or raises as the read step says. -/
theorem ends_readText {cfgPath : String} {r : Except Raised String}
    (ends : Ends (readText world cfgPath) host r after) :
    after = ⟨host.config, host.steps ++ [.read r]⟩ ∧
      ∀ text, r = .ok text → host.config = some text := by
  rw [readText, ends_perform, Prod.mk.injEq] at ends
  obtain ⟨rfl, rfl⟩ := ends
  refine ⟨rfl, fun text given => ?_⟩
  split at given
  · cases given
  split at given
  · cases given
  · rename_i found
    rw [found, Except.ok.inj given]

theorem ends_writeText {text : String} {r : Except Raised Unit}
    (ends : Ends (writeText world text) host r after) :
    after.steps = host.steps ++ [.wrote text r] ∧ (r = .ok () → after.config = some text) := by
  rw [writeText, ends_perform] at ends
  split at ends <;> obtain ⟨rfl, rfl⟩ := Prod.mk.inj ends
  · exact ⟨rfl, fun _ => rfl⟩
  · exact ⟨rfl, fun absurdly => by cases absurdly⟩

/-- The config is as before where the restoring returns, and it raises what its last step
raised. -/
theorem ends_restoreConfig {cfgPath : String} {r : Except Raised Unit}
    (ends : Ends (restoreConfig world cfgPath before) host r after)
    (absent : before = none → host.config = none) :
    ∃ more, after.steps = host.steps ++ more ∧ (∀ step ∈ more, isConfigStep step = true) ∧
      (r = .ok () → after.config = before) ∧
      ((∀ step ∈ more, Handled step) ↔ ∀ e, r = .error e → e.isOSError = true) := by
  cases before with
  | none =>
    obtain ⟨rfl, rfl⟩ := ends_pure.mp ends
    exact ⟨[], (List.append_nil _).symm, List.forall_mem_nil _, fun _ => absent rfl, by simp⟩
  | some text =>
    obtain ⟨now, middle, reading, ends⟩ | ⟨e, reading, rfl⟩ := ends_bind.mp ends
    · obtain ⟨rfl, given⟩ := ends_readText reading
      split at ends
      · obtain ⟨grown, written⟩ := ends_writeText ends
        refine ⟨[.read (.ok now), .wrote text r], ?_, by simp [isConfigStep], written, ?_⟩
        · rw [grown, List.append_assoc]
          rfl
        · simp [Handled]
      · rename_i same
        obtain ⟨rfl, rfl⟩ := ends_pure.mp ends
        refine ⟨_, rfl, List.forall_mem_singleton.mpr rfl, fun _ => ?_, by simp [Handled]⟩
        rw [given now rfl, not_not.mp same]
    · obtain ⟨rfl, -⟩ := ends_readText reading
      refine ⟨_, rfl, List.forall_mem_singleton.mpr rfl, fun absurdly => (by cases absurdly), ?_⟩
      simp [Handled]

theorem PipRun.quiet {spec : String} {force : Bool} {r : Except Raised CompletedProcess}
    {more : List Step} (ran : PipRun spec force r more) :
    (∀ step ∈ more, isStop step = false) ∧ ∀ step ∈ more, isStart step = false := by
  constructor <;>
  · intro step member
    obtain ⟨_, _, rfl⟩ := ran.own step member
    rfl

theorem PipRun.through {spec : String} {force : Bool} {e : Raised} {more : List Step}
    (ran : PipRun spec force (.error e) more) : ∃ step ∈ more, ¬ Handled step := by
  obtain ⟨extra, member⟩ := ran.last
  exact ⟨_, member, fun handled => handled e rfl⟩

theorem PipRun.head {spec : String} {r : Except Raised CompletedProcess} {more : List Step}
    (ran : PipRun spec true r more) (later : List Step) :
    (more ++ later).head?.any isReinstall = true := by
  cases more with
  | nil =>
    obtain ⟨extra, member⟩ := ran.last
    cases member
  | cons first rest =>
    obtain ⟨_, _, rfl⟩ := ran.own first (.head _)
    rfl

theorem config_quiet {more : List Step} (own : ∀ step ∈ more, isConfigStep step = true) :
    (∀ step ∈ more, isStop step = false) ∧ ∀ step ∈ more, isStart step = false := by
  constructor <;>
  · intro step member
    have config := own step member
    cases step with
    | read answer => rfl
    | wrote text answer => rfl
    | _ => cases config

/-- **Every rollback comes to a verdict.**  Begun with the text to restore, whatever its pip
runs, its reads and writes, its sanity smoke, its start and its events do. -/
theorem ends_rollback {attempted reason cfgPath : String} {startedAt : ℚ}
    (ends : Ends (rollback world version attempted reason startedAt cfgPath before) host result
      after) (absent : before = none → host.config = none) :
    ∃ more, after.steps = host.steps ++ more ∧ (∀ step ∈ more, isStop step = false) ∧
      more.head?.any isReinstall = true ∧
      Verdict world.repr version before after.config more result := by
  rw [rollback, ends_bind] at ends
  obtain ⟨c, middle, installing, ends⟩ | ⟨e, installing, rfl⟩ := ends
  · obtain ⟨pip, rfl, ran⟩ := ends_pipInstall installing
    suffices later : Concludes world.repr version before pip ⟨host.config, host.steps ++ pip⟩ after
        result by
      obtain ⟨more, grown, quiet, verdict⟩ := later
      refine ⟨pip ++ more, ?_, List.forall_mem_append.mpr ⟨ran.quiet.1, quiet⟩, ?_, verdict⟩
      · rw [grown, List.append_assoc]
      · exact ran.head more
    split at ends
    · exact ends_rollbackFailed ends ran.quiet.2 (ran.handled c rfl)
    · rename_i clean
      have reinstalled : ∃ extra r, .ran (.pip ("cli-agent-runner==" ++ version) true extra)
          (.ok r) ∈ pip ∧ r.returncode = 0 :=
        ran.last.imp fun _ member => ⟨c, member, not_not.mp clean⟩
      obtain ⟨answer, restored, attempt, ends⟩ | ⟨e, attempt, rfl⟩ := ends_bind.mp ends
      · obtain ⟨r, restoring, caught⟩ := ends_attempt.mp attempt
        obtain ⟨rfl, known⟩ := caughtBy_eq_ok.mp caught.symm
        obtain ⟨moves, grown, own, same, handled⟩ := ends_restoreConfig restoring absent
        have stopped : ∀ step ∈ pip ++ moves, isStart step = false :=
          List.forall_mem_append.mpr ⟨ran.quiet.2, (config_quiet own).2⟩
        have handled' : ∀ step ∈ pip ++ moves, Handled step :=
          List.forall_mem_append.mpr ⟨ran.handled c rfl, handled.mpr known⟩
        refine .behind grown (config_quiet own).1 ?_
        cases answer with
        | error e => exact ends_rollbackFailed ends stopped handled'
        | ok =>
          refine ends_rollbackSmoke ends stopped handled' ?_ (same rfl)
          exact reinstalled.imp fun _ => .imp fun _ => .imp_left (List.mem_append_left _)
      · obtain ⟨r, restoring, caught⟩ := ends_attempt.mp attempt
        obtain ⟨rfl, unknown⟩ := caughtBy_eq_error.mp caught.symm
        obtain ⟨moves, grown, own, -, handled⟩ := ends_restoreConfig restoring absent
        refine .raise ran.quiet.2 grown (config_quiet own).1 (config_quiet own).2 ?_
        by_contra through
        have known := handled.mp (fun step member => by_contra fun un => through ⟨step, member, un⟩)
        rw [known e rfl] at unknown
        cases unknown
  · obtain ⟨pip, rfl, ran⟩ := ends_pipInstall installing
    refine ⟨pip, rfl, ran.quiet.1, ?_, .raised e ran.quiet.2 ran.through⟩
    exact List.append_nil pip ▸ ran.head []

/-! ## The upgrade -/

/-- How a run ends that has stopped the service: without a rollback, and with 0 only where the
new version runs, or in the verdict on its rollback. -/
inductive Conclusion (repr : String → String) (cfgPath version : String)
    (before config : Option String) (steps : List Step) (result : Except Raised Int) : Prop where
  | kept (none_ : ∀ step ∈ steps, isReinstall step = false)
      (zero : result = .ok 0 → Upgraded repr cfgPath steps)
  | rolledBack (earlier later : List Step) (split : steps = earlier ++ later)
      (none_ : ∀ step ∈ earlier, isReinstall step = false)
      (head : later.head?.any isReinstall = true)
      (verdict : Verdict repr version before config later result)

/-- What an upgrade that has taken some steps goes on to do comes to a conclusion. -/
def Goes (repr : String → String) (cfgPath version : String) (before : Option String)
    (steps : List Step) (host after : Host) (result : Except Raised Int) : Prop :=
  ∃ more, after.steps = host.steps ++ more ∧ (∀ step ∈ more, isStop step = false) ∧
    Conclusion repr cfgPath version before after.config (steps ++ more) result

variable {cfgPath : String}

theorem Goes.behind {repr : String → String} {middle : Host} {more : List Step}
    (grown : middle.steps = host.steps ++ more) (quiet : ∀ step ∈ more, isStop step = false)
    (goes : Goes repr cfgPath version before (steps ++ more) middle after result) :
    Goes repr cfgPath version before steps host after result := by
  obtain ⟨later, grown', quiet', conclusion⟩ := goes
  refine ⟨more ++ later, ?_, List.forall_mem_append.mpr ⟨quiet, quiet'⟩, ?_⟩
  · rw [grown', grown, List.append_assoc]
  · rwa [← List.append_assoc]

/-- A run that raises has not upgraded. -/
theorem Goes.raise {repr : String → String} {more : List Step} {e : Raised}
    (none_ : ∀ step ∈ steps, isReinstall step = false) (grown : after.steps = host.steps ++ more)
    (quiet : ∀ step ∈ more, isStop step = false)
    (none' : ∀ step ∈ more, isReinstall step = false) :
    Goes repr cfgPath version before steps host after (.error e) :=
  ⟨more, grown, quiet, .kept (List.forall_mem_append.mpr ⟨none_, none'⟩)
    fun absurdly => by cases absurdly⟩

theorem goes_rollback {attempted reason : String} {startedAt : ℚ}
    (ends : Ends (rollback world version attempted reason startedAt cfgPath before) host result
      after) (absent : before = none → host.config = none)
    (none_ : ∀ step ∈ steps, isReinstall step = false) :
    Goes world.repr cfgPath version before steps host after result := by
  obtain ⟨more, grown, quiet, head, verdict⟩ := ends_rollback ends absent
  exact ⟨more, grown, quiet, .rolledBack steps more rfl none_ head verdict⟩

theorem ends_startUpgraded {toVersion : String} {t0 : ℚ}
    (ends : Ends (startUpgraded world version toVersion t0) host result after) :
    ∃ more, after.steps = host.steps ++ more ∧ (∀ step ∈ more, isStop step = false) ∧
      (∀ step ∈ more, isReinstall step = false) ∧ (result = .ok 0 → ∃ emission,
        more = [.started (.ok ()), .emitted emission (.ok ())]) := by
  rw [startUpgraded, ends_bind] at ends
  simp only [ends_attempt, start, ends_act] at ends
  obtain ⟨answer, middle, ⟨r, ⟨rfl, rfl⟩, caught⟩, ends⟩ | ⟨e, ⟨r, ⟨rfl, rfl⟩, caught⟩, rfl⟩ := ends
  · obtain ⟨rfl, -⟩ := caughtBy_eq_ok.mp caught.symm
    cases answer : world.start host.steps with
    | error e =>
      simp only [answer] at ends
      obtain ⟨written, rfl, two⟩ := ends_emit ends
      refine ⟨_, List.append_assoc .., by simp [isStop], by simp [isReinstall], fun zero => ?_⟩
      cases (two 0 zero).2
    | ok =>
      simp only [answer] at ends
      obtain ⟨elapsed, _, reading, ends⟩ | ⟨_, reading, -⟩ := ends_bind.mp ends
      · obtain ⟨-, rfl⟩ := ends_monotonic.mp reading
        obtain ⟨written, rfl, zero⟩ := ends_emit ends
        refine ⟨_, List.append_assoc .., by simp [isStop], by simp [isReinstall], fun same => ?_⟩
        obtain ⟨rfl, -⟩ := zero 0 same
        exact ⟨_, rfl⟩
      · cases (ends_monotonic.mp reading).1
  · exact ⟨_, rfl, List.forall_mem_singleton.mpr rfl, List.forall_mem_singleton.mpr rfl,
      fun absurdly => by cases absurdly⟩

theorem ends_smokePeek {r : Except Raised (Int × String)}
    (ends : Ends (smokePeek world cfgPath) host r after) :
    ∃ answer, after = ⟨host.config, host.steps ++ [.ran (.peek cfgPath) answer]⟩ ∧
      ((∃ c report, answer = .ok c ∧ r = .ok report ∧ (report.1 = 0 → c.returncode = 0)) ∨
        ∃ e, answer = .error e ∧ r = .error e) := by
  rw [smokePeek, ends_bind] at ends
  simp only [ends_subprocess, ends_pure] at ends
  obtain ⟨c, _, ⟨-, rfl⟩, rfl, rfl⟩ | ⟨e, ⟨-, rfl⟩, rfl⟩ := ends
  · refine ⟨_, rfl, .inl ⟨c, _, rfl, rfl, fun zero => ?_⟩⟩
    split at zero
    · exact zero
    · exact not_not.mp (by assumption)
  · exact ⟨_, rfl, .inr ⟨e, rfl, rfl⟩⟩

/-- A package was installed. -/
def Installed (steps : List Step) : Prop :=
  ∃ spec extra pip, .ran (.pip spec false extra) (.ok pip) ∈ steps ∧ pip.returncode = 0

theorem goes_smokeUpgraded {target : Option String} {t0 : ℚ}
    (ends : Ends (smokeUpgraded world target cfgPath version t0 before) host result after)
    (absent : before = none → host.config = none)
    (none_ : ∀ step ∈ steps, isReinstall step = false) (installed : Installed steps) :
    Goes world.repr cfgPath version before steps host after result := by
  rw [smokeUpgraded, ends_bind] at ends
  obtain ⟨report, middle, smoke, ends⟩ | ⟨e, smoke, rfl⟩ := ends
  · obtain ⟨_, rfl, ⟨c, rfl, same⟩ | ⟨_, -, absurdly⟩⟩ := ends_smokeVersion smoke
    · cases spoken : versionOf world.repr c with
      | mk rcV said =>
      obtain rfl := (Except.ok.inj same).trans spoken
      have none' : ∀ step ∈ steps ++ [.ran .version (.ok c)], isReinstall step = false :=
        List.forall_mem_append.mpr ⟨none_, List.forall_mem_singleton.mpr rfl⟩
      suffices later : Goes world.repr cfgPath version before (steps ++ [.ran .version (.ok c)])
          ⟨host.config, host.steps ++ [.ran .version (.ok c)]⟩ after result from
        .behind rfl (List.forall_mem_singleton.mpr rfl) later
      simp only at ends
      split at ends
      · exact goes_rollback ends absent none'
      rename_i passed
      obtain ⟨report, middle, peek, ends⟩ | ⟨e, peek, rfl⟩ := ends_bind.mp ends
      · obtain ⟨_, rfl, ⟨p, report, rfl, same, clean⟩ | ⟨_, -, absurdly⟩⟩ := ends_smokePeek peek
        · obtain rfl := Except.ok.inj same
          obtain ⟨rcP, peekErr⟩ := report
          simp only at ends clean
          split at ends
          · refine .behind rfl (List.forall_mem_singleton.mpr rfl) (goes_rollback ends absent ?_)
            exact List.forall_mem_append.mpr ⟨none', List.forall_mem_singleton.mpr rfl⟩
          rename_i peeked
          obtain ⟨more, grown, quiet, fresh, zero⟩ := ends_startUpgraded ends
          refine .behind rfl (List.forall_mem_singleton.mpr rfl) ⟨more, grown, quiet, .kept ?_ ?_⟩
          · exact List.forall_mem_append.mpr ⟨List.forall_mem_append.mpr
              ⟨none', List.forall_mem_singleton.mpr rfl⟩, fresh⟩
          · intro returned
            obtain ⟨emission, rfl⟩ := zero returned
            obtain ⟨spec, extra, pip, member, done⟩ := installed
            exact ⟨steps, spec, extra, pip, c, p, emission, by simp, member, done,
              by rw [spoken, not_not.mp passed], clean (not_not.mp peeked)⟩
        · cases absurdly
      · obtain ⟨answer, rfl, -⟩ := ends_smokePeek peek
        exact .raise none' rfl (List.forall_mem_singleton.mpr rfl)
          (List.forall_mem_singleton.mpr rfl)
    · cases absurdly
  · obtain ⟨answer, rfl, -⟩ := ends_smokeVersion smoke
    exact .raise none_ rfl (List.forall_mem_singleton.mpr rfl) (List.forall_mem_singleton.mpr rfl)

theorem ends_smokeMigrate {r : Except Raised (Int × String)}
    (ends : Ends (smokeMigrate world cfgPath) host r after) :
    ∃ answer, after.steps = host.steps ++ [.ran (.migrate cfgPath) answer] ∧
      (host.config = none → after.config = none) := by
  have own : ∀ {r : Except Raised CompletedProcess} {after : Host},
      Ends (migrateProcess world cfgPath) host r after →
        after.steps = host.steps ++ [.ran (.migrate cfgPath) r] ∧
          (host.config = none → after.config = none) := by
    intro r after ends
    rw [migrateProcess, ends_perform, Prod.mk.injEq] at ends
    obtain ⟨rfl, rfl⟩ := ends
    exact ⟨rfl, fun absent => by rw [absent, Option.bind_none]⟩
  rw [smokeMigrate, ends_bind] at ends
  obtain ⟨c, middle, ran, ends⟩ | ⟨e, ran, rfl⟩ := ends
  · obtain ⟨-, rfl⟩ := ends_pure.mp ends
    exact ⟨_, own ran⟩
  · exact ⟨_, own ran⟩

theorem ends_migrateUnless {noMigrate : Bool} {r : Except Raised (Int × String)}
    (ends : Ends (migrateUnless world noMigrate cfgPath) host r after) :
    ∃ more, after.steps = host.steps ++ more ∧
      (∀ step ∈ more, isStop step = false ∧ isReinstall step = false) ∧
      (host.config = none → after.config = none) := by
  rw [migrateUnless] at ends
  split at ends
  · obtain ⟨-, rfl⟩ := ends_pure.mp ends
    exact ⟨[], (List.append_nil _).symm, List.forall_mem_nil _, id⟩
  · obtain ⟨answer, grown, absent⟩ := ends_smokeMigrate ends
    exact ⟨_, grown, List.forall_mem_singleton.mpr ⟨rfl, rfl⟩, absent⟩

/-- The text kept is that of the config, where there is one. -/
theorem ends_preMigrateText {r : Except Raised (Option String)}
    (ends : Ends (preMigrateText world cfgPath) host r after) :
    ∃ more, after = ⟨host.config, host.steps ++ more⟩ ∧
      (∀ step ∈ more, isStop step = false ∧ isReinstall step = false) ∧
      ∀ text, r = .ok text → text = host.config := by
  rw [preMigrateText, ends_bind] at ends
  obtain ⟨there, middle, asked, ends⟩ | ⟨e, asked, rfl⟩ := ends
  · obtain ⟨exists_, rfl⟩ := Prod.mk.inj asked
    obtain rfl := Except.ok.inj exists_
    split at ends
    · obtain ⟨text, middle, reading, ends⟩ | ⟨e, reading, rfl⟩ := ends_bind.mp ends
      · obtain ⟨rfl, given⟩ := ends_readText reading
        obtain ⟨rfl, rfl⟩ := ends_pure.mp ends
        refine ⟨_, rfl, List.forall_mem_singleton.mpr ⟨rfl, rfl⟩, fun kept same => ?_⟩
        rw [← Except.ok.inj same, given text rfl]
      · obtain ⟨rfl, -⟩ := ends_readText reading
        exact ⟨_, rfl, List.forall_mem_singleton.mpr ⟨rfl, rfl⟩,
          fun _ absurdly => by cases absurdly⟩
    · rename_i missing
      obtain ⟨rfl, rfl⟩ := ends_pure.mp ends
      refine ⟨[], by simp, List.forall_mem_nil _, fun kept same => ?_⟩
      rw [← Except.ok.inj same, Option.not_isSome_iff_eq_none.mp missing]
  · cases (Prod.mk.inj asked).1

theorem goes_migrateUpgraded {target : Option String} {noMigrate : Bool} {t0 : ℚ}
    (ends : Ends (migrateUpgraded world target cfgPath version noMigrate t0) host result after)
    (none_ : ∀ step ∈ steps, isReinstall step = false) (installed : Installed steps) :
    Goes world.repr cfgPath version host.config steps host after result := by
  rw [migrateUpgraded, ends_bind] at ends
  obtain ⟨kept, middle, keeping, ends⟩ | ⟨e, keeping, rfl⟩ := ends
  · obtain ⟨reads, rfl, plain, same⟩ := ends_preMigrateText keeping
    obtain rfl := same kept rfl
    have none' : ∀ step ∈ steps ++ reads, isReinstall step = false :=
      List.forall_mem_append.mpr ⟨none_, fun step member => (plain step member).2⟩
    have installed' : Installed (steps ++ reads) := installed.imp fun _ => .imp fun _ =>
      .imp fun _ => .imp_left (List.mem_append_left _)
    suffices later : Goes world.repr cfgPath version host.config (steps ++ reads)
        ⟨host.config, host.steps ++ reads⟩ after result from
      .behind rfl (fun step member => (plain step member).1) later
    obtain ⟨report, middle, migrating, ends⟩ | ⟨e, migrating, rfl⟩ := ends_bind.mp ends
    · obtain ⟨more, grown, plain', absent⟩ := ends_migrateUnless migrating
      have none'' : ∀ step ∈ steps ++ reads ++ more, isReinstall step = false :=
        List.forall_mem_append.mpr ⟨none', fun step member => (plain' step member).2⟩
      refine .behind grown (fun step member => (plain' step member).1) ?_
      obtain ⟨rcM, migrateErr⟩ := report
      simp only at ends
      split at ends
      · exact goes_rollback ends absent none''
      · refine goes_smokeUpgraded ends absent none'' ?_
        exact installed'.imp fun _ => .imp fun _ => .imp fun _ => .imp_left
          (List.mem_append_left _)
    · obtain ⟨more, grown, plain', -⟩ := ends_migrateUnless migrating
      exact .raise none' grown (fun step member => (plain' step member).1)
        fun step member => (plain' step member).2
  · obtain ⟨reads, rfl, plain, -⟩ := ends_preMigrateText keeping
    exact .raise none_ rfl (fun step member => (plain step member).1)
      fun step member => (plain step member).2

/-- Once the service is stopped, pip is run, and the run comes to a conclusion. -/
theorem ends_installUpgraded {target : Option String} {noMigrate : Bool} {t0 : ℚ}
    (ends : Ends (installUpgraded world target cfgPath version noMigrate t0) host result after) :
    ∃ more, after.steps = host.steps ++ more ∧ (∀ step ∈ more, isStop step = false) ∧
      (∃ spec extra answer later, more = .ran (.pip spec false extra) answer :: later) ∧
      Conclusion world.repr cfgPath version host.config after.config more result := by
  have first : ∀ {spec : String} {r : Except Raised CompletedProcess} {pip : List Step}
      (later : List Step), PipRun spec false r pip →
      ∃ spec extra answer rest, pip ++ later = .ran (.pip spec false extra) answer :: rest := by
    intro spec r pip later ran
    cases pip with
    | nil =>
      obtain ⟨_, member⟩ := ran.last
      cases member
    | cons step rest =>
      obtain ⟨extra, answer, rfl⟩ := ran.own step (.head _)
      exact ⟨spec, extra, answer, rest ++ later, rfl⟩
  have fresh : ∀ {spec : String} {r : Except Raised CompletedProcess} {pip : List Step},
      PipRun spec false r pip → ∀ step ∈ pip, isReinstall step = false := by
    intro spec r pip ran step member
    obtain ⟨_, _, rfl⟩ := ran.own step member
    rfl
  rw [installUpgraded, ends_bind] at ends
  obtain ⟨c, middle, installing, ends⟩ | ⟨e, installing, rfl⟩ := ends
  · obtain ⟨pip, rfl, ran⟩ := ends_pipInstall installing
    split at ends
    · obtain ⟨rfl, rfl⟩ := ends_pure.mp ends
      exact ⟨pip, rfl, ran.quiet.1, List.append_nil pip ▸ first [] ran,
        .kept (fresh ran) fun absurdly => by cases absurdly⟩
    · rename_i clean
      have installed : Installed pip := by
        obtain ⟨extra, member⟩ := ran.last
        exact ⟨_, extra, c, member, not_not.mp clean⟩
      obtain ⟨more, grown, quiet, conclusion⟩ := goes_migrateUpgraded ends (fresh ran) installed
      refine ⟨pip ++ more, ?_, List.forall_mem_append.mpr ⟨ran.quiet.1, quiet⟩, first more ran,
        conclusion⟩
      rw [grown, List.append_assoc]
  · obtain ⟨pip, rfl, ran⟩ := ends_pipInstall installing
    exact ⟨pip, rfl, ran.quiet.1, List.append_nil pip ▸ first [] ran,
      .kept (fresh ran) fun absurdly => by cases absurdly⟩

/-! ## When the law is kept -/

theorem rollbackOf_nil (none_ : ∀ step ∈ steps, isReinstall step = false) :
    rollbackOf steps = [] := by
  rw [rollbackOf, List.dropWhile_eq_nil_iff]
  exact fun step member => by rw [none_ step member, Bool.not_false]

theorem rollbackOf_append {later : List Step} (none_ : ∀ step ∈ steps, isReinstall step = false) :
    rollbackOf (steps ++ later) = rollbackOf later := by
  rw [rollbackOf, List.dropWhile_append, ← rollbackOf, rollbackOf_nil none_]
  rfl

theorem rollbackOf_of_head (head : steps.head?.any isReinstall = true) :
    rollbackOf steps = steps := by
  cases steps with
  | nil => cases head
  | cons first rest =>
    have reinstall : isReinstall first = true := head
    rw [rollbackOf, List.dropWhile_cons_of_neg (by rw [reinstall]; decide)]

/-- The return value of a run keeps its word exactly where no step of the rollback raised
what it lets through. -/
theorem conclusion_law {repr : String → String} {config : Option String}
    (conclusion : Conclusion repr cfgPath version before config steps result) :
    (result = .ok 0 → Upgraded repr cfgPath steps) ∧
      (((rollbackOf steps ≠ [] → result = .ok 1 →
          Restored repr version before config (rollbackOf steps)) ∧
        (rollbackOf steps ≠ [] → ¬ Restored repr version before config (rollbackOf steps) →
          result = .ok 2)) ↔ ∀ step ∈ rollbackOf steps, Handled step) := by
  cases conclusion with
  | kept none_ zero =>
    refine ⟨zero, ?_⟩
    simp [rollbackOf_nil none_]
  | rolledBack earlier later split none_ head verdict =>
    subst split
    rw [rollbackOf_append none_, rollbackOf_of_head head]
    cases verdict with
    | restored all handled one =>
      exact ⟨fun zero => absurd (one 0 zero) (by decide),
        iff_of_true ⟨fun _ _ => all, fun _ other => absurd all other⟩ handled⟩
    | failed stopped handled =>
      refine ⟨fun zero => ?_, iff_of_true ⟨fun _ one => ?_, fun _ _ => rfl⟩ handled⟩
      · cases zero
      · cases one
    | raised e stopped through =>
      refine ⟨fun zero => ?_, iff_of_false (fun both => ?_) ?_⟩
      · cases zero
      · have unrestored : ¬ Restored repr version before config later := fun all => by
          have started := stopped _ all.started
          cases started
        have some_ : later ≠ [] := by
          rintro rfl
          cases head
        cases both.2 some_ unrestored
      · obtain ⟨step, member, unhandled⟩ := through
        exact fun handled => unhandled (handled step member)

/-- Pip was run only behind a stop that reported the service inactive. -/
theorem inactive_iff {dir : Except Raised Unit} {status : ServiceStatus} {spec : String}
    {force : Bool} {extra : List String} {answer : Except Raised CompletedProcess}
    {later : List Step} (quiet : ∀ step ∈ later, isStop step = false) :
    (∀ earlier spec' force' extra' answer' later',
      .madeDir dir :: .stopped (.ok status) :: .ran (.pip spec force extra) answer :: later =
        earlier ++ .ran (.pip spec' force' extra') answer' :: later' →
      ∃ status, .stopped (.ok status) ∈ earlier ∧ status.active = false) ↔
    ∀ reported, .stopped (.ok reported) ∈
      .madeDir dir :: .stopped (.ok status) :: .ran (.pip spec force extra) answer :: later →
      reported.active = false := by
  constructor
  · intro behind reported member
    obtain ⟨own, first, inactive⟩ := behind [.madeDir dir, .stopped (.ok status)] spec force extra
      answer later rfl
    obtain rfl : own = status := by simpa using first
    simp only [List.mem_cons, reduceCtorEq, false_or, Step.stopped.injEq, Except.ok.injEq] at member
    obtain rfl | member := member
    · exact inactive
    · cases quiet _ member
  · intro inactive earlier _ _ _ _ _ split
    have reported := inactive status (.tail _ (.head _))
    cases earlier with
    | nil => cases (List.cons.inj split).1
    | cons first earlier =>
      obtain ⟨-, split⟩ := List.cons.inj split
      cases earlier with
      | nil => cases (List.cons.inj split).1
      | cons second earlier =>
        obtain ⟨rfl, -⟩ := List.cons.inj split
        exact ⟨status, .tail _ (.head _), reported⟩

/-- A run that ends before pip is lawful and orderly. -/
theorem lawful_early {repr : String → String}
    (plain : ∀ step ∈ after.steps, isReinstall step = false)
    (no_pip : ∀ spec force extra answer, .ran (.pip spec force extra) answer ∉ after.steps)
    (stops : ∀ status, .stopped (.ok status) ∉ after.steps) (nonzero : result ≠ .ok 0) :
    Lawful repr cfgPath version before result after ↔ Orderly after.steps := by
  have none_ := rollbackOf_nil plain
  refine iff_of_true ⟨fun earlier spec force extra answer later split => ?_,
    fun zero => absurd zero nonzero, fun some_ => absurd none_ some_,
      fun some_ => absurd none_ some_⟩
    ⟨fun status member => absurd member (stops status), ?_⟩
  · exact absurd (split ▸ by simp) (no_pip spec force extra answer)
  · rw [none_]
    exact List.forall_mem_nil _

theorem Upgraded.behind {repr : String → String} (first : List Step)
    (upgraded : Upgraded repr cfgPath steps) : Upgraded repr cfgPath (first ++ steps) := by
  obtain ⟨earlier, spec, extra, pip, smoke, peek, emission, rfl, member, rest⟩ := upgraded
  exact ⟨first ++ earlier, spec, extra, pip, smoke, peek, emission, (List.append_assoc ..).symm,
    List.mem_append_right _ member, rest⟩

/-- A run that goes on behind a stop is lawful exactly where it is orderly. -/
theorem lawful_stopped {repr : String → String} {dir : Except Raised Unit} {status : ServiceStatus}
    {spec : String} {extra : List String} {answer : Except Raised CompletedProcess}
    {later : List Step} (grown : after.steps =
      .madeDir dir :: .stopped (.ok status) :: .ran (.pip spec false extra) answer :: later)
    (quiet : ∀ step ∈ Step.ran (.pip spec false extra) answer :: later, isStop step = false)
    (conclusion : Conclusion repr cfgPath version before after.config
      (.ran (.pip spec false extra) answer :: later) result) :
    Lawful repr cfgPath version before result after ↔ Orderly after.steps := by
  have fresh : ∀ step ∈ [Step.madeDir dir, .stopped (.ok status)], isReinstall step = false := by
    simp [isReinstall]
  have rollback_eq : rollbackOf after.steps =
      rollbackOf (.ran (.pip spec false extra) answer :: later) := by
    rw [grown]
    exact rollbackOf_append fresh
  obtain ⟨zero, words⟩ := conclusion_law conclusion
  have behind := @inactive_iff dir status spec false extra answer later
    (List.forall_mem_cons.mp quiet).2
  rw [← grown] at behind
  rw [← rollback_eq] at words
  constructor
  · intro law
    exact ⟨behind.mp law.inactive, words.mp ⟨law.one, law.two⟩⟩
  · intro orderly
    obtain ⟨one, two⟩ := words.mpr orderly.handled
    refine ⟨behind.mpr orderly.inactive, fun returned => ?_, one, two⟩
    rw [grown]
    exact (zero returned).behind [_, _]

/-- A host where every step goes well, and the service was told to stop. -/
def calm (active : Bool) : World where
  executable := "python"
  venv := true
  userSite := false
  serveUnit := "agent-runner@project.service"
  repr text := text
  monotonic _ := 0
  mkdir _ := .ok ()
  stop _ := .ok ⟨active⟩
  run _ _ := .ok ⟨0, "agent-runner 0.2.0", ""⟩
  migrated _ text := some text
  readFault _ := none
  writeFault _ := none
  start _ := .ok ()
  emit _ _ := .ok ()

/-- The new version cannot migrate the config, and pip cannot be spawned to take it back. -/
def unspawnable : World :=
  { calm false with
    run := fun _ argv =>
      if argv.contains "--force-reinstall" then
        .error ⟨.osError, "PermissionError", "[Errno 13] Permission denied: 'python'"⟩
      else .ok ⟨if argv.contains "migrate" then 1 else 0, "", ""⟩ }

/-- An upgrade to the latest version, begun with an empty config. -/
def upgradeOf (world : World) : Except Raised Int × Host :=
  outcome (orchestratedUpgrade world none "agent-runner.toml" "0.1.0" false) ⟨some "", []⟩

end AgentRunner.UpgradeLaw
