import AgentRunner.Interleaving
import AgentRunner.RoundRun

/-! The stages of a round process, as a machine over the things that happen in one: which
step may follow which, and with which data. What `round_cmd.cmd` does, whatever its world
answers and wherever it is cut, is a history of the machine. -/
namespace AgentRunner.RoundStages
open Effects Triples Interleaving PyValue ConfigModels ConfigDigest ContextStore AgentRun DirtyTree
open RoundRun

/-! ## The machine -/

/-- Where a round process stands. -/
inductive Stage where
  | outside
  | failing (failures : List PromptAssembly.CheckResult)
  | refused
  | held
  | entered
  | informed (status : Json)
  | handed (status orphan : Json)
  | told (plan : Plan)
  | started (plan : Plan)
  | spawning (plan : Plan)
  | running (plan : Plan)
  | ran (plan : Plan) (result : RunResult) (durationS : PyFloat)
  | exited (plan : Plan) (result : RunResult) (durationS : PyFloat)
  | looked (plan : Plan) (result : RunResult) (durationS : PyFloat) (dirty : List String)
  | saved (plan : Plan) (result : RunResult)
  | closed (plan : Plan) (result : RunResult)
  | cleaning (ended : Option (Plan × RunResult))
  | finished (ended : Option (Plan × RunResult))
  | gone

/-- It is under the lock. -/
def Stage.holds : Stage → Bool
  | .outside | .failing _ | .refused | .finished _ | .gone => false
  | _ => true

/-- It is where the `finally` of `run_one_round` would run. -/
def Stage.inside : Stage → Bool
  | .outside | .failing _ | .refused | .held | .cleaning _ | .finished _ | .gone => false
  | _ => true

/-- The round it has written the end of. -/
def Stage.ended : Stage → Option (Plan × RunResult)
  | .closed plan result => some (plan, result)
  | _ => none

/-- The events that mark the way of a round. -/
inductive Mark where
  | start (roundNum : Int)
  | spawn (roundNum : Int)
  | exit (roundNum exitCode : Int)
  | finish (roundNum : Int)
  deriving DecidableEq

def markOf : Emission → Option Mark
  | .roundStart roundNum _ => some (.start roundNum)
  | .agentSpawn roundNum _ => some (.spawn roundNum)
  | .agentExit roundNum exitCode _ _ _ => some (.exit roundNum exitCode)
  | .roundEnd roundNum => some (.finish roundNum)
  | _ => none

/-- A step that leaves the stage as it is. -/
def quiet : Step → Bool
  | .asked | .failed _ => true
  | .emitted emission => (markOf emission).isNone
  | _ => false

/-- The agent did what it was for: it ended well, or lingered behind its result. -/
def Well (result : RunResult) : Prop := (result.ok || result.killedForGrace) = true

/-- What may happen next. -/
inductive Moves : Stage → Step → Stage → Prop where
  | idles {s step} (silent : quiet step = true) (alive : s ≠ .gone) : Moves s step s
  | passes : Moves .outside (.checked []) .outside
  | fails {failures} (some : failures ≠ []) : Moves .outside (.checked failures) (.failing failures)
  | refuses : Moves .outside .refused .refused
  | locks : Moves .outside .locked .held
  | enters : Moves .held .sidecarWritten .entered
  | informs {status} : Moves .entered (.statusRead status) (.informed status)
  | hands {status orphan} : Moves (.informed status) (.orphanRead orphan) (.handed status orphan)
  | tells {status orphan} (plan : Plan) : Moves (.handed status orphan)
      (.contextWritten (roundContext plan (readStatus status) (readOrphanState orphan)))
      (.told plan)
  | starts {plan fields} :
      Moves (.told plan) (.emitted (.roundStart plan.roundNum fields)) (.started plan)
  | spawns {plan timeoutS} :
      Moves (.started plan) (.emitted (.agentSpawn plan.roundNum timeoutS)) (.spawning plan)
  | launches {plan launch} : Moves (.spawning plan) (.launched launch) (.running plan)
  | returns {plan result durationS} :
      Moves (.running plan) (.returned result durationS) (.ran plan result durationS)
  | exits {plan result durationS cause} : Moves (.ran plan result durationS)
      (.emitted (.agentExit plan.roundNum result.exitCode durationS result.timedOut cause))
      (.exited plan result durationS)
  | looks {plan result durationS dirty} : Moves (.exited plan result durationS)
      (.treeFound dirty) (.looked plan result durationS dirty)
  | stashes {plan result durationS dirty orphan} (unclean : dirty ≠ []) (well : Well result)
      (round : orphan.roundNum = .int plan.roundNum) (files : orphan.files = strings dirty)
      (named : orphan.stashedRef.truthy = true) :
      Moves (.looked plan result durationS dirty) (.orphanWritten orphan)
        (.looked plan result durationS dirty)
  | clears {plan result durationS} : Moves (.looked plan result durationS []) .orphanCleared
      (.looked plan result durationS [])
  | saves {plan result durationS} (completedAt : String) : Moves (.exited plan result durationS)
      (.statusWritten (statusOf plan completedAt result durationS)) (.saved plan result)
  | savesSeen {plan result durationS dirty} (completedAt : String) :
      Moves (.looked plan result durationS dirty)
        (.statusWritten (statusOf plan completedAt result durationS)) (.saved plan result)
  | ends {plan result} :
      Moves (.saved plan result) (.emitted (.roundEnd plan.roundNum)) (.closed plan result)
  | cleans {s} (inside : s.inside = true) : Moves s .sidecarUnlinked (.cleaning s.ended)
  | unlocks {ended} : Moves (.cleaning ended) .unlocked (.finished ended)
  | dies {s} : Moves s .gone .gone

/-! ## The log directory -/

/-- `status.json` and `orphan-state.json`, as `read_json` gives them. -/
structure Directory where
  status : Json
  orphan : Json

/-- The directory behind one more step: both files are written and unlinked as a whole. -/
def Directory.step (dir : Directory) : Step → Directory
  | .statusWritten status => { dir with status := .obj status.payload }
  | .orphanWritten orphan => { dir with orphan := .obj orphan.asdict }
  | .orphanCleared => { dir with orphan := .null }
  | _ => dir

def Directory.behind (dir : Directory) (steps : List Step) : Directory := steps.foldl step dir

/-- A reading finds what is there. -/
def Directory.admits (dir : Directory) (steps : List Step) : Step → Prop
  | .statusRead content => content = (dir.behind steps).status
  | .orphanRead content => content = (dir.behind steps).orphan
  | _ => True

/-- The round processes of a log directory, which `fcntl.flock` keeps apart. -/
def protocol (dir : Directory) : Protocol Step Stage where
  moves := Moves
  start := .outside
  holds := Stage.holds
  takes := fun
    | .locked => true
    | _ => false
  drops := fun
    | .unlocked | .gone => true
    | _ => false
  admits := dir.admits

section
variable (dir : Directory)

/-- The process, which has done these steps, stands in `s`. -/
def At (s : Stage) (steps : List Step) : Prop := Reaches (protocol dir) steps s

/-- Where an exception may come from. -/
def Sourced (e : Raised) (steps : List Step) : Prop :=
  .failed e ∈ steps ∨ e = .configError ∨ e = .lockHeld ∧ .refused ∈ steps ∨
    ∃ failures, .checked failures ∈ steps ∧ failures ≠ [] ∧
      e = .systemExit (.number (batteryExitCode failures))

/-- An exception that leaves the process where it stood. -/
def Stuck (s : Stage) (e : Raised) (steps : List Step) : Prop := At dir s steps ∧ Sourced e steps

/-- An exception that the `finally` of `run_one_round` meets. -/
def Broken (e : Raised) (steps : List Step) : Prop :=
  ∃ s, s.inside = true ∧ Stuck dir s e steps

/-- An exception, wherever the process stands. -/
def Lost (e : Raised) (steps : List Step) : Prop := ∃ s, Stuck dir s e steps

variable {dir} {world : World} {cfg : Config} {s t : Stage} {steps : List Step} {step : Step}
  {e : Raised} {α : Type}

theorem at_step (there : At dir s steps) (moved : Moves s step t) : At dir t (steps ++ [step]) :=
  .step there moved

theorem Sourced.later (sourced : Sourced e steps) (step : Step) : Sourced e (steps ++ [step]) := by
  have kept : ∀ other, other ∈ steps → other ∈ steps ++ [step] :=
    fun _ member => List.mem_append_left _ member
  obtain failed | rfl | ⟨rfl, refused⟩ | ⟨failures, checked, facts⟩ := sourced
  · exact .inl (kept _ failed)
  · exact .inr (.inl rfl)
  · exact .inr (.inr (.inl ⟨rfl, kept _ refused⟩))
  · exact .inr (.inr (.inr ⟨failures, kept _ checked, facts⟩))

theorem alive_of_inside (inside : s.inside = true) : s ≠ .gone := by
  rintro rfl
  cases inside

theorem stuck_inside (inside : s.inside = true) (e : Raised) (steps : List Step)
    (stuck : Stuck dir s e steps) : Broken dir e steps := ⟨s, inside, stuck⟩

theorem broken_lost (e : Raised) (steps : List Step) (broken : Broken dir e steps) :
    Lost dir e steps := by
  obtain ⟨s, -, stuck⟩ := broken
  exact ⟨s, stuck⟩

theorem stuck_lost (e : Raised) (steps : List Step) (stuck : Stuck dir s e steps) :
    Lost dir e steps := ⟨s, stuck⟩

/-! ## Elementary commands -/

theorem triple_act {answer : List Step → Except Raised α} {step : α → Step} {t : α → Stage}
    (alive : s ≠ .gone) (moves : ∀ a, Moves s (step a) (t a)) :
    Triple (At dir s) (act answer step) (fun a => At dir (t a)) (Stuck dir s) := by
  refine triple_perform fun steps there => ?_
  cases answered : answer steps with
  | ok a => exact at_step there (moves a)
  | error e =>
    exact ⟨at_step there (.idles rfl alive), .inl (List.mem_append_right _ List.mem_cons_self)⟩

/-- What is known of the answer comes with it. -/
theorem triple_act_knowing {answer : List Step → Except Raised α} {step : α → Step} {t : α → Stage}
    {known : α → Prop} (answers : ∀ steps a, answer steps = .ok a → known a) (alive : s ≠ .gone)
    (moves : ∀ a, Moves s (step a) (t a)) :
    Triple (At dir s) (act answer step) (fun a steps => known a ∧ At dir (t a) steps)
      (Stuck dir s) := by
  refine triple_perform fun steps there => ?_
  cases answered : answer steps with
  | ok a => exact ⟨answers steps a answered, at_step there (moves a)⟩
  | error e =>
    exact ⟨at_step there (.idles rfl alive), .inl (List.mem_append_right _ List.mem_cons_self)⟩

theorem triple_look {answer : List Step → Except Raised α} (alive : s ≠ .gone) :
    Triple (At dir s) (look answer) (fun _ => At dir s) (Stuck dir s) :=
  triple_act alive fun _ => .idles rfl alive

theorem triple_reading {answer : List Step → α} (alive : s ≠ .gone) :
    Triple (At dir s) (reading answer) (fun _ => At dir s) (Stuck dir s) := triple_look alive

theorem triple_emit {emission : Emission} (silent : markOf emission = none) (alive : s ≠ .gone) :
    Triple (At dir s) (emit world emission) (fun _ => At dir s) (Stuck dir s) :=
  triple_act alive fun _ => .idles (by rw [quiet, silent]; rfl) alive

theorem triple_emitAll {emissions : List Emission} (alive : s ≠ .gone)
    (silent : ∀ emission ∈ emissions, markOf emission = none) :
    Triple (At dir s) (emitAll world emissions) (fun _ => At dir s) (Stuck dir s) := by
  induction emissions with
  | nil => exact triple_pure fun _ => id
  | cons emission rest ih =>
    obtain ⟨first, others⟩ := List.forall_mem_cons.mp silent
    exact triple_bind (triple_emit first alive) fun _ => ih others

/-- What is caught leaves the process where it stood. -/
theorem triple_tried {x : Cmd α} {post : α → List Step → Prop} {caught : Raised → Bool}
    (holds : Triple (At dir s) x post (Stuck dir s)) :
    Triple (At dir s) (attempt caught x)
      (fun answer steps => match answer with
        | .ok a => post a steps
        | .error e => Stuck dir s e steps ∧ caught e = true) (Stuck dir s) := by
  refine triple_conseq (triple_attempt holds) (fun _ => id) (fun answer steps allowed => ?_)
    fun _ _ => And.left
  cases answer with
  | ok a => exact allowed
  | error e => exact allowed

/-- A step of the inner round, and what comes behind it. -/
theorem triple_inner {x : Cmd α} {β : Type} {f : α → Cmd β} {post : α → List Step → Prop}
    {after : β → List Step → Prop} (inside : s.inside = true)
    (first : Triple (At dir s) x post (Stuck dir s))
    (second : ∀ a, Triple (post a) (f a) after (Broken dir)) :
    Triple (At dir s) (x >>= f) after (Broken dir) :=
  triple_seq (stuck_inside inside) first second

/-- A command of one step of the inner round. -/
theorem triple_last {x : Cmd α} {post : α → List Step → Prop} (inside : s.inside = true)
    (holds : Triple (At dir s) x post (Stuck dir s)) : Triple (At dir s) x post (Broken dir) :=
  triple_conseq holds (fun _ => id) (fun _ _ => id) (stuck_inside inside)

/-! ## The round -/

theorem triple_readPrevious : Triple (At dir .entered) (readPrevious world)
    (fun prev steps => ∃ content, prev = readStatus content ∧ At dir (.informed content) steps)
    (Broken dir) := by
  refine triple_inner rfl (triple_act (t := fun content => .informed content) nofun
    fun _ => .informs) fun content => ?_
  refine triple_inner rfl (triple_look nofun) fun present => ?_
  have told : Triple (At dir (.informed content)) (pure (readStatus content) : Cmd (Option Status))
      (fun prev steps => ∃ content, prev = readStatus content ∧ At dir (.informed content) steps)
      (Broken dir) := triple_pure fun steps there => ⟨content, rfl, there⟩
  refine triple_ite (fun _ => ?_) fun _ => told
  exact triple_inner rfl (triple_emit rfl nofun) fun _ => told

theorem triple_choosePlan {status : Json} {phaseOverride : Option String} :
    Triple (At dir (.informed status)) (choosePlan world cfg phaseOverride)
      (fun _ => At dir (.informed status)) (Broken dir) := by
  refine triple_inner rfl (triple_look nofun) fun roundNum => ?_
  split
  · exact triple_raise fun steps there => ⟨_, rfl, there, .inr (.inl rfl)⟩
  · exact triple_inner rfl (triple_reading nofun) fun startedAt => triple_pure fun _ => id

theorem triple_pruneAgentLogs (alive : s ≠ .gone) :
    Triple (At dir s) (pruneAgentLogs world cfg) (fun _ => At dir s) (Stuck dir s) := by
  refine triple_bind (triple_reading alive) fun pruned => ?_
  refine triple_bind (triple_look alive) fun _ => ?_
  exact triple_ite (fun _ => triple_emit rfl alive) fun _ => triple_pure fun _ => id

theorem triple_handover {status : Json} {plan : Plan} :
    Triple (At dir (.informed status)) (handover world cfg plan (readStatus status))
      (fun _ => At dir (.told plan)) (Broken dir) := by
  refine triple_inner rfl (triple_act (t := fun orphan => .handed status orphan) nofun
    fun _ => .hands) fun orphan => ?_
  refine triple_inner rfl (triple_look nofun) fun _ => ?_
  refine triple_inner rfl (triple_pruneAgentLogs nofun) fun _ => ?_
  refine triple_inner rfl (triple_reading nofun) fun stamp => ?_
  refine triple_inner rfl (triple_act (t := fun _ => .told plan) nofun fun _ => .tells plan)
    fun _ => ?_
  exact triple_pure fun _ => id

theorem triple_steerGoal (alive : s ≠ .gone) :
    Triple (At dir s) (steerGoal world cfg) (fun _ => At dir s) (Stuck dir s) := by
  refine triple_ite (fun _ => ?_) fun _ => triple_pure fun _ => id
  refine triple_bind (triple_tried (triple_look alive)) fun answer => triple_pure fun steps => ?_
  cases answer with
  | ok _ => exact id
  | error e => exact fun caught => caught.1.1

theorem triple_announceStart {plan : Plan} : Triple (At dir (.told plan))
    (announceStart world cfg plan) (fun _ => At dir (.started plan)) (Broken dir) := by
  refine triple_inner rfl (triple_reading nofun) fun fields => ?_
  refine triple_inner rfl (triple_act (t := fun _ => .started plan) nofun fun _ => .starts)
    fun _ => ?_
  exact triple_last rfl (triple_look nofun)

theorem callbackEmission_silent (plan : Plan) (callback : Callback) :
    markOf (callbackEmission cfg plan callback) = none := by
  cases callback <;> rfl

theorem triple_runAgent {plan : Plan} {context : Event} {logPath : String} :
    Triple (At dir (.started plan)) (runAgent world cfg plan context logPath)
      (fun ran => At dir (.exited plan ran.1 ran.2)) (Broken dir) := by
  refine triple_inner rfl (triple_look nofun) fun prompt => ?_
  refine triple_inner rfl (triple_act (t := fun _ => .spawning plan) nofun fun _ => .spawns)
    fun _ => ?_
  refine triple_inner rfl (triple_act (t := fun _ => .running plan) nofun fun _ => .launches)
    fun _ => ?_
  refine triple_inner rfl (triple_reading nofun) fun callbacks => ?_
  refine triple_inner rfl (triple_emitAll nofun fun emission member => ?_) fun _ => ?_
  · obtain ⟨callback, -, rfl⟩ := List.mem_map.mp member
    exact callbackEmission_silent plan callback
  refine triple_inner rfl (triple_act (t := fun ran => .ran plan ran.1 ran.2) nofun
    fun _ => .returns) fun ran => ?_
  refine triple_inner rfl (triple_act (t := fun _ => .exited plan ran.1 ran.2) nofun
    fun _ => .exits) fun _ => ?_
  exact triple_pure fun _ => id

/-! ## The tree -/

theorem head_strip {text rest : List Char} {c : Char}
    (stripped : TextLines.strip text = c :: rest) :
    TextLines.isSpace c = false := by
  have start : c :: rest <+: TextLines.lstrip text :=
    stripped ▸ List.rdropWhile_prefix TextLines.isSpace _
  obtain ⟨more, begins⟩ := start
  by_cases blank : ∀ d ∈ text, TextLines.isSpace d = true
  · have none := TextLines.lstrip_blank blank []
    rw [List.append_nil, ← begins] at none
    exact absurd none (by simp [TextLines.lstrip])
  · obtain ⟨d, others, solid, found, -⟩ := TextLines.lstrip_filled blank
    rw [← begins, List.cons_append, List.cons.injEq] at found
    exact found.1 ▸ solid

theorem not_blank {c : Char} (solid : TextLines.isSpace c = false) : c ≠ ' ' := by
  rintro rfl
  exact absurd solid (by decide)

theorem isSpace_of_lineBreak {c : Char} (breaks : isLineBreak c = true) :
    TextLines.isSpace c = true := by
  simp only [isLineBreak, Bool.or_eq_true, List.contains_eq_mem, decide_eq_true_eq, beq_iff_eq]
    at breaks
  have spaces : "\n\r\x0b\x0c\x1c\x1d\x1e".toList.all TextLines.isSpace = true := rfl
  obtain ((plain | next) | line) | paragraph := breaks
  · exact List.all_eq_true.mp spaces c plain
  · simp [TextLines.isSpace, next]
  · simp [TextLines.isSpace, line]
  · simp [TextLines.isSpace, paragraph]

theorem ofList_ne_empty {c : Char} {rest : List Char} : String.ofList (c :: rest) ≠ "" := by
  intro empty
  have lengths := congrArg (fun text => text.toList.length) empty
  simp at lengths

/-- A stash that is listed has a name. -/
theorem parseStashLine_named {text : List Char} {sha : String} {ct : ℤ} {msg : List Char}
    (parsed : parseStashLine (firstLine (TextLines.strip text)) = some (sha, ct, msg)) :
    sha ≠ "" := by
  obtain ⟨first, split, rest⟩ := Option.bind_eq_some_iff.mp parsed
  obtain ⟨second, -, rest⟩ := Option.bind_eq_some_iff.mp rest
  obtain ⟨n, -, same⟩ := Option.map_eq_some_iff.mp rest
  obtain rfl := (Prod.ext_iff.mp same).1
  cases stripped : TextLines.strip text with
  | nil =>
    rw [stripped] at split
    cases split
  | cons c others =>
    have solid := head_strip stripped
    have plain : isLineBreak c = false := by
      rw [Bool.eq_false_iff]
      intro breaks
      rw [isSpace_of_lineBreak breaks] at solid
      cases solid
    rw [stripped, firstLine, List.takeWhile_cons_of_pos (by rw [plain]; rfl), splitOnce,
      if_neg (by simpa using (not_blank solid).symm)] at split
    obtain ⟨parts, -, rfl⟩ := Option.map_eq_some_iff.mp split
    exact ofList_ne_empty

section Git
variable {repo : Repo} {workDir logDir : String} {roundNum : ℤ} {phase : Option String}

theorem triple_any {x : Git α} :
    Triple (fun _ => True) x (fun _ _ => True) (fun _ _ => True) := by
  intro _ r _ _ _
  cases r <;> trivial

/-- A stash that is answered has a name. -/
def Named (answer : Option StashRef) : Prop := ∀ ref, answer = some ref → ref.sha ≠ ""

theorem triple_recentOrphan {windowS : ℤ} : Triple (fun _ => True)
    (recentOrphanForRound repo roundNum windowS) (fun answer _ => Named answer)
    (fun _ _ => True) := by
  refine triple_bind triple_any fun r => triple_bind triple_any fun now => ?_
  refine triple_ite (fun _ => triple_pure fun _ _ _ => nofun) fun listed => ?_
  split
  · exact triple_pure fun _ _ _ => nofun
  · rename_i sha ct msg parsed
    refine triple_ite (fun _ => triple_pure fun _ _ ref same => ?_) fun _ =>
      triple_pure fun _ _ _ => nofun
    obtain rfl := Option.some.inj same
    exact parseStashLine_named parsed

theorem triple_stashOrphan {idempotencyS : ℤ} : Triple (fun _ => True)
    (stashOrphan repo workDir logDir roundNum phase idempotencyS) (fun answer _ => Named answer)
    (fun _ _ => True) := by
  refine triple_bind triple_any fun dirty => ?_
  refine triple_ite (fun _ => triple_pure fun _ _ _ => nofun) fun _ => ?_
  refine triple_bind triple_recentOrphan fun recent => ?_
  cases recent with
  | some existing =>
    refine triple_pure fun _ named ref same => ?_
    obtain rfl := Option.some.inj same
    exact named existing rfl
  | none =>
    refine triple_pre (?_ : Triple (fun _ => True) _ _ _) fun _ _ => trivial
    refine triple_bind triple_any fun ts => triple_bind triple_any fun exclude => ?_
    refine triple_bind triple_any fun _ => triple_bind triple_any fun listing => ?_
    refine triple_ite (fun _ => triple_pure fun _ _ _ => nofun) fun found => ?_
    refine triple_pure fun _ _ ref same => ?_
    obtain rfl := Option.some.inj same
    cases stripped : TextLines.strip listing.stdout.toList with
    | nil => exact absurd (.inr (.inl stripped)) found
    | cons c rest =>
      have inked : decide (c ≠ ' ') = true := decide_eq_true (not_blank (head_strip stripped))
      change String.ofList ((c :: rest).takeWhile _) ≠ ""
      rw [List.takeWhile_cons_of_pos (p := fun x => decide (x ≠ ' ')) inked]
      exact ofList_ne_empty

theorem stashed_named {spent : List Spent} {idempotencyS : ℤ} {answer : Option StashRef}
    (answered : (outcome (stashOrphan repo workDir logDir roundNum phase idempotencyS) spent).1 =
      .ok answer) : Named answer := by
  have holds : Triple (fun _ => True)
      (stashOrphan repo workDir logDir roundNum phase idempotencyS) (fun answer _ => Named answer)
      (fun _ _ => True) := triple_stashOrphan
  have allowed := holds spent _ _ trivial (ends_outcome _ spent)
  rw [answered] at allowed
  exact allowed

end Git


theorem triple_scanForNetworkBlip {plan : Plan} {result : RunResult} {durationS : PyFloat}
    (alive : s ≠ .gone) : Triple (At dir s) (scanForNetworkBlip world plan result durationS)
      (fun _ => At dir s) (Stuck dir s) := by
  refine triple_ite (fun _ => ?_) fun _ => triple_pure fun _ => id
  refine triple_bind (triple_look alive) fun found => ?_
  cases found with
  | none => exact triple_pure fun _ => id
  | some found => exact triple_emit rfl alive

theorem except_bind {ε β : Type} {x : Except ε α} {f : α → Except ε β} {b : β}
    (ended : (x >>= f) = .ok b) : ∃ a, x = .ok a ∧ f a = .ok b := by
  cases x with
  | ok a => exact ⟨a, rfl, ended⟩
  | error e => cases ended

theorem except_mapError {ε δ : Type} {x : Except ε α} {f : ε → δ} {a : α}
    (ended : x.mapError f = .ok a) : x = .ok a := by
  cases x with
  | ok b => exact congrArg Except.ok (Except.ok.inj ended)
  | error e => cases ended

section Tree
variable {plan : Plan} {result : RunResult} {durationS : PyFloat} {dirty : List String}

theorem triple_resolveStash (unclean : dirty ≠ []) (well : Well result) :
    Triple (At dir (.looked plan result durationS dirty)) (resolveStash world cfg plan dirty)
      (fun _ => At dir (.looked plan result durationS dirty))
      (Stuck dir (.looked plan result durationS dirty)) := by
  have names : ∀ steps answer, (do
      world.interrupts steps
      (outcome (stashOrphan (world.repo steps) cfg.runtime.workDir cfg.runtime.logDir plan.roundNum
        plan.phase cfg.vcs.stashIdempotencyS) []).1.mapError Raised.git) = .ok answer →
      Named answer := by
    intro steps answer answered
    obtain ⟨_, -, asked⟩ := except_bind answered
    obtain found := except_mapError asked
    exact stashed_named found
  refine triple_bind (triple_tried (triple_act_knowing (t := fun _ => .looked plan result durationS
    dirty) names nofun fun _ => .idles rfl nofun)) fun answer => ?_
  obtain e | stashed := answer
  · refine triple_pre (triple_bind (triple_emit rfl nofun) fun _ => triple_pure fun _ => id) ?_
    exact fun steps caught => caught.1.1
  · refine triple_fact (fun steps known => known.1) fun named => triple_pre ?_ fun _ => And.right
    cases stashed with
    | none => exact triple_pure fun _ => id
    | some ref =>
      refine triple_bind (triple_reading nofun) fun timestamp => ?_
      have truthy : (Json.str ref.sha).truthy = true := bne_iff_ne.mpr (named ref rfl)
      refine triple_bind (triple_act (t := fun _ => .looked plan result durationS dirty) nofun
        fun _ => .stashes unclean well rfl rfl truthy) fun _ => ?_
      refine triple_bind (triple_emit ?_ nofun) fun _ => triple_pure fun _ => id
      split <;> rfl

theorem triple_resolveCommit (alive : s ≠ .gone) :
    Triple (At dir s) (resolveCommit world cfg plan dirty) (fun _ => At dir s) (Stuck dir s) := by
  refine triple_bind (triple_tried (triple_look alive)) fun answer => ?_
  obtain e | sha := answer
  · refine triple_pre (triple_bind (triple_emit rfl alive) fun _ => triple_pure fun _ => id) ?_
    exact fun steps caught => caught.1.1
  · refine triple_ite (fun _ => triple_pure fun _ => id) fun _ => ?_
    exact triple_bind (triple_emit rfl alive) fun _ => triple_pure fun _ => id

theorem triple_resolveDirtyTree (unclean : dirty ≠ []) (well : Well result) :
    Triple (At dir (.looked plan result durationS dirty)) (resolveDirtyTree world cfg plan dirty)
      (fun _ => At dir (.looked plan result durationS dirty))
      (Stuck dir (.looked plan result durationS dirty)) := by
  refine triple_ite (fun _ => triple_pure fun _ => id) fun _ => ?_
  refine triple_ite (fun _ => triple_resolveCommit nofun) fun _ => ?_
  exact triple_resolveStash unclean well

/-- The tree has been dealt with, or could not be looked at. -/
def Settled (dir : Directory) (plan : Plan) (result : RunResult) (durationS : PyFloat)
    (steps : List Step) : Prop :=
  At dir (.exited plan result durationS) steps ∨
    ∃ dirty, At dir (.looked plan result durationS dirty) steps

theorem triple_runGoalChecks (alive : s ≠ .gone) :
    Triple (At dir s) (runGoalChecks world cfg) (fun _ => At dir s) (Stuck dir s) :=
  triple_ite (fun _ => triple_look alive) fun _ => triple_pure fun _ => id

theorem triple_settleTree : Triple (At dir (.exited plan result durationS))
    (settleTree world cfg plan result durationS) (fun _ => Settled dir plan result durationS)
    (Broken dir) := by
  refine triple_inner rfl (triple_runGoalChecks nofun) fun _ => ?_
  refine triple_inner rfl (triple_scanForNetworkBlip nofun) fun _ => ?_
  refine triple_inner rfl (triple_tried (triple_act
    (t := fun dirty => .looked plan result durationS dirty) nofun fun _ => .looks)) fun answer => ?_
  obtain e | dirty := answer
  · refine triple_pre (triple_inner (s := .exited plan result durationS) rfl (triple_emit rfl nofun)
      fun _ => triple_pure fun _ => .inl) ?_
    exact fun steps caught => caught.1.1
  · have stays : ∀ (files : List String) (outcome : Option DirtyOutcome),
        Triple (At dir (.looked plan result durationS dirty))
          (pure (files, outcome) : Cmd (List String × Option DirtyOutcome))
          (fun _ => Settled dir plan result durationS) (Broken dir) :=
      fun files outcome => triple_pure fun steps there => .inr ⟨dirty, there⟩
    cases dirty with
    | nil =>
      exact triple_inner rfl (triple_act (t := fun _ => .looked plan result durationS []) nofun
        fun _ => .clears) fun _ => stays _ _
    | cons first rest =>
      refine triple_inner rfl (triple_emit rfl nofun) fun _ => ?_
      refine triple_ite (fun well => ?_) fun _ => stays _ _
      exact triple_inner rfl (triple_resolveDirtyTree (List.cons_ne_nil _ _) well) fun _ =>
        stays _ _

theorem triple_emitKill (alive : s ≠ .gone) :
    Triple (At dir s) (emitKill world cfg plan result) (fun _ => At dir s) (Stuck dir s) := by
  refine triple_ite (fun _ => triple_emit rfl alive) fun _ => ?_
  exact triple_ite (fun _ => triple_emit rfl alive) fun _ => triple_pure fun _ => id

theorem triple_saveAndEnd (inside : s.inside = true)
    (saves : ∀ completedAt, Moves s (.statusWritten (statusOf plan completedAt result durationS))
      (.saved plan result)) :
    Triple (At dir s) (closeRound world cfg plan result durationS)
      (fun _ => At dir (.closed plan result)) (Broken dir) := by
  have alive := alive_of_inside inside
  refine triple_inner inside (triple_emitKill alive) fun _ => ?_
  refine triple_inner inside (triple_reading alive) fun completedAt => ?_
  refine triple_inner inside (triple_act (t := fun _ => .saved plan result) alive
    fun _ => saves completedAt) fun _ => ?_
  refine triple_inner rfl (triple_look nofun) fun _ => ?_
  refine triple_inner rfl (triple_act (t := fun _ => .closed plan result) nofun
    fun _ => .ends) fun _ => ?_
  exact triple_pure fun _ => id

theorem triple_closeRound : Triple (Settled dir plan result durationS)
    (closeRound world cfg plan result durationS) (fun _ => At dir (.closed plan result))
    (Broken dir) := by
  intro steps r after settled ended
  obtain there | ⟨dirty, there⟩ := settled
  · exact triple_saveAndEnd rfl .saves steps r after there ended
  · exact triple_saveAndEnd rfl .savesSeen steps r after there ended

end Tree

theorem triple_runPostRoundHooks {ctx : HookContext} {result : RoundResult} (alive : s ≠ .gone)
    (hooks : List String) : Triple (At dir s) (runPostRoundHooks world ctx result hooks)
      (fun _ => At dir s) (Stuck dir s) := by
  induction hooks with
  | nil => exact triple_pure fun _ => id
  | cons hook rest ih =>
    refine triple_bind ?_ fun _ => ih
    refine triple_bind (triple_tried (triple_look alive)) fun answer => ?_
    cases answer with
    | error e => exact triple_pre (triple_emit rfl alive) fun steps caught => caught.1.1
    | ok _ => exact triple_pure fun _ => id

/-- The result of a round is that of its agent. -/
def Agrees (r : RoundResult) (result : RunResult) : Prop :=
  r.exitCode = result.exitCode ∧ r.timedOut = result.timedOut ∧
    r.killedForGrace = result.killedForGrace

theorem triple_runOneRoundInner {phaseOverride : Option String} :
    Triple (At dir .entered) (runOneRoundInner world cfg phaseOverride)
      (fun r steps => ∃ plan result, Agrees r result ∧ At dir (.closed plan result) steps)
      (Broken dir) := by
  refine triple_bind triple_readPrevious fun prev => triple_exists fun content => ?_
  refine triple_fact (fun _ => And.left) fun same => triple_pre ?_ fun _ => And.right
  subst same
  refine triple_bind triple_choosePlan fun plan => ?_
  refine triple_bind triple_handover fun context => ?_
  refine triple_inner rfl (triple_steerGoal nofun) fun _ => ?_
  refine triple_bind triple_announceStart fun _ => ?_
  refine triple_bind triple_runAgent fun ran => ?_
  refine triple_bind triple_settleTree fun settled => ?_
  refine triple_bind triple_closeRound fun endedAt => ?_
  refine triple_inner rfl (triple_runPostRoundHooks (s := .closed plan ran.1) nofun _) fun _ => ?_
  exact triple_pure fun steps there => ⟨plan, ran.1, ⟨rfl, rfl, rfl⟩, there⟩

/-! ## Around the round -/

theorem triple_reportFailures (failures : List PromptAssembly.CheckResult) (alive : s ≠ .gone) :
    Triple (At dir s) (reportFailures world failures) (fun _ => At dir s) (Stuck dir s) := by
  induction failures with
  | nil => exact triple_pure fun _ => id
  | cons r rest ih =>
    refine triple_bind (triple_tried (triple_emit rfl alive)) fun answer => triple_pre ih ?_
    cases answer with
    | ok _ => exact fun steps there => there
    | error e => exact fun steps caught => caught.1.1

/-- What a stage says of the steps that led there. -/
def Recalls : Stage → List Step → Prop
  | .failing failures, steps => .checked failures ∈ steps ∧ failures ≠ []
  | .refused, steps => .refused ∈ steps
  | _, _ => True

theorem Recalls.later (recalled : Recalls s steps) (step : Step) : Recalls s (steps ++ [step]) := by
  cases s with
  | failing failures => exact ⟨List.mem_append_left _ recalled.1, recalled.2⟩
  | refused => exact List.mem_append_left _ recalled
  | _ => trivial

theorem recalls (there : At dir s steps) : Recalls s steps := by
  induction there with
  | start => trivial
  | step there moved recalled =>
    cases moved with
    | idles => exact recalled.later _
    | fails some => exact ⟨List.mem_append_right _ List.mem_cons_self, some⟩
    | refuses => exact List.mem_append_right _ List.mem_cons_self
    | _ => trivial

theorem triple_acquireLockOrRaise : Triple (At dir .outside) (acquireLockOrRaise world)
    (fun _ => At dir .entered) (Lost dir) := by
  refine triple_seq stuck_lost (triple_look nofun) fun _ => ?_
  refine triple_seq stuck_lost (triple_look nofun) fun _ => ?_
  refine triple_seq stuck_lost (triple_act (t := fun held => if held then .held else .refused)
    nofun fun held => ?_) fun held => ?_
  · cases held
    · exact .refuses
    · exact .locks
  · cases held with
    | true =>
      exact triple_conseq (triple_act (s := .held) (t := fun _ => .entered) nofun fun _ => .enters)
        (fun _ => id) (fun _ _ => id) stuck_lost
    | false =>
      refine triple_seq stuck_lost (triple_look (s := .refused) nofun) fun _ => ?_
      exact triple_raise fun steps there =>
        ⟨.refused, there, .inr (.inr (.inl ⟨rfl, recalls there⟩))⟩

/-- A step is only ever added. -/
theorem triple_act_grows {answer : List Step → Except Raised α} {step : α → Step}
    {kept : List Step → Prop} (grows : ∀ steps step, kept steps → kept (steps ++ [step])) :
    Triple kept (act answer step) (fun _ => kept) (fun _ => kept) := by
  refine triple_perform fun steps there => ?_
  cases answered : answer steps with
  | ok a => exact grows steps _ there
  | error e => exact grows steps _ there

/-- From anywhere inside, the lock is let go; what has been raised is still told. -/
theorem triple_releaseLock {kept : List Step → Prop} (inside : s.inside = true)
    (grows : ∀ steps step, kept steps → kept (steps ++ [step])) :
    Triple (fun steps => At dir s steps ∧ kept steps) (releaseLock world)
      (fun _ steps => At dir (.finished s.ended) steps ∧ kept steps)
      (fun e steps => Lost dir e steps ∧ kept steps) := by
  refine triple_and ?_ (triple_bind (triple_act_grows grows) fun _ => triple_act_grows grows)
  refine triple_seq stuck_lost (triple_act (t := fun _ => .cleaning s.ended)
    (alive_of_inside inside) fun _ => .cleans inside) fun _ => ?_
  exact triple_conseq (triple_act (s := .cleaning s.ended) (t := fun _ => .finished s.ended) nofun
    fun _ => .unlocks) (fun _ => id) (fun _ _ => id) stuck_lost

theorem triple_runOneRound {phaseOverride : Option String} :
    Triple (At dir .outside) (runOneRound world cfg phaseOverride)
      (fun r steps => ∃ plan result, Agrees r result ∧
        At dir (.finished (some (plan, result))) steps) (Lost dir) := by
  refine triple_seq stuck_lost (triple_look nofun) fun _ => ?_
  refine triple_seq stuck_lost (triple_act
    (t := fun failures => if failures = [] then .outside else .failing failures) nofun
    fun failures => ?_) fun failures => ?_
  · split
    · rename_i none
      exact none ▸ .passes
    · exact .fails ‹_›
  refine triple_ite (fun some => ?_) fun none => ?_
  · have failed : failures ≠ [] := by simpa using some
    rw [if_neg failed]
    refine triple_seq stuck_lost (triple_reportFailures failures nofun) fun _ => ?_
    exact triple_raise fun steps there =>
      ⟨_, there, .inr (.inr (.inr ⟨failures, (recalls there).1, failed, rfl⟩))⟩
  · have passed : failures = [] := by simpa using none
    rw [if_pos passed]
    refine triple_bind triple_acquireLockOrRaise fun _ => ?_
    refine triple_seq stuck_lost (triple_look (s := .entered) nofun) fun _ => ?_
    refine triple_ensure triple_runOneRoundInner
      (fun e steps broken _ => broken_lost e steps broken)
      (fun r => triple_exists fun plan => triple_exists fun result => ?_) fun e _ => ?_
    · refine triple_fact (fun _ => And.left) fun agrees => ?_
      have released : Triple (fun steps => At dir (.closed plan result) steps ∧ True)
          (releaseLock world) (fun _ steps => At dir (.finished (some (plan, result))) steps ∧ True)
          (fun e steps => Lost dir e steps ∧ True) := triple_releaseLock rfl fun _ _ => id
      refine triple_conseq released (fun steps there => ⟨there.2, trivial⟩) ?_ fun _ _ => And.left
      exact fun _ steps there => ⟨plan, result, agrees, there.1⟩
    · refine triple_exists fun s => triple_fact (fun _ => And.left) fun inside => ?_
      refine triple_conseq (triple_releaseLock inside fun _ step sourced => sourced.later step)
        (fun steps there => there.2) ?_ fun _ _ => And.left
      exact fun _ steps there => ⟨_, there⟩

/-! ## The process -/

theorem triple_cfgFromArgsOrConfigError : Triple (At dir .outside)
    (cfgFromArgsOrConfigError world) (fun _ => At dir .outside) (Stuck dir .outside) := by
  refine triple_bind (triple_tried (triple_look nofun)) fun answer => ?_
  cases answer with
  | error e => exact triple_raise fun steps caught => ⟨caught.1.1, .inr (.inl rfl)⟩
  | ok cfg => exact triple_pure fun _ => id

/-- How `round_cmd.cmd` comes to its answer. -/
def Answered (dir : Directory) (code : Int) (steps : List Step) : Prop :=
  (∃ r plan result, Agrees r result ∧ At dir (.finished (some (plan, result))) steps ∧
    code = if crashed r then 1 else 0) ∨
  ∃ e, (e.isConfigError || e.endsRound) = true ∧ Lost dir e steps ∧ code = classifyRoundExit e

/-- An exception that nothing in `round_cmd.cmd` catches. -/
def Uncaught (dir : Directory) (e : Raised) (steps : List Step) : Prop :=
  Stuck dir .outside e steps ∨ Lost dir e steps ∧ e.endsRound = false

theorem stuck_uncaught (e : Raised) (steps : List Step) (stuck : Stuck dir .outside e steps) :
    Uncaught dir e steps := .inl stuck

theorem Uncaught.lost (uncaught : Uncaught dir e steps) : Lost dir e steps :=
  uncaught.elim (stuck_lost e steps) And.left

theorem triple_cmd {phaseOverride : Option String} :
    Triple (At dir .outside) (cmd world phaseOverride) (Answered dir) (Uncaught dir) := by
  refine triple_seq stuck_uncaught (triple_look nofun) fun _ => ?_
  refine triple_seq stuck_uncaught (triple_tried triple_cfgFromArgsOrConfigError) fun answer => ?_
  cases answer with
  | error e =>
    refine triple_pure fun steps caught => .inr ⟨e, ?_, ⟨_, caught.1⟩, rfl⟩
    rw [caught.2, Bool.true_or]
  | ok cfg =>
    refine triple_seq (fun e steps lost => .inr lost) (triple_attempt triple_runOneRound)
      fun ended => ?_
    cases ended with
    | error e =>
      refine triple_pure fun steps caught => .inr ⟨e, ?_, caught.1, rfl⟩
      rw [caught.2, Bool.or_true]
    | ok r =>
      refine triple_pure fun steps done => ?_
      obtain ⟨plan, result, agrees, there⟩ := done
      exact .inl ⟨r, plan, result, agrees, there, rfl⟩

theorem triple_main {phaseOverride : Option String} :
    Triple (At dir .outside) (main world phaseOverride) (Answered dir)
      (fun e steps => Uncaught dir e steps ∧ e.endsCommand = false) := by
  refine triple_seq (fun e steps uncaught => uncaught) (triple_attempt triple_cmd) fun answer => ?_
  cases answer with
  | ok code => exact triple_pure fun steps => id
  | error e =>
    refine triple_pure fun steps caught => .inr ⟨e, ?_, caught.1.lost, rfl⟩
    obtain ⟨-, ends⟩ := caught
    cases e <;> first | rfl | exact absurd ends Bool.false_ne_true

/-- **A round process goes through the stages**, wherever it ends. -/
theorem history_reaches (dir : Directory) (world : World) (phaseOverride : Option String) :
    ∃ s, At dir s (history world phaseOverride) := by
  have holds : Triple (At dir .outside) (main world phaseOverride) (Answered dir)
      (fun e steps => Uncaught dir e steps ∧ e.endsCommand = false) := triple_main
  have allowed := holds [] _ _ .start (ends_outcome _ _)
  rw [history]
  revert allowed
  cases (outcome (main world phaseOverride) []).1 with
  | ok code =>
    rintro (⟨_, plan, result, -, there, -⟩ | ⟨e, -, ⟨s, there, -⟩, -⟩)
    · exact ⟨_, there⟩
    · exact ⟨s, there⟩
  | error e =>
    rintro ⟨uncaught, -⟩
    obtain ⟨s, there, -⟩ := uncaught.lost
    exact ⟨s, there⟩

end

end AgentRunner.RoundStages
