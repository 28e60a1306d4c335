import AgentRunner.RoundStages

/-! What holds of a log directory that any number of round processes share, however they are
interleaved, interrupted, cut by an exception or killed: they are kept apart by the lock, the
log has the rounds one after the other, a round ends in the log only behind its own status,
and what one round leaves is what the next one is told. -/
namespace AgentRunner.RoundLaw
open Effects Interleaving PyValue ConfigDigest ContextStore AgentRun DirtyTree RoundRun RoundStages

variable {P : Type} [DecidableEq P] {p q : P} {dir : Directory}
  {trace before after : List (P × Step)} {s t : Stage} {a : Step} {steps : List Step}

/-- Round processes on one log directory, each with a world and a configuration of its own:
which may be killed at any step; `fcntl.flock` gives the lock to one at a time, and takes it
back from a process that is gone; a file is read as it was last replaced. -/
structure Timeline (dir : Directory) (trace : List (P × Step)) : Prop where
  free : ∀ before p after, trace = before ++ (p, .locked) :: after →
    holder (protocol dir) before = none
  found : ∀ before x after, trace = before ++ x :: after → dir.admits (past before) x.2
  ran : ∀ p, ∃ world phaseOverride done, done <+: history world phaseOverride ∧
    own p trace <+: done ++ [.gone]

theorem Timeline.lawful (timeline : Timeline dir trace) : Lawful (protocol dir) trace where
  free := by
    rintro before ⟨p, a⟩ after split takes
    cases a with
    | locked => exact timeline.free before p after split
    | _ => cases takes
  found := timeline.found
  followed := fun p => by
    obtain ⟨world, phaseOverride, done, ⟨undone, whole⟩, rest, did⟩ := timeline.ran p
    obtain ⟨s, there⟩ := history_reaches dir world phaseOverride
    rw [← whole] at there
    obtain ⟨t, killed⟩ := reaches_early there
    have ended : At dir .gone (own p trace ++ rest) := did ▸ at_step killed .dies
    exact reaches_early ended

/-! ## The log -/

def markIn : Step → Option Mark
  | .emitted emission => markOf emission
  | _ => none

/-- The marks in the log. -/
def marks (steps : List Step) : List Mark := steps.filterMap markIn

/-- The marks of a whole round. -/
def wholeTrail (roundNum exitCode : Int) : List Mark :=
  [.start roundNum, .spawn roundNum, .exit roundNum exitCode, .finish roundNum]

/-- Rounds one after the other, any of them cut. -/
def Trails (log : List Mark) : Prop :=
  ∃ rounds : List (List Mark), log = rounds.flatten ∧
    ∀ trail ∈ rounds, ∃ roundNum exitCode, trail <+: wholeTrail roundNum exitCode

/-- The marks a round has left so far. -/
def trailOf : Stage → List Mark
  | .started plan => [.start plan.roundNum]
  | .spawning plan | .running plan | .ran plan _ _ => [.start plan.roundNum, .spawn plan.roundNum]
  | .exited plan result _ | .looked plan result _ _ | .saved plan result =>
    [.start plan.roundNum, .spawn plan.roundNum, .exit plan.roundNum result.exitCode]
  | .closed plan result => wholeTrail plan.roundNum result.exitCode
  | _ => []

theorem trailOf_begins (s : Stage) :
    ∃ roundNum exitCode, trailOf s <+: wholeTrail roundNum exitCode := by
  cases s with
  | started plan => exact ⟨plan.roundNum, 0, _, rfl⟩
  | spawning plan | running plan | ran plan => exact ⟨plan.roundNum, 0, _, rfl⟩
  | exited plan result | looked plan result | saved plan result =>
    exact ⟨plan.roundNum, result.exitCode, _, rfl⟩
  | closed plan result => exact ⟨plan.roundNum, result.exitCode, List.prefix_rfl⟩
  | _ => exact ⟨0, 0, List.nil_prefix⟩

theorem trails_nil : Trails [] := ⟨[], rfl, nofun⟩

theorem Trails.snoc {done : List Mark} (trails : Trails done) (s : Stage) :
    Trails (done ++ trailOf s) := by
  obtain ⟨rounds, rfl, each⟩ := trails
  refine ⟨rounds ++ [trailOf s], by simp, fun trail member => ?_⟩
  obtain early | last := List.mem_append.mp member
  · exact each trail early
  · obtain rfl := List.mem_singleton.mp last
    exact trailOf_begins s

/-! ## The files -/

/-- The newest stash that was recorded. -/
def newestStep (newest : Option OrphanState) : Step → Option OrphanState
  | .orphanWritten orphan => some orphan
  | _ => newest

def newest (steps : List Step) : Option OrphanState := steps.foldl newestStep none

/-- The newest stash, unless a tree was found clean since. -/
def carriedStep (carried : Option OrphanState) : Step → Option OrphanState
  | .orphanWritten orphan => some orphan
  | .treeFound [] => none
  | _ => carried

def carried (steps : List Step) : Option OrphanState := steps.foldl carriedStep none

/-- The newest status that was written. -/
def latestStep (latest : Option Status) : Step → Option Status
  | .statusWritten status => some status
  | _ => latest

def latest (steps : List Step) : Option Status := steps.foldl latestStep none

/-- A step that changes neither the log nor the files, nor what is known of the tree. -/
def inert : Step → Bool
  | .emitted emission => (markOf emission).isNone
  | .treeFound [] | .orphanWritten _ | .orphanCleared | .statusWritten _ => false
  | _ => true

section Inert
variable (still : inert a = true)
include still

theorem markIn_inert : markIn a = none := by
  cases a with
  | emitted emission => exact Option.isNone_iff_eq_none.mp still
  | _ => rfl

theorem step_inert (dir : Directory) : dir.step a = dir := by
  cases a <;> first | rfl | cases still

theorem newestStep_inert (held : Option OrphanState) : newestStep held a = held := by
  cases a <;> first | rfl | cases still

theorem carriedStep_inert (held : Option OrphanState) : carriedStep held a = held := by
  cases a with
  | treeFound dirty =>
    cases dirty with
    | nil => cases still
    | cons first rest => rfl
  | _ => first | rfl | cases still

theorem latestStep_inert (held : Option Status) : latestStep held a = held := by
  cases a <;> first | rfl | cases still

end Inert

@[simp] theorem marks_concat : marks (steps ++ [a]) = marks steps ++ (markIn a).toList := by
  rw [marks, List.filterMap_append]
  cases found : markIn a <;> simp [found, marks]

@[simp] theorem behind_concat : dir.behind (steps ++ [a]) = (dir.behind steps).step a :=
  List.foldl_concat ..

@[simp] theorem newest_concat : newest (steps ++ [a]) = newestStep (newest steps) a :=
  List.foldl_concat ..

@[simp] theorem carried_concat : carried (steps ++ [a]) = carriedStep (carried steps) a :=
  List.foldl_concat ..

@[simp] theorem latest_concat : latest (steps ++ [a]) = latestStep (latest steps) a :=
  List.foldl_concat ..

/-- The block of the context that a stash is handed on in. -/
def stashBlock (orphan : OrphanState) : Event :=
  [("ref", orphan.stashedRef), ("message", orphan.stashMessage), ("files", orphan.files)]

theorem orphanBlock_asdict {orphan : OrphanState} (named : orphan.stashedRef.truthy = true) :
    orphanBlock (readOrphanState (.obj orphan.asdict)) = some (stashBlock orphan) := by
  rw [readOrphanState_asdict, orphanBlock, if_pos named, stashBlock]

/-- A status as a round writes it. -/
def Written (status : Status) : Prop :=
  ∃ plan completedAt result durationS, status = statusOf plan completedAt result durationS

/-- What the files hold, against what was done to them. -/
structure Handed (dir : Directory) (steps : List Step) : Prop where
  pending : ∀ orphan, carried steps = some orphan →
    (dir.behind steps).orphan = .obj orphan.asdict
  named : ∀ orphan, newest steps = some orphan → orphan.stashedRef.truthy = true
  orphan : (dir.behind steps).orphan = .null ∨
    (newest steps = none ∧ (dir.behind steps).orphan = dir.orphan) ∨
    ∃ orphan, newest steps = some orphan ∧ (dir.behind steps).orphan = .obj orphan.asdict
  recent : ∀ orphan, carried steps = some orphan → newest steps = some orphan
  status : ∀ status, latest steps = some status →
    Written status ∧ (dir.behind steps).status = .obj status.payload

theorem handed_nil : Handed dir [] :=
  ⟨nofun, nofun, .inr (.inl ⟨rfl, rfl⟩), nofun, nofun⟩

/-- A step that no file knows of. -/
theorem Handed.kept (handed : Handed dir steps)
    (files : (dir.behind steps).step a = dir.behind steps)
    (stash : newestStep (newest steps) a = newest steps)
    (carry : carriedStep (carried steps) a = carried steps)
    (status : latestStep (latest steps) a = latest steps) : Handed dir (steps ++ [a]) := by
  constructor <;>
    simp only [behind_concat, newest_concat, carried_concat, latest_concat, files, stash, carry,
      status]
  · exact handed.pending
  · exact handed.named
  · exact handed.orphan
  · exact handed.recent
  · exact handed.status

theorem Handed.still (handed : Handed dir steps) (still : inert a = true) :
    Handed dir (steps ++ [a]) :=
  handed.kept (step_inert still _) (newestStep_inert still _) (carriedStep_inert still _)
    (latestStep_inert still _)

theorem Handed.stashed (handed : Handed dir steps) {orphan : OrphanState}
    (named : orphan.stashedRef.truthy = true) :
    Handed dir (steps ++ [.orphanWritten orphan]) := by
  constructor <;> simp only [behind_concat, newest_concat, carried_concat, latest_concat]
  · rintro _ ⟨⟩
    rfl
  · rintro _ ⟨⟩
    exact named
  · exact .inr (.inr ⟨orphan, rfl, rfl⟩)
  · rintro _ ⟨⟩
    rfl
  · exact handed.status

theorem Handed.cleared (handed : Handed dir steps) (clean : carried steps = none) :
    Handed dir (steps ++ [.orphanCleared]) := by
  constructor <;> simp only [behind_concat, newest_concat, carried_concat, latest_concat]
  · intro orphan held
    change carried steps = some orphan at held
    rw [clean] at held
    cases held
  · exact handed.named
  · exact .inl rfl
  · exact handed.recent
  · exact handed.status

theorem Handed.foundClean (handed : Handed dir steps) : Handed dir (steps ++ [.treeFound []]) := by
  constructor <;> simp only [behind_concat, newest_concat, carried_concat, latest_concat]
  · exact nofun
  · exact handed.named
  · exact handed.orphan
  · exact nofun
  · exact handed.status

theorem Handed.saved (handed : Handed dir steps) {status : Status} (written : Written status) :
    Handed dir (steps ++ [.statusWritten status]) := by
  constructor <;> simp only [behind_concat, newest_concat, carried_concat, latest_concat]
  · exact handed.pending
  · exact handed.named
  · exact handed.orphan
  · exact handed.recent
  · rintro _ ⟨⟩
    exact ⟨written, rfl⟩

/-! ## What the holder of the lock knows -/

/-- What it knows of the files. -/
def Knows : Stage → Directory → Prop
  | .informed status, dir => dir.status = status
  | .handed status orphan, dir => dir.status = status ∧ dir.orphan = orphan
  | .saved plan result, dir => ∃ completedAt durationS,
    dir.status = .obj (statusOf plan completedAt result durationS).payload
  | _, _ => True

/-- It has found the tree clean. -/
def foundClean : Stage → Bool
  | .looked _ _ _ [] => true
  | _ => false

structure Busy (dir : Directory) (s : Stage) (steps : List Step) : Prop where
  trail : ∃ done, Trails done ∧ marks steps = done ++ trailOf s
  knows : Knows s (dir.behind steps)
  clean : foundClean s = true → carried steps = none
  handed : Handed dir steps

/-- What is left when the lock is let go. -/
def Idle (dir : Directory) (steps : List Step) : Prop := Trails (marks steps) ∧ Handed dir steps

theorem Idle.still (idle : Idle dir steps) (still : inert a = true) : Idle dir (steps ++ [a]) := by
  refine ⟨?_, idle.2.still still⟩
  rw [marks_concat, markIn_inert still, Option.toList_none, List.append_nil]
  exact idle.1

theorem Busy.still (busy : Busy dir s steps) (still : inert a = true) :
    Busy dir s (steps ++ [a]) := by
  refine ⟨?_, ?_, fun clean => ?_, busy.handed.still still⟩
  · rw [marks_concat, markIn_inert still, Option.toList_none, List.append_nil]
    exact busy.trail
  · rw [behind_concat, step_inert still]
    exact busy.knows
  · rw [carried_concat, carriedStep_inert still]
    exact busy.clean clean

theorem Busy.trails (busy : Busy dir s steps) : Trails (marks steps) := by
  obtain ⟨done, trails, same⟩ := busy.trail
  exact same ▸ trails.snoc s

theorem Busy.idle (busy : Busy dir s steps) : Idle dir steps := ⟨busy.trails, busy.handed⟩

/-- Another stage that knows no more. -/
theorem Busy.moves (busy : Busy dir s steps) (trail : trailOf t = trailOf s)
    (clean : foundClean t = false) (knows : Knows t (dir.behind steps)) : Busy dir t steps :=
  ⟨trail ▸ busy.trail, knows, fun still => absurd still (Bool.eq_false_iff.mp clean),
    busy.handed⟩

/-- The holder leaves one more mark. -/
theorem Busy.marked {mark : Mark} {emission : Emission} (busy : Busy dir s steps)
    (marked : markOf emission = some mark) (trail : trailOf t = trailOf s ++ [mark])
    (clean : foundClean t = false) (knows : Knows t (dir.behind steps)) :
    Busy dir t (steps ++ [.emitted emission]) := by
  obtain ⟨done, trails, same⟩ := busy.trail
  refine ⟨⟨done, trails, ?_⟩, ?_, fun still => ?_, busy.handed.kept rfl rfl rfl rfl⟩
  · rw [marks_concat, same, trail, markIn, marked, List.append_assoc]
    rfl
  · rw [behind_concat]
    exact knows
  · rw [clean] at still
    cases still

theorem inert_of_quiet (silent : quiet a = true) : inert a = true := by
  cases a <;> first | rfl | exact silent | cases silent

/-- A step on the files, which leaves no mark. -/
theorem Busy.filed (busy : Busy dir s steps) (unmarked : markIn a = none)
    (trail : trailOf t = trailOf s)
    (clean : foundClean t = true → carried (steps ++ [a]) = none)
    (knows : Knows t (dir.behind (steps ++ [a]))) (handed : Handed dir (steps ++ [a])) :
    Busy dir t (steps ++ [a]) := by
  refine ⟨?_, knows, clean, handed⟩
  rw [marks_concat, unmarked, Option.toList_none, List.append_nil, trail]
  exact busy.trail

/-- Who comes to the lock, or lets it go, has left no mark of a round under way. -/
theorem Idle.busy (idle : Idle dir steps) (trail : trailOf t = []) (clean : foundClean t = false)
    (knows : Knows t (dir.behind steps)) : Busy dir t steps :=
  ⟨⟨marks steps, idle.1, by rw [trail, List.append_nil]⟩, knows,
    fun still => absurd still (Bool.eq_false_iff.mp clean), idle.2⟩

/-! ## The discipline of the lock -/

theorem busy_works (moved : Moves s a t) (holds : s.holds = true) (still : t.holds = true)
    (admitted : dir.admits steps a) (busy : Busy dir s steps) : Busy dir t (steps ++ [a]) := by
  cases moved with
  | idles silent => exact busy.still (inert_of_quiet silent)
  | passes | fails | refuses | locks => cases holds
  | unlocks | dies => cases still
  | enters | tells | launches | returns => exact (busy.still rfl).moves rfl rfl trivial
  | informs => exact (busy.still rfl).moves rfl rfl (by rw [behind_concat]; exact admitted.symm)
  | hands =>
    refine (busy.still rfl).moves rfl rfl ?_
    rw [behind_concat]
    exact ⟨busy.knows, admitted.symm⟩
  | starts | spawns | exits | ends => exact busy.marked rfl rfl rfl trivial
  | @looks _ _ _ dirty =>
    cases dirty with
    | nil => exact busy.filed rfl rfl (fun _ => carried_concat) trivial busy.handed.foundClean
    | cons first rest => exact (busy.still rfl).moves rfl rfl trivial
  | @stashes _ _ _ dirty _ unclean _ _ _ named =>
    refine busy.filed rfl rfl (fun clean => ?_) trivial (busy.handed.stashed named)
    cases dirty with
    | nil => exact absurd rfl unclean
    | cons first rest => cases clean
  | clears =>
    have clean := busy.clean rfl
    refine busy.filed rfl rfl (fun _ => ?_) trivial (busy.handed.cleared clean)
    rw [carried_concat]
    exact clean
  | saves completedAt | savesSeen completedAt =>
    refine busy.filed rfl rfl nofun ?_ (busy.handed.saved ⟨_, completedAt, _, _, rfl⟩)
    rw [behind_concat]
    exact ⟨completedAt, _, rfl⟩
  | cleans => exact (busy.idle.still rfl).busy rfl rfl trivial

theorem busy_leaves (moved : Moves s a t) (holds : s.holds = true) (free : t.holds = false)
    (busy : Busy dir s steps) : Idle dir (steps ++ [a]) := by
  cases moved with
  | unlocks | dies => exact busy.idle.still rfl
  | idles => exact absurd holds (Bool.eq_false_iff.mp free)
  | passes | fails | refuses => cases holds
  | _ => cases free

theorem holds_of_inside (inside : s.inside = true) : s.holds = true := by
  cases s <;> first | rfl | cases inside

/-- A silent step neither takes the lock nor lets it go. -/
theorem quiet_lock (silent : quiet a = true) :
    (protocol dir).takes a = false ∧ (protocol dir).drops a = false := by
  cases a <;> first | exact ⟨rfl, rfl⟩ | cases silent

/-- A process apart from the lock does nothing to the log or to the files. -/
theorem inert_of_apart (moved : Moves s a t) (apart : s.holds = false)
    (takes : (protocol dir).takes a = false) : inert a = true := by
  cases moved with
  | idles silent => exact inert_of_quiet silent
  | passes | fails | refuses | dies => rfl
  | locks => cases takes
  | cleans inside => exact absurd (holds_of_inside inside) (Bool.eq_false_iff.mp apart)
  | _ => cases apart

/-- The rounds keep the discipline of the lock. -/
theorem discipline (dir : Directory) : Discipline (protocol dir) (Idle dir) (Busy dir) where
  unheld := rfl
  fresh := ⟨trails_nil, handed_nil⟩
  taken := fun s a t (moved : Moves s a t) takes => by
    cases moved with
    | locks => exact ⟨rfl, rfl⟩
    | idles silent => exact absurd takes (Bool.eq_false_iff.mp (quiet_lock silent).1)
    | _ => cases takes
  dropped := fun s a t (moved : Moves s a t) drops => by
    cases moved with
    | unlocks | dies => rfl
    | idles silent => exact absurd drops (Bool.eq_false_iff.mp (quiet_lock silent).2)
    | _ => cases drops
  stays := fun s a t (moved : Moves s a t) takes drops => by
    cases moved with
    | cleans inside => exact (holds_of_inside inside).symm
    | locks => cases takes
    | unlocks | dies => cases drops
    | _ => rfl
  enters := fun s a t steps (moved : Moves s a t) takes idle => by
    cases moved with
    | locks => exact (idle.still rfl).busy rfl rfl trivial
    | idles silent => exact absurd takes (Bool.eq_false_iff.mp (quiet_lock silent).1)
    | _ => cases takes
  works := fun _ _ _ _ moved holds still admitted busy => busy_works moved holds still admitted busy
  leaves := fun _ _ _ _ moved holds free busy => busy_leaves moved holds free busy
  bystands := fun _ _ _ _ moved apart takes =>
    have still := inert_of_apart moved apart takes
    ⟨fun idle => idle.still still, fun _ busy => busy.still still⟩

/-! ## A stash handed over -/

/-- A tree with one changed file, and a stash of it on top. -/
def stashedRepo : Repo where
  git _ argv _ :=
    (⟨0, if "status" ∈ argv then " M a\x00" else "c0ffee 0 ORPHAN R1", "", false⟩, 0)
  epoch _ := 0
  timestamp _ := ""
  relativeTo _ _ := none

/-- Where every call returns and the agent ends well. -/
def calm (status orphan : Json) : RoundRun.World where
  interpreter := JsonText.wordsOnly
  validators := LoadConfig.plainEnv
  environ := Dict.empty
  escape := true
  sha256 _ := ""
  signalNames _ := none
  hooks := []
  summarizeError _ := []
  interrupts _ := .ok ()
  loadConfig _ := .ok promptOnly
  mkdir _ := .ok ()
  checks _ := ⟨fun _ => "", fun _ => true, fun _ => PromptAssembly.passed "",
    fun _ => PromptAssembly.passed "", fun _ => PromptAssembly.passed "", []⟩
  files _ _ := .ok []
  openLock _ := .ok ()
  flock _ := .ok true
  formatHolderMsg _ := .ok ()
  writeSidecar _ := .ok ()
  unlinkSidecar _ := .ok ()
  closeLock _ := .ok ()
  readStatus _ := .ok status
  statusExists _ := .ok false
  statusText _ := none
  logs _ := Dict.empty
  now _ := "now"
  stamp _ := ""
  readOrphan _ := .ok orphan
  mkdirRounds _ := .ok ()
  agentLogs _ := []
  unlinkLogs _ _ := .ok ()
  writeContext _ _ := .ok ()
  steerGoal _ := .ok ()
  hashed _ _ := none
  events _ := []
  logMetrics _ := .ok ()
  callbacks _ _ := []
  run _ _ := .ok (⟨0, false, false⟩, .finite 1)
  goalChecks _ := .ok ()
  networkMatch _ := .ok none
  repo _ := stashedRepo
  writeOrphan _ _ := .ok ()
  clearOrphan _ := .ok ()
  writeStatus _ _ := .ok ()
  afterRound _ _ _ _ := .ok ()
  emit _ _ := .ok ()

/-- Values without containers that are the same. -/
def sameAtom : Json → Json → Bool
  | .null, .null => true
  | .bool a, .bool b => a == b
  | .int a, .int b => a == b
  | .float a, .float b => a == b
  | .str a, .str b => a == b
  | _, _ => false

/-- Values that are the same down to a depth. -/
def same : ℕ → Json → Json → Bool
  | 0, a, b => sameAtom a b
  | n + 1, .arr xs, .arr ys => xs.isEqv ys (same n)
  | n + 1, .obj xs, .obj ys => xs.isEqv ys fun x y => x.1 == y.1 && same n x.2 y.2
  | _ + 1, a, b => sameAtom a b

theorem eq_of_sameAtom {a b : Json} (alike : sameAtom a b = true) : a = b := by
  cases a <;> cases b <;> first | rfl | cases alike | exact congrArg _ (eq_of_beq alike)

theorem eq_of_isEqv {α : Type} {r : α → α → Bool} (sound : ∀ x y, r x y = true → x = y) :
    ∀ {xs ys : List α}, xs.isEqv ys r = true → xs = ys
  | [], [], _ => rfl
  | x :: xs, y :: ys, alike => by
    rw [List.isEqv, Bool.and_eq_true] at alike
    rw [sound x y alike.1, eq_of_isEqv sound alike.2]

theorem eq_of_same {n : ℕ} {a b : Json} (alike : same n a b = true) : a = b := by
  induction n generalizing a b with
  | zero => exact eq_of_sameAtom alike
  | succ n ih =>
    have fields : ∀ x y : String × Json, (x.1 == y.1 && same n x.2 y.2) = true → x = y := by
      intro x y both
      rw [Bool.and_eq_true] at both
      exact Prod.ext (eq_of_beq both.1) (ih both.2)
    cases a <;> cases b <;> first
      | exact eq_of_sameAtom alike
      | exact congrArg Json.arr (eq_of_isEqv (fun _ _ => ih) alike)
      | exact congrArg Json.obj (eq_of_isEqv fields alike)

/-- The step takes no lock that is held, and reads what is there. -/
def fits (dir : Directory) (held : Option P) : Step → Bool
  | .locked => held.isNone
  | .statusRead content => same 2 content dir.status
  | .orphanRead content => same 2 content dir.orphan
  | _ => true

/-- Every step of the trace fits. -/
def orderly : Directory → Option P → List (P × Step) → Bool
  | _, _, [] => true
  | dir, held, x :: rest =>
    fits dir held x.2 && orderly (dir.step x.2) (Interleaving.pass (protocol dir) held x) rest

theorem fits_of_orderly {x : P × Step} {held : Option P}
    (checked : orderly dir held (before ++ x :: after) = true) :
    fits (dir.behind (past before)) (before.foldl (Interleaving.pass (protocol dir)) held) x.2 =
      true := by
  induction before generalizing dir held with
  | nil => exact (Bool.and_eq_true_iff.mp checked).1
  | cons y before ih => exact ih (Bool.and_eq_true_iff.mp checked).2

theorem timeline_of_orderly (checked : orderly dir none trace = true)
    (ran : ∀ p, ∃ world phaseOverride done, done <+: history world phaseOverride ∧
      own p trace <+: done ++ [.gone]) : Timeline dir trace where
  free := by
    rintro before p after rfl
    exact Option.isNone_iff_eq_none.mp (fits_of_orderly checked)
  found := by
    rintro before ⟨p, a⟩ after rfl
    have fit := fits_of_orderly checked
    cases a with
    | statusRead content | orphanRead content => exact eq_of_same fit
    | _ => trivial
  ran := ran

/-- A log directory before its first round. -/
def nowhere : Directory := ⟨.null, .null⟩

/-- The first round, which stashes what its agent left. -/
def firstRound : List Step := history (calm .null .null) none

/-- The next round, up to where it is told. -/
def nextRound : List Step :=
  let left := nowhere.behind firstRound
  (history (calm left.status left.orphan) none).take 19

/-- Both, by a process each. -/
def bothRounds : List (Bool × Step) :=
  firstRound.map (Prod.mk false) ++ nextRound.map (Prod.mk true)

theorem bothRounds_timeline : Timeline nowhere bothRounds := by
  refine timeline_of_orderly (by decide +kernel) fun p => ?_
  cases p with
  | false =>
    refine ⟨calm .null .null, none, firstRound, by rw [firstRound], ?_⟩
    rw [bothRounds, own_append, own_map, own_map_other (by decide), List.append_nil]
    exact List.prefix_append _ _
  | true =>
    refine ⟨calm (nowhere.behind firstRound).status (nowhere.behind firstRound).orphan, none,
      nextRound, List.take_prefix 19 _, ?_⟩
    rw [bothRounds, own_append, own_map, own_map_other (by decide), List.nil_append]
    exact List.prefix_append _ _

/-- What stands where in a trace. -/
theorem stands_at (whole : List (Bool × Step)) (kind : Step → Bool) (p : Bool) (i : ℕ)
    (found : (whole[i]?).any (fun x => x.1 == p && kind x.2) = true) :
    ∃ a, kind a = true ∧ whole = whole.take i ++ (p, a) :: whole.drop (i + 1) := by
  cases there : whole[i]? with
  | none =>
    rw [there] at found
    cases found
  | some x =>
    obtain ⟨q, a⟩ := x
    rw [there, Option.any_some, Bool.and_eq_true, beq_iff_eq] at found
    obtain ⟨rfl, kind⟩ := found
    obtain ⟨inside, here⟩ := List.getElem?_eq_some_iff.mp there
    refine ⟨a, kind, ?_⟩
    rw [← here, List.getElem_cons_drop, List.take_append_drop]

/-! ## What the rounds keep -/

/-- A step that a round takes under the lock. -/
def guarded : Step → Bool
  | .emitted emission => (markOf emission).isSome
  | .sidecarWritten | .statusRead _ | .orphanRead _ | .contextWritten _ | .launched _
  | .returned _ _ | .treeFound _ | .orphanWritten _ | .orphanCleared | .statusWritten _
  | .sidecarUnlinked => true
  | _ => false

theorem quiet_unguarded (silent : quiet a = true) : guarded a = false := by
  cases a with
  | emitted emission =>
    have unmarked : markOf emission = none := Option.isNone_iff_eq_none.mp silent
    rw [guarded, unmarked]
    rfl
  | _ => first | rfl | cases silent

theorem holds_of_guarded (moved : Moves s a t) (under : guarded a = true) : s.holds = true := by
  cases moved with
  | idles silent => exact absurd under (Bool.eq_false_iff.mp (quiet_unguarded silent))
  | passes | fails | refuses | locks | dies => cases under
  | cleans inside => exact holds_of_inside inside
  | _ => rfl

theorem kept_of_guarded (under : guarded a = true) : (protocol dir).drops a = false := by
  cases a <;> first | rfl | cases under

section Rounds
variable {a b : Step} {between : List (P × Step)}

/-- Where a process is when it takes a step under the lock. -/
theorem Timeline.under (timeline : Timeline dir (before ++ (p, a) :: after))
    (under : guarded a = true) : ∃ s t, Moves s a t ∧ holder (protocol dir) before = some p ∧
      Busy dir s (past before) := by
  obtain ⟨s, t, -, moved, known⟩ := timeline.lawful.at_work (discipline dir)
  obtain ⟨held, busy⟩ := known (holds_of_guarded moved under)
  exact ⟨s, t, moved, held, busy⟩

/-- **The rounds are apart.**  Between what a round does under the lock and what another one
does there, the first has let the lock go, or is no more. -/
theorem rounds_are_apart
    (timeline : Timeline dir (before ++ (p, a) :: (between ++ (q, b) :: after)))
    (one : guarded a = true) (two : guarded b = true) (other : p ≠ q) :
    (p, .unlocked) ∈ between ∨ (p, .gone) ∈ between := by
  obtain ⟨-, -, -, first, -⟩ := timeline.under one
  have split : before ++ (p, a) :: (between ++ (q, b) :: after) =
      (before ++ [(p, a)] ++ between) ++ (q, b) :: after := by simp
  have lawful := timeline.lawful
  rw [split] at timeline lawful
  obtain ⟨-, -, -, second, -⟩ := timeline.under two
  have held : holder (protocol dir) (before ++ [(p, a)]) = some p := by
    rw [holder_concat, Interleaving.pass, first]
    split
    · rfl
    · rw [if_neg fun both => absurd both.1 (Bool.eq_false_iff.mp (kept_of_guarded one))]
  obtain ⟨c, member, drops⟩ := lawful.early.lets_go held (by
    rw [second]
    exact fun same => other (Option.some.inj same).symm)
  cases c with
  | unlocked => exact .inl member
  | gone => exact .inr member
  | _ => cases drops

/-- The second of two rounds comes behind the first one's letting go. -/
theorem rounds_are_apart_both : ∃ before a between b after,
    bothRounds = before ++ (false, a) :: (between ++ (true, b) :: after) ∧
      ((false, .unlocked) ∈ between ∨ (false, .gone) ∈ between) := by
  obtain ⟨a, one, first⟩ := stands_at bothRounds guarded false 7
    (by decide +kernel)
  obtain ⟨b, two, second⟩ := stands_at (bothRounds.drop 8) guarded true 39
    (by decide +kernel)
  rw [second] at first
  refine ⟨_, a, _, b, _, first, ?_⟩
  have timeline := bothRounds_timeline
  rw [first] at timeline
  exact rounds_are_apart timeline one two Bool.false_ne_true

/-- **The log is in order.**  However the processes are interleaved, the marks in the log are
those of one round behind the other, each started, spawned, exited and ended under its own
number, or cut. -/
theorem log_is_in_order (timeline : Timeline dir trace) : Trails (marks (past trace)) := by
  have kept := Lawful.keeps (discipline dir) timeline.lawful
  cases held : holder (protocol dir) trace with
  | none => exact (kept.idle held).1
  | some p =>
    obtain ⟨s, there⟩ := timeline.lawful.followed p
    exact (kept.busy p s there ((kept.knows p s there).mpr held)).trails

theorem log_is_in_order_both : Trails (marks (past bothRounds)) :=
  log_is_in_order bothRounds_timeline

/-- **A round ends behind its status.**  Where the end of a round is written, the log has all of
that round and nothing else since its start, and whoever reads the status finds the round's
own, with the exit code the log has. -/
theorem status_before_the_end {roundNum : Int}
    (timeline : Timeline dir (before ++ (p, .emitted (.roundEnd roundNum)) :: after)) :
    ∃ plan result completedAt durationS, plan.roundNum = roundNum ∧
      readStatus (dir.behind (past before)).status =
        some (statusOf plan completedAt result durationS) ∧
      ∃ done, Trails done ∧
        marks (past before) = done ++ [.start roundNum, .spawn roundNum,
          .exit roundNum result.exitCode] := by
  obtain ⟨s, t, moved, -, busy⟩ := timeline.under rfl
  cases moved with
  | idles silent => cases silent
  | @ends plan result =>
    obtain ⟨completedAt, durationS, written⟩ := busy.knows
    obtain ⟨done, trails, same⟩ := busy.trail
    refine ⟨plan, result, completedAt, durationS, rfl, ?_, done, trails, same⟩
    rw [written, readStatus_payload]
    exact ⟨rfl, nofun, nofun⟩

def endsFirst : Step → Bool
  | .emitted (.roundEnd roundNum) => roundNum == 1
  | _ => false

theorem eq_of_endsFirst (ends : endsFirst a = true) : a = .emitted (.roundEnd 1) := by
  cases a with
  | emitted emission =>
    cases emission with
    | roundEnd roundNum => rw [eq_of_beq ends]
    | _ => cases ends
  | _ => cases ends

/-- The status behind the first of two rounds. -/
theorem status_before_the_end_both : ∃ before after,
    bothRounds = before ++ (false, .emitted (.roundEnd 1)) :: after ∧
      ∃ plan result completedAt durationS, plan.roundNum = 1 ∧
        readStatus (nowhere.behind (past before)).status =
          some (statusOf plan completedAt result durationS) := by
  obtain ⟨a, ends, split⟩ := stands_at bothRounds endsFirst false 37
    (by decide +kernel)
  obtain rfl := eq_of_endsFirst ends
  have timeline := bothRounds_timeline
  rw [split] at timeline
  obtain ⟨plan, result, completedAt, durationS, number, found, -⟩ := status_before_the_end timeline
  exact ⟨_, _, split, plan, result, completedAt, durationS, number, found⟩

/-- A written status is read as it was written. -/
theorem Written.read {status : Status} (written : Written status) :
    readStatus (.obj status.payload) = some status := by
  obtain ⟨plan, completedAt, result, durationS, rfl⟩ := written
  rw [readStatus_payload]
  exact ⟨rfl, nofun, nofun⟩

theorem lookup_orphan (plan : Plan) (prev : Option Status) (orphan : Option OrphanState) :
    (roundContext plan prev orphan).lookup "orphan_stash" = (orphanBlock orphan).map .obj := by
  rw [roundContext]
  cases plan.phase <;> cases orphanBlock orphan <;> cases prev <;> rfl

theorem lookup_previous (plan : Plan) (prev : Option Status) (orphan : Option OrphanState) :
    (roundContext plan prev orphan).lookup "previous" =
      (previousBlock prev orphan.isSome).map .obj := by
  rw [roundContext]
  cases plan.phase <;> cases orphanBlock orphan <;> cases prev <;> rfl

/-- **A round is told what was left.**  A stash is handed on to the rounds behind it until a
tree is found clean; where a round is told of a stash behind a recorded one, it is the newest;
and what it is told of the last round is what the newest status says. -/
theorem round_is_told_what_was_left {context : Event}
    (timeline : Timeline dir (before ++ (p, .contextWritten context) :: after)) :
    (∀ orphan, carried (past before) = some orphan →
        context.lookup "orphan_stash" = some (.obj (stashBlock orphan))) ∧
      (∀ orphan block, newest (past before) = some orphan →
        context.lookup "orphan_stash" = some block → block = .obj (stashBlock orphan)) ∧
      ∀ status, latest (past before) = some status → ∃ dirtyLast,
        context.lookup "previous" = some (.obj [("exit_code", status.lastExitCode),
          ("duration_s", status.lastDurationS), ("ended_at", status.lastCompletedAt),
          ("had_dirty_tree", .bool dirtyLast)]) := by
  obtain ⟨s, t, moved, -, busy⟩ := timeline.under rfl
  cases moved with
  | idles silent => cases silent
  | @tells status orphan plan =>
    obtain ⟨rfl, rfl⟩ := busy.knows
    have handed := busy.handed
    refine ⟨fun orphan held => ?_, fun orphan block newest told => ?_, fun status last => ?_⟩
    · have named := handed.named orphan (handed.recent orphan held)
      rw [lookup_orphan, handed.pending orphan held, orphanBlock_asdict named]
      rfl
    · rw [lookup_orphan] at told
      obtain cleared | ⟨none, -⟩ | ⟨written, same, found⟩ := handed.orphan
      · rw [cleared] at told
        cases told
      · rw [newest] at none
        cases none
      · obtain rfl := Option.some.inj (newest.symm.trans same)
        rw [found, orphanBlock_asdict (handed.named _ newest)] at told
        exact (Option.some.inj told).symm
    · obtain ⟨written, found⟩ := handed.status status last
      rw [lookup_previous, found, written.read]
      exact ⟨_, rfl⟩

def tells : Step → Bool
  | .contextWritten _ => true
  | _ => false

/-- The second of two rounds is told of the first one's stash. -/
theorem round_is_told_what_was_left_both : ∃ before context after orphan,
    bothRounds = before ++ (true, .contextWritten context) :: after ∧
      carried (past before) = some orphan ∧
      context.lookup "orphan_stash" = some (.obj (stashBlock orphan)) := by
  obtain ⟨a, told, split⟩ := stands_at bothRounds tells true 58
    (by decide +kernel)
  obtain ⟨context, rfl⟩ : ∃ context, a = .contextWritten context := by
    cases a with
    | contextWritten context => exact ⟨context, rfl⟩
    | _ => cases told
  have stashed : (carried (past (bothRounds.take 58))).isSome = true := by decide +kernel
  obtain ⟨orphan, held⟩ := Option.isSome_iff_exists.mp stashed
  have timeline := bothRounds_timeline
  rw [split] at timeline
  exact ⟨_, context, _, orphan, split, held, (round_is_told_what_was_left timeline).1 orphan held⟩

end Rounds

end AgentRunner.RoundLaw
