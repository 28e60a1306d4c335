import AgentRunner.Runs
import AgentRunner.Serve

/-! The stages of a serve lifetime, as a machine over the things that happen in one: which
step may follow which. What is read off the machine holds of every history it accepts. -/
namespace AgentRunner.ServeStages
open Runs Serve ServePolicy

/-! ## The machine -/

/-- Where a lifetime stands. A round is opened by the substrate before it, runs, is linked
and is closed by the substrate behind it; then it is judged. -/
inductive Point where
  | outside
  | boot
  | ready
  | opened (roundNum : Int)
  | ended (roundNum returncode : Int)
  | linked (roundNum returncode : Int)
  | closed (roundNum returncode : Int)
  | lost
  | leaving (whole : Bool)
  | finished (whole : Bool)
  deriving DecidableEq

/-- The lock is held. -/
def Point.holds : Point → Bool
  | .outside | .finished _ => false
  | _ => true

/-- A lifetime: whether a stop was requested, whether the newest look at that found none
and no round was opened since, the rounds completed, and those judged. -/
structure Stage where
  point : Point
  stop : Bool
  clear : Bool
  completed : ℕ
  rounds : List Round

def Stage.first : Stage := ⟨.outside, false, false, 0, []⟩

variable (limit : Option Int)

/-- Another round is within the limit. -/
def Within (completed : ℕ) : Prop := ∀ maxRounds, limit = some maxRounds → completed < maxRounds

instance (completed : ℕ) : Decidable (Within limit completed) :=
  match limit with
  | none => isTrue fun _ same => by cases same
  | some maxRounds => decidable_of_iff (completed < maxRounds)
      ⟨fun below _ same => Option.some.inj same ▸ below, fun within => within maxRounds rfl⟩

/-- An event, and when it may be emitted. -/
def announce (s : Stage) : Emission → Option Stage
  | .substrateBefore roundNum _ _ =>
    if s.point = .ready ∧ s.clear = true ∧ Within limit s.completed then
      some { s with point := .opened roundNum, clear := false }
    else none
  | .substrateAfter roundNum _ _ =>
    match s.point with
    | .linked opened returncode =>
      if opened = roundNum then
        some { s with point := .closed roundNum returncode, completed := s.completed + 1 }
      else none
    | _ => none
  | .maxRoundsReached completed maxRounds =>
    if s.point = .ready ∧ completed = s.completed ∧ limit = some maxRounds ∧
      maxRounds ≤ completed then some s else none
  | .stopFileDetected _ _ completed =>
    if s.point = .ready ∧ completed = s.completed then some s else none
  | _ => if s.point.holds then some s else none

/-- One thing that happens, where it may happen. -/
def next (s : Stage) : Step → Option Stage
  | .asked | .failed => if s.point.holds || s.point == .outside then some s else none
  | .waited _ => if s.point = .ready then some s else none
  | .stopRequested => if s.point.holds then some { s with stop := true } else none
  | .polled requested =>
    if s.point = .ready ∧ requested = s.stop then some { s with clear := !requested } else none
  | .locked held =>
    if s.point = .outside then some (if held then { s with point := .boot } else s) else none
  | .pidWritten => if s.point = .boot then some { s with point := .ready } else none
  | .pidUnlinked =>
    match s.point with
    | .boot | .ready => some { s with point := .leaving true }
    | .opened _ | .ended _ _ | .linked _ _ | .closed _ _ | .lost =>
      some { s with point := .leaving false }
    | _ => none
  | .unlocked =>
    match s.point with
    | .boot => some { s with point := .finished true }
    | .leaving whole => some { s with point := .finished whole }
    | _ => none
  | .emitted emission => announce limit s emission
  | .spawned child answer =>
    if s.point = .opened child.roundNum then
      some { s with point := match answer with
        | .ok returncode => .ended child.roundNum returncode
        | .error _ => .lost }
    else none
  | .relinked =>
    match s.point with
    | .ended roundNum returncode => some { s with point := .linked roundNum returncode }
    | _ => none
  | .judged round =>
    match s.point with
    | .closed _ returncode =>
      if round.returncode = returncode then
        some { s with point := .ready, rounds := s.rounds ++ [round] }
      else none
    | _ => none

/-- The machine goes through a history. -/
def Accepts (steps : List Step) (s : Stage) : Prop := run (next limit) .first steps = some s

/-! ## What a step can do -/

/-- A step that leaves the stage as it is. -/
def quiet : Step → Bool
  | .asked | .failed | .waited _ => true
  | .emitted (.substrateBefore _ _ _) | .emitted (.substrateAfter _ _ _) => false
  | .emitted _ => true
  | _ => false

/-- The points at which the pid file may be unlinked, and whether no round is cut there. -/
def Point.left : Point → Option Bool
  | .boot | .ready => some true
  | .opened _ | .ended _ _ | .linked _ _ | .closed _ _ | .lost => some false
  | _ => none

/-- The points at which the lock may be released. -/
def Point.released : Point → Option Bool
  | .boot => some true
  | .leaving whole => some whole
  | _ => none

inductive Moves (s : Stage) : Step → Stage → Prop where
  | idles {step} (silent : quiet step = true) (alive : ∀ whole, s.point ≠ .finished whole)
      (limits : ∀ completed maxRounds, step = .emitted (.maxRoundsReached completed maxRounds) →
        s.point = .ready ∧ completed = s.completed ∧ limit = some maxRounds ∧
          maxRounds ≤ completed) : Moves s step s
  | stops (held : s.point.holds = true) : Moves s .stopRequested { s with stop := true }
  | polls (here : s.point = .ready) : Moves s (.polled s.stop) { s with clear := !s.stop }
  | refuses (here : s.point = .outside) : Moves s (.locked false) s
  | locks (here : s.point = .outside) : Moves s (.locked true) { s with point := .boot }
  | enters (here : s.point = .boot) : Moves s .pidWritten { s with point := .ready }
  | leaves {whole} (here : s.point.left = some whole) :
      Moves s .pidUnlinked { s with point := .leaving whole }
  | releases {whole} (here : s.point.released = some whole) :
      Moves s .unlocked { s with point := .finished whole }
  | opens {roundNum gitHead pathsHash} (here : s.point = .ready) (clear : s.clear = true)
      (within : Within limit s.completed) :
      Moves s (.emitted (.substrateBefore roundNum gitHead pathsHash))
        { s with point := .opened roundNum, clear := false }
  | runs {child returncode} (here : s.point = .opened child.roundNum) :
      Moves s (.spawned child (.ok returncode))
        { s with point := .ended child.roundNum returncode }
  | loses {child e} (here : s.point = .opened child.roundNum) :
      Moves s (.spawned child (.error e)) { s with point := .lost }
  | links {roundNum returncode} (here : s.point = .ended roundNum returncode) :
      Moves s .relinked { s with point := .linked roundNum returncode }
  | closes {roundNum returncode gitHead pathsHash} (here : s.point = .linked roundNum returncode) :
      Moves s (.emitted (.substrateAfter roundNum gitHead pathsHash))
        { s with point := .closed roundNum returncode, completed := s.completed + 1 }
  | judges {roundNum round} (here : s.point = .closed roundNum round.returncode) :
      Moves s (.judged round) { s with point := .ready, rounds := s.rounds ++ [round] }

variable {limit} {s t : Stage} {step : Step} {steps : List Step}

theorem alive_of_holds (held : s.point.holds = true) (whole : Bool) :
    s.point ≠ .finished whole := by
  rintro same
  rw [same] at held
  cases held

theorem guarded {p : Prop} [Decidable p] {u : Stage} (moved : (if p then some u else none) = some t) :
    p ∧ u = t := by
  split at moved
  · exact ⟨‹_›, Option.some.inj moved⟩
  · cases moved

theorem moves_announce {emission : Emission} (moved : announce limit s emission = some t) :
    Moves limit s (.emitted emission) t := by
  cases emission with
  | substrateBefore roundNum gitHead pathsHash =>
    obtain ⟨⟨here, clear, within⟩, rfl⟩ := guarded moved
    exact .opens here clear within
  | substrateAfter roundNum gitHead pathsHash =>
    simp only [announce] at moved
    split at moved
    · rename_i opened returncode here
      obtain ⟨rfl, rfl⟩ := guarded moved
      exact .closes here
    · cases moved
  | maxRoundsReached completed maxRounds =>
    obtain ⟨facts, rfl⟩ := guarded moved
    refine .idles rfl (fun whole same => ?_) fun _ _ same => ?_
    · rw [facts.1] at same
      cases same
    · cases same
      exact facts
  | stopFileDetected stopFile content completed =>
    obtain ⟨facts, rfl⟩ := guarded moved
    refine .idles rfl (fun whole same => ?_) fun _ _ same => by cases same
    rw [facts.1] at same
    cases same
  | _ =>
    obtain ⟨held, rfl⟩ := guarded moved
    exact .idles rfl (alive_of_holds held) fun _ _ same => by cases same

theorem moves_of_next (moved : next limit s step = some t) : Moves limit s step t := by
  cases step with
  | asked | failed =>
    obtain ⟨alive, rfl⟩ := guarded moved
    refine .idles rfl (fun whole same => ?_) fun _ _ same => by cases same
    rw [same] at alive
    exact absurd alive (by simp [Point.holds])
  | waited seconds =>
    obtain ⟨here, rfl⟩ := guarded moved
    refine .idles rfl (fun whole same => ?_) fun _ _ same => by cases same
    rw [here] at same
    cases same
  | stopRequested =>
    obtain ⟨held, rfl⟩ := guarded moved
    exact .stops held
  | polled requested =>
    obtain ⟨⟨here, rfl⟩, rfl⟩ := guarded moved
    exact .polls here
  | locked held =>
    obtain ⟨here, rfl⟩ := guarded moved
    cases held with
    | false => exact .refuses here
    | true => exact .locks here
  | pidWritten =>
    obtain ⟨here, rfl⟩ := guarded moved
    exact .enters here
  | pidUnlinked =>
    simp only [next] at moved
    split at moved <;> cases moved <;> rename_i here <;> exact .leaves (by rw [here]; rfl)
  | unlocked =>
    simp only [next] at moved
    split at moved <;> cases moved <;> rename_i here <;> exact .releases (by rw [here]; rfl)
  | emitted emission => exact moves_announce moved
  | spawned child answer =>
    obtain ⟨here, rfl⟩ := guarded moved
    cases answer with
    | ok returncode => exact .runs here
    | error e => exact .loses here
  | relinked =>
    simp only [next] at moved
    split at moved <;> cases moved
    rename_i here
    exact .links here
  | judged round =>
    simp only [next] at moved
    split at moved
    · rename_i here
      obtain ⟨rfl, rfl⟩ := guarded moved
      exact .judges here
    · cases moved

/-- What every step keeps, of the history and the stage it leads to, holds of every history. -/
theorem accepts_history (invariant : List Step → Stage → Prop) (begun : invariant [] .first)
    (kept : ∀ past s step t, invariant past s → next limit s step = some t →
      invariant (past ++ [step]) t) (accepted : Accepts limit steps s) : invariant steps s :=
  run_history invariant begun kept accepted

/-! ## Stops -/

def isSpawn : Step → Bool
  | .spawned _ _ => true
  | _ => false

/-- The rounds spawned in a history. -/
def spawns (steps : List Step) : ℕ := steps.countP isSpawn

theorem not_spawn_of_quiet (silent : quiet step = true) : isSpawn step = false := by
  cases step with
  | spawned child answer => cases silent
  | _ => rfl

/-- How many rounds can still be spawned once a stop is requested. -/
def Stage.pending (s : Stage) : ℕ :=
  (match s.point with
    | .opened _ => 1
    | _ => 0) + if s.clear then 1 else 0

theorem pending_step (moved : next limit s step = some t) (stopped : s.stop = true) :
    t.stop = true ∧ spawns [step] + t.pending ≤ s.pending := by
  cases moves_of_next moved with
  | idles silent => simp [spawns, not_spawn_of_quiet silent, stopped]
  | stops => exact ⟨rfl, by simp [spawns, isSpawn, Stage.pending]⟩
  | polls here => exact ⟨stopped, by simp [spawns, isSpawn, Stage.pending, here, stopped]⟩
  | refuses => exact ⟨stopped, by simp [spawns, isSpawn]⟩
  | locks => exact ⟨stopped, by simp [spawns, isSpawn, Stage.pending]⟩
  | enters => exact ⟨stopped, by simp [spawns, isSpawn, Stage.pending]⟩
  | leaves => exact ⟨stopped, by simp [spawns, isSpawn, Stage.pending]⟩
  | releases => exact ⟨stopped, by simp [spawns, isSpawn, Stage.pending]⟩
  | opens here clear => exact ⟨stopped, by simp [spawns, isSpawn, Stage.pending, clear]⟩
  | runs here => exact ⟨stopped, by simp [spawns, isSpawn, Stage.pending, here]⟩
  | loses here => exact ⟨stopped, by simp [spawns, isSpawn, Stage.pending, here]⟩
  | links => exact ⟨stopped, by simp [spawns, isSpawn, Stage.pending]⟩
  | closes => exact ⟨stopped, by simp [spawns, isSpawn, Stage.pending]⟩
  | judges => exact ⟨stopped, by simp [spawns, isSpawn, Stage.pending]⟩

theorem spawns_cons (step : Step) (steps : List Step) :
    spawns (step :: steps) = spawns [step] + spawns steps := by
  rw [spawns, ← List.singleton_append, List.countP_append]
  rfl

/-- A requested stop stays requested, and lets no more rounds through than were pending. -/
theorem pending_run (ran : run (next limit) s steps = some t) (stopped : s.stop = true) :
    spawns steps ≤ s.pending := by
  induction steps generalizing s with
  | nil => exact Nat.zero_le _
  | cons step steps ih =>
    obtain ⟨u, first, later⟩ := run_cons.mp ran
    obtain ⟨still, fewer⟩ := pending_step first stopped
    have rest := ih later still
    rw [spawns_cons]
    omega

/-- Behind a look at the flag that found a stop, no round is spawned. -/
theorem halts_behind (accepted : Accepts limit steps t) {before after : List Step}
    (split : steps = before ++ .polled true :: after) : spawns after = 0 := by
  rw [Accepts, split] at accepted
  obtain ⟨s, -, accepted⟩ := run_append.mp accepted
  obtain ⟨u, look, later⟩ := run_cons.mp accepted
  obtain ⟨⟨here, stopped⟩, rfl⟩ := guarded look
  have fewer := pending_run later stopped.symm
  rw [Stage.pending] at fewer
  simp only [here, Bool.not_true, Bool.false_eq_true, if_false] at fewer
  exact Nat.le_zero.mp fewer

/-- An opened round leaves no other pending. -/
theorem pending_le_one (accepted : Accepts limit steps s) : s.pending ≤ 1 := by
  rw [Accepts] at accepted
  refine run_preserves (fun s : Stage => s.pending ≤ 1) (fun s step t few moved => ?_)
    (by decide) accepted
  cases moves_of_next moved with
  | idles | refuses | stops => exact few
  | locks | enters | leaves | releases | runs | loses | links | closes | judges =>
    refine le_trans (Nat.add_le_add_right (Nat.zero_le _) _) few
  | polls here =>
    simp only [Stage.pending, here]
    split <;> omega
  | opens => exact le_refl _

/-- Behind a request to stop, at most one more round is spawned. -/
theorem drains_behind (accepted : Accepts limit steps t) {before after : List Step}
    (split : steps = before ++ .stopRequested :: after) : spawns after ≤ 1 := by
  rw [Accepts, split] at accepted
  obtain ⟨s, reached, accepted⟩ := run_append.mp accepted
  obtain ⟨u, request, later⟩ := run_cons.mp accepted
  obtain ⟨-, rfl⟩ := guarded request
  have few : s.pending ≤ 1 := pending_le_one reached
  exact (pending_run later rfl).trans few

/-! ## The limit -/

/-- How many of the rounds spawned are not completed, where that is known. -/
def Point.running : Point → Option ℕ
  | .outside | .boot | .ready | .opened _ | .closed _ _ => some 0
  | .ended _ _ | .linked _ _ => some 1
  | .lost | .leaving _ | .finished _ => none

/-- What the stage tells of the number of rounds spawned. -/
structure Counted (limit : Option Int) (spawned : ℕ) (s : Stage) : Prop where
  ahead : ∀ k, s.point.running = some k → spawned = s.completed + k
  within : ∀ maxRounds, limit = some maxRounds → spawned ≤ maxRounds.toNat
  room : ∀ roundNum, s.point = .opened roundNum → Within limit s.completed

/-- A round that is spawned had room. -/
theorem counted_spawn {spawned : ℕ} (counted : Counted limit spawned s) {roundNum : Int}
    (here : s.point = .opened roundNum) {p : Point} (runs : ∀ k, p.running = some k → k = 1)
    (other : ∀ n, p ≠ .opened n) : Counted limit (spawned + 1) { s with point := p } := by
  have same : spawned = s.completed := counted.ahead 0 (by rw [here]; rfl)
  refine ⟨fun k running => ?_, fun maxRounds bound => ?_, fun n opened => absurd opened (other n)⟩
  · rw [same, runs k running]
  · have below := counted.room roundNum here maxRounds bound
    omega

/-- A step that spawns nothing and completes nothing. -/
theorem counted_still {spawned : ℕ} (counted : Counted limit spawned s)
    (completed : t.completed = s.completed)
    (running : ∀ k, t.point.running = some k → s.point.running = some k)
    (room : ∀ roundNum, t.point = .opened roundNum → Within limit s.completed) :
    Counted limit spawned t where
  ahead k known := completed ▸ counted.ahead k (running k known)
  within := counted.within
  room n opened := completed ▸ room n opened

theorem counted_step {spawned : ℕ} (counted : Counted limit spawned s)
    (moved : next limit s step = some t) : Counted limit (spawned + spawns [step]) t := by
  cases moves_of_next moved with
  | idles silent =>
    rw [spawns, List.countP_singleton, not_spawn_of_quiet silent]
    exact counted
  | stops | polls | refuses => exact counted_still counted rfl (fun _ => id) counted.room
  | locks here | enters here | judges here =>
    exact counted_still counted rfl (fun k known => by rw [here]; exact known) fun n opened => by
      cases opened
  | leaves here | releases here =>
    exact counted_still counted rfl (fun k known => by cases known) fun n opened => by cases opened
  | opens here clear within =>
    exact counted_still counted rfl (fun k known => by rw [here]; exact known) fun _ _ => within
  | runs here =>
    exact counted_spawn counted here (fun k running => (Option.some.inj running).symm) fun n same =>
      by cases same
  | loses here =>
    exact counted_spawn counted here (fun k running => by cases running) fun n same => by cases same
  | links here =>
    exact counted_still counted rfl (fun k known => by rw [here]; exact known) fun n opened => by
      cases opened
  | closes here =>
    refine ⟨fun k known => ?_, counted.within, fun n opened => by cases opened⟩
    have one : spawned = s.completed + 1 := counted.ahead 1 (by rw [here]; rfl)
    obtain rfl := Option.some.inj known
    exact one

theorem counted_of_accepts (accepted : Accepts limit steps s) :
    Counted limit (spawns steps) s := by
  refine accepts_history (fun past s => Counted limit (spawns past) s) ?_
    (fun past s step t counted moved => ?_) accepted
  · refine ⟨fun k known => ?_, fun _ _ => Nat.zero_le _, fun n same => by cases same⟩
    obtain rfl := Option.some.inj known
    rfl
  · rw [spawns, List.countP_append]
    exact counted_step counted moved

/-! ## Whole rounds -/

/-- The steps a round is made of. -/
def isMark : Step → Bool
  | .emitted (.substrateBefore _ _ _) | .emitted (.substrateAfter _ _ _) => true
  | .spawned _ _ | .relinked | .judged _ => true
  | _ => false

def marks (steps : List Step) : List Step := steps.filter isMark

/-- A round under way at a point. -/
inductive Begun : Point → List Step → Prop where
  | opened {roundNum gitHead pathsHash} :
      Begun (.opened roundNum) [.emitted (.substrateBefore roundNum gitHead pathsHash)]
  | ended {child returncode cut} (before : Begun (.opened child.roundNum) cut) :
      Begun (.ended child.roundNum returncode) (cut ++ [.spawned child (.ok returncode)])
  | lost {child e cut} (before : Begun (.opened child.roundNum) cut) :
      Begun .lost (cut ++ [.spawned child (.error e)])
  | linked {roundNum returncode cut} (before : Begun (.ended roundNum returncode) cut) :
      Begun (.linked roundNum returncode) (cut ++ [.relinked])
  | closed {roundNum returncode cut gitHead pathsHash}
      (before : Begun (.linked roundNum returncode) cut) :
      Begun (.closed roundNum returncode)
        (cut ++ [.emitted (.substrateAfter roundNum gitHead pathsHash)])

/-- Rounds one after the other, each with its own number before, at and behind its child
and judged by what that child returned. -/
inductive Whole : List Step → List Round → Prop where
  | nil : Whole [] []
  | round {steps rounds roundNum cut round} (before : Whole steps rounds)
      (closed : Begun (.closed roundNum round.returncode) cut) :
      Whole (steps ++ (cut ++ [.judged round])) (rounds ++ [round])

/-- What is under way at a point: nothing between two rounds, and behind a clean-up
whatever was cut. -/
inductive Part : Point → List Step → Prop where
  | outside : Part .outside []
  | boot : Part .boot []
  | ready : Part .ready []
  | begun {p cut} (begun : Begun p cut) : Part p cut
  | leaving : Part (.leaving true) []
  | cut {p cut} (begun : Begun p cut) : Part (.leaving false) cut
  | finished : Part (.finished true) []
  | ruined {p cut} (begun : Begun p cut) : Part (.finished false) cut

/-- A history is rounds and what is under way. -/
def Bracketed (steps : List Step) (s : Stage) : Prop :=
  ∃ whole cut, marks steps = whole ++ cut ∧ Whole whole s.rounds ∧ Part s.point cut

theorem not_mark_of_quiet (silent : quiet step = true) : isMark step = false := by
  cases step with
  | emitted emission => cases emission <;> first | rfl | cases silent
  | asked | failed | waited => rfl
  | _ => cases silent

theorem marks_unmarked (past : List Step) (plain : isMark step = false) :
    marks (past ++ [step]) = marks past := by
  rw [marks, List.filter_append, List.filter_singleton, plain]
  exact List.append_nil _

theorem marks_marked (past : List Step) (own : isMark step = true) :
    marks (past ++ [step]) = marks past ++ [step] := by
  rw [marks, List.filter_append, List.filter_singleton, own]
  rfl

theorem begun_of_part {cut : List Step} {p : Point} (part : Part p cut)
    (under : p.left = some false) : Begun p cut := by
  cases part with
  | begun begun => exact begun
  | _ => cases under

/-- One step of a round under way. -/
theorem bracketed_grow {past : List Step} (bracketed : Bracketed past s) {p : Point}
    (own : isMark step = true) (grows : ∀ cut, Part s.point cut → Begun p (cut ++ [step]))
    {completed : ℕ} {stop clear : Bool} :
    Bracketed (past ++ [step]) ⟨p, stop, clear, completed, s.rounds⟩ := by
  obtain ⟨whole, cut, same, done, part⟩ := bracketed
  exact ⟨whole, cut ++ [step], by rw [marks_marked past own, same, List.append_assoc], done,
    .begun (grows cut part)⟩

/-- A step outside all rounds. -/
theorem bracketed_keep {past : List Step} (bracketed : Bracketed past s) {p : Point}
    (plain : isMark step = false) (keeps : ∀ cut, Part s.point cut → Part p cut)
    {completed : ℕ} {stop clear : Bool} :
    Bracketed (past ++ [step]) ⟨p, stop, clear, completed, s.rounds⟩ := by
  obtain ⟨whole, cut, same, done, part⟩ := bracketed
  exact ⟨whole, cut, by rw [marks_unmarked past plain, same], done, keeps cut part⟩

theorem left_of_begun {cut : List Step} {p : Point} (begun : Begun p cut) : p.left = some false := by
  cases begun <;> rfl

theorem part_leaving {cut : List Step} {p : Point} {whole : Bool} (here : p.left = some whole)
    (part : Part p cut) : Part (.leaving whole) cut := by
  cases part with
  | boot | ready => obtain rfl := Option.some.inj here; exact .leaving
  | begun begun =>
    obtain rfl := Option.some.inj ((left_of_begun begun).symm.trans here)
    exact .cut begun
  | _ => cases here

theorem part_finished {cut : List Step} {p : Point} {whole : Bool}
    (here : p.released = some whole) (part : Part p cut) : Part (.finished whole) cut := by
  cases part with
  | boot | leaving => obtain rfl := Option.some.inj here; exact .finished
  | cut begun => obtain rfl := Option.some.inj here; exact .ruined begun
  | begun begun => cases begun <;> cases here
  | _ => cases here

theorem part_ready {cut : List Step} (part : Part .ready cut) : cut = [] := by
  cases part with
  | ready => rfl
  | begun begun => cases begun

theorem part_or {cut : List Step} {p : Point} (part : Part p cut) :
    cut = [] ∨ ∃ p, Begun p cut := by
  cases part with
  | begun begun | cut begun | ruined begun => exact .inr ⟨_, begun⟩
  | _ => exact .inl rfl

/-- Nothing is under way where no round was cut. -/
theorem part_closed {cut : List Step} {p : Point} (part : Part p cut)
    (closed : p = .outside ∨ p = .finished true) : cut = [] := by
  obtain rfl | rfl := closed
  · cases part with
    | outside => rfl
    | begun begun => cases begun
  · cases part with
    | finished => rfl
    | begun begun => cases begun

theorem bracketed_step {past : List Step} (bracketed : Bracketed past s)
    (moved : next limit s step = some t) : Bracketed (past ++ [step]) t := by
  cases moves_of_next moved with
  | idles silent => exact bracketed_keep bracketed (not_mark_of_quiet silent) fun _ => id
  | stops | polls | refuses => exact bracketed_keep bracketed rfl fun _ => id
  | locks here =>
    refine bracketed_keep bracketed rfl fun cut part => ?_
    rw [here] at part
    cases part with
    | outside => exact .boot
    | begun begun => cases begun
  | enters here =>
    refine bracketed_keep bracketed rfl fun cut part => ?_
    rw [here] at part
    cases part with
    | boot => exact .ready
    | begun begun => cases begun
  | leaves here => exact bracketed_keep bracketed rfl fun cut part => part_leaving here part
  | releases here => exact bracketed_keep bracketed rfl fun cut part => part_finished here part
  | opens here =>
    refine bracketed_grow bracketed rfl fun cut part => ?_
    rw [here] at part
    rw [part_ready part]
    exact .opened
  | runs here =>
    refine bracketed_grow bracketed rfl fun cut part => .ended (begun_of_part (here ▸ part) rfl)
  | loses here =>
    refine bracketed_grow bracketed rfl fun cut part => .lost (begun_of_part (here ▸ part) rfl)
  | links here =>
    exact bracketed_grow bracketed rfl fun cut part => .linked (begun_of_part (here ▸ part) rfl)
  | closes here =>
    exact bracketed_grow bracketed rfl fun cut part => .closed (begun_of_part (here ▸ part) rfl)
  | judges here =>
    obtain ⟨whole, cut, same, done, part⟩ := bracketed
    rw [here] at part
    refine ⟨_, [], ?_, done.round (begun_of_part part rfl), .ready⟩
    rw [marks_marked past rfl, same, List.append_nil, List.append_assoc]

theorem bracketed_of_accepts (accepted : Accepts limit steps s) : Bracketed steps s :=
  accepts_history Bracketed ⟨[], [], rfl, .nil, .outside⟩
    (fun _ _ _ _ bracketed moved => bracketed_step bracketed moved) accepted

/-! ## Under the lock -/

/-- The pid file is there. -/
def Point.serves : Point → Bool
  | .ready | .opened _ | .ended _ _ | .linked _ _ | .closed _ _ | .lost => true
  | _ => false

/-- Neither pid file nor lock was given up. -/
def Point.keeps : Point → Bool
  | .leaving _ | .finished _ => false
  | _ => true

/-- What has happened before a point, and what has not. -/
structure Guarded (steps : List Step) (s : Stage) : Prop where
  locked : s.point.holds = true → .locked true ∈ steps
  written : s.point.serves = true → .pidWritten ∈ steps
  unlinked : s.point.keeps = true → .pidUnlinked ∉ steps
  released : s.point.keeps = true → .unlocked ∉ steps

/-- A step that gives nothing up. -/
theorem guarded_keep {past : List Step} (before : Guarded past s)
    (plain : step ≠ .pidUnlinked ∧ step ≠ .unlocked)
    (holds : t.point.holds = true → s.point.holds = true ∨ step = .locked true)
    (serves : t.point.serves = true → s.point.serves = true ∨ step = .pidWritten)
    (keeps : t.point.keeps = true → s.point.keeps = true) : Guarded (past ++ [step]) t where
  locked held := by
    obtain earlier | rfl := holds held
    · exact List.mem_append_left _ (before.locked earlier)
    · exact List.mem_append_right _ (.head _)
  written held := by
    obtain earlier | rfl := serves held
    · exact List.mem_append_left _ (before.written earlier)
    · exact List.mem_append_right _ (.head _)
  unlinked kept member := by
    obtain earlier | here := List.mem_append.mp member
    · exact before.unlinked (keeps kept) earlier
    · exact plain.1 (List.mem_singleton.mp here).symm
  released kept member := by
    obtain earlier | here := List.mem_append.mp member
    · exact before.released (keeps kept) earlier
    · exact plain.2 (List.mem_singleton.mp here).symm

theorem of_false {p : Prop} (held : false = true) : p := (Bool.false_ne_true held).elim

theorem guarded_step {past : List Step} (before : Guarded past s)
    (moved : next limit s step = some t) : Guarded (past ++ [step]) t := by
  cases moves_of_next moved with
  | idles silent =>
    refine guarded_keep before ⟨?_, ?_⟩ .inl .inl id <;> rintro rfl <;> cases silent
  | stops | polls | refuses => exact guarded_keep before ⟨nofun, nofun⟩ .inl .inl id
  | locks here =>
    exact guarded_keep before ⟨nofun, nofun⟩ (fun _ => .inr rfl) of_false
      fun _ => by rw [here]; rfl
  | enters here =>
    exact guarded_keep before ⟨nofun, nofun⟩ (fun _ => .inl (by rw [here]; rfl)) (fun _ => .inr rfl)
      fun _ => by rw [here]; rfl
  | leaves here =>
    refine ⟨fun _ => List.mem_append_left _ (before.locked ?_), of_false,
      of_false, of_false⟩
    cases point : s.point <;> rw [point] at here <;> first | rfl | cases here
  | releases here =>
    exact ⟨of_false, of_false, of_false, of_false⟩
  | opens here | runs here | loses here | links here | closes here | judges here =>
    exact guarded_keep before ⟨nofun, nofun⟩ (fun _ => .inl (by rw [here]; rfl))
      (fun _ => .inl (by rw [here]; rfl)) fun _ => by rw [here]; rfl

theorem guarded_of_accepts (accepted : Accepts limit steps s) : Guarded steps s :=
  accepts_history Guarded
    ⟨of_false, of_false, fun _ => List.not_mem_nil, fun _ => List.not_mem_nil⟩
    (fun _ _ _ _ before moved => guarded_step before moved) accepted

/-- A round is spawned under the lock and with the pid file in place. -/
theorem guarded_spawn (accepted : Accepts limit steps t) {before after : List Step} {child : Child}
    {answer : Except Raised Int} (split : steps = before ++ .spawned child answer :: after) :
    .locked true ∈ before ∧ .pidWritten ∈ before ∧ .pidUnlinked ∉ before ∧ .unlocked ∉ before := by
  rw [Accepts, split] at accepted
  obtain ⟨s, reached, accepted⟩ := run_append.mp accepted
  obtain ⟨u, spawned, -⟩ := run_cons.mp accepted
  obtain ⟨here, -⟩ := guarded spawned
  have behind : Guarded before s := guarded_of_accepts reached
  exact ⟨behind.locked (by rw [here]; rfl), behind.written (by rw [here]; rfl),
    behind.unlinked (by rw [here]; rfl), behind.released (by rw [here]; rfl)⟩

/-- A pid file that was written is there or was unlinked. -/
theorem unlinked_of_accepts (accepted : Accepts limit steps s) :
    .pidWritten ∈ steps → s.point.serves = true ∨ .pidUnlinked ∈ steps := by
  refine accepts_history
    (fun past s => .pidWritten ∈ past → s.point.serves = true ∨ .pidUnlinked ∈ past)
    (fun member => (List.not_mem_nil member).elim) (fun past s step t before moved member => ?_)
    accepted
  have keeps : (s.point.serves = true → t.point.serves = true) → step ≠ .pidWritten →
      t.point.serves = true ∨ .pidUnlinked ∈ past ++ [step] := by
    intro served other
    obtain earlier | here := List.mem_append.mp member
    · exact (before earlier).imp served (List.mem_append_left _)
    · exact absurd (List.mem_singleton.mp here).symm other
  cases moves_of_next moved with
  | idles silent =>
    refine keeps id ?_
    rintro rfl
    cases silent
  | stops | polls | refuses => exact keeps id nofun
  | enters => exact .inl rfl
  | leaves => exact .inr (List.mem_append_right _ (.head _))
  | locks here | releases here =>
    refine keeps (fun served => ?_) nofun
    cases point : s.point <;> rw [point] at here served <;> first | exact of_false served | cases here
  | opens | runs | loses | links | closes | judges => exact keeps (fun _ => rfl) nofun

/-- Nothing happens behind the release of the lock. -/
theorem last_of_finished (accepted : Accepts limit steps s) {whole : Bool}
    (finished : s.point = .finished whole) : steps.getLast? = some .unlocked := by
  obtain rfl | ⟨before, step, rfl⟩ := List.eq_nil_or_concat steps
  · obtain rfl := Option.some.inj accepted
    cases finished
  · rw [List.concat_eq_append, Accepts] at accepted
    obtain ⟨u, -, last⟩ := run_append.mp accepted
    obtain ⟨v, moved, done⟩ := run_cons.mp last
    obtain rfl := Option.some.inj done
    rw [List.concat_eq_append, List.getLast?_concat]
    cases moves_of_next moved with
    | idles _ alive => exact absurd finished (alive whole)
    | stops held => rw [show _ = _ from finished] at held; cases held
    | releases => rfl
    | refuses here | polls here => rw [show _ = _ from finished] at here; cases here
    | _ => cases finished

/-- A lifetime that is over has unlinked the pid file it wrote, and released the lock last. -/
theorem given_back (accepted : Accepts limit steps s) {whole : Bool}
    (finished : s.point = .finished whole) (written : .pidWritten ∈ steps) :
    .pidUnlinked ∈ steps ∧ steps.getLast? = some .unlocked := by
  obtain serves | unlinked := unlinked_of_accepts accepted written
  · rw [finished] at serves
    exact of_false serves
  · exact ⟨unlinked, last_of_finished accepted finished⟩

theorem unwritten_of_accepts (accepted : Accepts limit steps s)
    (before : s.point = .outside ∨ s.point = .boot) : .pidWritten ∉ steps := by
  intro written
  obtain serves | unlinked := unlinked_of_accepts accepted written
  · obtain here | here := before <;> rw [here] at serves <;> exact of_false serves
  · refine (guarded_of_accepts accepted).unlinked ?_ unlinked
    obtain here | here := before <;> rw [here] <;> rfl

/-- The rounds judged in a history. -/
def judgedRounds (steps : List Step) : List Round :=
  steps.filterMap fun
    | .judged round => some round
    | _ => none

theorem rounds_of_accepts (accepted : Accepts limit steps s) : s.rounds = judgedRounds steps := by
  refine accepts_history (fun past s => s.rounds = judgedRounds past) rfl
    (fun past s step t same moved => ?_) accepted
  rw [judgedRounds, List.filterMap_append, ← judgedRounds, ← same]
  cases moves_of_next moved with
  | idles silent =>
    cases step with
    | judged round => cases silent
    | _ => exact (List.append_nil _).symm
  | judges => rfl
  | _ => exact (List.append_nil _).symm

/-- Where no lock was taken, none was held before. -/
theorem unlocked_of_outside (accepted : Accepts limit steps s) :
    s.point = .outside → .locked true ∉ steps := by
  refine accepts_history (fun past s => s.point = .outside → .locked true ∉ past)
    (fun _ => List.not_mem_nil) (fun past s step t before moved here => ?_) accepted
  have keeps : s.point = .outside → step ≠ .locked true → .locked true ∉ past ++ [step] := by
    intro outside other member
    obtain earlier | last := List.mem_append.mp member
    · exact before outside earlier
    · exact other (List.mem_singleton.mp last).symm
  cases moves_of_next moved with
  | idles silent =>
    refine keeps here ?_
    rintro rfl
    cases silent
  | stops | refuses | polls => exact keeps here nofun
  | _ => cases here

theorem whole_nil {rounds : List Round} (whole : Whole steps rounds) (none : rounds = []) :
    steps = [] := by
  cases whole with
  | nil => rfl
  | round => exact absurd none (List.append_ne_nil_of_right_ne_nil _ (List.cons_ne_nil _ _))

theorem spawns_of_unmarked (unmarked : marks steps = []) : spawns steps = 0 := by
  refine List.countP_eq_zero.mpr fun step member spawned => ?_
  have plain := List.filter_eq_nil_iff.mp unmarked step member
  cases step with
  | spawned child answer => exact plain rfl
  | _ => cases spawned

/-- Where nothing was judged and nothing cut, nothing was spawned. -/
theorem spawns_of_unjudged (accepted : Accepts limit steps s) (finished : s.point = .finished true)
    (none : s.rounds = []) : spawns steps = 0 := by
  obtain ⟨whole, cut, split, rounds, part⟩ := bracketed_of_accepts accepted
  refine spawns_of_unmarked ?_
  rw [split, whole_nil rounds none, part_closed part (.inr finished)]
  rfl

/-- The limit is announced where it is reached exactly. -/
theorem limit_announced (accepted : Accepts limit steps t) {completed : ℕ} {maxRounds : Int}
    (announced : .emitted (.maxRoundsReached completed maxRounds) ∈ steps) :
    limit = some maxRounds ∧ completed = maxRounds.toNat := by
  obtain ⟨before, after, split⟩ := List.append_of_mem announced
  rw [Accepts, split] at accepted
  obtain ⟨s, reached, accepted⟩ := run_append.mp accepted
  obtain ⟨u, event, -⟩ := run_cons.mp accepted
  obtain ⟨⟨here, rfl, bound, reaches⟩, -⟩ := guarded event
  have counted : Counted limit (spawns before) s := counted_of_accepts reached
  have spawned : spawns before = s.completed := counted.ahead 0 (by rw [here]; rfl)
  have within := counted.within maxRounds bound
  exact ⟨bound, by omega⟩

end AgentRunner.ServeStages
