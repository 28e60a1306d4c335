import AgentRunner.ServeGates

/-! What every serve lifetime does, whatever the world answers: its rounds are whole, a stop
and the limit are obeyed, the lock frames them, and its exit code is the verdict of the
rounds it has judged. -/
namespace AgentRunner.ServeLaw
open Effects Triples Runs PyValue ConfigModels Serve ServeStages ServePolicy ServeGates

/-! ## The rounds judged -/

section
variable (host : Host) (delay : Int)

/-- The policy has let these rounds pass, and carries these streaks. -/
def Folded (rounds : List Round) (streaks : Streaks) : Prop :=
  ∀ rest, serve host delay (rounds ++ rest) =
    (serveFrom host delay streaks rest).map fun stop => (rounds.length + stop.1, stop.2)

/-- A verdict ends a lifetime: no round is judged behind one. -/
def Unbroken (rounds : List Round) : Prop :=
  ∀ i stop, serve host delay rounds = some (i, stop) → i + 1 = rounds.length

/-- The exit code is that of the verdict on the last of the rounds, or 0 if there is none. -/
def Judged (rounds : List Round) (code : Int) : Prop :=
  (serve host delay rounds = none ∧ code = 0) ∨
    ∃ i, i + 1 = rounds.length ∧ serve host delay rounds = some (i, .gaveUp code)

variable {host delay} {rounds : List Round} {streaks : Streaks} {round : Round}
  {verdicts : Verdicts}

theorem folded_nil : Folded host delay [] .zero := by
  intro rest
  simp only [List.nil_append, serve, List.length_nil, Nat.zero_add, Prod.eta, Option.map_id']

theorem Folded.passes (folded : Folded host delay rounds streaks) :
    serve host delay rounds = none := by
  have alone := folded []
  rwa [List.append_nil] at alone

theorem serveFrom_one (said : postRoundVerdicts host delay streaks round = .ok verdicts)
    (rest : List Round) : serveFrom host delay streaks (round :: rest) =
      match verdicts.exit with
      | some exit => some (0, .gaveUp exit)
      | none => (serveFrom host delay verdicts.streaks rest).map fun stop =>
          (stop.1 + 1, stop.2) := by
  cases exits : verdicts.exit <;> simp only [serveFrom, said, exits]

theorem Folded.snoc (folded : Folded host delay rounds streaks)
    (said : postRoundVerdicts host delay streaks round = .ok verdicts)
    (going : verdicts.exit = none) : Folded host delay (rounds ++ [round]) verdicts.streaks := by
  intro rest
  rw [List.append_assoc, folded, List.singleton_append, serveFrom_one said, going]
  simp only [Option.map_map, List.length_append, List.length_singleton]
  congr 1
  funext stop
  simp only [Function.comp_apply, Prod.mk.injEq, and_true]
  omega

theorem Folded.exits (folded : Folded host delay rounds streaks)
    (said : postRoundVerdicts host delay streaks round = .ok verdicts) {code : Int}
    (exits : verdicts.exit = some code) : Judged host delay (rounds ++ [round]) code := by
  refine .inr ⟨rounds.length, by simp, ?_⟩
  rw [folded, serveFrom_one said, exits]
  rfl

theorem Judged.unbroken {code : Int} (judged : Judged host delay rounds code) :
    Unbroken host delay rounds := by
  intro i stop stops
  obtain ⟨passed, -⟩ | ⟨j, last, stopped⟩ := judged
  · rw [passed] at stops
    cases stops
  · rw [stopped] at stops
    obtain ⟨rfl, -⟩ := Prod.ext_iff.mp (Option.some.inj stops)
    exact last

theorem serveFrom_single {i : ℕ} {stop : Stop}
    (stops : serveFrom host delay streaks [round] = some (i, stop)) : i = 0 := by
  rw [serveFrom] at stops
  split at stops
  · exact (Prod.ext_iff.mp (Option.some.inj stops)).1.symm
  · split at stops
    · exact (Prod.ext_iff.mp (Option.some.inj stops)).1.symm
    · cases stops

theorem Folded.unbroken (folded : Folded host delay rounds streaks) :
    Unbroken host delay rounds := by
  intro i stop stops
  rw [folded.passes] at stops
  cases stops

theorem unbroken_nil (host : Host) (delay : Int) : Unbroken host delay [] :=
  folded_nil.unbroken

theorem Folded.unbroken_snoc (folded : Folded host delay rounds streaks) :
    Unbroken host delay (rounds ++ [round]) := by
  intro i stop stops
  rw [folded, Option.map_eq_some_iff] at stops
  obtain ⟨⟨j, _⟩, inner, same⟩ := stops
  obtain ⟨rfl, rfl⟩ := Prod.ext_iff.mp same
  rw [serveFrom_single inner, List.length_append]
  rfl

end

/-! ## One round -/

/-- Where an exception may leave a round: the pid file is still there, and at most one more
round is judged. -/
def Serving (rounds : List Round) (s : Stage) : Prop :=
  s.point.left.isSome = true ∧ (s.rounds = rounds ∨ ∃ round, s.rounds = rounds ++ [round])

section
variable {limit : Option Int} {world : World} {cfg : Config} {args : Args} {completed : ℕ}
  {rounds : List Round} {roundNum returncode : Int} {point : Point} {α : Type}

theorem serving_of_at (left : point.left.isSome = true) {s : Stage}
    (here : At point completed rounds s) : Serving rounds s :=
  ⟨here.1 ▸ left, .inl here.2.2⟩

/-- A command that leaves the stage alone, with its exceptions out of the loop. -/
theorem triple_gate {x : Cmd α} (quiet : Quiet limit point x) (left : point.left.isSome = true) :
    Triple (Reached limit (At point completed rounds)) x
      (fun _ => Reached limit (At point completed rounds)) fun _ => Reached limit (Serving rounds) :=
  triple_conseq (quiet completed rounds) (fun _ => id) (fun _ _ => id) fun _ _ reached =>
    reached.weaken fun _ => serving_of_at left

/-- A call that takes a round from one point to the next. -/
theorem triple_move {answer : List Step → Except Raised α} {step : α → Step} {p q : Point}
    {completed' : ℕ} (left : p.left.isSome = true) (held : p.holds = true ∧ q.holds = true)
    (moves : ∀ s a, At p completed rounds s →
      next limit s (step a) = some { s with point := q, completed := completed' }) :
    Triple (Reached limit (At p completed rounds)) (act world answer (returned step))
      (fun _ => Reached limit (At q completed' rounds)) fun _ => Reached limit (Serving rounds) := by
  refine triple_act (steady_at _ _ _) fun s r here _ => ?_
  cases r with
  | ok a => exact ⟨_, moves s a here, rfl, fun _ => held.2, rfl, rfl, here.2.2⟩
  | error e =>
    have stays : next limit s .failed = some s := (next_failed (.inl (here.1 ▸ held.1))).1
    exact ⟨s, stays, rfl, id, serving_of_at left here⟩

/-- A round is opened behind a look at the flag that found no stop, and within the limit. -/
theorem triple_substrateBefore (within : Within limit completed) :
    Triple (Reached limit fun s => At .ready completed rounds s ∧ s.clear = true)
      (captureSubstrate world (.substrateBefore roundNum))
      (fun _ => Reached limit (At (.opened roundNum) completed rounds))
      fun _ => Reached limit (Serving rounds) := by
  have steady : Steady fun s => At .ready completed rounds s ∧ s.clear = true := fun _ => id
  have held : ∀ s, At .ready completed rounds s ∧ s.clear = true → s.point.holds = true :=
    fun s both => by rw [both.1.1]; rfl
  have looks : ∀ answer : List Step → Except Raised (Option String),
      Triple (Reached limit fun s => At .ready completed rounds s ∧ s.clear = true)
        (look world answer)
        (fun _ => Reached limit fun s => At .ready completed rounds s ∧ s.clear = true)
        fun _ => Reached limit (Serving rounds) := fun answer =>
    triple_conseq (triple_look steady held answer) (fun _ => id) (fun _ _ => And.left)
      fun _ _ reached => reached.weaken fun _ both => serving_of_at rfl both.1
  refine triple_bind (looks _) fun gitHead => triple_bind (looks _) fun pathsHash => ?_
  refine triple_act steady fun s r both _ => ?_
  cases r with
  | ok a =>
    exact ⟨_, if_pos ⟨both.1.1, both.2, both.1.2.1 ▸ within⟩, rfl, fun _ => rfl, rfl, both.1.2⟩
  | error e =>
    exact ⟨s, (next_failed (.inl (held s both))).1, rfl, id, serving_of_at rfl both.1⟩

theorem quiet_publish {sessions : RoundEnv.Sessions} {n : Int} {phase : Option String} :
    Quiet limit (.opened roundNum) (publish world cfg sessions n phase) := by
  refine quiet_bind (quiet_emitIf rfl fun _ => rfl) fun _ => ?_
  dsimp only
  split
  · exact quiet_pure _
  · exact quiet_bind (quiet_emit rfl fun _ => rfl) fun _ => quiet_pure _

theorem triple_spawnRound {c : Child} :
    Triple (Reached limit (At (.opened c.roundNum) completed rounds)) (spawnRound world c)
      (fun returncode => Reached limit (At (.ended c.roundNum returncode) completed rounds))
      fun _ => Reached limit (Serving rounds) := by
  refine triple_act (steady_at _ _ _) fun s r here _ => ?_
  cases r with
  | ok a => exact ⟨_, if_pos here.1, rfl, fun _ => rfl, rfl, here.2⟩
  | error e => exact ⟨_, if_pos here.1, rfl, fun _ => rfl, rfl, .inl here.2.2⟩

theorem triple_substrateAfter :
    Triple (Reached limit (At (.linked roundNum returncode) completed rounds))
      (captureSubstrate world (.substrateAfter roundNum))
      (fun _ => Reached limit (At (.closed roundNum returncode) (completed + 1) rounds))
      fun _ => Reached limit (Serving rounds) := by
  refine triple_bind (triple_gate (quiet_look (.inl rfl) _) rfl) fun gitHead => ?_
  refine triple_bind (triple_gate (quiet_look (.inl rfl) _) rfl) fun pathsHash => ?_
  refine triple_move rfl ⟨rfl, rfl⟩ fun s a here => ?_
  simp only [next, announce, here.1, here.2.1, if_true]

/-- The round judged is the one that ran. -/
theorem triple_scanned {phase : Option String} {durationS : ℚ} :
    Triple (Reached limit (At (.closed roundNum returncode) completed rounds))
      (scanned world cfg phase returncode durationS)
      (fun round p => Reached limit (At (.closed roundNum returncode) completed rounds) p ∧
        round.returncode = returncode)
      fun _ => Reached limit (Serving rounds) := by
  refine triple_conseq (triple_look (steady_at _ _ _) (fun s here => here.1 ▸ rfl) _)
    (fun _ => id) (fun round p found => ⟨found.1, ?_⟩) fun _ _ reached =>
      reached.weaken fun _ => serving_of_at rfl
  obtain ⟨-, steps, said⟩ := found
  split at said
  · cases said
  · rw [← Except.ok.inj said]

/-! ## The verdict -/

theorem ok_of_lifted {answer : Except PyErr α} {a : α}
    (lifted : answer.mapError raisedBy = .ok a) : answer = .ok a := by
  cases answer with
  | ok b => exact congrArg _ (Except.ok.inj lifted)
  | error e => cases lifted

/-- Behind a round the policy has judged it, on the streaks carried into it. -/
theorem triple_postRoundVerdicts {streaks : Streaks} {round : Round}
    (ran : round.returncode = returncode) :
    Triple (Reached limit (At (.closed roundNum returncode) completed rounds))
      (Serve.postRoundVerdicts world cfg streaks round)
      (fun verdicts p => ∃ judged, ServePolicy.postRoundVerdicts world.host
          cfg.runtime.restartDelayS streaks judged = .ok verdicts ∧
        Reached limit (At .ready completed (rounds ++ [judged])) p)
      fun _ => Reached limit (Serving rounds) := by
  refine triple_bind (triple_gate (quiet_look (.inl rfl) _) rfl) fun _ => ?_
  refine triple_bind (triple_gate (quiet_look (.inl rfl) _) rfl) fun trail => ?_
  refine triple_bind (triple_gate (quiet_emitAll rfl fun emission member => ?_) rfl) fun _ => ?_
  · obtain ⟨_, -, rfl⟩ := List.mem_map.mp member
    exact fun _ => rfl
  refine triple_bind (?_ : Triple _ _ (fun judged =>
    Reached limit (At .ready completed (rounds ++ [judged]))) _) fun judged => ?_
  · refine triple_act (steady_at _ _ _) fun s r here origin => ?_
    obtain ⟨steps, rfl⟩ := origin
    refine ⟨{ s with point := .ready, rounds := s.rounds ++ [_] }, ?_, rfl, fun _ => rfl, rfl,
      here.2.1, by rw [here.2.2]⟩
    simp only [returned, next, here.1]
    exact if_pos ran
  · have later : ∀ s, At .ready completed (rounds ++ [judged]) s → Serving rounds s :=
      fun s here => ⟨here.1 ▸ rfl, .inr ⟨judged, here.2.2⟩⟩
    refine triple_seq (fun _ _ reached => reached.weaken later)
      (triple_look (steady_at _ _ _) (fun s here => here.1 ▸ rfl) _) fun verdicts => ?_
    refine triple_fact (fun p found => found.2) fun said => ?_
    obtain ⟨steps, said⟩ := said
    refine triple_seq (fun _ _ reached => reached.weaken later)
      (triple_pre (quiet_emitAll rfl (fun emission member => ?_) completed (rounds ++ [judged]))
        fun _ => And.left) fun _ => triple_pure fun p reached => ⟨judged, ?_, reached⟩
    · obtain ⟨_, -, rfl⟩ := List.mem_map.mp member
      exact fun _ => rfl
    · exact ok_of_lifted said

/-! ## The loop -/

/-- Between two turns: what has been judged was let pass, with the streaks carried. -/
def Carries (limit : Option Int) (world : World) (cfg : Config) (carried : Carried)
    (p : Process) : Prop :=
  ∃ rounds, Folded world.host cfg.runtime.restartDelayS rounds carried.streaks ∧
    Reached limit (At .ready carried.roundsCompleted rounds) p

/-- The loop is left with an exit code. -/
def Exits (limit : Option Int) (world : World) (cfg : Config) (code : Int) : Process → Prop :=
  Reached limit fun s => s.point = .ready ∧ Judged world.host cfg.runtime.restartDelayS s.rounds code

/-- The loop is left by an exception. -/
def Breaks (limit : Option Int) (world : World) (cfg : Config) : Process → Prop :=
  Reached limit fun s =>
    s.point.left.isSome = true ∧ Unbroken world.host cfg.runtime.restartDelayS s.rounds

variable {carried : Carried}

/-- Behind a verdict: the exit it demands, or the sleep before the next turn. -/
theorem triple_afterRound {live : Bool} {verdicts : Verdicts} {judged : Round}
    {streaks : Streaks} (folded : Folded world.host cfg.runtime.restartDelayS rounds streaks)
    (said : ServePolicy.postRoundVerdicts world.host cfg.runtime.restartDelayS streaks judged =
      .ok verdicts) (now : carried.streaks = verdicts.streaks) :
    Triple (Reached limit (At .ready carried.roundsCompleted (rounds ++ [judged])))
      (afterRound world cfg args live carried verdicts)
      (fun answer p => answer.elim (Carries limit world cfg · p) (Exits limit world cfg · p))
      fun _ => Breaks limit world cfg := by
  unfold afterRound
  cases exits : verdicts.exit with
  | some exit =>
    exact triple_pure fun p reached => reached.weaken fun s here =>
      ⟨here.1, here.2.2 ▸ folded.exits said exits⟩
  | none =>
    have passed := folded.snoc said exits
    have clean : ∀ s, At .ready carried.roundsCompleted (rounds ++ [judged]) s →
        s.point = .ready ∧ Judged world.host cfg.runtime.restartDelayS s.rounds 0 :=
      fun s here => ⟨here.1, here.2.2 ▸ .inl ⟨passed.passes, rfl⟩⟩
    have broken : ∀ (e : Raised) p, Reached limit
        (At .ready carried.roundsCompleted (rounds ++ [judged])) p → Breaks limit world cfg p :=
      fun _ p reached => reached.weaken fun s here => ⟨here.1 ▸ rfl, here.2.2 ▸ folded.unbroken_snoc⟩
    refine triple_ite (fun _ => triple_pure fun p reached => reached.weaken clean) fun _ => ?_
    refine triple_seq broken (quiet_requested _ _) fun stopped => ?_
    refine triple_ite (fun _ => triple_pure fun p reached => reached.weaken clean) fun _ => ?_
    refine triple_seq broken (quiet_interruptibleSleep _ _) fun _ => triple_pure fun p reached => ?_
    exact ⟨rounds ++ [judged], now ▸ passed, reached⟩

theorem breaks_of_serving (folded : Folded world.host cfg.runtime.restartDelayS rounds
    carried.streaks) (p : Process) (reached : Reached limit (Serving rounds) p) :
    Breaks limit world cfg p := by
  refine reached.weaken fun s serving => ⟨serving.1, ?_⟩
  obtain same | ⟨round, same⟩ := serving.2
  · exact same ▸ folded.unbroken
  · exact same ▸ folded.unbroken_snoc

/-- A round, from the selection of its phase to the next turn. -/
theorem triple_runRound {live cgroupProbeDefer : Bool} {phase : Option String}
    (folded : Folded world.host cfg.runtime.restartDelayS rounds carried.streaks)
    (within : Within limit carried.roundsCompleted) :
    Triple (Reached limit fun s => At .ready carried.roundsCompleted rounds s ∧ s.clear = true)
      (runRound world cfg args live cgroupProbeDefer carried roundNum phase)
      (fun answer p => answer.elim (Carries limit world cfg · p) (Exits limit world cfg · p))
      fun _ => Breaks limit world cfg := by
  have broken : ∀ (_ : Raised) p, Reached limit (Serving rounds) p → Breaks limit world cfg p :=
    fun _ => breaks_of_serving folded
  refine triple_seq broken (triple_substrateBefore within) fun _ => ?_
  refine triple_seq broken (triple_gate quiet_publish rfl) fun sessions => ?_
  refine triple_seq broken (triple_gate (quiet_look (.inl rfl) _) rfl) fun log => ?_
  refine triple_seq broken (triple_gate (quiet_reading (.inl rfl) _) rfl) fun started => ?_
  refine triple_seq broken (triple_spawnRound (c := child world cfg args cgroupProbeDefer
    sessions.env roundNum log phase)) fun returncode => ?_
  refine triple_seq broken (triple_gate (quiet_reading (.inl rfl) _) rfl) fun ended => ?_
  refine triple_seq broken (?_ : Triple _ _ (fun _ => Reached limit
    (At (.linked roundNum returncode) carried.roundsCompleted rounds)) _) fun _ => ?_
  · refine triple_move rfl ⟨rfl, rfl⟩ fun s a here => ?_
    simp only [next, here.1, ← here.2.1]
    rfl
  refine triple_seq broken triple_substrateAfter fun _ => ?_
  refine triple_seq broken triple_scanned fun round => ?_
  refine triple_fact (fun p both => both.2) fun ran => ?_
  refine triple_seq broken (triple_pre (triple_postRoundVerdicts ran) fun _ => And.left)
    fun verdicts => ?_
  intro p r t found ended
  obtain ⟨judged, said, reached⟩ := found
  exact triple_afterRound folded said rfl p r t reached ended

/-- Nothing is judged between two turns, so a gate may break the loop or leave it. -/
theorem breaks_of_ready (folded : Folded world.host cfg.runtime.restartDelayS rounds
    carried.streaks) (p : Process) (reached : Reached limit (At .ready completed rounds) p) :
    Breaks limit world cfg p :=
  reached.weaken fun _ here => ⟨here.1 ▸ rfl, here.2.2 ▸ folded.unbroken⟩

theorem exits_of_ready (folded : Folded world.host cfg.runtime.restartDelayS rounds
    carried.streaks) (p : Process) (reached : Reached limit (At .ready completed rounds) p) :
    Exits limit world cfg 0 p :=
  reached.weaken fun _ here => ⟨here.1, here.2.2 ▸ .inl ⟨folded.passes, rfl⟩⟩

/-- From the number of a round on. -/
theorem triple_selectAndRun {live cgroupProbeDefer : Bool} {throttled : List String}
    {wakeEpoch : Option Int}
    (folded : Folded world.host cfg.runtime.restartDelayS rounds carried.streaks)
    (within : Within limit carried.roundsCompleted) :
    Triple (Reached limit (At .ready carried.roundsCompleted rounds))
      (selectAndRun world cfg args live cgroupProbeDefer carried throttled wakeEpoch)
      (fun answer p => answer.elim (Carries limit world cfg · p) (Exits limit world cfg · p))
      fun _ => Breaks limit world cfg := by
  have broken : ∀ (_ : Raised) p, Reached limit (At .ready carried.roundsCompleted rounds) p →
      Breaks limit world cfg p := fun _ => breaks_of_ready folded
  refine triple_seq broken (quiet_look (.inl rfl) _ _ _) fun roundNum => ?_
  refine triple_seq broken (quiet_selectAndGate _ _) fun selected => ?_
  cases selected with
  | none => exact triple_pure fun p reached => ⟨rounds, folded, reached⟩
  | some phase =>
    refine triple_seq broken (triple_requested _ _) fun stopped => triple_ite (fun _ => ?_)
      fun going => ?_
    · exact triple_pure fun p reached => exits_of_ready folded p (reached.weaken fun _ => And.left)
    · exact triple_pre (triple_runRound folded within) fun p reached =>
        reached.weaken fun s both => ⟨both.1, both.2 (by simpa using going)⟩

/-- One turn keeps what is carried, or leaves the loop. -/
theorem triple_turn {live cgroupProbeDefer : Bool} :
    Triple (Carries limit world cfg carried)
      (turn world cfg args limit live cgroupProbeDefer carried)
      (fun answer p => answer.elim (Carries limit world cfg · p) (Exits limit world cfg · p))
      fun _ => Breaks limit world cfg := by
  refine triple_exists fun rounds => triple_fact (fun p both => both.1) fun folded =>
    triple_pre (?_ : Triple (Reached limit (At .ready carried.roundsCompleted rounds)) _ _ _)
      fun p both => both.2
  have broken : ∀ (_ : Raised) p, Reached limit (At .ready carried.roundsCompleted rounds) p →
      Breaks limit world cfg p := fun _ => breaks_of_ready folded
  have leaves : ∀ p, Reached limit (At .ready carried.roundsCompleted rounds) p →
      Exits limit world cfg 0 p := exits_of_ready folded
  refine triple_seq broken (quiet_requested _ _) fun stopped => ?_
  refine triple_ite (fun _ => triple_pure leaves) fun _ => ?_
  refine triple_seq broken (quiet_checkSelfTerminatedSentinel _ _) fun sentinel => ?_
  refine triple_ite (fun _ => triple_pure leaves) fun _ => ?_
  refine triple_seq broken (quiet_roundThrottleGate _ _) fun gate => ?_
  cases gate with
  | none => exact triple_pure leaves
  | some context =>
    refine triple_seq broken (triple_stopFileDetected _ _) fun there => ?_
    refine triple_ite (fun _ => triple_pure leaves) fun _ => ?_
    refine triple_seq broken (triple_maxRoundsReached _ _) fun reached => ?_
    refine triple_ite (fun _ => triple_pure fun p both => leaves p both.1) fun below => ?_
    refine triple_fact (fun p both => both.2) fun within => ?_
    exact triple_pre (triple_selectAndRun folded (within (by simpa using below))) fun p => And.left

/-- The loop of a lifetime. -/
theorem triple_turns {live cgroupProbeDefer : Bool} (fuel : ℕ) :
    Triple (Carries limit world cfg carried)
      (loop .killed (turn world cfg args limit live cgroupProbeDefer) fuel carried)
      (fun code => Exits limit world cfg code) fun _ => Breaks limit world cfg :=
  triple_loop (Carries limit world cfg) (fun _ => triple_turn) (fun carried p carries => by
    obtain ⟨rounds, folded, reached⟩ := carries
    exact breaks_of_ready folded p reached) fuel carried

end

/-! ## The frame of the loop -/

/-- The process ends at a stage. -/
def Stands (limit : Option Int) (P : Stage → Prop) (p : Process) : Prop :=
  ∃ s, Accepts limit p.steps s ∧ P s

/-- The limit on rounds of a lifetime. -/
def effectiveMaxRounds (cfg : Config) (args : Args) : Option Int :=
  args.maxRounds.or cfg.runtime.maxRounds

theorem resolved_eq {cliValue configValue limit : Option Int}
    (resolved : resolveMaxRounds cliValue configValue = .ok limit) :
    limit = cliValue.or configValue := by
  unfold resolveMaxRounds at resolved
  split at resolved
  · rename_i absent
    rw [absent, ← Except.ok.inj resolved]
  · rename_i effective given
    split at resolved
    · cases resolved
    · rw [given, ← Except.ok.inj resolved]

section
variable {limit : Option Int} {world : World} {cfg : Config} {args : Args} {P Q : Stage → Prop}

theorem stands_of_reached {p : Process} (reached : Reached limit P p) (weaker : ∀ s, P s → Q s) :
    Stands limit Q p := by
  obtain ⟨s, accepted, -, -, holds⟩ := reached
  exact ⟨s, accepted, weaker s holds⟩

/-- A call behind which nothing else is called. -/
theorem triple_last {α : Type} {answer : List Step → Except Raised α}
    {step : Except Raised α → Step} {post : α → Stage → Prop} {exc : Raised → Stage → Prop}
    (steady : Steady P) (goes : ∀ s r, P s → (∃ steps, answer steps = r) → ∃ next_,
      next limit s (step r) = some next_ ∧ Allowed post exc r next_) :
    Triple (Reached limit P) (act world answer step) (fun a => Stands limit (post a))
      fun e => Stands limit (exc e) := by
  refine triple_perform fun p reached => ?_
  obtain ⟨s, accepted, -, -, holds⟩ := @reached_arrive limit P p world steady reached
  obtain ⟨next_, moved, allowed⟩ := goes s (answer (arrive world p).steps) holds ⟨_, rfl⟩
  dsimp only
  cases said : answer (arrive world p).steps with
  | ok a =>
    rw [said] at moved allowed
    exact ⟨next_, accepts_concat accepted moved, allowed⟩
  | error e =>
    rw [said] at moved allowed
    exact ⟨next_, accepts_concat accepted moved, allowed⟩

/-- A call of the clean-up raised this exception. -/
def CleanUpFailed (world : World) (e : Raised) : Prop :=
  ∃ steps, world.unlinkPid steps = .error e ∨ world.unlock steps = .error e

/-- The lock given back, from where it may be. -/
theorem triple_releaseServeLock (whole : Bool) (U : List Round → Prop) :
    Triple (Reached limit fun s => s.point.released = some whole ∧ U s.rounds)
      (releaseServeLock world)
      (fun _ => Stands limit fun s => s.point = .finished whole ∧ U s.rounds)
      fun e => Stands limit fun s => U s.rounds ∧ CleanUpFailed world e := by
  refine triple_last (fun _ => id) fun s r here origin => ?_
  cases r with
  | ok a =>
    refine ⟨{ s with point := .finished whole }, ?_, rfl, here.2⟩
    obtain ⟨released, -⟩ := here
    cases point : s.point <;> rw [point] at released <;> cases released <;>
      simp only [returned, next, point]
  | error e =>
    obtain ⟨steps, said⟩ := origin
    refine ⟨s, (next_failed (.inl ?_)).1, here.2, steps, .inr said⟩
    cases point : s.point <;> rw [point] at here <;> first | rfl | cases here.1

/-- The `finally` of the loop. -/
theorem triple_cleanUp (whole : Bool) (U : List Round → Prop) :
    Triple (Reached limit fun s => s.point.left = some whole ∧ U s.rounds) (cleanUp world)
      (fun _ => Stands limit fun s => s.point = .finished whole ∧ U s.rounds)
      fun e => Stands limit fun s => U s.rounds ∧ CleanUpFailed world e := by
  have unlinked : Triple (Reached limit fun s => s.point.left = some whole ∧ U s.rounds)
      (act world world.unlinkPid (returned fun _ => .pidUnlinked))
      (fun _ => Reached limit fun s => s.point.released = some whole ∧ U s.rounds)
      (fun e => Reached limit fun s => U s.rounds ∧ CleanUpFailed world e) := by
    refine triple_act (fun _ => id) fun s r here origin => ?_
    cases r with
    | ok a =>
      refine ⟨{ s with point := .leaving whole }, ?_, rfl, fun _ => rfl, rfl, here.2⟩
      obtain ⟨left, -⟩ := here
      cases point : s.point <;> rw [point] at left <;> cases left <;>
        simp only [returned, next, point]
    | error e =>
      obtain ⟨steps, said⟩ := origin
      refine ⟨s, (next_failed (.inl ?_)).1, rfl, id, here.2, steps, .inl said⟩
      cases point : s.point <;> rw [point] at here <;> first | rfl | cases here.1
  exact triple_seq (fun _ _ reached => stands_of_reached reached fun _ => id) unlinked
    fun _ => triple_releaseServeLock whole U

/-! ## A lifetime -/

theorem quiet_pruneServeRoundLogs : Quiet limit .boot (pruneServeRoundLogs world cfg) :=
  quiet_bind (quiet_reading (.inl rfl) _) fun _ => quiet_bind (quiet_look (.inl rfl) _) fun _ =>
    quiet_emitIf rfl fun _ => rfl

theorem triple_prepare :
    Triple (Reached limit (At .boot 0 [])) (prepare world cfg args)
      (fun resolved p => Reached limit (At .boot 0 []) p ∧ resolved = effectiveMaxRounds cfg args)
      fun _ => Reached limit (At .boot 0 []) := by
  refine triple_bind (quiet_look (.inl rfl) _ 0 []) fun _ => ?_
  refine triple_bind (quiet_pruneServeRoundLogs 0 []) fun _ => ?_
  refine triple_post (triple_look (steady_at _ _ _) (fun s here => here.1 ▸ rfl) _)
    fun resolved p found => ⟨found.1, ?_⟩
  obtain ⟨-, steps, said⟩ := found
  exact resolved_eq said

/-- What a lifetime starts with: the limit asked for, or no loop at all. -/
theorem triple_prepareLoop :
    Triple (Reached limit (At .boot 0 [])) (prepareLoop world cfg args)
      (Allowed (fun resolved p => Reached limit (At .boot 0 []) p ∧
          resolved = effectiveMaxRounds cfg args)
        fun code p => Reached limit (At .boot 0 []) p ∧ code = permanentConfigExit)
      fun _ => Reached limit (At .boot 0 []) := by
  refine triple_bind (triple_conseq (triple_attempt triple_prepare) (fun _ => id) (fun _ _ => id)
    fun _ _ => And.left) fun prepared => ?_
  cases prepared with
  | ok resolved => exact triple_pure fun p found => found
  | error e =>
    refine triple_bind (triple_pre (quiet_emit rfl (fun _ => rfl) 0 []) fun _ => And.left)
      fun _ => triple_pure fun p reached => ⟨reached, rfl⟩

theorem quiet_probeAndEmitCgroupDefer : Quiet limit .boot (probeAndEmitCgroupDefer world) :=
  quiet_bind (quiet_look (.inl rfl) _) fun _ => quiet_bind (quiet_emit rfl fun _ => rfl) fun _ =>
    quiet_pure _

theorem triple_armSignals :
    Triple (Reached limit (At .boot 0 [])) armSignals (fun _ => Reached limit (At .boot 0 []))
      fun _ => Reached limit (At .boot 0 []) := by
  refine triple_perform fun p reached => ?_
  obtain ⟨s, accepted, stop, -, here⟩ := reached
  exact ⟨s, accepted, stop, fun _ => here.1 ▸ rfl, here⟩

/-- The loop, from the pid file on. -/
theorem triple_serveLoop {live cgroupProbeDefer : Bool} :
    Triple (Reached limit (At .boot 0 [])) (serveLoop world cfg args limit live cgroupProbeDefer)
      (fun code => Exits limit world cfg code) fun _ => Breaks limit world cfg := by
  have folded : Folded world.host cfg.runtime.restartDelayS [] (boot world cfg).streaks := folded_nil
  refine triple_seq (fun _ => breaks_of_serving folded)
    (?_ : Triple _ _ (fun _ => Reached limit (At .ready 0 [])) _) fun _ => ?_
  · refine triple_move rfl ⟨rfl, rfl⟩ fun s a here => ?_
    simp only [next, here.1, ← here.2.1, if_true]
  · exact triple_pre (triple_turns world.patience) fun p reached => ⟨[], folded, reached⟩

/-- How a lifetime may end with an exit code: another one is serving, it could not start, or
the loop was left. -/
def Answered (world : World) (cfg : Config) (code : Int) (s : Stage) : Prop :=
  (s.point = .outside ∧ s.rounds = [] ∧ code = 1) ∨ (s.point = .finished true ∧
    ((s.rounds = [] ∧ code = permanentConfigExit) ∨
      Judged world.host cfg.runtime.restartDelayS s.rounds code))

/-- How a lifetime may end in an exception. Before the loop the lock is left to the system;
behind it, it is given back unless that is what failed, or the process was killed. -/
def Ruined (world : World) (cfg : Config) (e : Raised) (s : Stage) : Prop :=
  Unbroken world.host cfg.runtime.restartDelayS s.rounds ∧ (s.point = .outside ∨ s.point = .boot ∨
    (∃ whole, s.point = .finished whole) ∨ e = .killed ∨ CleanUpFailed world e)

theorem ruined_at_boot (e : Raised) (p : Process) (reached : Reached limit (At .boot 0 []) p) :
    Stands limit (Ruined world cfg e) p :=
  stands_of_reached reached fun _ here =>
    ⟨here.2.2 ▸ unbroken_nil world.host cfg.runtime.restartDelayS, .inr (.inl here.1)⟩

theorem ruined_of_failed (e : Raised) (p : Process) (failed : Stands limit (fun s =>
    Unbroken world.host cfg.runtime.restartDelayS s.rounds ∧ CleanUpFailed world e) p) :
    Stands limit (Ruined world cfg e) p := by
  obtain ⟨s, accepted, unbroken, cleanUp⟩ := failed
  exact ⟨s, accepted, unbroken, .inr (.inr (.inr (.inr cleanUp)))⟩

/-- A lifetime that cannot start gives the lock back. -/
theorem triple_giveBack :
    Triple (Reached limit (At .boot 0 [])) (releaseServeLock world)
      (fun _ => Stands limit fun s => s.point = .finished true ∧ s.rounds = [])
      fun e => Stands limit (Ruined world cfg e) := by
  refine triple_conseq (triple_releaseServeLock true (· = []))
    (fun p reached => reached.weaken fun _ here => ⟨here.1 ▸ rfl, here.2.2⟩) (fun _ _ => id) ?_
  rintro e p ⟨s, accepted, none, cleanUp⟩
  exact ruined_of_failed e p ⟨s, accepted,
    none ▸ unbroken_nil world.host cfg.runtime.restartDelayS, cleanUp⟩

/-- The loop in its `try … finally`. -/
theorem triple_served {live cgroupProbeDefer : Bool} :
    Triple (Reached limit (At .boot 0 []))
      (ensure Raised.isKilled (serveLoop world cfg args limit live cgroupProbeDefer) (cleanUp world))
      (fun code => Stands limit (Answered world cfg code))
      fun e => Stands limit (Ruined world cfg e) := by
  refine triple_ensure triple_serveLoop (fun e p broken killed => ?_) (fun code => ?_)
    fun e alive => ?_
  · refine stands_of_reached broken fun s here => ⟨here.2, .inr (.inr (.inr (.inl ?_)))⟩
    cases e with
    | killed => rfl
    | _ => cases killed
  · refine triple_conseq
      (triple_cleanUp true (Judged world.host cfg.runtime.restartDelayS · code))
      (fun p exits => exits.weaken fun _ here => ⟨here.1 ▸ rfl, here.2⟩) ?_ ?_
    · rintro _ p ⟨s, accepted, finished, judged⟩
      exact ⟨s, accepted, .inr ⟨finished, .inr judged⟩⟩
    · rintro e p ⟨s, accepted, judged, cleanUp⟩
      exact ruined_of_failed e p ⟨s, accepted, judged.unbroken, cleanUp⟩
  · have frames : ∀ whole, Triple
        (Reached limit fun s => s.point.left = some whole ∧
          Unbroken world.host cfg.runtime.restartDelayS s.rounds)
        (cleanUp world) (fun _ => Stands limit (Ruined world cfg e))
        fun e => Stands limit (Ruined world cfg e) := by
      intro whole
      refine triple_conseq (triple_cleanUp whole _) (fun _ => id) ?_ ruined_of_failed
      rintro _ p ⟨s, accepted, finished, unbroken⟩
      exact ⟨s, accepted, unbroken, .inr (.inr (.inl ⟨whole, finished⟩))⟩
    refine triple_pre (triple_exists frames) fun p broken => ?_
    obtain ⟨s, accepted, stop, armed, left, unbroken⟩ := broken
    obtain ⟨whole, left⟩ := Option.isSome_iff_exists.mp left
    exact ⟨whole, s, accepted, stop, armed, left, unbroken⟩

/-- A lifetime, from the lock on. -/
theorem triple_cmdLocked (bound : limit = effectiveMaxRounds cfg args) :
    Triple (Reached limit (At .boot 0 [])) (cmdLocked world cfg args)
      (fun code => Stands limit (Answered world cfg code))
      fun e => Stands limit (Ruined world cfg e) := by
  refine triple_seq ruined_at_boot triple_armSignals fun _ => ?_
  refine triple_seq ruined_at_boot (quiet_look (.inl rfl) _ 0 []) fun live => ?_
  refine triple_seq ruined_at_boot triple_prepareLoop fun prepared => ?_
  cases prepared with
  | error failCode =>
    refine triple_fact (fun p found => found.2) fun permanent => ?_
    refine triple_bind (triple_pre triple_giveBack fun p => And.left) fun _ => triple_pure ?_
    rintro p ⟨s, accepted, finished, none⟩
    exact ⟨s, accepted, .inr ⟨finished, .inl ⟨none, permanent⟩⟩⟩
  | ok resolved =>
    refine triple_fact (fun p found => found.2) fun same => ?_
    obtain rfl : resolved = limit := same.trans bound.symm
    refine triple_seq ruined_at_boot (triple_pre (quiet_probeAndEmitCgroupDefer 0 [])
      fun p => And.left) fun cgroupProbeDefer => ?_
    refine triple_ite (fun _ => triple_served) fun _ => ?_
    refine triple_bind triple_giveBack fun _ => triple_raise ?_
    rintro p ⟨s, accepted, finished, none⟩
    exact ⟨s, accepted, none ▸ unbroken_nil world.host cfg.runtime.restartDelayS,
      .inr (.inr (.inl ⟨true, finished⟩))⟩

theorem triple_acquireServeLock :
    Triple (Reached limit (At .outside 0 [])) (acquireServeLock world)
      (fun held => Reached limit (At (if held then .boot else .outside) 0 []))
      fun _ => Reached limit (At .outside 0 []) := by
  refine triple_act (steady_at _ _ _) fun s r here _ => ?_
  cases r with
  | ok held =>
    refine ⟨_, if_pos here.1, ?_⟩
    cases held with
    | true => exact ⟨rfl, fun _ => rfl, rfl, here.2⟩
    | false => exact ⟨rfl, id, here⟩
  | error e => exact ⟨s, (next_failed (.inr here.1)).1, rfl, id, here⟩

/-- A lifetime, from its first call on. -/
theorem triple_cmd :
    Triple (· = fresh) (cmd world cfg args)
      (fun code => Stands (effectiveMaxRounds cfg args) (Answered world cfg code))
      fun e => Stands (effectiveMaxRounds cfg args) (Ruined world cfg e) := by
  have outside : ∀ (e : Raised) p, Reached (effectiveMaxRounds cfg args) (At .outside 0 []) p →
      Stands (effectiveMaxRounds cfg args) (Ruined world cfg e) p :=
    fun e p reached => stands_of_reached reached fun s here =>
      ⟨here.2.2 ▸ unbroken_nil world.host cfg.runtime.restartDelayS, .inl here.1⟩
  refine triple_pre
    (?_ : Triple (Reached (effectiveMaxRounds cfg args) (At .outside 0 [])) _ _ _) ?_
  · refine triple_seq outside (quiet_look (.inr rfl) _ 0 []) fun _ => ?_
    refine triple_seq outside triple_acquireServeLock fun held => ?_
    cases held with
    | true => exact triple_cmdLocked rfl
    | false =>
      exact triple_pure fun p reached => stands_of_reached reached fun s here =>
        .inl ⟨here.1, here.2.2, rfl⟩
  · rintro p rfl
    exact ⟨.first, rfl, rfl, nofun, rfl, rfl, rfl⟩

end

variable (world : World) (cfg : Config) (args : Args)

/-- A serve process, from its start to its end. -/
def lifetime : Except Raised Int × Process := outcome (cmd world cfg args) fresh

/-- What has happened in it. -/
def history : List Step := (lifetime world cfg args).2.steps

theorem lifetime_stands :
    Allowed (fun code => Stands (effectiveMaxRounds cfg args) (Answered world cfg code))
      (fun e => Stands (effectiveMaxRounds cfg args) (Ruined world cfg e))
      (lifetime world cfg args).1 (lifetime world cfg args).2 :=
  triple_cmd fresh _ _ rfl (ends_outcome _ _)

theorem stands_of_answer {code : Int} (answer : (lifetime world cfg args).1 = .ok code) :
    ∃ s, Accepts (effectiveMaxRounds cfg args) (history world cfg args) s ∧
      Answered world cfg code s := by
  have stands := lifetime_stands world cfg args
  rw [answer] at stands
  exact stands

theorem stands_of_exception {e : Raised} (answer : (lifetime world cfg args).1 = .error e) :
    ∃ s, Accepts (effectiveMaxRounds cfg args) (history world cfg args) s ∧
      Ruined world cfg e s := by
  have stands := lifetime_stands world cfg args
  rw [answer] at stands
  exact stands

theorem history_accepted :
    ∃ s, Accepts (effectiveMaxRounds cfg args) (history world cfg args) s := by
  cases answer : (lifetime world cfg args).1 with
  | ok code =>
    obtain ⟨s, accepted, -⟩ := stands_of_answer world cfg args answer
    exact ⟨s, accepted⟩
  | error e =>
    obtain ⟨s, accepted, -⟩ := stands_of_exception world cfg args answer
    exact ⟨s, accepted⟩

/-- **Rounds of a lifetime.**  Whatever the world answers, raises and signals, a lifetime is
rounds one after the other: each opened, run, linked, closed and judged under its own number,
by what its own child returned. One more may be cut, but only by an exception. -/
theorem rounds_of_a_lifetime : ∃ whole cut,
    marks (history world cfg args) = whole ++ cut ∧
      Whole whole (judgedRounds (history world cfg args)) ∧ (cut = [] ∨ ∃ p, Begun p cut) ∧
      ∀ code, (lifetime world cfg args).1 = .ok code → cut = [] := by
  cases answer : (lifetime world cfg args).1 with
  | ok code =>
    obtain ⟨s, accepted, answered⟩ := stands_of_answer world cfg args answer
    obtain ⟨whole, cut, split, rounds, part⟩ := bracketed_of_accepts accepted
    have none : cut = [] := by
      obtain ⟨outside, -⟩ | ⟨finished, -⟩ := answered
      · exact part_closed part (.inl outside)
      · exact part_closed part (.inr finished)
    exact ⟨whole, cut, split, rounds_of_accepts accepted ▸ rounds, .inl none, fun _ _ => none⟩
  | error e =>
    obtain ⟨s, accepted⟩ := history_accepted world cfg args
    obtain ⟨whole, cut, split, rounds, part⟩ := bracketed_of_accepts accepted
    exact ⟨whole, cut, split, rounds_of_accepts accepted ▸ rounds, part_or part, fun _ other => by
      cases other⟩

/-- **A stop is obeyed.**  No round is spawned behind a look at the flag that saw a stop, and
behind a request for one at most the round under way. -/
theorem stop_obeyed :
    (∀ before after, history world cfg args = before ++ .polled true :: after →
        spawns after = 0) ∧
      ∀ before after, history world cfg args = before ++ .stopRequested :: after →
        spawns after ≤ 1 := by
  obtain ⟨s, accepted⟩ := history_accepted world cfg args
  exact ⟨fun _ _ => halts_behind accepted, fun _ _ => drains_behind accepted⟩

/-- **The limit is kept.**  A lifetime spawns no more rounds than it is limited to, and
reports the limit where the rounds completed are exactly as many. -/
theorem limit_kept :
    (∀ maxRounds, effectiveMaxRounds cfg args = some maxRounds →
        spawns (history world cfg args) ≤ maxRounds.toNat) ∧
      ∀ completed maxRounds,
        .emitted (.maxRoundsReached completed maxRounds) ∈ history world cfg args →
          effectiveMaxRounds cfg args = some maxRounds ∧ completed = maxRounds.toNat := by
  obtain ⟨s, accepted⟩ := history_accepted world cfg args
  exact ⟨(counted_of_accepts accepted).within, fun _ _ => limit_announced accepted⟩

/-- **The exit code is the verdict.**  A lifetime that answers without a round was refused the
lock or could not start; any other answers what the restart policy says of the rounds it has
judged, and 0 where that lets all of them pass. No round is judged behind a verdict. -/
theorem exit_code_is_the_verdict :
    (∀ code, (lifetime world cfg args).1 = .ok code →
        (code = 1 ∧ .locked true ∉ history world cfg args) ∨
          (code = permanentConfigExit ∧ spawns (history world cfg args) = 0) ∨
          Judged world.host cfg.runtime.restartDelayS (judgedRounds (history world cfg args)) code) ∧
      Unbroken world.host cfg.runtime.restartDelayS (judgedRounds (history world cfg args)) := by
  cases answer : (lifetime world cfg args).1 with
  | ok code =>
    obtain ⟨s, accepted, answered⟩ := stands_of_answer world cfg args answer
    rw [← rounds_of_accepts accepted]
    obtain ⟨outside, none, rfl⟩ | ⟨finished, ⟨none, rfl⟩ | judged⟩ := answered
    · refine ⟨fun _ same => .inl ⟨(Except.ok.inj same).symm, ?_⟩, ?_⟩
      · exact unlocked_of_outside accepted outside
      · exact none ▸ unbroken_nil world.host cfg.runtime.restartDelayS
    · refine ⟨fun _ same => .inr (.inl ⟨(Except.ok.inj same).symm, ?_⟩), ?_⟩
      · exact spawns_of_unjudged accepted finished none
      · exact none ▸ unbroken_nil world.host cfg.runtime.restartDelayS
    · exact ⟨fun _ same => .inr (.inr (Except.ok.inj same ▸ judged)), judged.unbroken⟩
  | error e =>
    obtain ⟨s, accepted, unbroken, -⟩ := stands_of_exception world cfg args answer
    rw [← rounds_of_accepts accepted]
    exact ⟨fun _ other => (by cases other), unbroken⟩

/-- **The lock frames a lifetime.**  Every round is spawned under the lock and with the pid
file in place; and a pid file that was written is unlinked and the lock given back last,
unless the process was killed or a call of the clean-up itself failed. -/
theorem lock_frames_a_lifetime :
    (∀ before child answer after,
        history world cfg args = before ++ .spawned child answer :: after →
          .locked true ∈ before ∧ .pidWritten ∈ before ∧ .pidUnlinked ∉ before ∧
            .unlocked ∉ before) ∧
      (.pidWritten ∈ history world cfg args →
        (.pidUnlinked ∈ history world cfg args ∧
            (history world cfg args).getLast? = some .unlocked) ∨
          ∃ e, (lifetime world cfg args).1 = .error e ∧
            (e = .killed ∨ CleanUpFailed world e)) := by
  obtain ⟨s, accepted⟩ := history_accepted world cfg args
  refine ⟨fun _ _ _ _ => guarded_spawn accepted, fun written => ?_⟩
  cases answer : (lifetime world cfg args).1 with
  | ok code =>
    obtain ⟨s, accepted, outside | ended⟩ := stands_of_answer world cfg args answer
    · exact absurd written (unwritten_of_accepts accepted (.inl outside.1))
    · exact .inl (given_back accepted ended.1 written)
  | error e =>
    obtain ⟨s, accepted, -, unwritten | unwritten | ⟨whole, ended⟩ | failed⟩ :=
      stands_of_exception world cfg args answer
    · exact absurd written (unwritten_of_accepts accepted (.inl unwritten))
    · exact absurd written (unwritten_of_accepts accepted (.inr unwritten))
    · exact .inl (given_back accepted ended written)
    · exact .inr ⟨e, rfl, failed⟩

end AgentRunner.ServeLaw
