import AgentRunner.ServeStages

/-! A serve lifetime stays on its stages: what a call does to the stage reached, and that no
gate moves a round, however long it polls and however it ends. -/
namespace AgentRunner.ServeGates
open Effects Triples Runs PyValue ConfigModels Serve ServeStages ServePolicy

/-! ## Histories and stages -/

/-- The process has reached a stage, and its flag is that of the stage. -/
def Reached (limit : Option Int) (P : Stage → Prop) (p : Process) : Prop :=
  ∃ s, Accepts limit p.steps s ∧ p.stop = s.stop ∧ (p.armed = true → s.point.holds = true) ∧ P s

/-- At a point, with so many rounds completed and these judged. -/
def At (p : Point) (completed : ℕ) (rounds : List Round) (s : Stage) : Prop :=
  s.point = p ∧ s.completed = completed ∧ s.rounds = rounds

/-- A property that a request to stop leaves alone. -/
def Steady (P : Stage → Prop) : Prop := ∀ s, P s → P { s with stop := true }

section
variable {limit : Option Int} {P Q : Stage → Prop} {α β : Type} {p t : Process} {s : Stage}
  {world : World}

theorem accepts_concat {steps : List Step} {step : Step} {next_ : Stage}
    (accepted : Accepts limit steps s) (moved : next limit s step = some next_) :
    Accepts limit (steps ++ [step]) next_ :=
  run_append.mpr ⟨s, accepted, run_cons.mpr ⟨next_, moved, rfl⟩⟩

theorem Reached.weaken (reached : Reached limit P p) (weaker : ∀ s, P s → Q s) :
    Reached limit Q p := by
  obtain ⟨s, accepted, stop, armed, holds⟩ := reached
  exact ⟨s, accepted, stop, armed, weaker s holds⟩

theorem steady_at (p : Point) (completed : ℕ) (rounds : List Round) :
    Steady (At p completed rounds) := fun _ holds => holds

/-- A signal between two calls. -/
theorem reached_arrive (steady : Steady P) (reached : Reached limit P p) :
    Reached limit P (arrive world p) := by
  obtain ⟨s, accepted, stop, armed, holds⟩ := reached
  unfold arrive
  split
  · rename_i signalled
    have held := armed (Bool.and_eq_true_iff.mp signalled).1
    exact ⟨{ s with stop := true }, accepts_concat accepted (if_pos held), rfl, fun _ => held,
      steady s holds⟩
  · exact ⟨s, accepted, stop, armed, holds⟩

/-- One step from a stage. -/
theorem reached_step {step : Step} (accepted : Accepts limit p.steps s) (stop : p.stop = s.stop)
    (armed : p.armed = true → s.point.holds = true) {next_ : Stage}
    (moved : next limit s step = some next_) (same : next_.stop = s.stop)
    (kept : s.point.holds = true → next_.point.holds = true) (holds : Q next_) :
    Reached limit Q { p with steps := p.steps ++ [step] } :=
  ⟨next_, accepts_concat accepted moved, stop.trans same.symm, fun live => kept (armed live), holds⟩

/-- Where a call leads is where its step does. -/
theorem triple_act {answer : List Step → Except Raised α} {step : Except Raised α → Step}
    {post : α → Stage → Prop} {exc : Raised → Stage → Prop} (steady : Steady P)
    (goes : ∀ s r, P s → (∃ steps, answer steps = r) → ∃ next_,
      next limit s (step r) = some next_ ∧ next_.stop = s.stop ∧
        (s.point.holds = true → next_.point.holds = true) ∧ Allowed post exc r next_) :
    Triple (Reached limit P) (act world answer step) (fun a => Reached limit (post a))
      fun e => Reached limit (exc e) := by
  refine triple_perform fun p reached => ?_
  obtain ⟨s, accepted, stop, armed, holds⟩ := @reached_arrive limit P p world steady reached
  obtain ⟨next_, moved, same, kept, allowed⟩ := goes s (answer (arrive world p).steps) holds ⟨_, rfl⟩
  dsimp only
  cases said : answer (arrive world p).steps with
  | ok a =>
    rw [said] at moved allowed
    exact reached_step accepted stop armed moved same kept allowed
  | error e =>
    rw [said] at moved allowed
    exact reached_step accepted stop armed moved same kept allowed

/-! ## Commands that move no round -/

/-- The command leaves the point and the rounds as they are, however it ends. -/
def Quiet (limit : Option Int) (p : Point) (x : Cmd α) : Prop :=
  ∀ completed rounds, Triple (Reached limit (At p completed rounds)) x
    (fun _ => Reached limit (At p completed rounds)) fun _ => Reached limit (At p completed rounds)

variable {point : Point} {x y : Cmd α} {f : α → Cmd β}

theorem quiet_pure (a : α) : Quiet limit point (pure a : Cmd α) :=
  fun _ _ => triple_pure fun _ => id

theorem quiet_bind (first : Quiet limit point x) (second : ∀ a, Quiet limit point (f a)) :
    Quiet limit point (x >>= f) :=
  fun completed rounds => triple_bind (first completed rounds) fun a => second a completed rounds

theorem quiet_ite {p : Prop} [Decidable p] (yes : Quiet limit point x) (no : Quiet limit point y) :
    Quiet limit point (if p then x else y) :=
  fun completed rounds => triple_ite (fun _ => yes completed rounds) fun _ => no completed rounds

theorem quiet_attempt {caught : Raised → Bool} (quiet : Quiet limit point x) :
    Quiet limit point (attempt caught x) := by
  intro completed rounds
  refine triple_conseq (triple_attempt (quiet completed rounds)) (fun _ => id) (fun answer p => ?_)
    fun e p ended => ended.1
  cases answer with
  | ok a => exact id
  | error e => exact And.left

theorem quiet_loop {γ : Type} {body : β → Cmd (β ⊕ γ)} (quiet : ∀ b, Quiet limit point (body b))
    (fuel : ℕ) (b : β) : Quiet limit point (loop .killed body fuel b) :=
  fun completed rounds =>
    triple_loop (fun _ => Reached limit (At point completed rounds))
      (fun b => triple_post (quiet b completed rounds) fun answer p reached => by
        cases answer <;> exact reached) (fun _ _ => id) fuel b

/-- A call whose step leaves every stage at the point alone. -/
theorem quiet_act {answer : List Step → Except Raised α} {step : Except Raised α → Step}
    (silent : ∀ s r, s.point = point → next limit s (step r) = some s) :
    Quiet limit point (act world answer step) := by
  intro completed rounds
  refine triple_act (steady_at _ _ _) fun s r holds _ => ⟨s, silent s r holds.1, rfl, id, ?_⟩
  cases r <;> exact holds

theorem next_failed (held : s.point.holds = true ∨ s.point = .outside) :
    next limit s .failed = some s ∧ next limit s .asked = some s := by
  obtain held | outside := held
  · exact ⟨if_pos (by rw [held]; rfl), if_pos (by rw [held]; rfl)⟩
  · exact ⟨if_pos (by rw [outside]; rfl), if_pos (by rw [outside]; rfl)⟩

theorem quiet_look (held : point.holds = true ∨ point = .outside)
    (answer : List Step → Except Raised α) : Quiet limit point (look world answer) := by
  refine quiet_act fun s r here => ?_
  have both : next limit s .failed = some s ∧ next limit s .asked = some s :=
    next_failed (here ▸ held)
  cases r with
  | ok a => exact both.2
  | error e => exact both.1

/-- A reading answers what the world does. -/
theorem triple_look (steady : Steady P) (held : ∀ s, P s → s.point.holds = true)
    (answer : List Step → Except Raised α) :
    Triple (Reached limit P) (look world answer)
      (fun a p => Reached limit P p ∧ ∃ steps, answer steps = .ok a) fun _ => Reached limit P := by
  have quiet : Triple (Reached limit P) (look world answer) (fun _ => Reached limit P)
      fun _ => Reached limit P := by
    refine triple_act steady fun s r holds _ => ⟨s, ?_, rfl, id, ?_⟩
    · have both : next limit s .failed = some s ∧ next limit s .asked = some s :=
        next_failed (.inl (held s holds))
      cases r with
      | ok a => exact both.2
      | error e => exact both.1
    · cases r <;> exact holds
  intro p r t begun ended
  have allowed := quiet p r t begun ended
  obtain ⟨said, -⟩ := Prod.ext_iff.mp (ends_perform.mp ended)
  cases r with
  | ok a => exact ⟨allowed, _, said⟩
  | error e => exact allowed

theorem quiet_emit (held : point.holds = true) {emission : Emission}
    (plain : ∀ s, announce limit s emission = if s.point.holds then some s else none) :
    Quiet limit point (emit world emission) := by
  refine quiet_act fun s r here => ?_
  cases r with
  | ok a => exact (plain s).trans (if_pos (here ▸ held))
  | error e => exact (next_failed (.inl (here ▸ held))).1

theorem quiet_emitIf (held : point.holds = true) {due : Bool} {emission : Emission}
    (plain : ∀ s, announce limit s emission = if s.point.holds then some s else none) :
    Quiet limit point (emitIf world due emission) :=
  quiet_ite (quiet_emit held plain) (quiet_pure _)

theorem quiet_emitAll (held : point.holds = true) {emissions : List Emission}
    (plain : ∀ emission ∈ emissions, ∀ s,
      announce limit s emission = if s.point.holds then some s else none) :
    Quiet limit point (emitAll world emissions) := by
  induction emissions with
  | nil => exact quiet_pure ()
  | cons emission rest ih =>
    obtain ⟨first, others⟩ := List.forall_mem_cons.mp plain
    exact quiet_bind (quiet_emit held first) fun _ => ih others

/-- A change of the process that is none of its history. -/
theorem quiet_perform {step : Process → Except Raised α × Process}
    (silent : ∀ p, (step p).2.steps = p.steps ∧ (step p).2.stop = p.stop ∧
      (step p).2.armed = p.armed) : Quiet limit point (perform step) := by
  intro completed rounds
  refine triple_perform fun p reached => ?_
  obtain ⟨s, accepted, stop, armed, holds⟩ := reached
  obtain ⟨steps, flag, arms⟩ := silent p
  have kept : Reached limit (At point completed rounds) (step p).2 :=
    ⟨s, steps ▸ accepted, flag ▸ stop, fun live => armed (arms ▸ live), holds⟩
  cases (step p).1 <;> exact kept

/-- A look at the flag: where it finds no stop, a round may be opened. -/
theorem triple_requested (completed : ℕ) (rounds : List Round) {exc : Raised → Process → Prop} :
    Triple (Reached limit (At .ready completed rounds)) (requested world)
      (fun stopped => Reached limit fun s =>
        At .ready completed rounds s ∧ (stopped = false → s.clear = true)) exc := by
  refine triple_perform fun p reached => ?_
  obtain ⟨s, accepted, stop, armed, here, rest⟩ :=
    @reached_arrive limit _ p world (steady_at _ _ _) reached
  have moved : next limit s (.polled (arrive world p).stop) = some { s with clear := !s.stop } := by
    rw [next, if_pos ⟨here, stop⟩, stop]
  refine reached_step accepted stop armed moved rfl id ⟨⟨here, rest⟩, fun none => ?_⟩
  change (!s.stop) = true
  rw [← stop]
  simpa using none

theorem quiet_requested : Quiet limit .ready (requested world) :=
  fun completed rounds => triple_post (triple_requested completed rounds) fun _ _ reached =>
    reached.weaken fun _ => And.left

theorem quiet_requestStop (held : point.holds = true) : Quiet limit point requestStop := by
  intro completed rounds
  refine triple_perform fun p reached => ?_
  obtain ⟨s, accepted, -, armed, here, rest⟩ := reached
  exact ⟨{ s with stop := true }, accepts_concat accepted (if_pos (here ▸ held)), rfl,
    fun live => armed live, here, rest⟩

theorem quiet_wait (seconds : ℚ) : Quiet limit .ready (wait world seconds) := by
  refine quiet_act fun s r here => ?_
  cases r with
  | ok a => exact if_pos here
  | error e => exact (next_failed (.inl (by rw [here]; rfl))).1

end

/-! ## The gates -/

section
variable {limit : Option Int} {world : World} {cfg : Config} {args : Args} {point : Point}

theorem quiet_reading {α : Type} (held : point.holds = true ∨ point = .outside)
    (answer : List Step → α) : Quiet limit point (reading world answer) := quiet_look held _

theorem quiet_stopFileThere (held : point.holds = true) :
    Quiet limit point (stopFileThere world cfg) := by
  unfold stopFileThere
  split
  · exact quiet_pure _
  · exact quiet_look (.inl held) _

theorem quiet_checkSelfTerminatedSentinel :
    Quiet limit .ready (checkSelfTerminatedSentinel world) := by
  have reads : Quiet limit .ready (readSentinelContent world) := by
    refine quiet_bind (quiet_look (.inl rfl) _) fun there => quiet_ite ?_ (quiet_pure _)
    refine quiet_bind (quiet_attempt (quiet_look (.inl rfl) _)) fun content => ?_
    cases content <;> exact quiet_pure _
  refine quiet_bind reads fun content => ?_
  cases content with
  | none => exact quiet_pure _
  | some reason => exact quiet_bind (quiet_emit rfl fun _ => rfl) fun _ => quiet_pure _

theorem quiet_pausePoll {runnable : Cmd Bool} (quiet : Quiet limit .ready runnable) :
    Quiet limit .ready (pausePoll world cfg runnable) := by
  refine quiet_loop (fun _ => ?_) _ _
  refine quiet_bind quiet_requested fun stopped => quiet_ite (quiet_pure _) ?_
  refine quiet_bind (quiet_stopFileThere rfl) fun there => quiet_ite (quiet_pure _) ?_
  refine quiet_bind quiet fun runs => quiet_ite (quiet_pure _) ?_
  exact quiet_bind (quiet_wait _) fun _ => quiet_pure _

theorem quiet_memoryPressureNow : Quiet limit .ready (memoryPressureNow world cfg) :=
  quiet_bind (quiet_reading (.inl rfl) _) fun _ => quiet_perform fun _ => ⟨rfl, rfl, rfl⟩

theorem quiet_pause {runnable : Cmd Bool} {paused : Emission} {resumed : Int → Emission}
    (quiet : Quiet limit .ready runnable)
    (pauses : ∀ s, announce limit s paused = if s.point.holds then some s else none)
    (resumes : ∀ n s, announce limit s (resumed n) = if s.point.holds then some s else none) :
    Quiet limit .ready (pause world cfg paused resumed runnable) := by
  refine quiet_bind (quiet_reading (.inl rfl) _) fun started => ?_
  refine quiet_bind (quiet_emit rfl pauses) fun _ => ?_
  refine quiet_bind (quiet_pausePoll quiet) fun opened => quiet_ite ?_ (quiet_pure _)
  exact quiet_bind (quiet_reading (.inl rfl) _) fun ended => quiet_emit rfl (resumes _)

theorem quiet_maybePauseForMemoryPressure :
    Quiet limit .ready (maybePauseForMemoryPressure world cfg) := by
  refine quiet_bind quiet_memoryPressureNow fun pressure => ?_
  split
  · exact quiet_pure _
  · refine quiet_bind (quiet_pause ?_ (fun _ => rfl) fun _ _ => rfl) fun _ => quiet_pure _
    exact quiet_bind quiet_memoryPressureNow fun _ => quiet_pure _

theorem quiet_maybePauseForSchedule : Quiet limit .ready (maybePauseForSchedule world cfg) := by
  refine quiet_ite ?_ (quiet_pure _)
  refine quiet_bind (quiet_reading (.inl rfl) _) fun decision => quiet_ite ?_ (quiet_pure _)
  exact quiet_bind (quiet_pause (quiet_reading (.inl rfl) _) (fun _ => rfl) fun _ _ => rfl)
    fun _ => quiet_pure _

theorem quiet_pauseUntilSelectable {roundNum : Int} {sel : PhaseSelect.Selection}
    {throttled : List String} {wakeEpoch : Option Int} :
    Quiet limit .ready (pauseUntilSelectable world cfg roundNum sel throttled wakeEpoch) :=
  quiet_pause (quiet_reading (.inl rfl) _) (fun _ => rfl) fun _ _ => rfl

theorem quiet_applyBackOff {throttle : Throttle.TransientErrorState} :
    Quiet limit .ready (applyBackOff world throttle) := by
  refine quiet_bind (quiet_look (.inl rfl) _) fun result => ?_
  refine quiet_bind (quiet_emitAll rfl fun emission member => ?_) fun _ => quiet_pure _
  obtain ⟨_, -, rfl⟩ := List.mem_map.mp member
  exact fun _ => rfl

theorem quiet_gateThrottle {throttle : Option Throttle.TransientErrorState} :
    Quiet limit .ready (gateThrottle world cfg throttle) := by
  cases throttle with
  | none => exact quiet_pure _
  | some throttle =>
    refine quiet_ite (quiet_bind quiet_applyBackOff fun _ => quiet_pure _) ?_
    exact quiet_ite (quiet_bind (quiet_emit rfl fun _ => rfl) fun _ => quiet_pure _) (quiet_pure _)

theorem quiet_roundThrottleGate : Quiet limit .ready (roundThrottleGate world cfg args) := by
  refine quiet_ite (quiet_bind ?_ fun _ => quiet_pure _) ?_
  · refine quiet_bind (quiet_look (.inl rfl) _) fun active => ?_
    refine quiet_bind (quiet_look (.inl rfl) _) fun pending => ?_
    refine quiet_bind (quiet_emitAll rfl fun emission member => ?_) fun _ => quiet_pure _
    obtain ⟨_, -, rfl⟩ := List.mem_map.mp member
    exact fun _ => rfl
  · refine quiet_bind (quiet_look (.inl rfl) _) fun throttle => ?_
    exact quiet_bind quiet_gateThrottle fun _ => quiet_ite (quiet_pure _) (quiet_pure _)

theorem quiet_selectAndGate {roundNum : Int} {throttled : List String} {wakeEpoch : Option Int} :
    Quiet limit .ready (selectAndGate world cfg args roundNum throttled wakeEpoch) := by
  refine quiet_bind quiet_maybePauseForMemoryPressure fun _ => quiet_ite (quiet_pure _) ?_
  refine quiet_ite (quiet_pure _) (quiet_ite ?_ ?_)
  · exact quiet_bind quiet_maybePauseForSchedule fun _ => quiet_ite (quiet_pure _) (quiet_pure _)
  · refine quiet_bind (quiet_reading (.inl rfl) _) fun sel => quiet_ite ?_ ?_
    · refine quiet_ite ?_ (quiet_bind quiet_pauseUntilSelectable fun _ => quiet_pure _)
      exact quiet_bind (quiet_emit rfl fun _ => rfl) fun _ =>
        quiet_bind (quiet_requestStop rfl) fun _ => quiet_pure _
    · exact quiet_bind (quiet_emitIf rfl fun _ => rfl) fun _ => quiet_pure _

theorem quiet_interruptibleSleep {live : Bool} {totalS : ℚ} :
    Quiet limit .ready (interruptibleSleep world cfg live totalS) := by
  refine quiet_loop (fun remaining => quiet_ite ?_ (quiet_pure _)) _ _
  refine quiet_bind quiet_requested fun _ => quiet_ite (quiet_pure _) ?_
  refine quiet_bind (quiet_stopFileThere rfl) fun _ => quiet_ite (quiet_pure _) ?_
  refine quiet_bind (quiet_reading (.inl rfl) _) fun _ => ?_
  refine quiet_bind (quiet_wait _) fun _ => ?_
  exact quiet_bind (quiet_reading (.inl rfl) _) fun _ => quiet_pure _

/-- The stop file is reported with the rounds completed. -/
theorem triple_stopFileDetected (completed : ℕ) (rounds : List Round) :
    Triple (Reached limit (At .ready completed rounds)) (stopFileDetected world cfg completed)
      (fun _ => Reached limit (At .ready completed rounds))
      fun _ => Reached limit (At .ready completed rounds) := by
  refine triple_bind (quiet_stopFileThere rfl completed rounds) fun there => triple_ite
    (fun _ => ?_) fun _ => triple_pure fun _ => id
  refine triple_bind (quiet_attempt (quiet_look (.inl rfl) _) completed rounds) fun content => ?_
  refine triple_bind (triple_act (steady_at _ _ _) fun s r holds _ => ?_) fun _ =>
    triple_pure fun _ => id
  cases r with
  | ok a => exact ⟨s, if_pos ⟨holds.1, holds.2.1.symm⟩, rfl, id, holds⟩
  | error e => exact ⟨s, (next_failed (.inl (by rw [holds.1]; rfl))).1, rfl, id, holds⟩

/-- The limit is reported where it is reached. -/
theorem triple_maxRoundsReached (completed : ℕ) (rounds : List Round) :
    Triple (Reached limit (At .ready completed rounds)) (maxRoundsReached world limit completed)
      (fun reached p => Reached limit (At .ready completed rounds) p ∧
        (reached = false → Within limit completed))
      fun _ => Reached limit (At .ready completed rounds) := by
  unfold maxRoundsReached
  split
  · exact triple_pure fun p reached => ⟨reached, fun _ _ same => by cases same⟩
  · rename_i maxRounds
    refine triple_ite (fun reaches => ?_) fun below => triple_pure fun p reached =>
      ⟨reached, fun _ _ same => Option.some.inj same ▸ not_le.mp below⟩
    refine triple_bind
      (?_ : Triple _ _ (fun _ => Reached (some maxRounds) (At .ready completed rounds)) _) fun _ =>
        triple_pure fun p reached => ⟨reached, fun other => by cases other⟩
    refine triple_act (steady_at _ _ _) fun s r holds _ => ?_
    cases r with
    | ok a => exact ⟨s, if_pos ⟨holds.1, holds.2.1.symm, rfl, reaches⟩, rfl, id, holds⟩
    | error e => exact ⟨s, (next_failed (.inl (by rw [holds.1]; rfl))).1, rfl, id, holds⟩

end

end AgentRunner.ServeGates
