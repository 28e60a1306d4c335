import AgentRunner.ServePolicy
import AgentRunner.Streak
import Mathlib.Tactic.Tauto

/-! The give-up law of a whole serve run. `cmd` folds `post_round_verdicts` over
its rounds and carries three streaks; the law says when the run stops without
mentioning a streak, by looking at the last five rounds only. -/
namespace AgentRunner.GiveUpLaw
open PyValue Throttle RoundVerdicts ServePolicy Streak

/-- A round killed by the memory floor. -/
def memKilled (r : Round) : Bool := r.outcome.memTerminated

/-- An unknown short crash: a return code other than 0, 76 and 78, in less than
a minute, and not throttled. -/
def crashed (r : Round) : Bool :=
  !([0, 76, 78].contains r.returncode) && decide (r.durationS < 60) && !r.throttleActive

/-- A round for which `round_had_no_progress` answers yes. -/
def stalled (host : Host) (r : Round) : Bool :=
  match r.noProgress host with
  | .ok b => b
  | .error _ => false

/-- The exit of a memory loop: 71, or 70 when two earlier ones are still inside
the cross-restart window. -/
def memLoopStop (host : Host) (r : Round) : Stop :=
  match memLoopEventsInWindow host r.logDir r.now 7200 with
  | .ok prior => .gaveUp (if 3 ≤ prior + 1 then 70 else 71)
  | .error e => .raised e

/-- The law at round `i`: whether and how the run stops there. A round whose
recorded timestamps cannot be compared raises instead of being judged. -/
def lawAt (host : Host) (rounds : List Round) (i : Nat) : Option Stop :=
  (rounds[i]?).bind fun r =>
    match r.noProgress host with
    | .error e => some (.raised e)
    | .ok _ =>
      if r.returncode = 78 then some (.gaveUp 78)
      else if Recent 5 memKilled rounds i then some (memLoopStop host r)
      else if Recent 5 crashed rounds i then some (.gaveUp 75)
      else if Recent 5 (stalled host) rounds i then some (.gaveUp 75)
      else none

/-- The streaks after some rounds, as the lengths of their trailing runs. -/
def streaksOf (host : Host) (rounds : List Round) : Streaks where
  crashes := trailing crashed rounds
  memTerminations := trailing memKilled rounds
  noProgress := trailing (stalled host) rounds

/-- For a round that did not end in 78, the breaker's trigger is `crashed`. -/
theorem unknownShortCrash_eq (r : Round) (judged : r.returncode ≠ 78) :
    unknownShortCrash r.returncode r.durationS r.throttleActive = crashed r := by
  rw [Bool.eq_iff_iff]
  simp only [unknownShortCrash, crashed, Bool.and_eq_true, bne_iff_ne, decide_eq_true_eq,
    Bool.not_eq_true', Bool.or_eq_false_iff, beq_eq_false_iff_ne, List.contains_eq_mem,
    decide_eq_false_iff_not, List.mem_cons, List.not_mem_nil, or_false]
  simp only [crashLoopShortExitS, envBatteryExit]
  tauto

/-- The crash breaker's action and streak, off the trailing run of crashes. -/
theorem postRoundDecision_trailing (delay : Int) (past : List Round) (r : Round)
    (judged : r.returncode ≠ 78) :
    ∃ wait, postRoundDecision r.returncode r.durationS r.throttleActive (trailing crashed past)
      delay = (if crashLoopThreshold ≤ trailing crashed (past ++ [r]) then .crashLoop else .go,
        wait, trailing crashed (past ++ [r])) := by
  simp only [postRoundDecision, permanentConfigExit, if_neg judged, unknownShortCrash_eq r judged,
    trailing_concat]
  cases crashed r with
  | false => exact ⟨_, rfl⟩
  | true =>
    by_cases reached : crashLoopThreshold ≤ trailing crashed past + 1
    · exact ⟨0, by simp [reached]⟩
    · exact ⟨min (delay * 2 ^ (trailing crashed past + 1)) crashLoopMaxDelayS,
        by simp only [if_true, if_neg reached]⟩

/-- The generic counter follows the trailing run of its trigger, and its verdict
is the threshold on that run. -/
theorem consecutiveStreakDecision_trailing {p : Round → Bool} (past : List Round) (r : Round)
    (threshold : Nat) (positive : 0 < threshold) :
    consecutiveStreakDecision (p r) (trailing p past) threshold =
      (decide (threshold ≤ trailing p (past ++ [r])), trailing p (past ++ [r])) := by
  simp only [consecutiveStreakDecision, trailing_concat]
  cases p r with
  | false => simp; omega
  | true =>
    simp only [Bool.true_eq_false, ite_false, ite_true]
    split <;> simp_all

/-- The memory-loop branch stops the run as `memLoopStop` says. -/
theorem memLoopGiveUp_stop (host : Host) (r : Round) (consecutive : Nat) :
    match memLoopGiveUp host r consecutive with
    | .error e => memLoopStop host r = .raised e
    | .ok (exit, _) => memLoopStop host r = .gaveUp exit := by
  simp only [memLoopGiveUp, memLoopStop, memLoopPersistWindowS, memLoopPersistThreshold,
    memLoopPersistentExit, memLoopExit, bind, Except.bind, pure, Except.pure]
  cases memLoopEventsInWindow host r.logDir r.now 7200 with
  | error e => rfl
  | ok prior => by_cases full : 3 ≤ prior + 1 <;> simp [full]

/-- What one round does to a run that has not stopped yet: it stops as the law
says, or the streaks again measure the trailing runs. -/
theorem postRoundVerdicts_law (host : Host) (delay : Int) (past rest : List Round) (r : Round) :
    match postRoundVerdicts host delay (streaksOf host past) r with
    | .error e => lawAt host (past ++ r :: rest) past.length = some (.raised e)
    | .ok verdicts =>
      (verdicts.exit.map Stop.gaveUp = lawAt host (past ++ r :: rest) past.length) ∧
        (verdicts.exit = none → verdicts.streaks = streaksOf host (past ++ [r])) := by
  have here : (past ++ r :: rest)[past.length]? = some r := by simp
  simp only [lawAt, here, Option.bind_some, recent_append]
  cases progress : r.noProgress host with
  | error e => simp [postRoundVerdicts, progress, bind, Except.bind]
  | ok shown =>
    have shows : stalled host r = shown := by simp [stalled, progress]
    have mem := consecutiveStreakDecision_trailing (p := memKilled) past r memLoopThreshold
      (by decide)
    have quiet := consecutiveStreakDecision_trailing (p := stalled host) past r crashLoopThreshold
      (by decide)
    rw [shows] at quiet
    simp only [memKilled] at mem
    by_cases judged : r.returncode = 78
    · simp [postRoundVerdicts, progress, bind, Except.bind, postRoundDecision, judged,
        permanentConfigExit, pure, Except.pure]
    · obtain ⟨wait, decided⟩ := postRoundDecision_trailing delay past r judged
      have notBroken : (if crashLoopThreshold ≤ trailing crashed (past ++ [r]) then Action.crashLoop
          else Action.go) ≠ .configBroken := by split <;> decide
      simp only [postRoundVerdicts, progress, bind, Except.bind, streaksOf, decided,
        memLoopDecision, noProgressDecision, quiet, mem, if_neg judged, pure, Except.pure,
        notBroken, if_false]
      -- the remaining precedence: memory loop, then crash loop, then no progress
      by_cases killed : memLoopThreshold ≤ trailing memKilled (past ++ [r])
      · have stop := memLoopGiveUp_stop host r (trailing memKilled (past ++ [r]))
        have law : 5 ≤ trailing memKilled (past ++ [r]) := killed
        simp only [killed, decide_true, if_true, law]
        cases verdict : memLoopGiveUp host r (trailing memKilled (past ++ [r])) with
        | error e => simpa [verdict] using stop
        | ok result => simpa [verdict, eq_comm] using stop
      · have law : ¬ 5 ≤ trailing memKilled (past ++ [r]) := killed
        simp only [killed, decide_false, Bool.false_eq_true, if_false, law]
        by_cases crash : crashLoopThreshold ≤ trailing crashed (past ++ [r])
        · have law : 5 ≤ trailing crashed (past ++ [r]) := crash
          simp [crash, law, crashLoopExit]
        · have law : ¬ 5 ≤ trailing crashed (past ++ [r]) := crash
          simp only [crash, law, if_false, reduceCtorEq]
          by_cases idle : crashLoopThreshold ≤ trailing (stalled host) (past ++ [r])
          · have law : 5 ≤ trailing (stalled host) (past ++ [r]) := idle
            simp [idle, law, crashLoopExit]
          · have law : ¬ 5 ≤ trailing (stalled host) (past ++ [r]) := idle
            simp [idle, law]

/-- The run from a state whose streaks measure the rounds already folded stops
at the first later round at which the law stops it. -/
theorem serveFrom_law (host : Host) (delay : Int) (past rest : List Round) (i : Nat) (stop : Stop) :
    serveFrom host delay (streaksOf host past) rest = some (i, stop) ↔
      FirstAt (fun j => lawAt host (past ++ rest) (past.length + j)) i stop := by
  induction rest generalizing past i stop with
  | nil => simp [serveFrom, FirstAt, lawAt]
  | cons r rest ih =>
    have round := postRoundVerdicts_law host delay past rest r
    simp only [serveFrom]
    cases verdict : postRoundVerdicts host delay (streaksOf host past) r with
    | error e =>
      rw [verdict] at round
      exact firstAt_here round i stop
    | ok verdicts =>
      rw [verdict] at round
      obtain ⟨exits, streaks⟩ := round
      cases exit : verdicts.exit with
      | some code =>
        rw [exit] at exits
        simp only [exit]
        exact firstAt_here (f := fun j => lawAt host (past ++ r :: rest) (past.length + j))
          exits.symm i stop
      | none =>
        rw [exit] at exits
        simp only [exit]
        refine firstAt_later (f := fun j => lawAt host (past ++ r :: rest) (past.length + j))
          exits.symm (fun i stop => ?_) i stop
        rw [streaks exit, ih (past ++ [r]) i stop]
        have later : ∀ j, past.length + (j + 1) = (past ++ [r]).length + j := by
          intro j
          rw [List.length_append, List.length_singleton]
          omega
        simp only [later, List.append_assoc, List.singleton_append]

/-- A round that is throttled, memory-terminated or ends in 76 triggers neither
of the two breakers that stop with 75. -/
theorem excused_never_counts (host : Host) (r : Round)
    (excuse : r.throttleActive = true ∨ r.outcome.memTerminated = true ∨ r.returncode = 76) :
    crashed r = false ∧ stalled host r = false := by
  have covered : r.throttleActive = true ∨ r.returncode = 76 :=
    excuse.elim .inl fun h => h.imp r.excused id
  constructor
  · rcases covered with throttled | battery
    · simp [crashed, throttled]
    · simp [crashed, battery]
  · rcases covered with throttled | battery
    · simp [stalled, Round.noProgress, roundHadNoProgress, throttled, pure, Except.pure]
    · simp [stalled, Round.noProgress, roundHadNoProgress, battery, pure, Except.pure]

theorem memLoopStop_ne_crashLoop (host : Host) (r : Round) :
    memLoopStop host r ≠ .gaveUp 75 := by
  unfold memLoopStop
  split
  · split <;> decide
  · simp

/-- **The give-up law.**  Over any finite sequence of rounds, from zero streaks,
serve stops at the first round at which the law stops it and nowhere else: 78
for a return code 78, then the memory-loop exit for five memory-terminated
rounds in a row, then 75 for five unknown short crashes, then 75 for five rounds
without progress. A stop with 75 therefore has five rounds behind it none of
which was throttled, memory-terminated or ended in 76. -/
theorem serve_gives_up_by_law (host : Host) (delay : Int) (rounds : List Round) (i : Nat) :
    (∀ stop, serve host delay rounds = some (i, stop) ↔ FirstAt (lawAt host rounds) i stop) ∧
      (serve host delay rounds = some (i, .gaveUp 75) →
        ∀ k < 5, ∃ r, rounds[i - k]? = some r ∧ r.throttleActive = false ∧
          r.outcome.memTerminated = false ∧ r.returncode ≠ 76) := by
  have law :
      ∀ stop, serve host delay rounds = some (i, stop) ↔ FirstAt (lawAt host rounds) i stop := by
    intro stop
    have run := serveFrom_law host delay [] rounds i stop
    simp only [List.nil_append, List.length_nil, Nat.zero_add] at run
    exact run
  refine ⟨law, fun stopped k small => ?_⟩
  have counted : Recent 5 crashed rounds i ∨ Recent 5 (stalled host) rounds i := by
    obtain ⟨r, _, reading⟩ := Option.bind_eq_some_iff.mp ((law _).mp stopped).1
    cases progress : r.noProgress host with
    | error e => simp [progress] at reading
    | ok shown =>
      simp only [progress] at reading
      split at reading
      · cases reading
      · split at reading
        · exact absurd (Option.some.inj reading) (memLoopStop_ne_crashLoop host r)
        · split at reading
          · exact .inl ‹_›
          · split at reading
            · exact .inr ‹_›
            · cases reading
  have item : ∃ r, rounds[i - k]? = some r ∧ (crashed r = true ∨ stalled host r = true) := by
    rcases counted with crash | idle
    · obtain ⟨r, found, held⟩ := (Option.any_eq_true _ _).mp (crash.2 k small)
      exact ⟨r, found, .inl held⟩
    · obtain ⟨r, found, held⟩ := (Option.any_eq_true _ _).mp (idle.2 k small)
      exact ⟨r, found, .inr held⟩
  obtain ⟨r, found, held⟩ := item
  have unexcused : ¬ (r.throttleActive = true ∨ r.outcome.memTerminated = true ∨
      r.returncode = 76) := by
    intro excuse
    obtain ⟨noCrash, noStall⟩ := excused_never_counts host r excuse
    rcases held with h | h
    · rw [noCrash] at h; cases h
    · rw [noStall] at h; cases h
  simp only [not_or, Bool.not_eq_true] at unexcused
  exact ⟨r, found, unexcused⟩

end AgentRunner.GiveUpLaw
