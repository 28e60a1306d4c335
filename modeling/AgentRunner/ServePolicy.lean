import AgentRunner.RoundVerdicts

/-! `_serve_policy.py` and `cli/_serve_round.post_round_verdicts`: the restart
policy after one round, and the serve loop that folds it over the rounds. -/
namespace AgentRunner.ServePolicy
open PyValue Events Throttle RoundVerdicts

def permanentConfigExit : Int := 78
def crashLoopExit : Int := 75
def envBatteryExit : Int := 76
def memLoopExit : Int := 71
def memLoopPersistentExit : Int := 70
def crashLoopThreshold : Nat := 5
def crashLoopShortExitS : ℚ := 60
def crashLoopMaxDelayS : Int := 1800
def memLoopThreshold : Nat := 5
def memLoopPersistWindowS : ℚ := 7200
def memLoopPersistThreshold : Nat := 3
def noProgressShortS : ℚ := 30

/-- The restart-action enum of `post_round_decision`. -/
inductive Action where
  | configBroken
  | crashLoop
  | go
  deriving DecidableEq, Repr

/-- An unknown short crash: a fast non-zero exit that nothing excuses. -/
def unknownShortCrash (returncode : Int) (durationS : ℚ) (throttleActive : Bool) : Bool :=
  returncode != 0 && decide (durationS < crashLoopShortExitS) &&
    !(throttleActive || returncode == envBatteryExit)

/-- `post_round_decision`: the action, the restart delay and the crash streak. -/
def postRoundDecision (returncode : Int) (durationS : ℚ) (throttleActive : Bool)
    (consecutive : Nat) (restartDelayS : Int) : Action × Int × Nat :=
  if returncode = permanentConfigExit then (.configBroken, 0, consecutive)
  else if unknownShortCrash returncode durationS throttleActive then
    if crashLoopThreshold ≤ consecutive + 1 then (.crashLoop, 0, consecutive + 1)
    else (.go, min (restartDelayS * 2 ^ (consecutive + 1)) crashLoopMaxDelayS, consecutive + 1)
  else (.go, if returncode = 0 then restartDelayS else restartDelayS * 2, 0)

/-- `_consecutive_streak_decision`: whether the verdict is reached, and the streak. -/
def consecutiveStreakDecision (triggered : Bool) (consecutive threshold : Nat) : Bool × Nat :=
  if triggered = false then (false, 0)
  else if threshold ≤ consecutive + 1 then (true, consecutive + 1)
  else (false, consecutive + 1)

/-- `_mem_loop_decision`. -/
def memLoopDecision (memTerminated : Bool) (consecutive : Nat) : Bool × Nat :=
  consecutiveStreakDecision memTerminated consecutive memLoopThreshold

/-- `_no_progress_decision`. -/
def noProgressDecision (noProgress : Bool) (consecutive : Nat) : Bool × Nat :=
  consecutiveStreakDecision noProgress consecutive crashLoopThreshold

/-- The three streaks `cmd` carries from one round into the next. -/
structure Streaks where
  crashes : Nat
  memTerminations : Nat
  noProgress : Nat
  deriving DecidableEq

def Streaks.zero : Streaks := ⟨0, 0, 0⟩

/-- What the post-round block of `cmd` has at hand after one round: the child's
exit, `_round_scan`'s verdicts, and the log and clock the memory-loop window is
counted against. `_round_scan` reports a memory-terminated round as throttled. -/
structure Round where
  returncode : Int
  durationS : ℚ
  throttleActive : Bool
  outcome : RoundOutcome
  logDir : LogDir
  now : ℚ
  excused : outcome.memTerminated = true → throttleActive = true

/-- `round_had_no_progress` as `post_round_verdicts` calls it. -/
def Round.noProgress (host : Host) (r : Round) : Except PyErr Bool :=
  roundHadNoProgress host r.logDir ⟨r.returncode, r.durationS, r.throttleActive⟩ noProgressShortS
    (some r.outcome)

/-- The event a give-up leaves in the log; `reason` is `none` where it is the
redacted tail of the round log. -/
structure GiveUpEvent where
  kind : String
  consecutive : Option Nat
  exitCode : Option Int
  reason : Option String
  deriving DecidableEq

/-- `emit_config_broken`. -/
def emitConfigBroken (returncode : Int) : GiveUpEvent :=
  ⟨"config_broken", none, none, some s!"permanent config failure (round exited {returncode})"⟩

/-- `_emit_giveup`. -/
def emitGiveup (kind : String) (consecutive : Nat) (exitCode : Int) : GiveUpEvent :=
  ⟨kind, some consecutive, some exitCode, none⟩

/-- The return value of `post_round_verdicts` and the event it emitted. -/
structure Verdicts where
  exit : Option Int
  delayS : Int
  streaks : Streaks
  emitted : Option GiveUpEvent
  deriving DecidableEq

/-- The memory-loop branch: the exit is 70 once this occurrence is the third in
the window, else the restartable 71, and the emitted event names which. -/
def memLoopGiveUp (host : Host) (r : Round) (consecutive : Nat) :
    Except PyErr (Int × GiveUpEvent) := do
  let prior ← memLoopEventsInWindow host r.logDir r.now memLoopPersistWindowS
  let occurrence := prior + 1
  if memLoopPersistThreshold ≤ occurrence then
    return (memLoopPersistentExit, emitGiveup "mem_loop_persistent" occurrence r.returncode)
  else return (memLoopExit, emitGiveup memLoop consecutive r.returncode)

/-- `post_round_verdicts`. -/
def postRoundVerdicts (host : Host) (restartDelayS : Int) (streaks : Streaks) (r : Round) :
    Except PyErr Verdicts := do
  let (action, delay, crashes) :=
    postRoundDecision r.returncode r.durationS r.throttleActive streaks.crashes restartDelayS
  let (memLoop, memTerminations) :=
    memLoopDecision r.outcome.memTerminated streaks.memTerminations
  let noProgress ← r.noProgress host
  let (stalled, noProgressStreak) := noProgressDecision noProgress streaks.noProgress
  let streaks : Streaks := ⟨crashes, memTerminations, noProgressStreak⟩
  if action = .configBroken then
    return ⟨some permanentConfigExit, delay, streaks, some (emitConfigBroken r.returncode)⟩
  else if memLoop then
    let (exit, event) ← memLoopGiveUp host r memTerminations
    return ⟨some exit, delay, streaks, some event⟩
  else if action = .crashLoop then
    return ⟨some crashLoopExit, delay, streaks, some (emitGiveup "crash_loop" crashes r.returncode)⟩
  else if stalled then
    return ⟨some crashLoopExit, delay, streaks,
      some (emitGiveup "stalled_no_progress" noProgressStreak r.returncode)⟩
  else return ⟨none, delay, streaks, none⟩

/-- How a serve run over some rounds ended: a give-up exit, or an exception out
of the post-round block. -/
inductive Stop where
  | gaveUp (exit : Int)
  | raised (error : PyErr)
  deriving DecidableEq, Repr

/-- The loop of `cmd`: the rounds are folded with the streaks carried from one
into the next; the result is the number of the stopping round and why. -/
def serveFrom (host : Host) (restartDelayS : Int) : Streaks → List Round → Option (Nat × Stop)
  | _, [] => none
  | streaks, r :: rest =>
    match postRoundVerdicts host restartDelayS streaks r with
    | .error e => some (0, .raised e)
    | .ok verdicts =>
      match verdicts.exit with
      | some exit => some (0, .gaveUp exit)
      | none =>
        (serveFrom host restartDelayS verdicts.streaks rest).map fun stop => (stop.1 + 1, stop.2)

/-- A serve run, from zero streaks. -/
def serve (host : Host) (restartDelayS : Int) (rounds : List Round) : Option (Nat × Stop) :=
  serveFrom host restartDelayS .zero rounds

end AgentRunner.ServePolicy
