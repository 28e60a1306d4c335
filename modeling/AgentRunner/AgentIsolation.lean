import AgentRunner.MonitorThrottle
import AgentRunner.PoisonedTail
import AgentRunner.Unwinding

/-! What one agent's verdicts can learn of the others. Every reader of the serve
loop scans the one events tail of the deployment; for an agent it reports from
its own events and from those that name no agent. The no-progress verdict also
reads two of the supervisor's own stamps, the start of the round and its memory
kill, and these it takes from whichever event carries them. -/
namespace AgentRunner.AgentIsolation
open PyValue Events Throttle RoundVerdicts ThrottleViews PoisonedTail RoundFold Unwinding
open MonitorThrottle (bareHost)

/-! ## An agent's entries -/

/-- The entry of `_active_throttles` for an agent. -/
def activeEntry (host : Host) (logDir : LogDir) (now : ℚ) (agent : String) :
    Except PyErr (Option TransientErrorState) := do
  let (active, _) ← activeThrottles host logDir now none none
  return active.get? agent

/-- What `pending_recovered` lists for an agent. -/
def pendingEntry (host : Host) (logDir : LogDir) (now : ℚ) (agent : String) :
    Except PyErr (List (String × String × Int)) := do
  let cleared ← pendingRecovered host logDir now none
  return cleared.filter fun entry => entry.1 == agent

/-- `round_had_no_progress` for a round of a known agent, as the serve loop calls
it: on the outcome scanned for that agent. -/
def ranNoProgress (host : Host) (logDir : LogDir) (round : RoundResult) (thresholdS : ℚ)
    (agent : String) : Except PyErr Bool := do
  let outcome ← roundOutcome host logDir (some agent)
  roundHadNoProgress host logDir round thresholdS (some outcome)

/-! ## What is heard -/

/-- An event is attributed to the agent, or it carries no agent field. -/
def concerns (host : Host) (agent : String) (ev : Event) : Bool :=
  match ev.lookup "agent" with
  | none => true
  | some value => str host value == agent

/-- Also the round starts, whoever they are attributed to. -/
def concernsStart (host : Host) (agent : String) (ev : Event) : Bool :=
  concerns host agent ev || isKind ev roundSubstrateBefore

/-- Also the memory kills, whoever they are attributed to. -/
def concernsRound (host : Host) (agent : String) (ev : Event) : Bool :=
  concernsStart host agent ev || isKind ev roundMemTerminated

/-- Two tails that differ in other agents' events only. -/
def Alike (hears : Event → Bool) (logDir other : LogDir) : Prop :=
  (tailEvents logDir).filter hears = (tailEvents other).filter hears

variable {host : Host} {agent : String}

/-- Another agent's event has another label under every default. -/
theorem label_ne_of_unheard {ev : Event} (unheard : concerns host agent ev = false)
    (default : Json) : str host (getOr ev "agent" default) ≠ agent := by
  unfold concerns at unheard
  unfold getOr
  cases named : ev.lookup "agent" with
  | none => simp [named] at unheard
  | some value =>
    rw [named] at unheard
    simpa using unheard

theorem latest_isolated :
    Isolated (latestStep host) (fun latest => latest.get? agent) (concerns host agent) := by
  constructor
  · intro latest ev unheard
    have other : agent ≠ agentLabel host ev := (label_ne_of_unheard unheard _).symm
    unfold latestStep
    split_ifs
    · rw [Dict.get?_set, if_neg other]
    · rw [Dict.get?_set, if_neg other]
    · rfl
  · intro latest known ev _ same
    unfold latestStep
    split_ifs
    · simp only [Dict.get?_set, same]
    · simp only [Dict.get?_set, same]
    · exact same

theorem count_isolated : Isolated (countStep host agent) id (concerns host agent) :=
  isolated_of_ignores fun count ev unheard => by
    rw [countStep, if_pos (label_ne_of_unheard unheard _)]

theorem stamp_isolated (kind : String) : Isolated (stampStep kind) id (isKind · kind) :=
  isolated_of_ignores fun newest ev unheard => by
    rw [stampStep, unheard, Bool.false_and, if_neg Bool.false_ne_true]

theorem agentStamp_isolated : Isolated (agentStampStep host agent) id (concerns host agent) :=
  isolated_of_ignores fun newest ev unheard => by
    have another : agentLabel host ev ≠ agent := label_ne_of_unheard unheard _
    rw [agentStampStep, if_neg another]

/-! ## The throttle entries -/

variable {logDir other : LogDir}

theorem exponent_agrees (alike : Alike (concerns host agent) logDir other) :
    backoffExponent host logDir agent = backoffExponent host other agent :=
  congrArg (· - 1) (view_agrees count_isolated alike 0)

theorem latest_agrees (alike : Alike (concerns host agent) logDir other) :
    (latestTransientPerAgent host logDir).get? agent =
      (latestTransientPerAgent host other).get? agent :=
  view_agrees latest_isolated alike .empty

/-- The state of an agent, from its latest transient event and its exponent. -/
theorem activeEntry_eq (now : ℚ) :
    activeEntry host logDir now agent =
      .ok (((latestTransientPerAgent host logDir).get? agent).join.bind fun detected =>
        stateAt host now agent detected (backoffExponent host logDir agent)) := by
  obtain ⟨result, after, ran, -, lookup⟩ := activeThrottles_spec host logDir now none none
  simp only [activeEntry, ran, bind, Except.bind, pure, Except.pure, lookup, exponentOf_none,
    Option.getD_none]

/-- The seconds `_throttled_for_s` comes back with. -/
def waitedS (host : Host) (now : ℚ) (detected : Event) : Int :=
  match throttledForS host (get detected "ts") now with
  | .ok seconds => seconds
  | .error _ => 0

theorem throttledForS_eq (now : ℚ) (detected : Event) :
    throttledForS host (get detected "ts") now = .ok (waitedS host now detected) := by
  obtain ⟨seconds, measured⟩ := throttledForS_returns host (get detected "ts") now
  simp only [waitedS, measured]

/-- What is listed for an agent, from its latest transient event and its state. -/
def clearedFor (host : Host) (now : ℚ) (agent : String) (latest : Option Event)
    (state : Option TransientErrorState) : List (String × String × Int) :=
  if state.isSome then []
  else latest.toList.map fun detected =>
    (agent, classificationOf host detected, waitedS host now detected)

@[simp] theorem clearedFor_none (now : ℚ) (state : Option TransientErrorState) :
    clearedFor host now agent none state = [] := by
  simp [clearedFor]

/-- The loop lists an agent once at most: the keys it walks are distinct. -/
theorem pendingLoop_entry (now : ℚ) (active : Dict String TransientErrorState)
    {entries : List (String × Option Event)} (distinct : (entries.map Prod.fst).Nodup) :
    ∃ cleared, pendingLoop host now active entries = .ok cleared ∧
      cleared.filter (fun entry => entry.1 == agent) =
        clearedFor host now agent (Dict.find entries agent).join (active.get? agent) := by
  induction entries with
  | nil => exact ⟨[], rfl, (clearedFor_none now _).symm⟩
  | cons entry rest ih =>
    obtain ⟨name, latest⟩ := entry
    obtain ⟨fresh, tail⟩ := List.nodup_cons.mp distinct
    obtain ⟨cleared, listed, own⟩ := ih tail
    -- Nothing later in the walk is listed under the name at its head.
    have later (here : name = agent) : cleared.filter (fun entry => entry.1 == agent) = [] := by
      rw [own, ← here, Dict.find_absent fresh, Option.join_none, clearedFor_none]
    cases latest with
    | none =>
      refine ⟨cleared, listed, ?_⟩
      by_cases here : name = agent
      · simp [Dict.find, here, later here]
      · simp [Dict.find, here, own]
    | some detected =>
      by_cases held : active.contains name = true
      · refine ⟨cleared, by rw [pendingLoop, if_pos held]; exact listed, ?_⟩
        by_cases here : name = agent
        · subst here
          have throttled : (active.get? name).isSome = true := held
          simp [later rfl, clearedFor, throttled]
        · simp [Dict.find, here, own]
      · refine ⟨(name, classificationOf host detected, waitedS host now detected) ::
          cleared, ?_, ?_⟩
        · rw [pendingLoop, if_neg held, throttledForS_eq, listed]
          rfl
        · by_cases here : name = agent
          · subst here
            have clear : (active.get? name).isSome = false := Bool.eq_false_iff.mpr held
            simp [Dict.find, later rfl, clearedFor, clear]
          · simp [Dict.find, here, own]

/-- What is pending for an agent, from its latest transient event and its exponent. -/
theorem pendingEntry_eq (now : ℚ) :
    pendingEntry host logDir now agent =
      .ok (clearedFor host now agent ((latestTransientPerAgent host logDir).get? agent).join
        (((latestTransientPerAgent host logDir).get? agent).join.bind fun detected =>
          stateAt host now agent detected (backoffExponent host logDir agent))) := by
  obtain ⟨active, after, ran, -, lookup⟩ := activeThrottles_spec host logDir now none none
  obtain ⟨cleared, listed, own⟩ := @pendingLoop_entry host agent now active _
    (latestTransientPerAgent host logDir).nodup
  simp only [lookup, exponentOf_none, Option.getD_none] at own
  simp only [pendingEntry, pendingRecovered, ran, Except.map, listed, bind, Except.bind, pure,
    Except.pure, own]
  rfl

/-! ## The no-progress verdict -/

theorem start_agrees (alike : Alike (concernsStart host agent) logDir other) :
    newestStamp roundSubstrateBefore (tailEvents logDir) =
      newestStamp roundSubstrateBefore (tailEvents other) := by
  have isolated : Isolated (stampStep roundSubstrateBefore) id (concernsStart host agent) :=
    (stamp_isolated roundSubstrateBefore).mono fun ev start => by
      rw [concernsStart, start, Bool.or_true]
  exact view_agrees isolated alike none

theorem kill_agrees (alike : Alike (concernsRound host agent) logDir other) :
    newestStamp roundMemTerminated (tailEvents logDir) =
      newestStamp roundMemTerminated (tailEvents other) := by
  have isolated : Isolated (stampStep roundMemTerminated) id (concernsRound host agent) :=
    (stamp_isolated roundMemTerminated).mono fun ev kill => by
      rw [concernsRound, kill, Bool.or_true]
  exact view_agrees isolated alike none

theorem usage_agrees (alike : Alike (concerns host agent) logDir other) :
    scanUsageView host (tailEvents logDir) (some agent) =
      scanUsageView host (tailEvents other) (some agent) := by
  have own : ∀ ev, (isKind ev agentUsageRecorded && agentLabel host ev == agent) = true →
      concerns host agent ev = true := by
    intro ev counted
    rw [Bool.and_eq_true, beq_iff_eq] at counted
    by_contra unheard
    exact label_ne_of_unheard (Bool.eq_false_iff.mpr unheard) _ counted.2
  have capable := any_agrees own alike
  have newest : newestAgentStamp host agent (tailEvents logDir) =
      newestAgentStamp host agent (tailEvents other) := view_agrees agentStamp_isolated alike none
  simp only [scanUsageView, capable, newest]

/-- Hearing less is agreed on by streams that agree on more. -/
theorem Alike.of_more {fewer more : Event → Bool} (alike : Alike more logDir other)
    (included : ∀ ev, fewer ev = true → more ev = true) : Alike fewer logDir other := by
  have narrowed : ∀ tail : List Event, tail.filter fewer = (tail.filter more).filter fewer := by
    intro tail
    rw [List.filter_filter]
    refine List.filter_congr fun ev _ => ?_
    cases heard : fewer ev with
    | true => rw [included ev heard, Bool.and_self]
    | false => rw [Bool.false_and]
  have agreed : (tailEvents logDir).filter more = (tailEvents other).filter more := alike
  change (tailEvents logDir).filter fewer = (tailEvents other).filter fewer
  rw [narrowed, agreed, ← narrowed]

theorem concerns_of_start (alike : Alike (concernsStart host agent) logDir other) :
    Alike (concerns host agent) logDir other :=
  alike.of_more fun ev own => by rw [concernsStart, own, Bool.true_or]

theorem start_of_round (alike : Alike (concernsRound host agent) logDir other) :
    Alike (concernsStart host agent) logDir other :=
  alike.of_more fun ev own => by rw [concernsRound, own, Bool.true_or]

/-- The verdict reads the round's start and the usage of the agent, nothing else. -/
theorem noProgress_congr {outcome known : RoundOutcome}
    (start : outcome.newestSubstrateBeforeTs = known.newestSubstrateBeforeTs)
    (usage : outcome.usageView = known.usageView) (round : RoundResult) (thresholdS : ℚ) :
    roundHadNoProgress host logDir round thresholdS (some outcome) =
      roundHadNoProgress host other round thresholdS (some known) := by
  simp only [roundHadNoProgress, RoundOutcome.noProgress, start, usage]

theorem ranNoProgress_of_outcome {outcome : RoundOutcome}
    (scanned : roundOutcome host logDir (some agent) = .ok outcome) (round : RoundResult)
    (thresholdS : ℚ) :
    ranNoProgress host logDir round thresholdS agent =
      roundHadNoProgress host logDir round thresholdS (some outcome) := by
  rw [ranNoProgress, scanned]
  rfl

/-- Outcomes scanned from tails that agree on the round starts and on the agent's
events show one verdict. -/
theorem outcomes_agree (alike : Alike (concernsStart host agent) logDir other)
    {outcome known : RoundOutcome} (scanned : roundOutcome host logDir (some agent) = .ok outcome)
    (found : roundOutcome host other (some agent) = .ok known) (round : RoundResult)
    (thresholdS : ℚ) :
    ranNoProgress host logDir round thresholdS agent =
      ranNoProgress host other round thresholdS agent := by
  obtain ⟨-, start, usage, -⟩ := roundOutcome_fields scanned
  obtain ⟨-, start', usage', -⟩ := roundOutcome_fields found
  rw [ranNoProgress_of_outcome scanned, ranNoProgress_of_outcome found]
  refine noProgress_congr ?_ ?_ round thresholdS
  · rw [start, start', start_agrees alike]
  · rw [usage, usage', usage_agrees (concerns_of_start alike)]

theorem verdicts_agree (alike : Alike (concernsStart host agent) logDir other)
    {round : RoundResult} {thresholdS : ℚ} {verdict found : Bool}
    (judged : ranNoProgress host logDir round thresholdS agent = .ok verdict)
    (again : ranNoProgress host other round thresholdS agent = .ok found) : verdict = found := by
  cases scanned : roundOutcome host logDir (some agent) with
  | error e =>
    rw [ranNoProgress, scanned] at judged
    cases judged
  | ok outcome =>
    cases scanned' : roundOutcome host other (some agent) with
    | error e =>
      rw [ranNoProgress, scanned'] at again
      cases again
    | ok known =>
      rw [outcomes_agree alike scanned scanned', again] at judged
      exact (Except.ok.inj judged).symm

/-- The outcome fails, if it does, with the comparison of the newest stamps. -/
theorem roundOutcome_error {ranAgent : Option String} {e : PyErr}
    (failed : memTerminatedVerdict (newestStamp roundSubstrateBefore (tailEvents logDir))
      (newestStamp roundMemTerminated (tailEvents logDir)) = .error e) :
    roundOutcome host logDir ranAgent = .error e := by
  simp only [roundOutcome, run_newestBefore, run_newestTerminated, failed]
  rfl

/-- The outcome is there once those stamps compare. -/
theorem roundOutcome_ok {ranAgent : Option String} {killed : Bool}
    (judged : memTerminatedVerdict (newestStamp roundSubstrateBefore (tailEvents logDir))
      (newestStamp roundMemTerminated (tailEvents logDir)) = .ok killed) :
    Returns (roundOutcome host logDir ranAgent) := by
  simp only [roundOutcome, run_newestBefore, run_newestTerminated, judged, bind, Except.bind]
  exact returns_ok _

/-- Tails that also agree on the memory kills show one verdict, or raise one error. -/
theorem ranNoProgress_agrees (alike : Alike (concernsRound host agent) logDir other)
    (round : RoundResult) (thresholdS : ℚ) :
    ranNoProgress host logDir round thresholdS agent =
      ranNoProgress host other round thresholdS agent := by
  have start := start_agrees (start_of_round alike)
  have kill := kill_agrees alike
  cases judged : memTerminatedVerdict (newestStamp roundSubstrateBefore (tailEvents logDir))
      (newestStamp roundMemTerminated (tailEvents logDir)) with
  | error e =>
    have failed := @roundOutcome_error host logDir (some agent) e judged
    rw [start, kill] at judged
    rw [ranNoProgress, failed, ranNoProgress, roundOutcome_error judged]
    rfl
  | ok killed =>
    obtain ⟨outcome, scanned⟩ := @roundOutcome_ok host logDir (some agent) killed judged
    rw [start, kill] at judged
    obtain ⟨known, found⟩ := @roundOutcome_ok host other (some agent) killed judged
    exact outcomes_agree (start_of_round alike) scanned found round thresholdS

/-! ## Isolation -/

/-- The throttle entries of an agent are the same on both tails. -/
structure SameThrottle (host : Host) (agent : String) (now : ℚ) (logDir other : LogDir) : Prop where
  active : activeEntry host logDir now agent = activeEntry host other now agent
  pending : pendingEntry host logDir now agent = pendingEntry host other now agent
  exponent : backoffExponent host logDir agent = backoffExponent host other agent

theorem throttle_agrees (alike : Alike (concerns host agent) logDir other) (now : ℚ) :
    SameThrottle host agent now logDir other where
  active := by rw [activeEntry_eq, activeEntry_eq, latest_agrees alike, exponent_agrees alike]
  pending := by rw [pendingEntry_eq, pendingEntry_eq, latest_agrees alike, exponent_agrees alike]
  exponent := exponent_agrees alike

/-- **Agents are isolated, but for the round stamps.**  Whatever other agents log
and however it is interleaved, an agent keeps its active throttle, its pending
recovery and its exponent. Its no-progress verdict is the same wherever it is
reached, if the tails agree on the round starts, and in every case if they agree
on the memory kills as well. -/
theorem agents_isolated_but_for_round_stamps (host : Host) (agent : String) {logDir other : LogDir}
    (alike : Alike (concerns host agent) logDir other) (now : ℚ) :
    SameThrottle host agent now logDir other ∧
      (Alike (concernsStart host agent) logDir other → ∀ round thresholdS verdict found,
        ranNoProgress host logDir round thresholdS agent = .ok verdict →
          ranNoProgress host other round thresholdS agent = .ok found → verdict = found) ∧
      (Alike (concernsRound host agent) logDir other → ∀ round thresholdS,
        ranNoProgress host logDir round thresholdS agent =
          ranNoProgress host other round thresholdS agent) := by
  refine ⟨throttle_agrees alike now, ?_, ?_⟩
  · intro starts round thresholdS verdict found
    exact verdicts_agree starts
  · intro stamps round thresholdS
    exact ranNoProgress_agrees stamps round thresholdS

def stamped (kind ts : String) : Event := [("event", .str kind), ("ts", .str ts)]

def stampedFor (agent kind ts : String) : Event := ("agent", .str agent) :: stamped kind ts

/-- A round of claude that reached its model. -/
def usedRound : List Event :=
  [stamped roundSubstrateBefore "2026-03-02T09:00:00.000Z",
    stampedFor "claude" agentUsageRecorded "2026-03-02T09:01:00.000Z"]

/-- Codex is throttled between the two events, and reports usage after them. -/
theorem sibling_changes_nothing :
    SameThrottle bareHost "claude" 0 (.single usedRound)
        (.single (stampedFor "codex" transientErrorDetected "2026-03-02T08:59:00.000Z" ::
          (usedRound ++ [stampedFor "codex" agentUsageRecorded "2026-03-02T09:02:00.000Z"]))) ∧
      ranNoProgress bareHost (.single usedRound) fastQuietRound 60 "claude" = .ok false := by
  have isolated := agents_isolated_but_for_round_stamps bareHost "claude"
    (show Alike (concerns bareHost "claude") (.single usedRound)
      (.single (stampedFor "codex" transientErrorDetected "2026-03-02T08:59:00.000Z" ::
        (usedRound ++ [stampedFor "codex" agentUsageRecorded "2026-03-02T09:02:00.000Z"])))
      from rfl) 0
  exact ⟨isolated.1, (isolated.2.2 rfl fastQuietRound 60).trans (by decide +kernel)⟩

/-- A later round start attributed to codex turns claude's verdict around, and a
memory kill of codex with an unreadable stamp makes it raise. -/
theorem round_stamps_cross_agents :
    (Alike (concerns bareHost "claude") (.single usedRound) (.single (usedRound ++
          [stampedFor "codex" roundSubstrateBefore "2026-03-02T09:02:00.000Z"])) ∧
      ranNoProgress bareHost (.single usedRound) fastQuietRound 60 "claude" = .ok false ∧
      ranNoProgress bareHost (.single (usedRound ++
          [stampedFor "codex" roundSubstrateBefore "2026-03-02T09:02:00.000Z"]))
        fastQuietRound 60 "claude" = .ok true) ∧
    (Alike (concerns bareHost "claude") (.single usedRound) (.single (usedRound ++
          [stampedFor "codex" roundMemTerminated "soon"])) ∧
      ranNoProgress bareHost (.single (usedRound ++ [stampedFor "codex" roundMemTerminated "soon"]))
        fastQuietRound 60 "claude" = .error .valueError) := by
  refine ⟨⟨rfl, ?_, ?_⟩, rfl, ?_⟩
  · decide +kernel
  · decide +kernel
  · decide +kernel

end AgentRunner.AgentIsolation
