import AgentRunner.RoundFold
import Mathlib.Tactic.NormNum

/-! Which event tails make a reader of the serve loop raise. The throttle
readers coerce or guard every field, so no tail reaches them; the verdicts of a
round and the memory-loop window parse `ts` unguarded, and these comparisons are
the only steps that can fail. -/
namespace AgentRunner.PoisonedTail
open PyValue Events IsoTime Throttle RoundVerdicts ThrottleViews RoundFold

/-! ## The throttle readers always return -/

theorem activeThrottles_returns (host : Host) (logDir : LogDir) (now : ℚ) (cache : ExponentCache)
    (latest : Option (Dict String (Option Event))) :
    Returns (activeThrottles host logDir now cache latest) := by
  obtain ⟨result, after, ran, -⟩ := activeThrottles_spec host logDir now cache latest
  exact ⟨_, ran⟩

theorem checkThrottleState_returns (host : Host) (logDir : LogDir) (now : ℚ)
    (cache : ExponentCache) : Returns (checkThrottleState host logDir now cache) := by
  obtain ⟨after, ran⟩ := checkThrottleState_eq host logDir now cache
  exact ⟨_, ran⟩

theorem effectiveThrottleView_returns (host : Host) (logDir : LogDir) (now : ℚ) :
    Returns (effectiveThrottleView host logDir now) := by
  obtain ⟨⟨throttle, cache⟩, checked⟩ := checkThrottleState_returns host logDir now (some .empty)
  obtain ⟨⟨active, after⟩, ran⟩ := activeThrottles_returns host logDir now cache none
  simp only [effectiveThrottleView, checked, ran, bind, Except.bind]
  cases throttle with
  | none => exact returns_ok _
  | some t =>
    cases held : active.get? t.agent with
    | none => simp [held, pure, Except.pure]
    | some state => simp [held, pure, Except.pure]

/-- A timestamp with an offset needs no local time. -/
theorem timestamp_aware (host : Host) {d : Datetime} (aware : d.offset ≠ none) :
    Returns (timestamp host d) := by
  unfold timestamp
  cases offset : d.offset with
  | none => exact absurd offset aware
  | some _ => exact returns_ok _

/-- A text that is no timestamp is a `ValueError`. -/
theorem parseIsoMs_text_error {s : String} {e : PyErr} (failed : parseIsoMs (.str s) = .error e) :
    e = .valueError := by
  simp only [parseIsoMs] at failed
  cases parsed : fromisoformat (replaceZ s.toList) with
  | none =>
    rw [parsed] at failed
    exact (Except.error.inj failed).symm
  | some d =>
    rw [parsed] at failed
    cases failed

/-- The guards of `_throttled_for_s` cover whatever the detection carries. -/
theorem throttledForS_returns (host : Host) (ts : Json) (now : ℚ) :
    Returns (throttledForS host ts now) := by
  unfold throttledForS
  split
  · exact returns_ok _
  cases parsed : parseIsoMs (.str (str host ts)) with
  | error e =>
    cases parseIsoMs_text_error parsed
    exact returns_ok _
  | ok detected =>
    simp only
    rw [returns_bind]
    have aware : (if naive : detected.offset = none then asUtc detected naive
        else detected).offset ≠ none := by
      split
      · simp [asUtc]
      · assumption
    obtain ⟨since, stamped⟩ := timestamp_aware host aware
    exact ⟨since, stamped, returns_ok _⟩

theorem pendingLoop_returns (host : Host) (now : ℚ) (active : Dict String TransientErrorState)
    (latest : List (String × Option Event)) : Returns (pendingLoop host now active latest) := by
  induction latest with
  | nil => exact returns_ok _
  | cons entry rest ih =>
    obtain ⟨agent, value⟩ := entry
    cases value with
    | none => exact ih
    | some detected =>
      simp only [pendingLoop]
      split
      · exact ih
      · obtain ⟨waited, measured⟩ := throttledForS_returns host (get detected "ts") now
        obtain ⟨cleared, listed⟩ := ih
        exact ⟨_, by simp only [measured, listed, bind, Except.bind]; rfl⟩

theorem pendingRecovered_returns (host : Host) (logDir : LogDir) (now : ℚ)
    (active : Option (Dict String TransientErrorState)) :
    Returns (pendingRecovered host logDir now active) := by
  cases active with
  | some known => exact pendingLoop_returns ..
  | none =>
    obtain ⟨⟨scanned, after⟩, ran⟩ := activeThrottles_returns host logDir now none none
    simp only [pendingRecovered, ran, Except.map, bind, Except.bind]
    exact pendingLoop_returns ..

/-! ## The readers that parse timestamps unguarded -/

/-- A timestamp `mem_loop_events_in_window` can place: an ISO text that carries
an offset, or one the host's local time covers. -/
def Placeable (host : Host) (ts : Json) : Prop :=
  ∃ d, parseIsoMs ts = .ok d ∧ (d.offset = none → Returns (timestamp host d))

/-- Every memory-loop event with a timestamp has one that can be placed. -/
def MemLoopsPlaceable (host : Host) (events : List Event) : Prop :=
  ∀ ev ∈ events, isKind ev memLoop = true → (get ev "ts").truthy = true →
    Placeable host (get ev "ts")

theorem placeable_iff (host : Host) (ts : Json) :
    Placeable host ts ↔ Returns (parseIsoMs ts >>= timestamp host) := by
  rw [returns_bind]
  refine exists_congr fun d => and_congr_right fun _ => ?_
  by_cases naive : d.offset = none
  · simp [naive]
  · simp [naive, timestamp_aware host naive]

theorem memLoopCount_returns (host : Host) (cutoff : ℚ) (events : List Event) (count : Nat) :
    Returns (memLoopCount host cutoff events count) ↔ MemLoopsPlaceable host events := by
  induction events generalizing count with
  | nil => simp [memLoopCount, MemLoopsPlaceable]
  | cons ev rest ih =>
    have split : MemLoopsPlaceable host (ev :: rest) ↔
        (isKind ev memLoop = true → (get ev "ts").truthy = true → Placeable host (get ev "ts")) ∧
          MemLoopsPlaceable host rest := List.forall_mem_cons
    rw [split, memLoopCount]
    by_cases stamped : (isKind ev memLoop && (get ev "ts").truthy) = true
    · rw [if_pos stamped]
      rw [Bool.and_eq_true] at stamped
      simp only [stamped.1, stamped.2, forall_const, placeable_iff, returns_bind, ih]
      constructor
      · rintro ⟨d, parsed, epoch, placed, later⟩
        exact ⟨⟨d, parsed, epoch, placed⟩, later⟩
      · rintro ⟨⟨d, parsed, epoch, placed⟩, later⟩
        exact ⟨d, parsed, epoch, placed, later⟩
    · rw [if_neg stamped, ih]
      rw [Bool.and_eq_true, not_and] at stamped
      exact ⟨fun later => ⟨fun kind truthy => absurd truthy (stamped kind), later⟩, And.right⟩

/-- The no-progress verdict on an outcome returns exactly when the newest usage
it reads, if any, can be compared with the round's start. -/
theorem noProgress_returns {host : Host} {logDir : LogDir} {ranAgent : Option String}
    {outcome : RoundOutcome} (computed : roundOutcome host logDir ranAgent = .ok outcome) :
    Returns outcome.noProgress ↔ ∀ usage before,
      (scanUsageView host (tailEvents logDir) ranAgent).2 = some usage →
        newestStamp roundSubstrateBefore (tailEvents logDir) = some before →
          Comparable usage before := by
  obtain ⟨-, start, view, -⟩ := roundOutcome_fields computed
  unfold RoundOutcome.noProgress
  rw [start, view]
  cases newest : (scanUsageView host (tailEvents logDir) ranAgent).2 with
  | none =>
    simp only [reduceCtorEq, false_implies, implies_true, iff_true]
    split
    · exact returns_ok _
    · cases newestStamp roundSubstrateBefore (tailEvents logDir) <;> exact returns_ok _
  | some usage =>
    rw [if_neg (by simp [scanUsageView_capable newest])]
    cases newestStamp roundSubstrateBefore (tailEvents logDir) with
    | none => simp
    | some before => simp [tsLt_returns]

theorem roundHadNoProgress_returns {host : Host} {logDir : LogDir} {ranAgent : Option String}
    {outcome : RoundOutcome} (computed : roundOutcome host logDir ranAgent = .ok outcome)
    (round : RoundResult) (thresholdS : ℚ) (shown : Returns outcome.noProgress) :
    Returns (roundHadNoProgress host logDir round thresholdS (some outcome)) ∧
      (ranAgent = none → Returns (roundHadNoProgress host logDir round thresholdS none)) := by
  constructor
  · unfold roundHadNoProgress
    split
    · exact returns_ok _
    · exact shown
  · rintro rfl
    unfold roundHadNoProgress
    split
    · exact returns_ok _
    · simp only [computed, bind, Except.bind]
      exact shown

/-- A round no guard of `round_had_no_progress` turns away. -/
def fastQuietRound : RoundResult := ⟨0, 0, false⟩

/-! ## The tails that no reader chokes on -/

/-- Every call the serve loop makes on this tail returns, whatever else it is
passed. A precomputed outcome is one `round_outcome` returned for the same log. -/
structure NothingRaises (host : Host) (logDir : LogDir) (now : ℚ) : Prop where
  outcome : ∀ ranAgent, Returns (roundOutcome host logDir ranAgent)
  memTerminated : Returns (roundWasMemTerminated host logDir none)
  noProgress : ∀ round thresholdS, Returns (roundHadNoProgress host logDir round thresholdS none)
  noProgressOf : ∀ ranAgent outcome, roundOutcome host logDir ranAgent = .ok outcome →
    ∀ round thresholdS, Returns (roundHadNoProgress host logDir round thresholdS (some outcome))
  memLoops : ∀ windowS, Returns (memLoopEventsInWindow host logDir now windowS)
  active : ∀ cache latest, Returns (activeThrottles host logDir now cache latest)
  throttle : ∀ cache, Returns (checkThrottleState host logDir now cache)
  effective : Returns (effectiveThrottleView host logDir now)
  recovered : ∀ active, Returns (pendingRecovered host logDir now active)

/-- The timestamps the unguarded readers parse can all be parsed and compared. -/
structure TailReadable (host : Host) (events : List Event) : Prop where
  stamps : StampsComparable events
  usage : ∀ ranAgent usage before, (scanUsageView host events ranAgent).2 = some usage →
    newestStamp roundSubstrateBefore events = some before → Comparable usage before
  memLoops : MemLoopsPlaceable host events

/-- One memory-loop event whose timestamp is no timestamp. -/
def garbledMemLoop : Event := [("event", .str memLoop), ("ts", .str "garbage")]

end AgentRunner.PoisonedTail
