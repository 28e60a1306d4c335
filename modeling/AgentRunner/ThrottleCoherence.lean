import AgentRunner.ThrottleViews

/-! The scalar throttle view against the map of active throttles. The scalar is read
from the newest transient event of the whole tail, the map from the newest event of
each agent; the one exponent cache they share changes neither. -/
namespace AgentRunner.ThrottleCoherence
open PyValue Events Throttle ThrottleViews

/-- What `_check_throttle_state` reports, once its exponents are resolved. -/
def scalarState (host : Host) (logDir : LogDir) (now : ℚ) (cache : ExponentCache) :
    Option TransientErrorState :=
  (latestUnrecoveredDetected logDir).bind fun detected =>
    stateAt host now (agentLabel host detected) detected
      (exponentOf host logDir cache (agentLabel host detected))

/-- The scalar reader returns, and leaves a cache that yields the same exponents. -/
theorem checkThrottleState_returns (host : Host) (logDir : LogDir) (now : ℚ)
    (cache : ExponentCache) :
    ∃ after, checkThrottleState host logDir now cache =
        .ok (scalarState host logDir now cache, after) ∧
      ∀ agent, exponentOf host logDir after agent = exponentOf host logDir cache agent := by
  unfold checkThrottleState scalarState
  cases latestUnrecoveredDetected logDir with
  | none => exact ⟨cache, rfl, fun _ => rfl⟩
  | some detected =>
    refine ⟨_, throttleOf_eq host logDir now _ detected cache, fun agent => ?_⟩
    exact exponentOf_cacheAfter host logDir _ agent cache

/-- The entry of the active map for an agent, once its exponents are resolved. -/
def activeState (host : Host) (logDir : LogDir) (now : ℚ) (cache : ExponentCache)
    (agent : String) : Option TransientErrorState :=
  ((latestTransientPerAgent host logDir).get? agent).join.bind fun detected =>
    stateAt host now agent detected (exponentOf host logDir cache agent)

theorem stateAt_agent {host : Host} {now : ℚ} {agent : String} {detected : Event} {exponent : Nat}
    {state : TransientErrorState}
    (reported : stateAt host now agent detected exponent = some state) :
    state.agent = agent := by
  unfold stateAt at reported
  split at reported
  · cases reported
  · cases reported
    rfl

/-- What the scalar reports is what the map holds for the same agent. -/
theorem scalar_is_active {host : Host} {logDir : LogDir} {now : ℚ} {cache : ExponentCache}
    {state : TransientErrorState} (reported : scalarState host logDir now cache = some state) :
    activeState host logDir now cache state.agent = some state := by
  obtain ⟨detected, newest, reported⟩ := Option.bind_eq_some_iff.mp reported
  rw [stateAt_agent reported, activeState, latest_of_unrecovered host newest]
  exact reported

/-- The states `latestReset` chooses among are all it can return, and it returns one
unless there are none. -/
theorem latestReset_spec (states : List TransientErrorState) :
    (latestReset states = none ↔ states = []) ∧
      ∀ state, latestReset states = some state → state ∈ states := by
  induction states with
  | nil => exact ⟨⟨fun _ => rfl, fun _ => rfl⟩, fun _ found => (by cases found)⟩
  | cons s rest ih =>
    unfold latestReset
    cases later : latestReset rest with
    | none =>
      refine ⟨⟨fun h => (by cases h), fun h => (by cases h)⟩, fun state found => ?_⟩
      cases found
      exact .head _
    | some t =>
      dsimp only
      split
      · refine ⟨⟨fun h => (by cases h), fun h => (by cases h)⟩, fun state found => ?_⟩
        cases found
        exact .tail _ (ih.2 t later)
      · refine ⟨⟨fun h => (by cases h), fun h => (by cases h)⟩, fun state found => ?_⟩
        cases found
        exact .head _

/-- The composed view: its scalar is a state of the map, or there is neither. -/
theorem view_spec (host : Host) (logDir : LogDir) (now : ℚ) :
    ∃ scalar active, effectiveThrottleView host logDir now = .ok (scalar, active) ∧
      (scalar = none ↔ active.values = []) ∧
      (∀ state, scalar = some state → state ∈ active.values) ∧
      ∀ agent, active.get? agent = activeState host logDir now none agent := by
  obtain ⟨after, checked, exponents⟩ := checkThrottleState_returns host logDir now (some .empty)
  obtain ⟨active, after', ran, -, lookup⟩ := activeThrottles_spec host logDir now after none
  simp only [exponents, Option.getD_none] at lookup
  simp only [effectiveThrottleView, checked, ran, bind, Except.bind]
  cases scalar : scalarState host logDir now (some .empty) with
  | some state =>
    have held : active.get? state.agent = some state :=
      (lookup state.agent).trans (scalar_is_active scalar)
    have member : state ∈ active.values := (active.mem_values state).mpr ⟨_, held⟩
    refine ⟨some state, active, by simp only [held, pure, Except.pure], ?_, ?_, lookup⟩
    · exact ⟨fun h => (by cases h), fun empty => (by rw [empty] at member; cases member)⟩
    · rintro _ ⟨⟩
      exact member
  | none =>
    obtain ⟨none_iff, chosen⟩ := latestReset_spec active.values
    exact ⟨latestReset active.values, active, rfl, none_iff, chosen, lookup⟩

/-- **The scalar and the map are coherent.**  At every clock reading and for every
contents of the events files, the composed view returns a scalar that is `None`
exactly when the map is empty and is one of the map's states otherwise; and a
throttle the scalar reader reports on its own stands in the map, whole, under its
agent, whatever exponents the two have cached. -/
theorem scalar_and_map_cohere (host : Host) (logDir : LogDir) (now : ℚ) :
    (∃ scalar active, effectiveThrottleView host logDir now = .ok (scalar, active) ∧
      (scalar = none ↔ active.values = []) ∧ ∀ state, scalar = some state → state ∈ active.values) ∧
    ∀ cache, ∃ scalar after active after',
      checkThrottleState host logDir now cache = .ok (scalar, after) ∧
      activeThrottles host logDir now cache none = .ok (active, after') ∧
      ∀ state, scalar = some state → active.get? state.agent = some state := by
  constructor
  · obtain ⟨scalar, active, ran, empty, member, -⟩ := view_spec host logDir now
    exact ⟨scalar, active, ran, empty, member⟩
  · intro cache
    obtain ⟨after, checked, -⟩ := checkThrottleState_returns host logDir now cache
    obtain ⟨active, after', ran, -, lookup⟩ := activeThrottles_spec host logDir now cache none
    refine ⟨_, after, active, after', checked, ran, fun state reported => ?_⟩
    exact (lookup state.agent).trans (scalar_is_active reported)

end AgentRunner.ThrottleCoherence
