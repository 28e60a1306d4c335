import AgentRunner.Throttle
import Mathlib.Data.List.Induction

/-! The throttle readers never raise, and each of them reports, for an agent
whose latest transient event is an open detection, one state: a function of the
detection, the clock and the agent's back-off exponent. The exponent cache only
decides where that exponent comes from. -/
namespace AgentRunner.ThrottleViews
open PyValue Events IsoTime Throttle

/-- The int `_coerce_int` comes back with. -/
def coercedInt (host : Host) (value : Json) (default : Int) : Int :=
  match coerceInt host value default with
  | .ok n => n
  | .error _ => default

/-- The guards of `_coerce_int` cover every conversion it makes. -/
theorem coerceInt_returns (host : Host) (value : Json) (default : Int) :
    coerceInt host value default = .ok (coercedInt host value default) := by
  have returns : ∃ n, coerceInt host value default = .ok n := by
    cases value with
    | float x =>
      by_cases finite : isFinite x = true
      · obtain ⟨n, hn⟩ := intOfFloat_ok finite
        exact ⟨n, by simp [coerceInt, finite, hn]⟩
      · exact ⟨default, by simp [coerceInt, finite]⟩
    | str s =>
      cases parsed : host.intOfText s with
      | none => exact ⟨default, by simp [coerceInt, intOfStr, parsed]⟩
      | some n => exact ⟨n, by simp [coerceInt, intOfStr, parsed]⟩
    | _ => exact ⟨_, rfl⟩
  obtain ⟨n, hn⟩ := returns
  simp [coercedInt, hn]

/-- The epoch `_coerce_epoch_int` comes back with. -/
def coercedEpoch (host : Host) (value : Json) (default : Int) (now : ℚ) : Int :=
  if coercedInt host value default < 0 ∨ now + epochSanityWindowS < coercedInt host value default
  then default else coercedInt host value default

theorem coerceEpochInt_returns (host : Host) (value : Json) (default : Int) (now : ℚ) :
    coerceEpochInt host value default now = .ok (coercedEpoch host value default now) := by
  simp only [coerceEpochInt, coerceInt_returns, bind, Except.bind, coercedEpoch]
  split <;> rfl

/-- The raw reset epoch a detection carries, as the readers coerce it. -/
def rawReset (host : Host) (now : ℚ) (detected : Event) : Int :=
  coercedEpoch host (get detected "reset_at_epoch") 0 now

/-- The reset an exponent extends a detection's raw reset to. -/
def resetFor (host : Host) (now : ℚ) (detected : Event) (exponent : Nat) : Int :=
  extendReset (classificationOf host detected) (rawReset host now detected) exponent

/-- The state reported for an open detection at an exponent. -/
def stateAt (host : Host) (now : ℚ) (agent : String) (detected : Event) (exponent : Nat) :
    Option TransientErrorState :=
  if (resetFor host now detected exponent : ℚ) ≤ now then none
  else some {
    resetAtEpoch := resetFor host now detected exponent
    classification := classificationOf host detected
    agent
    sinceRound := coercedInt host (get detected "round_num") 0
    phase := str host (getOr detected "phase" (.str "")) }

/-- The exponent a cache yields for an agent: its own entry, else a fresh count. -/
def exponentOf (host : Host) (logDir : LogDir) (cache : ExponentCache) (agent : String) : Nat :=
  (cache.bind fun known => known.get? agent).getD (backoffExponent host logDir agent)

/-- The cache once an agent's exponent has been asked for. -/
def cacheAfter (host : Host) (logDir : LogDir) (agent : String) (cache : ExponentCache) :
    ExponentCache :=
  cache.map fun known =>
    if known.contains agent then known else known.set agent (backoffExponent host logDir agent)

@[simp] theorem exponentOf_none (host : Host) (logDir : LogDir) (agent : String) :
    exponentOf host logDir none agent = backoffExponent host logDir agent := rfl

@[simp] theorem exponentOf_empty (host : Host) (logDir : LogDir) (agent : String) :
    exponentOf host logDir (some .empty) agent = backoffExponent host logDir agent := rfl

@[simp] theorem cacheAfter_none (host : Host) (logDir : LogDir) (agent : String) :
    cacheAfter host logDir agent none = none := rfl

/-- Filling the cache changes no exponent it yields. -/
@[simp] theorem exponentOf_cacheAfter (host : Host) (logDir : LogDir) (agent other : String)
    (cache : ExponentCache) :
    exponentOf host logDir (cacheAfter host logDir agent cache) other =
      exponentOf host logDir cache other := by
  cases cache with
  | none => rfl
  | some known =>
    simp only [exponentOf, cacheAfter, Option.map_some, Option.bind_some]
    split
    · rfl
    · rename_i absent
      by_cases same : other = agent
      · subst same
        have missing : known.get? other = none := by simpa [Dict.contains] using absent
        simp [missing]
      · simp [same]

theorem eventsDerivedReset_eq (host : Host) (logDir : LogDir) (agent classification : String)
    (reset : Int) (cache : ExponentCache) :
    eventsDerivedReset host logDir agent classification reset cache =
      (extendReset classification reset (exponentOf host logDir cache agent),
        cacheAfter host logDir agent cache) := by
  cases cache with
  | none => rfl
  | some known =>
    cases held : known.get? agent <;>
      simp [eventsDerivedReset, exponentOf, cacheAfter, Dict.contains, held]

theorem throttleOf_eq (host : Host) (logDir : LogDir) (now : ℚ) (agent : String)
    (detected : Event) (cache : ExponentCache) :
    throttleOf host logDir now agent detected cache =
      .ok (stateAt host now agent detected (exponentOf host logDir cache agent),
        cacheAfter host logDir agent cache) := by
  simp only [throttleOf, coerceEpochInt_returns, coerceInt_returns, eventsDerivedReset_eq, bind,
    Except.bind, stateAt, resetFor, rawReset]
  by_cases past : (resetFor host now detected (exponentOf host logDir cache agent) : ℚ) ≤ now
  · simp only [resetFor, rawReset] at past
    simp only [past, if_true, pure, Except.pure]
  · simp only [resetFor, rawReset] at past
    simp only [past, if_false, pure, Except.pure]

/-! ## The map of active throttles -/

/-- What the loop of `_active_throttles` adds for an agent. -/
def reported (host : Host) (logDir : LogDir) (now : ℚ) (cache : ExponentCache)
    (latest : List (String × Option Event)) (agent : String) : Option TransientErrorState :=
  (Dict.find latest agent).join.bind fun detected =>
    stateAt host now agent detected (exponentOf host logDir cache agent)

private theorem reported_cacheAfter (host : Host) (logDir : LogDir) (now : ℚ)
    (agent : String) (cache : ExponentCache) (latest : List (String × Option Event)) :
    reported host logDir now (cacheAfter host logDir agent cache) latest =
      reported host logDir now cache latest := by
  funext other
  simp only [reported, exponentOf_cacheAfter]

private theorem reported_absent {host : Host} {logDir : LogDir} {now : ℚ}
    {cache : ExponentCache} {latest : List (String × Option Event)} {agent : String}
    (absent : agent ∉ latest.map Prod.fst) :
    reported host logDir now cache latest agent = none := by
  simp [reported, Dict.find_absent absent]

/-- The loop returns, and maps each agent to what is reported for it. The
induction is over the entries, whose keys are distinct: a later entry never
overwrites what an earlier one reported. -/
theorem activeLoop_spec (host : Host) (logDir : LogDir) (now : ℚ)
    (latest : List (String × Option Event)) (distinct : (latest.map Prod.fst).Nodup)
    (active : Dict String TransientErrorState) (cache : ExponentCache) :
    ∃ result after, activeLoop host logDir now latest active cache = .ok (result, after) ∧
      (cache = none → after = none) ∧
      ∀ agent, result.get? agent =
        (reported host logDir now cache latest agent).or (active.get? agent) := by
  induction latest generalizing active cache with
  | nil => exact ⟨active, cache, rfl, id, fun agent => by simp [reported, Dict.find]⟩
  | cons entry rest ih =>
    obtain ⟨name, value⟩ := entry
    obtain ⟨fresh, tail⟩ := List.nodup_cons.mp distinct
    cases value with
    | none =>
      obtain ⟨result, after, ran, uncached, lookup⟩ := ih tail active cache
      refine ⟨result, after, ran, uncached, fun agent => ?_⟩
      by_cases same : name = agent
      · subst same
        rw [lookup, reported_absent fresh]
        simp [reported, Dict.find]
      · rw [lookup]
        simp [reported, Dict.find, same]
    | some detected =>
      simp only [activeLoop, throttleOf_eq, bind, Except.bind]
      cases state : stateAt host now name detected (exponentOf host logDir cache name) with
      | none =>
        obtain ⟨result, after, ran, uncached, lookup⟩ :=
          ih tail active (cacheAfter host logDir name cache)
        refine ⟨result, after, ran, fun h => uncached (by rw [h]; rfl), fun agent => ?_⟩
        rw [lookup, reported_cacheAfter]
        by_cases same : name = agent
        · subst same
          rw [reported_absent fresh]
          simp [reported, Dict.find, state]
        · simp [reported, Dict.find, same]
      | some found =>
        obtain ⟨result, after, ran, uncached, lookup⟩ :=
          ih tail (active.set name found) (cacheAfter host logDir name cache)
        refine ⟨result, after, ran, fun h => uncached (by rw [h]; rfl), fun agent => ?_⟩
        rw [lookup, reported_cacheAfter, Dict.get?_set]
        by_cases same : name = agent
        · subst same
          rw [reported_absent fresh]
          simp [reported, Dict.find, state]
        · simp [reported, Dict.find, same, Ne.symm same]

/-- `_active_throttles` returns, and its map holds exactly the states of the
open detections whose extended reset is still ahead. -/
theorem activeThrottles_spec (host : Host) (logDir : LogDir) (now : ℚ) (cache : ExponentCache)
    (latest : Option (Dict String (Option Event))) :
    ∃ result after, activeThrottles host logDir now cache latest = .ok (result, after) ∧
      (cache = none → after = none) ∧
      ∀ agent, result.get? agent =
        ((latest.getD (latestTransientPerAgent host logDir)).get? agent).join.bind
          fun detected => stateAt host now agent detected (exponentOf host logDir cache agent) := by
  obtain ⟨result, after, ran, uncached, lookup⟩ := activeLoop_spec host logDir now
    (latest.getD (latestTransientPerAgent host logDir)).entries
    (latest.getD (latestTransientPerAgent host logDir)).nodup .empty cache
  refine ⟨result, after, ran, uncached, fun agent => ?_⟩
  rw [lookup, Dict.get?_empty, Option.or_none]
  rfl

/-- `_check_throttle_state` returns the state of the newest open detection. -/
theorem checkThrottleState_eq (host : Host) (logDir : LogDir) (now : ℚ) (cache : ExponentCache) :
    ∃ after, checkThrottleState host logDir now cache =
      .ok ((latestUnrecoveredDetected logDir).bind fun detected =>
        stateAt host now (agentLabel host detected) detected
          (exponentOf host logDir cache (agentLabel host detected)), after) := by
  unfold checkThrottleState
  cases latestUnrecoveredDetected logDir with
  | none => exact ⟨cache, rfl⟩
  | some detected => exact ⟨_, throttleOf_eq host logDir now _ detected cache⟩

/-! ## The newest transient event -/

theorem scan_append (older newer : List Event) :
    scanEventsForTransient (older ++ newer) =
      (scanEventsForTransient newer).or (scanEventsForTransient older) := by
  induction newer using List.reverseRecOn with
  | nil => simp [scanEventsForTransient]
  | append_singleton events ev ih =>
    simp only [scanEventsForTransient, ← List.append_assoc, List.foldl_concat] at ih ⊢
    split_ifs
    · rfl
    · rfl
    · exact ih

/-- Reading newest file first and stopping at a transient event finds the last
transient event of the whole tail. -/
theorem findSome_scan (files : List (List Event)) :
    files.reverse.findSome? scanEventsForTransient = scanEventsForTransient files.flatten := by
  induction files with
  | nil => rfl
  | cons file rest ih =>
    rw [List.reverse_cons, List.findSome?_append, ih, List.flatten_cons, scan_append]
    simp

/-- An open detection the scan ends on is the latest transient event of its agent. -/
theorem latest_of_scan (host : Host) {logDir : LogDir} {detected : Event}
    (newest : scanEventsForTransient (tailEvents logDir) = some (some detected)) :
    (latestTransientPerAgent host logDir).get? (agentLabel host detected) =
      some (some detected) := by
  unfold latestTransientPerAgent
  generalize tailEvents logDir = tail at newest ⊢
  induction tail using List.reverseRecOn with
  | nil => simp [scanEventsForTransient] at newest
  | append_singleton events ev ih =>
    simp only [scanEventsForTransient, List.foldl_concat] at newest ih ⊢
    simp only [latestStep]
    split_ifs at newest ⊢ with opened recovered
    · cases newest
      simp
    · cases newest
    · exact ih newest

/-- The newest open detection is the latest transient event of its agent. -/
theorem latest_of_unrecovered (host : Host) {logDir : LogDir} {detected : Event}
    (newest : latestUnrecoveredDetected logDir = some detected) :
    (latestTransientPerAgent host logDir).get? (agentLabel host detected) =
      some (some detected) := by
  rw [latestUnrecoveredDetected, findSome_scan, Option.join_eq_some_iff] at newest
  exact latest_of_scan host newest

end AgentRunner.ThrottleViews
