import AgentRunner.ThrottleCoherence
import Mathlib.Tactic.NormNum

/-! The monitor's `detect_rate_limit_active` against the supervisor's throttle view.
The detector judges by the one newest transient event; the view judges every agent
by its own, so they part when a throttled agent's sibling has the last word. -/
namespace AgentRunner.MonitorThrottle
open PyValue Events IsoTime Throttle ThrottleViews ThrottleCoherence

/-! ## The detector -/

/-- `Alert`. -/
structure Alert where
  severity : String
  detector : String
  message : String
  context : List (String × Json)
  ts : String
  autoAction : String

/-- `_alert`, at the timestamp `ts` of its clock. -/
def alert (ts detector severity message : String) (context : List (String × Json)) : Alert :=
  ⟨severity, detector, message, context, ts, "none"⟩

/-- `datetime.fromtimestamp(epoch, UTC)`, which refuses years outside 1 to 9999. -/
def fromTimestampUtc (epoch : Int) : Option Datetime :=
  if -62135596800 ≤ epoch ∧ epoch ≤ 253402300799 then
    let second := (epoch % 86400).toNat
    mkDatetime (ord2ymd (epoch / 86400 + 719163).toNat)
      (second / 3600, second / 60 % 60, second % 60, 0) (some 0)
  else none

/-- `isoformat()` of a UTC datetime on a whole second. -/
def isoSeconds (d : Datetime) : String :=
  String.ofList (pad4 d.year ++ '-' :: pad2 d.month ++ '-' :: pad2 d.day ++ 'T' :: pad2 d.hour ++
    ':' :: pad2 d.minute ++ ':' :: pad2 d.second ++ "+00:00".toList)

/-- `_safe_epoch_iso`. -/
def safeEpochIso (epoch : Int) : Option String := (fromTimestampUtc epoch).map isoSeconds

/-- What the detector does with the newest transient event, a `detected`. -/
def judgeDetected (host : Host) (now : ℚ) (logDir : Option LogDir) (ts : String) (ev : Event) :
    Except PyErr (Option Alert) := do
  let agent := agentLabel host ev
  let classification := getOr ev "classification" (.str "unknown")
  let raw ← coerceEpochInt host (get ev "reset_at_epoch") 0 now
  let reset : Int := match logDir with
    | some logDir => (eventsDerivedReset host logDir agent (str host classification) raw none).1
    | none => raw
  if now < (reset : ℚ) then
    match safeEpochIso reset with
    | none => return none
    | some iso =>
      return some (alert ts "rate_limit_active" "warning"
        ("throttled until " ++ iso ++ " (" ++ str host classification ++ ")")
        [("throttled_until_iso", .str iso), ("classification", classification),
          ("agent", .str agent)])
  else return none

/-- The loop of `detect_rate_limit_active` over the reversed events. -/
def detectLoop (host : Host) (now : ℚ) (logDir : Option LogDir) (ts : String) :
    List Event → Except PyErr (Option Alert)
  | [] => .ok none
  | ev :: rest =>
    if isKind ev transientErrorRecovered then .ok none
    else if isKind ev transientErrorDetected then judgeDetected host now logDir ts ev
    else detectLoop host now logDir ts rest

/-- `detect_rate_limit_active(events, now=now, log_dir=log_dir)`. -/
def detectRateLimitActive (host : Host) (events : List Event) (now : ℚ) (logDir : Option LogDir)
    (ts : String) : Except PyErr (Option Alert) :=
  detectLoop host now logDir ts events.reverse

/-! ## What each reader goes by -/

/-- The ladder-extended reset of a detection, as an agent's count stands. -/
def ladderReset (host : Host) (logDir : LogDir) (now : ℚ) (agent : String) (detected : Event) :
    Int := resetFor host now detected (backoffExponent host logDir agent)

/-- Some agent's latest transient event is an unrecovered detection whose reset is ahead. -/
def SomeThrottled (host : Host) (logDir : LogDir) (now : ℚ) : Prop :=
  ∃ agent detected, (latestTransientPerAgent host logDir).get? agent = some (some detected) ∧
    now < ladderReset host logDir now agent detected

/-- The newest transient event of all is an unrecovered detection whose reset is ahead. -/
def NewestThrottled (host : Host) (logDir : LogDir) (now : ℚ) : Prop :=
  ∃ detected, scanEventsForTransient (tailEvents logDir) = some (some detected) ∧
    now < ladderReset host logDir now (agentLabel host detected) detected

/-- Every extended reset of the stream is a date. -/
def ResetsAreDates (host : Host) (logDir : LogDir) (now : ℚ) : Prop :=
  ∀ detected ∈ tailEvents logDir, isKind detected transientErrorDetected = true →
    (safeEpochIso (ladderReset host logDir now (agentLabel host detected) detected)).isSome

/-- A missing classification is `"unknown"` to the one reader and
`"rate_limit_account"` to the other; neither has a ladder. -/
theorem judged_reset (host : Host) (raw : Int) (ev : Event) (exponent : Nat) :
    extendReset (str host (getOr ev "classification" (.str "unknown"))) raw exponent =
      extendReset (classificationOf host ev) raw exponent := by
  rw [classificationOf, getOr, getOr]
  cases ev.lookup "classification" with
  | none => rfl
  | some _ => rfl

/-- The detector alerts on the newest transient event exactly when its reset is ahead. -/
theorem judgeDetected_alerts (host : Host) (logDir : LogDir) (now : ℚ) (ts : String) {ev : Event}
    (date : (safeEpochIso (ladderReset host logDir now (agentLabel host ev) ev)).isSome) :
    ∃ alert, judgeDetected host now (some logDir) ts ev = .ok alert ∧
      (alert.isSome ↔ now < ladderReset host logDir now (agentLabel host ev) ev) := by
  obtain ⟨iso, dated⟩ := Option.isSome_iff_exists.mp date
  have reset : (eventsDerivedReset host logDir (agentLabel host ev)
      (str host (getOr ev "classification" (.str "unknown"))) (rawReset host now ev) none).1 =
        ladderReset host logDir now (agentLabel host ev) ev := by
    rw [eventsDerivedReset_eq, exponentOf_none, judged_reset]
    rfl
  simp only [judgeDetected, coerceEpochInt_returns, bind, Except.bind]
  rw [rawReset] at reset
  rw [reset, dated]
  by_cases ahead : now < ladderReset host logDir now (agentLabel host ev) ev
  · rw [if_pos ahead]
    exact ⟨_, rfl, iff_of_true rfl ahead⟩
  · rw [if_neg ahead]
    exact ⟨_, rfl, iff_of_false (by simp) ahead⟩

/-- The detector finds what a forward scan of the stream finds last. -/
theorem detectLoop_eq (host : Host) (now : ℚ) (logDir : Option LogDir) (ts : String)
    (events : List Event) : detectLoop host now logDir ts events.reverse =
      match scanEventsForTransient events with
      | some (some detected) => judgeDetected host now logDir ts detected
      | _ => .ok none := by
  induction events using List.reverseRecOn with
  | nil => rfl
  | append_singleton events ev ih =>
    rw [List.reverse_append, List.reverse_singleton, List.singleton_append, detectLoop]
    simp only [scanEventsForTransient, List.foldl_concat] at ih ⊢
    by_cases recovered : isKind ev transientErrorRecovered = true
    · have other := isKind_unique recovered (show _ ≠ transientErrorDetected by decide)
      simp only [recovered, other, if_true, if_false, Bool.false_eq_true]
    · simp only [recovered, if_false, Bool.false_eq_true]
      split
      · rfl
      · exact ih

/-- What a scan finds open last is a detection of the stream. -/
theorem scan_detected {events : List Event} {detected : Event}
    (found : scanEventsForTransient events = some (some detected)) :
    detected ∈ events ∧ isKind detected transientErrorDetected = true := by
  induction events using List.reverseRecOn with
  | nil => cases found
  | append_singleton events ev ih =>
    simp only [scanEventsForTransient, List.foldl_concat] at found ih
    split at found
    · rename_i opened
      cases found
      exact ⟨List.mem_append_right _ (List.mem_singleton_self _), opened⟩
    · split at found
      · cases found
      · obtain ⟨member, opened⟩ := ih found
        exact ⟨List.mem_append_left _ member, opened⟩

/-- The detector judges the newest transient event. -/
theorem detects_iff (host : Host) (logDir : LogDir) (now : ℚ) (ts : String)
    (dates : ResetsAreDates host logDir now) :
    ∃ alert, detectRateLimitActive host (tailEvents logDir) now (some logDir) ts = .ok alert ∧
      (alert.isSome ↔ NewestThrottled host logDir now) := by
  rw [detectRateLimitActive, detectLoop_eq, NewestThrottled]
  cases newest : scanEventsForTransient (tailEvents logDir) with
  | none => exact ⟨none, rfl, iff_of_false (by simp) fun ⟨_, h, _⟩ => (by cases h)⟩
  | some last =>
    cases last with
    | none => exact ⟨none, rfl, iff_of_false (by simp) fun ⟨_, h, _⟩ => (by cases h)⟩
    | some detected =>
      obtain ⟨member, opened⟩ := scan_detected newest
      obtain ⟨alert, ran, alerts⟩ :=
        judgeDetected_alerts host logDir now ts (dates detected member opened)
      refine ⟨alert, ran, alerts.trans ⟨fun ahead => ⟨detected, rfl, ahead⟩, ?_⟩⟩
      rintro ⟨_, ⟨⟩, ahead⟩
      exact ahead

theorem stateAt_isSome (host : Host) (now : ℚ) (agent : String) (detected : Event)
    (exponent : Nat) : (stateAt host now agent detected exponent).isSome ↔
      now < resetFor host now detected exponent := by
  rw [stateAt]
  split
  · rename_i past
    exact iff_of_false (by simp) (not_lt.mpr past)
  · rename_i ahead
    exact iff_of_true rfl (not_le.mp ahead)

/-- The composed view reports a throttle exactly when some agent is throttled. -/
theorem view_iff (host : Host) (logDir : LogDir) (now : ℚ) :
    ∃ scalar active, effectiveThrottleView host logDir now = .ok (scalar, active) ∧
      (scalar.isSome ↔ SomeThrottled host logDir now) := by
  obtain ⟨scalar, active, ran, empty, member, lookup⟩ := view_spec host logDir now
  refine ⟨scalar, active, ran, ?_⟩
  constructor
  · intro reported
    obtain ⟨state, rfl⟩ := Option.isSome_iff_exists.mp reported
    obtain ⟨agent, held⟩ := (active.mem_values state).mp (member state rfl)
    rw [lookup, activeState, Option.bind_eq_some_iff] at held
    obtain ⟨detected, latest, open_⟩ := held
    refine ⟨agent, detected, Option.join_eq_some_iff.mp latest, ?_⟩
    exact (stateAt_isSome host now agent detected _).mp (Option.isSome_of_eq_some open_)
  · rintro ⟨agent, detected, latest, ahead⟩
    obtain ⟨state, open_⟩ := Option.isSome_iff_exists.mp
      ((stateAt_isSome host now agent detected _).mpr ahead)
    have held : active.get? agent = some state := by
      rw [lookup, activeState, latest]
      exact open_
    rw [Option.isSome_iff_ne_none]
    intro missing
    have listed := (active.mem_values state).mpr ⟨agent, held⟩
    rw [empty.mp missing] at listed
    cases listed

/-! ## Where they agree -/

/-- The detector alerts exactly when the view reports a throttle. -/
def Agrees (host : Host) (logDir : LogDir) (now : ℚ) (ts : String) : Prop :=
  ∃ alert scalar active,
    detectRateLimitActive host (tailEvents logDir) now (some logDir) ts = .ok alert ∧
    effectiveThrottleView host logDir now = .ok (scalar, active) ∧
    (alert.isSome ↔ scalar.isSome)

/-- **The monitor sees a throttle that the newest transient event shows.**  For every
events tail, clock reading and agents, while the resets are dates: monitor and
supervisor agree exactly when either no agent is throttled or the newest transient
event of all agents is itself a detection whose reset is ahead. -/
theorem monitor_agrees_iff (host : Host) (logDir : LogDir) (now : ℚ) (ts : String)
    (dates : ResetsAreDates host logDir now) :
    Agrees host logDir now ts ↔
      (SomeThrottled host logDir now → NewestThrottled host logDir now) := by
  obtain ⟨alert, detected, alerts⟩ := detects_iff host logDir now ts dates
  obtain ⟨scalar, active, viewed, reports⟩ := view_iff host logDir now
  have newest : NewestThrottled host logDir now → SomeThrottled host logDir now := by
    rintro ⟨last, found, ahead⟩
    exact ⟨agentLabel host last, last, latest_of_scan host found, ahead⟩
  constructor
  · rintro ⟨alert', scalar', active', detected', viewed', same⟩ throttled
    cases detected.symm.trans detected'
    cases viewed.symm.trans viewed'
    exact alerts.mp (same.mpr (reports.mpr throttled))
  · intro shows
    exact ⟨alert, scalar, active, detected, viewed,
      alerts.trans ⟨fun h => reports.mpr (newest h), fun h => shows (reports.mp h)⟩⟩

/-- An account limit detected for an agent. -/
def limited (agent : String) (resetAtEpoch : Int) : Event :=
  [("event", .str transientErrorDetected), ("agent", .str agent),
    ("reset_at_epoch", .int resetAtEpoch)]

theorem limited_reset (host : Host) (logDir : LogDir) (agent : String) {resetAtEpoch : Int}
    (nonneg : 0 ≤ resetAtEpoch) (soon : resetAtEpoch ≤ 1000 + epochSanityWindowS) :
    ladderReset host logDir 1000 agent (limited agent resetAtEpoch) = resetAtEpoch := by
  have read : coercedInt host (get (limited agent resetAtEpoch) "reset_at_epoch") 0 =
      resetAtEpoch := rfl
  have raw : rawReset host 1000 (limited agent resetAtEpoch) = resetAtEpoch := by
    rw [rawReset, coercedEpoch, read, if_neg]
    rintro (negative | late)
    · exact absurd nonneg (not_le.mpr negative)
    · have soon' : (resetAtEpoch : ℚ) ≤ 1000 + epochSanityWindowS := by exact_mod_cast soon
      exact absurd soon' (not_le.mpr late)
  rw [ladderReset, resetFor, raw]
  rfl

/-- A host whose conversions all come back empty-handed. -/
def bareHost : Host :=
  ⟨fun _ => "", fun _ => none, fun _ => none, fun _ => none, fun _ => .error .overflowError⟩

theorem lone_limit_agrees : Agrees bareHost (.single [limited "claude" 2000]) 1000 "" := by
  have reset : ladderReset bareHost (.single [limited "claude" 2000]) 1000 "claude"
      (limited "claude" 2000) = 2000 := limited_reset _ _ _ (by decide) (by decide)
  refine (monitor_agrees_iff _ _ _ _ fun ev member _ => ?_).mpr fun _ => ?_
  · rw [tailEvents_single, List.mem_singleton] at member
    subst member
    exact (congrArg (fun epoch => (safeEpochIso epoch).isSome) reset).trans (by decide)
  · refine ⟨limited "claude" 2000, by rw [tailEvents_single]; rfl, ?_⟩
    exact lt_of_lt_of_eq (by norm_num) (congrArg Int.cast reset).symm

/-- Claude is limited for a while yet; codex was limited and has recovered. -/
def siblingRecovered : List Event :=
  [limited "claude" 2000, limited "codex" 500,
    [("event", .str transientErrorRecovered), ("agent", .str "codex")]]

/-- The supervisor still gates claude; the monitor stops at codex's recovery. -/
theorem recovered_sibling_masks_throttle :
    ResetsAreDates bareHost (.single siblingRecovered) 1000 ∧
      ¬ Agrees bareHost (.single siblingRecovered) 1000 "" := by
  have claude : ladderReset bareHost (.single siblingRecovered) 1000 "claude"
      (limited "claude" 2000) = 2000 := limited_reset _ _ _ (by decide) (by decide)
  have codex : ladderReset bareHost (.single siblingRecovered) 1000 "codex"
      (limited "codex" 500) = 500 := limited_reset _ _ _ (by decide) (by decide)
  have dates : ResetsAreDates bareHost (.single siblingRecovered) 1000 := by
    intro ev member opened
    rw [tailEvents_single] at member
    obtain rfl | rfl | rfl := by simpa only [siblingRecovered, List.mem_cons, List.not_mem_nil,
      or_false] using member
    · exact (congrArg (fun epoch => (safeEpochIso epoch).isSome) claude).trans (by decide)
    · exact (congrArg (fun epoch => (safeEpochIso epoch).isSome) codex).trans (by decide)
    · exact absurd opened (by decide)
  refine ⟨dates, fun ⟨alert, scalar, active, detected, viewed, same⟩ => ?_⟩
  obtain ⟨scalar', active', viewed', reports⟩ := view_iff bareHost (.single siblingRecovered) 1000
  cases viewed.symm.trans viewed'
  have silent : detectRateLimitActive bareHost (tailEvents (.single siblingRecovered)) 1000
      (some (.single siblingRecovered)) "" = .ok none := by
    rw [tailEvents_single]
    rfl
  cases detected.symm.trans silent
  have throttled : SomeThrottled bareHost (.single siblingRecovered) 1000 := by
    refine ⟨"claude", limited "claude" 2000, ?_, ?_⟩
    · rw [latestTransientPerAgent, tailEvents_single]
      rfl
    · exact lt_of_lt_of_eq (by norm_num) (congrArg Int.cast claude).symm
  exact absurd (same.mpr (reports.mpr throttled)) (by simp)

end AgentRunner.MonitorThrottle
