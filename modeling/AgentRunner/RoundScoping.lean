import AgentRunner.RoundFold
import Mathlib.Data.List.Induction

/-! The two verdicts scoped to the round that just ran. The scan reconstructs
"this round" from timestamps: it compares the newest kill, or usage, with the
newest round start. Against the order of the stream this is right exactly when
those two stamps are ordered like the events they stamp. -/
namespace AgentRunner.RoundScoping
open PyValue Events IsoTime Throttle RoundVerdicts RoundFold

/-! ## What the supervisor appends -/

/-- A reading of the UTC wall clock. -/
structure UtcTime where
  reading : Datetime
  utc : reading.offset = some 0

/-- The instant a stamp denotes once written and read back, in microseconds. -/
def UtcTime.stamped (t : UtcTime) : Int := (truncMs t.reading).instant

/-- An event to be written: when, and its fields besides kind and stamp. -/
structure Written where
  time : UtcTime
  fields : List (String × Json)

def Written.event (kind : String) (w : Written) : Event :=
  ("ts", .str (isoMs w.time.reading)) :: ("event", .str kind) :: w.fields

/-- What a round may append after its `round_substrate_before`. -/
inductive Own where
  | memTerminated (w : Written)
  | usage (w : Written)

def Own.event : Own → Event
  | .memTerminated w => w.event roundMemTerminated
  | .usage w => w.event agentUsageRecorded

structure RoundLog where
  before : Written
  own : List Own

def RoundLog.events (r : RoundLog) : List Event :=
  r.before.event roundSubstrateBefore :: r.own.map Own.event

def stream (rounds : List RoundLog) : List Event := rounds.flatMap RoundLog.events

def Own.time : Own → UtcTime
  | .memTerminated w => w.time
  | .usage w => w.time

/-- The stamp of a memory kill. -/
def killTime : Own → Option UtcTime
  | .memTerminated w => some w.time
  | .usage _ => none

/-- Whether an event counts for the agent that ran; any does when that is unknown. -/
def ofAgent (host : Host) (ranAgent : Option String) (ev : Event) : Bool :=
  match ranAgent with
  | none => true
  | some agent => agentLabel host ev == agent

/-- The stamp of a usage event of the agent that ran. -/
def usageTime (host : Host) (ranAgent : Option String) : Own → Option UtcTime
  | .memTerminated _ => none
  | .usage w => if ofAgent host ranAgent (w.event agentUsageRecorded) then some w.time else none

/-- The stamps `pick` selects from some rounds, in stream order. -/
def marks (pick : Own → Option UtcTime) (rounds : List RoundLog) : List UtcTime :=
  rounds.flatMap fun r => r.own.filterMap pick

/-! ## The newest stamps of a stream -/

theorem event_ts (kind : String) (w : Written) :
    get (w.event kind) "ts" = .str (isoMs w.time.reading) := rfl

theorem event_isKind (kind other : String) (w : Written) :
    isKind (w.event kind) other = (kind == other) := rfl

private theorem stampStep_event (kind other : String) (newest : Option Json) (w : Written) :
    stampStep other newest (w.event kind) =
      if kind = other then some (.str (isoMs w.time.reading)) else newest := by
  simp only [stampStep, event_isKind, event_ts, isoMs_truthy, Bool.and_true, beq_iff_eq]

/-- A stamp as the event carries it. -/
def UtcTime.text (t : UtcTime) : Json := .str (isoMs t.reading)

theorem newestBefore_stream (past : List RoundLog) (last : RoundLog) :
    newestStamp roundSubstrateBefore (stream (past ++ [last])) = some last.before.time.text := by
  have own : ∀ (newest : Option Json), (last.own.map Own.event).foldl
      (stampStep roundSubstrateBefore) newest = newest := by
    intro newest
    induction last.own with
    | nil => rfl
    | cons o rest ih =>
      have skipped : stampStep roundSubstrateBefore newest o.event = newest := by
        cases o with
        | memTerminated w => exact stampStep_event roundMemTerminated _ newest w
        | usage w => exact stampStep_event agentUsageRecorded _ newest w
      rw [List.map_cons, List.foldl_cons, skipped, ih]
  rw [newestStamp, stream, List.flatMap_append, List.flatMap_singleton, List.foldl_append,
    RoundLog.events, List.foldl_cons, own, stampStep_event, if_pos rfl]
  rfl

/-- A fold that keeps the newest of the stamps `pick` selects ends with the last of them. -/
private theorem newest_of_picks {step : Option Json → Event → Option Json}
    {pick : Own → Option UtcTime}
    (before : ∀ newest w, step newest (Written.event roundSubstrateBefore w) = newest)
    (own : ∀ newest o, step newest (Own.event o) = ((pick o).map UtcTime.text).or newest)
    (rounds : List RoundLog) :
    (stream rounds).foldl step none =
      (marks pick rounds).getLast?.map UtcTime.text := by
  have block : ∀ (owns : List Own) newest, (owns.map Own.event).foldl step newest =
      (((owns.filterMap pick).getLast?).map UtcTime.text).or newest := by
    intro owns
    induction owns using List.reverseRecOn with
    | nil => exact fun _ => rfl
    | append_singleton owns o ih =>
      intro newest
      rw [List.map_append, List.foldl_append, ih, List.filterMap_append]
      cases picked : pick o <;> simp [own, picked]
  induction rounds using List.reverseRecOn with
  | nil => rfl
  | append_singleton rounds r ih =>
    rw [stream, List.flatMap_append, List.flatMap_singleton, List.foldl_append, ← stream, ih,
      RoundLog.events, List.foldl_cons, before, block, marks, marks, List.flatMap_append,
      List.flatMap_singleton]
    cases last : (r.own.filterMap pick).getLast? with
    | none => simp [List.getLast?_eq_none_iff.mp last]
    | some t => simp [List.getLast?_append, last]

theorem newestTerminated_stream (rounds : List RoundLog) :
    newestStamp roundMemTerminated (stream rounds) =
      (marks killTime rounds).getLast?.map UtcTime.text := by
  refine newest_of_picks (fun newest w => stampStep_event roundSubstrateBefore _ newest w)
    (fun newest o => ?_) rounds
  cases o with
  | memTerminated w => exact stampStep_event roundMemTerminated _ newest w
  | usage w => exact stampStep_event agentUsageRecorded _ newest w

theorem newestUsage_stream (host : Host) (ranAgent : Option String) (rounds : List RoundLog) :
    (scanUsageView host (stream rounds) ranAgent).2 =
      (marks (usageTime host ranAgent) rounds).getLast?.map UtcTime.text := by
  cases ranAgent with
  | none =>
    refine newest_of_picks (fun newest w => stampStep_event roundSubstrateBefore _ newest w)
      (fun newest o => ?_) rounds
    cases o with
    | memTerminated w => exact stampStep_event roundMemTerminated _ newest w
    | usage w => exact stampStep_event agentUsageRecorded _ newest w
  | some agent =>
    refine newest_of_picks (fun newest w => ?_) (fun newest o => ?_) rounds
    · rw [agentStampStep]
      split
      · exact stampStep_event roundSubstrateBefore _ newest w
      · rfl
    · cases o with
      | memTerminated w =>
        rw [agentStampStep]
        split
        · exact stampStep_event roundMemTerminated _ newest w
        · rfl
      | usage w =>
        change agentStampStep host agent newest (w.event agentUsageRecorded) = _
        by_cases label : agentLabel host (w.event agentUsageRecorded) = agent
        · simp only [agentStampStep, usageTime, ofAgent, label, if_true, beq_self_eq_true]
          exact stampStep_event agentUsageRecorded _ newest w
        · simp [agentStampStep, usageTime, ofAgent, label]

/-- The view shows the capability exactly when it shows a usage. -/
theorem capable_stream (host : Host) (ranAgent : Option String) (rounds : List RoundLog) :
    (scanUsageView host (stream rounds) ranAgent).1 = true ↔
      marks (usageTime host ranAgent) rounds ≠ [] := by
  have shape : (scanUsageView host (stream rounds) ranAgent).1 =
      (stream rounds).any fun ev => isKind ev agentUsageRecorded && ofAgent host ranAgent ev := by
    cases ranAgent <;> simp [scanUsageView, ofAgent]
  rw [shape, stream, List.any_flatMap, marks, ne_eq, List.flatMap_eq_nil_iff]
  simp only [List.any_eq_true, not_forall, exists_prop]
  refine exists_congr fun r => and_congr_right fun _ => ?_
  rw [List.filterMap_eq_nil_iff, RoundLog.events]
  simp only [List.mem_cons, List.mem_map, Bool.and_eq_true, not_forall, exists_prop]
  constructor
  · rintro ⟨ev, rfl | ⟨o, member, rfl⟩, kind, agent⟩
    · rw [event_isKind] at kind
      exact absurd kind (by decide)
    · refine ⟨o, member, ?_⟩
      cases o with
      | memTerminated w =>
        rw [Own.event, event_isKind] at kind
        exact absurd kind (by decide)
      | usage w => simpa [Own.event, usageTime] using agent
  · rintro ⟨o, member, picked⟩
    cases o with
    | memTerminated w => exact absurd rfl picked
    | usage w =>
      refine ⟨_, .inr ⟨_, member, rfl⟩, rfl, ?_⟩
      simpa [Own.event, usageTime] using picked

/-! ## Comparing two stamps -/

theorem parse_text (t : UtcTime) : parseIsoMs t.text = .ok (truncMs t.reading) :=
  parseIsoMs_isoMs t.reading t.utc

theorem aware (t : UtcTime) : (truncMs t.reading).isNaive = false := by
  simp [Datetime.isNaive, truncMs, t.utc]

theorem tsGe_text (a b : UtcTime) : tsGe a.text b.text = .ok (decide (b.stamped ≤ a.stamped)) := by
  simp only [tsGe, parse_text, bind, Except.bind, ge, aware, if_true]
  rfl

theorem tsLt_text (a b : UtcTime) : tsLt a.text b.text = .ok (decide (a.stamped < b.stamped)) := by
  simp only [tsLt, parse_text, bind, Except.bind, lt, aware, if_true]
  rfl

/-! ## The two verdicts -/

/-- The newest of some stamps counts as the round's own exactly when it is. -/
def InOrder (newest : Option UtcTime) (before : UtcTime) (inside : Prop) : Prop :=
  ∀ t, newest = some t → (before.stamped ≤ t.stamped ↔ inside)

/-- The newest of some stamps is the round's own, or bears the same millisecond
as the round's start. -/
def OwnOrTied (newest : Option UtcTime) (before : UtcTime) (inside : Prop) : Prop :=
  inside ∨ ∃ t, newest = some t ∧ t.stamped = before.stamped

/-- The clock never steps backward between two events of the stream. -/
def ClockForward (rounds : List RoundLog) : Prop :=
  (rounds.flatMap fun r => r.before.time :: r.own.map Own.time).Pairwise
    fun a b => a.stamped ≤ b.stamped

/-- A memory kill lies after the last round's start. -/
def Killed (last : RoundLog) : Prop := marks killTime [last] ≠ []

/-- A usage of the agent that ran lies after the last round's start. -/
def Reached (host : Host) (ranAgent : Option String) (last : RoundLog) : Prop :=
  marks (usageTime host ranAgent) [last] ≠ []

theorem memTerminated_stream (host : Host) (files : Files) (ranAgent : Option String)
    (past : List RoundLog) (last : RoundLog) :
    ∃ outcome, roundOutcome host (files.spread (stream (past ++ [last]))) ranAgent = .ok outcome ∧
      (outcome.memTerminated = true ↔ ∃ t, (marks killTime (past ++ [last])).getLast? = some t ∧
        last.before.time.stamped ≤ t.stamped) := by
  have comparable : StampsComparable (tailEvents (files.spread (stream (past ++ [last])))) := by
    rw [files.whole]
    intro before terminated start kill
    rw [newestBefore_stream] at start
    rw [newestTerminated_stream] at kill
    obtain ⟨t, -, rfl⟩ := Option.map_eq_some_iff.mp kill
    cases start
    exact ⟨_, _, parse_text _, parse_text _, by rw [aware, aware]⟩
  obtain ⟨outcome, computed⟩ := (roundOutcome_returns host _ ranAgent).mpr comparable
  obtain ⟨judged, -⟩ := roundOutcome_fields computed
  refine ⟨outcome, computed, ?_⟩
  rw [files.whole, newestBefore_stream, newestTerminated_stream] at judged
  cases newest : (marks killTime (past ++ [last])).getLast? with
  | none =>
    rw [newest] at judged
    have verdict := Except.ok.inj judged
    simp [← verdict]
  | some t =>
    rw [newest, Option.map_some, memTerminatedVerdict, tsGe_text] at judged
    have verdict := Except.ok.inj judged
    simp [← verdict]

/-- A fast round that exited 0 without a throttle. -/
structure QuietRound where
  durationS : ℚ
  thresholdS : ℚ
  fast : durationS < thresholdS

theorem noProgress_stream {host : Host} {files : Files} {ranAgent : Option String}
    (past : List RoundLog) (last : RoundLog) {outcome : RoundOutcome}
    (computed : roundOutcome host (files.spread (stream (past ++ [last]))) ranAgent = .ok outcome)
    (quiet : QuietRound) {t : UtcTime}
    (newest : (marks (usageTime host ranAgent) (past ++ [last])).getLast? = some t) :
    roundHadNoProgress host (files.spread (stream (past ++ [last])))
      ⟨0, quiet.durationS, false⟩ quiet.thresholdS (some outcome) =
        .ok (decide (t.stamped < last.before.time.stamped)) := by
  obtain ⟨-, start, view, -⟩ := roundOutcome_fields computed
  rw [files.whole] at start view
  have capable := (capable_stream host ranAgent (past ++ [last])).mpr (by
    intro none_
    simp [none_] at newest)
  have usage := newestUsage_stream host ranAgent (past ++ [last])
  rw [newest] at usage
  have fast := not_le.mpr quiet.fast
  simp only [roundHadNoProgress, Bool.false_eq_true, false_or, ne_eq, not_true_eq_false, fast,
    if_false, RoundOutcome.noProgress, view, capable, usage, start, newestBefore_stream,
    Option.map_some, Bool.true_eq_false]
  exact tsLt_text t last.before.time

/-- On a clock that never steps backward the newest mark is stamped no earlier
than the last round's start if the round has one, and no later if it has none. -/
theorem forward_newest {pick : Own → Option UtcTime} (own : ∀ o t, pick o = some t → o.time = t)
    {past : List RoundLog} {last : RoundLog} (forward : ClockForward (past ++ [last]))
    {t : UtcTime} (newest : (marks pick (past ++ [last])).getLast? = some t) :
    (marks pick [last] ≠ [] → last.before.time.stamped ≤ t.stamped) ∧
      (marks pick [last] = [] → t.stamped ≤ last.before.time.stamped) := by
  rw [ClockForward, List.flatMap_append, List.flatMap_singleton, List.pairwise_append,
    List.pairwise_cons] at forward
  obtain ⟨-, ⟨after, -⟩, across⟩ := forward
  have split : marks pick (past ++ [last]) = marks pick past ++ marks pick [last] :=
    List.flatMap_append
  rw [split] at newest
  constructor
  · intro some_
    rw [List.getLast?_append_of_ne_nil _ some_, marks, List.flatMap_singleton] at newest
    obtain ⟨o, member, picked⟩ := List.mem_filterMap.mp (List.mem_of_getLast? newest)
    exact after t (List.mem_map.mpr ⟨o, member, own o t picked⟩)
  · intro none_
    rw [none_, List.append_nil] at newest
    obtain ⟨r, round, member⟩ := List.mem_flatMap.mp (List.mem_of_getLast? newest)
    obtain ⟨o, inside, picked⟩ := List.mem_filterMap.mp member
    refine across t (List.mem_flatMap.mpr ⟨r, round, .tail _ ?_⟩) _ List.mem_cons_self
    exact List.mem_map.mpr ⟨o, inside, own o t picked⟩

/-- A test of the newest mark's stamp answers whether the round has one, exactly
when that mark is in order; on a forward clock it answers so up to a tie. -/
theorem stamp_test {pick : Own → Option UtcTime} (own : ∀ o t, pick o = some t → o.time = t)
    (past : List RoundLog) (last : RoundLog) {verdict : Prop}
    (test : verdict ↔ ∃ t, (marks pick (past ++ [last])).getLast? = some t ∧
      last.before.time.stamped ≤ t.stamped) :
    ((verdict ↔ marks pick [last] ≠ []) ↔ InOrder (marks pick (past ++ [last])).getLast?
        last.before.time (marks pick [last] ≠ [])) ∧
      (ClockForward (past ++ [last]) → (verdict ↔ OwnOrTied (marks pick (past ++ [last])).getLast?
        last.before.time (marks pick [last] ≠ []))) := by
  rw [test]
  cases newest : (marks pick (past ++ [last])).getLast? with
  | none =>
    have empty : marks pick [last] = [] := by
      have split : marks pick (past ++ [last]) = marks pick past ++ marks pick [last] :=
        List.flatMap_append
      rw [List.getLast?_eq_none_iff, split, List.append_eq_nil_iff] at newest
      exact newest.2
    simp [InOrder, OwnOrTied, empty]
  | some t =>
    refine ⟨by simp [InOrder], fun forward => ?_⟩
    obtain ⟨inside, outside⟩ := forward_newest own forward newest
    simp only [Option.some.injEq, exists_eq_left', OwnOrTied]
    constructor
    · intro late
      by_cases empty : marks pick [last] = []
      · exact .inr (le_antisymm (outside empty) late)
      · exact .inl empty
    · rintro (some_ | tied)
      · exact inside some_
      · exact tied.ge

def newYear : UtcTime := ⟨⟨2026, 1, 1, 0, 0, 0, 0, some 0, by decide⟩, rfl⟩

end AgentRunner.RoundScoping
