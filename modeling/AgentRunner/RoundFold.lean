import AgentRunner.RoundVerdicts
import AgentRunner.ThrottleViews

/-! What the single scan of `round_outcome` accumulates, one component at a
time: the newest timestamp of each kind, the latest transient event per agent,
and each agent's detections since its last success. -/
namespace AgentRunner.RoundFold
open PyValue Events IsoTime Throttle RoundVerdicts

/-- The newest truthy timestamp of one kind of event, by stream position. -/
def stampStep (kind : String) (newest : Option Json) (ev : Event) : Option Json :=
  if isKind ev kind && (get ev "ts").truthy then some (get ev "ts") else newest

def newestStamp (kind : String) (events : List Event) : Option Json :=
  events.foldl (stampStep kind) none

/-- The newest truthy timestamp of the usage events labelled with one agent. -/
def agentStampStep (host : Host) (agent : String) (newest : Option Json) (ev : Event) :
    Option Json :=
  if agentLabel host ev = agent then stampStep agentUsageRecorded newest ev else newest

def newestAgentStamp (host : Host) (agent : String) (events : List Event) : Option Json :=
  events.foldl (agentStampStep host agent) none

/-- The count of `round_outcome`, which labels an agent-less event `"unknown"`
where `_backoff_exponent` labels it `""`. -/
def labelCountStep (host : Host) (agent : String) (count : Nat) (ev : Event) : Nat :=
  if agentLabel host ev ≠ agent then count
  else if isKind ev transientErrorDetected then count + 1
  else if isKind ev agentUsageRecorded && (get ev "success").truthy then 0
  else count

def labelCount (host : Host) (agent : String) (events : List Event) : Nat :=
  events.foldl (labelCountStep host agent) 0

/-! ## One event -/

private def countUpdate (host : Host) (count : Dict String Nat) (ev : Event) : Dict String Nat :=
  if isKind ev transientErrorDetected then
    count.set (agentLabel host ev) (count.getD (agentLabel host ev) 0 + 1)
  else if isKind ev agentUsageRecorded && (get ev "success").truthy then
    count.set (agentLabel host ev) 0
  else count

private theorem onTransient_eq (host : Host) (ev : Event) (f : Fold) :
    f.onTransient host ev = { f with
      transient := latestStep host f.transient ev
      detectedCount :=
        if isKind ev transientErrorDetected then
          f.detectedCount.set (agentLabel host ev)
            (f.detectedCount.getD (agentLabel host ev) 0 + 1)
        else f.detectedCount } := by
  simp only [Fold.onTransient, latestStep]
  split_ifs <;> rfl

private theorem onUsage_eq (host : Host) (ev : Event) (f : Fold) :
    f.onUsage host ev = { f with
      usageCapable := f.usageCapable || isKind ev agentUsageRecorded
      usageCapableByAgent :=
        if isKind ev agentUsageRecorded then f.usageCapableByAgent.set (agentLabel host ev) true
        else f.usageCapableByAgent
      detectedCount :=
        if isKind ev agentUsageRecorded && (get ev "success").truthy then
          f.detectedCount.set (agentLabel host ev) 0
        else f.detectedCount } := by
  unfold Fold.onUsage
  cases usage : isKind ev agentUsageRecorded <;> simp

private theorem onTs_eq (host : Host) (ev : Event) (f : Fold) :
    f.onTs host ev = { f with
      newestBeforeTs := stampStep roundSubstrateBefore f.newestBeforeTs ev
      newestTerminatedTs := stampStep roundMemTerminated f.newestTerminatedTs ev
      newestUsageTs := stampStep agentUsageRecorded f.newestUsageTs ev
      newestUsageTsByAgent :=
        if isKind ev agentUsageRecorded && (get ev "ts").truthy then
          f.newestUsageTsByAgent.set (agentLabel host ev) (get ev "ts")
        else f.newestUsageTsByAgent } := by
  unfold Fold.onTs stampStep
  cases stamped : (get ev "ts").truthy with
  | false => simp [stamped]
  | true =>
    by_cases before : isKind ev roundSubstrateBefore = true
    · simp [stamped, before, isKind_unique before (show _ ≠ roundMemTerminated by decide),
        isKind_unique before (show _ ≠ agentUsageRecorded by decide)]
    by_cases terminated : isKind ev roundMemTerminated = true
    · simp [stamped, before, terminated,
        isKind_unique terminated (show _ ≠ agentUsageRecorded by decide)]
    · cases usage : isKind ev agentUsageRecorded <;>
        simp [stamped, before, terminated]

/-- Everything one pass of the loop does. -/
theorem step_eq (host : Host) (f : Fold) (ev : Event) :
    f.step host ev = {
      newestBeforeTs := stampStep roundSubstrateBefore f.newestBeforeTs ev
      newestTerminatedTs := stampStep roundMemTerminated f.newestTerminatedTs ev
      newestUsageTs := stampStep agentUsageRecorded f.newestUsageTs ev
      usageCapable := f.usageCapable || isKind ev agentUsageRecorded
      transient := latestStep host f.transient ev
      usageCapableByAgent :=
        if isKind ev agentUsageRecorded then f.usageCapableByAgent.set (agentLabel host ev) true
        else f.usageCapableByAgent
      newestUsageTsByAgent :=
        if isKind ev agentUsageRecorded && (get ev "ts").truthy then
          f.newestUsageTsByAgent.set (agentLabel host ev) (get ev "ts")
        else f.newestUsageTsByAgent
      detectedCount := countUpdate host f.detectedCount ev } := by
  rw [Fold.step, onTs_eq, onUsage_eq, onTransient_eq]
  by_cases detected : isKind ev transientErrorDetected = true
  · simp [detected, countUpdate, isKind_unique detected (show _ ≠ agentUsageRecorded by decide)]
  · simp [detected, countUpdate]

/-! ## The whole scan -/

private theorem run_project {β : Type} (host : Host) (project : Fold → β) (next : β → Event → β)
    (one : ∀ f ev, project (f.step host ev) = next (project f) ev) (events : List Event) :
    project (Fold.run host events) = events.foldl next (project .init) :=
  (List.foldl_hom project fun f ev => (one f ev).symm).symm

/-- The scan's per-agent transient view is the one `_active_throttles` would
scan for itself. -/
theorem run_transient (host : Host) (events : List Event) :
    (Fold.run host events).transient = events.foldl (latestStep host) .empty :=
  run_project host Fold.transient (latestStep host) (fun f ev => by rw [step_eq]) events

theorem run_newestBefore (host : Host) (events : List Event) :
    (Fold.run host events).newestBeforeTs = newestStamp roundSubstrateBefore events :=
  run_project host Fold.newestBeforeTs _ (fun f ev => by rw [step_eq]) events

theorem run_newestTerminated (host : Host) (events : List Event) :
    (Fold.run host events).newestTerminatedTs = newestStamp roundMemTerminated events :=
  run_project host Fold.newestTerminatedTs _ (fun f ev => by rw [step_eq]) events

theorem run_newestUsage (host : Host) (events : List Event) :
    (Fold.run host events).newestUsageTs = newestStamp agentUsageRecorded events :=
  run_project host Fold.newestUsageTs _ (fun f ev => by rw [step_eq]) events

private theorem foldl_any (p : Event → Bool) (events : List Event) (seen : Bool) :
    events.foldl (fun seen ev => seen || p ev) seen = (seen || events.any p) := by
  induction events generalizing seen with
  | nil => simp
  | cons ev rest ih => simp [ih, Bool.or_assoc]

theorem run_usageCapable (host : Host) (events : List Event) :
    (Fold.run host events).usageCapable = events.any fun ev => isKind ev agentUsageRecorded := by
  rw [run_project host Fold.usageCapable (fun seen ev => seen || isKind ev agentUsageRecorded)
    (fun f ev => by rw [step_eq]) events, foldl_any]
  rfl

theorem run_newestUsageByAgent (host : Host) (events : List Event) (agent : String) :
    (Fold.run host events).newestUsageTsByAgent.get? agent =
      newestAgentStamp host agent events := by
  refine run_project host (fun f => f.newestUsageTsByAgent.get? agent) _ (fun f ev => ?_) events
  rw [step_eq]
  simp only [agentStampStep, stampStep]
  by_cases label : agentLabel host ev = agent
  · subst label
    rw [if_pos rfl]
    split_ifs <;> simp
  · rw [if_neg label]
    split_ifs <;> simp [Ne.symm label]

theorem run_usageCapableByAgent (host : Host) (events : List Event) (agent : String) :
    (Fold.run host events).usageCapableByAgent.getD agent false =
      events.any fun ev => isKind ev agentUsageRecorded && agentLabel host ev == agent := by
  rw [run_project host (fun f => f.usageCapableByAgent.getD agent false)
    (fun seen ev => seen || (isKind ev agentUsageRecorded && agentLabel host ev == agent))
    (fun f ev => ?_) events, foldl_any]
  · rfl
  · rw [step_eq]
    by_cases usage : isKind ev agentUsageRecorded = true
    · by_cases label : agent = agentLabel host ev
      · simp [Dict.getD, usage, label]
      · simp [Dict.getD, usage, label, Ne.symm label]
    · simp [usage]

theorem run_detectedCount (host : Host) (events : List Event) (agent : String) :
    (Fold.run host events).detectedCount.getD agent 0 = labelCount host agent events := by
  refine run_project host (fun f => f.detectedCount.getD agent 0) _ (fun f ev => ?_) events
  rw [step_eq]
  simp only [countUpdate, labelCountStep]
  by_cases label : agentLabel host ev = agent
  · subst label
    split_ifs <;> simp_all [Dict.getD]
  · rw [if_pos label]
    split_ifs <;> simp [Dict.getD, Ne.symm label]

/-- An agent with an open detection has been counted: a detection sets its count
in the same pass, and no later event takes a count away. -/
theorem run_counted (host : Host) (events : List Event) {agent : String} {detected : Event}
    (opened : (Fold.run host events).transient.get? agent = some (some detected)) :
    ((Fold.run host events).detectedCount.get? agent).isSome := by
  revert detected
  refine List.foldlRecOn (motive := fun f : Fold => ∀ {d}, f.transient.get? agent = some (some d) →
    (f.detectedCount.get? agent).isSome) events (Fold.step host) (by simp [Fold.init]) ?_
  intro f held ev _ d
  rw [step_eq]
  simp only [latestStep, countUpdate]
  by_cases label : agent = agentLabel host ev
  · by_cases detected : isKind ev transientErrorDetected = true
    · simp [detected, label]
    · by_cases recovered : isKind ev transientErrorRecovered = true
      · simp [detected, recovered, label]
      · simp only [detected, recovered, Bool.false_eq_true, if_false]
        intro opened
        split
        · simp [label]
        · exact held opened
  · intro opened
    have before : f.transient.get? agent = some (some d) := by
      split_ifs at opened <;> simpa [label] using opened
    have counted := held before
    split_ifs <;> simpa [label] using counted

/-- A newest timestamp is the truthy `ts` of one of the events of its kind. -/
theorem mem_of_newestStamp {kind : String} {events : List Event} {ts : Json}
    (newest : newestStamp kind events = some ts) :
    ∃ ev ∈ events, isKind ev kind = true ∧ (get ev "ts").truthy = true ∧ get ev "ts" = ts := by
  revert newest
  refine List.foldlRecOn (motive := fun found => found = some ts → _) events (stampStep kind)
    (by simp) ?_
  intro found held ev member
  unfold stampStep
  split
  · rename_i stamped
    rw [Bool.and_eq_true] at stamped
    exact fun same => ⟨ev, member, stamped.1, stamped.2, Option.some.inj same⟩
  · exact held

theorem mem_of_newestAgentStamp {host : Host} {agent : String} {events : List Event} {ts : Json}
    (newest : newestAgentStamp host agent events = some ts) :
    ∃ ev ∈ events, isKind ev agentUsageRecorded = true ∧ agentLabel host ev = agent := by
  revert newest
  refine List.foldlRecOn (motive := fun found => found = some ts → _) events
    (agentStampStep host agent) (by simp) ?_
  intro found held ev member
  unfold agentStampStep stampStep
  split_ifs with label stamped
  · rw [Bool.and_eq_true] at stamped
    exact fun _ => ⟨ev, member, stamped.1, label⟩
  · exact held
  · exact held

/-! ## When the verdicts can be compared -/

/-- Both texts are timestamps, and both or neither carry an offset. -/
def Comparable (a b : Json) : Prop :=
  ∃ x y, parseIsoMs a = .ok x ∧ parseIsoMs b = .ok y ∧ x.isNaive = y.isNaive

theorem tsGe_returns (a b : Json) : Returns (tsGe a b) ↔ Comparable a b := by
  simp only [tsGe, returns_bind, Comparable]
  refine exists_congr fun x => ?_
  constructor
  · rintro ⟨hx, y, hy, compared⟩
    refine ⟨y, hx, hy, ?_⟩
    by_contra mixed
    simp [ge, mixed] at compared
  · rintro ⟨y, hx, hy, same⟩
    exact ⟨hx, y, hy, by simp [ge, same]⟩

theorem tsLt_returns (a b : Json) : Returns (tsLt a b) ↔ Comparable a b := by
  simp only [tsLt, returns_bind, Comparable]
  refine exists_congr fun x => ?_
  constructor
  · rintro ⟨hx, y, hy, compared⟩
    refine ⟨y, hx, hy, ?_⟩
    by_contra mixed
    simp [lt, mixed] at compared
  · rintro ⟨y, hx, hy, same⟩
    exact ⟨hx, y, hy, by simp [lt, same]⟩

/-- The newest round start and the newest memory kill, where the tail has both,
can be compared. -/
def StampsComparable (events : List Event) : Prop :=
  ∀ before terminated, newestStamp roundSubstrateBefore events = some before →
    newestStamp roundMemTerminated events = some terminated → Comparable terminated before

/-- `round_outcome` returns exactly on the tails whose two newest timestamps
can be compared: the comparison is its one unguarded step. -/
theorem roundOutcome_returns (host : Host) (logDir : LogDir) (ranAgent : Option String) :
    Returns (roundOutcome host logDir ranAgent) ↔ StampsComparable (tailEvents logDir) := by
  simp only [roundOutcome, returns_bind, run_newestBefore, run_newestTerminated, pure, Except.pure,
    returns_ok, and_true, StampsComparable]
  change Returns (memTerminatedVerdict _ _) ↔ _
  cases newestStamp roundSubstrateBefore (tailEvents logDir) with
  | none => simp [memTerminatedVerdict]
  | some before =>
    cases newestStamp roundMemTerminated (tailEvents logDir) with
    | none => simp [memTerminatedVerdict]
    | some terminated => simp [memTerminatedVerdict, tsGe_returns]

/-! ## The outcome as a function of the tail -/

/-- The usage capability and the newest usage `round_had_no_progress` reads. -/
def scanUsageView (host : Host) (events : List Event) : Option String → Bool × Option Json
  | none => (events.any fun ev => isKind ev agentUsageRecorded,
      newestStamp agentUsageRecorded events)
  | some agent => (events.any fun ev => isKind ev agentUsageRecorded && agentLabel host ev == agent,
      newestAgentStamp host agent events)

/-- A usage timestamp comes from a usage event, so the view that shows it also
shows the capability. -/
theorem scanUsageView_capable {host : Host} {events : List Event} {ranAgent : Option String}
    {usage : Json} (newest : (scanUsageView host events ranAgent).2 = some usage) :
    (scanUsageView host events ranAgent).1 = true := by
  cases ranAgent with
  | none =>
    obtain ⟨ev, member, kind, -⟩ := mem_of_newestStamp newest
    exact List.any_eq_true.mpr ⟨ev, member, kind⟩
  | some agent =>
    obtain ⟨ev, member, kind, label⟩ := mem_of_newestAgentStamp newest
    exact List.any_eq_true.mpr ⟨ev, member, by simp [kind, label]⟩

/-- What `round_outcome` returns, where it returns. -/
theorem roundOutcome_fields {host : Host} {logDir : LogDir} {ranAgent : Option String}
    {outcome : RoundOutcome} (computed : roundOutcome host logDir ranAgent = .ok outcome) :
    memTerminatedVerdict (newestStamp roundSubstrateBefore (tailEvents logDir))
        (newestStamp roundMemTerminated (tailEvents logDir)) = .ok outcome.memTerminated ∧
      outcome.newestSubstrateBeforeTs = newestStamp roundSubstrateBefore (tailEvents logDir) ∧
      outcome.usageView = scanUsageView host (tailEvents logDir) ranAgent ∧
      outcome.latestTransientPerAgent = latestTransientPerAgent host logDir ∧
      outcome.backoffExponentByAgent =
        (Fold.run host (tailEvents logDir)).detectedCount.mapValues fun count => count - 1 := by
  simp only [roundOutcome, run_newestBefore, run_newestTerminated, bind, Except.bind, pure,
    Except.pure] at computed
  split at computed
  · cases computed
  rename_i verdict judged
  injection computed with fields
  subst fields
  refine ⟨judged, rfl, ?_, run_transient host _, rfl⟩
  cases ranAgent with
  | none => simp only [RoundOutcome.usageView, run_usageCapable, run_newestUsage, scanUsageView]
  | some agent =>
    simp only [RoundOutcome.usageView, run_usageCapableByAgent, run_newestUsageByAgent,
      scanUsageView]

end AgentRunner.RoundFold
