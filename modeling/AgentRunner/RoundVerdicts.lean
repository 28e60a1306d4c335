import AgentRunner.Throttle

/-! `_round_outcome.py`: the per-round verdicts folded from one scan of the
events tail, and `serve_cmd._round_scan`, which reads them after a round. -/
namespace AgentRunner.RoundVerdicts
open PyValue Events IsoTime Throttle

/-- `RoundOutcome`. A timestamp is whatever value the event carried. -/
structure RoundOutcome where
  memTerminated : Bool
  usageCapable : Bool
  newestUsageTs : Option Json
  newestSubstrateBeforeTs : Option Json
  latestTransientPerAgent : Dict String (Option Event)
  ranAgent : Option String
  usageCapableByAgent : Dict String Bool
  newestUsageTsByAgent : Dict String Json
  backoffExponentByAgent : Dict String Nat

/-- The local variables of `round_outcome`'s loop. -/
structure Fold where
  newestBeforeTs : Option Json
  newestTerminatedTs : Option Json
  newestUsageTs : Option Json
  usageCapable : Bool
  transient : Dict String (Option Event)
  usageCapableByAgent : Dict String Bool
  newestUsageTsByAgent : Dict String Json
  detectedCount : Dict String Nat

def Fold.init : Fold where
  newestBeforeTs := none
  newestTerminatedTs := none
  newestUsageTs := none
  usageCapable := false
  transient := .empty
  usageCapableByAgent := .empty
  newestUsageTsByAgent := .empty
  detectedCount := .empty

/-- The transient bookkeeping of the loop body. -/
def Fold.onTransient (host : Host) (ev : Event) (f : Fold) : Fold :=
  let agent := agentLabel host ev
  if isKind ev transientErrorDetected then
    { f with
      transient := f.transient.set agent (some ev)
      detectedCount := f.detectedCount.set agent (f.detectedCount.getD agent 0 + 1) }
  else if isKind ev transientErrorRecovered then
    { f with transient := f.transient.set agent none }
  else f

/-- The capability bookkeeping, which runs before the timestamp guard. -/
def Fold.onUsage (host : Host) (ev : Event) (f : Fold) : Fold :=
  let agent := agentLabel host ev
  if isKind ev agentUsageRecorded then
    { f with
      usageCapable := true
      usageCapableByAgent := f.usageCapableByAgent.set agent true
      detectedCount :=
        if (get ev "success").truthy then f.detectedCount.set agent 0 else f.detectedCount }
  else f

/-- The newest-timestamp bookkeeping, for events with a truthy `ts` only. -/
def Fold.onTs (host : Host) (ev : Event) (f : Fold) : Fold :=
  let agent := agentLabel host ev
  let ts := get ev "ts"
  if ts.truthy = false then f
  else if isKind ev roundSubstrateBefore then { f with newestBeforeTs := some ts }
  else if isKind ev roundMemTerminated then { f with newestTerminatedTs := some ts }
  else if isKind ev agentUsageRecorded then
    { f with
      newestUsageTs := some ts
      newestUsageTsByAgent := f.newestUsageTsByAgent.set agent ts }
  else f

/-- One pass of the loop of `round_outcome`. -/
def Fold.step (host : Host) (f : Fold) (ev : Event) : Fold :=
  ((f.onTransient host ev).onUsage host ev).onTs host ev

def Fold.run (host : Host) (events : List Event) : Fold := events.foldl (Fold.step host) .init

/-- `parse_iso_ms(a) >= parse_iso_ms(b)`. -/
def tsGe (a b : Json) : Except PyErr Bool := do ge (← parseIsoMs a) (← parseIsoMs b)

/-- `parse_iso_ms(a) < parse_iso_ms(b)`. -/
def tsLt (a b : Json) : Except PyErr Bool := do lt (← parseIsoMs a) (← parseIsoMs b)

/-- The mem-terminated verdict: both events seen, the kill stamped no earlier. -/
def memTerminatedVerdict (before terminated : Option Json) : Except PyErr Bool :=
  match before, terminated with
  | some b, some t => tsGe t b
  | _, _ => .ok false

/-- `round_outcome(log_dir, ran_agent=...)`. -/
def roundOutcome (host : Host) (logDir : LogDir) (ranAgent : Option String) :
    Except PyErr RoundOutcome := do
  let f := Fold.run host (tailEvents logDir)
  let memTerminated ← memTerminatedVerdict f.newestBeforeTs f.newestTerminatedTs
  return {
    memTerminated
    usageCapable := f.usageCapable
    newestUsageTs := f.newestUsageTs
    newestSubstrateBeforeTs := f.newestBeforeTs
    latestTransientPerAgent := f.transient
    ranAgent
    usageCapableByAgent := f.usageCapableByAgent
    newestUsageTsByAgent := f.newestUsageTsByAgent
    backoffExponentByAgent := f.detectedCount.mapValues fun count => count - 1 }

/-- `round_was_mem_terminated(log_dir, outcome=...)`. -/
def roundWasMemTerminated (host : Host) (logDir : LogDir) (outcome : Option RoundOutcome) :
    Except PyErr Bool := do
  match outcome with
  | some known => return known.memTerminated
  | none => return (← roundOutcome host logDir none).memTerminated

/-- The inputs of `round_had_no_progress` besides the log directory. -/
structure RoundResult where
  returncode : Int
  durationS : ℚ
  throttleActive : Bool

/-- The capability and the newest usage of the agent that ran, or of the whole
deployment when serve does not know which agent ran. -/
def RoundOutcome.usageView (o : RoundOutcome) : Bool × Option Json :=
  match o.ranAgent with
  | none => (o.usageCapable, o.newestUsageTs)
  | some agent => (o.usageCapableByAgent.getD agent false, o.newestUsageTsByAgent.get? agent)

/-- `round_had_no_progress` once an outcome is at hand. -/
def RoundOutcome.noProgress (o : RoundOutcome) : Except PyErr Bool :=
  if o.usageView.1 = false then .ok false
  else
    match o.newestSubstrateBeforeTs, o.usageView.2 with
    | none, _ => .ok false
    | some _, none => .ok true
    | some before, some usage => tsLt usage before

/-- `round_had_no_progress`. -/
def roundHadNoProgress (host : Host) (logDir : LogDir) (round : RoundResult) (thresholdS : ℚ)
    (outcome : Option RoundOutcome) : Except PyErr Bool := do
  if round.throttleActive ∨ round.returncode ≠ 0 ∨ thresholdS ≤ round.durationS then return false
  else
    match outcome with
    | some known => known.noProgress
    | none => (← roundOutcome host logDir none).noProgress

/-- The call `serve_cmd._round_scan` makes after a round that was not
memory-terminated: both inputs of `_active_throttles` come from the outcome. -/
def roundScanThrottles (host : Host) (logDir : LogDir) (now : ℚ) (ranAgent : Option String) :
    Except PyErr (Dict String TransientErrorState) := do
  let outcome ← roundOutcome host logDir ranAgent
  let (active, _) ← activeThrottles host logDir now (some outcome.backoffExponentByAgent)
    (some outcome.latestTransientPerAgent)
  return active

end AgentRunner.RoundVerdicts
