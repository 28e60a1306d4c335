import AgentRunner.BackOff
import AgentRunner.MonthFiles
import AgentRunner.ThrottleCoherence

/-! Who closes a throttle episode, and how often. Rounds append detections; the skip
loop announces what cleared without a breadcrumb, the back-off gate what it slept
through. Both append to the stream they read, whose month files scroll out of sight
two at a time. -/
namespace AgentRunner.Breadcrumbs
open PyValue Events IsoTime EventFile EmittedEvents MonthFiles Throttle ThrottleViews BackOff Shards

/-! ## The two emitters -/

/-- `emit_transient_error_recovered`. -/
def emitTransientErrorRecovered (at_ : Reading) (classification agent : String)
    (throttledForS : Int) : Emitted where
  reading := at_.1
  utc := at_.2
  kind := transientErrorRecovered
  fields := [("classification", .str classification), ("agent", .str agent),
    ("throttled_for_s", .int throttledForS)]
  plain := by simp

/-- `emit_transient_error_backoff_capped`. -/
def emitTransientErrorBackoffCapped (at_ : Reading) (p : BackoffCapped) : Emitted where
  reading := at_.1
  utc := at_.2
  kind := transientErrorBackoffCapped
  fields := [("classification", .str p.classification), ("agent", .str p.agent),
      ("requested_sleep_s", .int p.requestedSleepS), ("applied_sleep_s", .int p.appliedSleepS)] ++
    (p.originalResetAtEpoch.toList.map fun n => ("original_reset_at_epoch", .int n)) ++
    (p.appliedResetAtEpoch.toList.map fun n => ("applied_reset_at_epoch", .int n)) ++
    (p.consecutiveCount.toList.map fun n => ("consecutive_count", .int n)) ++
    (p.cappedByAbsoluteMax.toList.map fun b => ("capped_by_absolute_max", .bool b))
  plain := by
    intro field member
    simp only [List.mem_append, List.mem_map, List.mem_cons, List.not_mem_nil, or_false] at member
    obtain ((((rfl | rfl | rfl | rfl) | ⟨_, -, rfl⟩) | ⟨_, -, rfl⟩) | ⟨_, -, rfl⟩) | ⟨_, -, rfl⟩ :=
      member <;> simp

/-- A breadcrumb: the agent it names, and the stream just before it. -/
structure Closing where
  agent : String
  before : Journal

/-- The loop of `_maybe_emit_recovered`; `at_ i` is the clock's reading for the
`i`-th breadcrumb. -/
def emitPending (at_ : Nat → Reading) (journal : Journal) :
    List (String × String × Int) → Journal × List Closing
  | [] => (journal, [])
  | (agent, classification, throttledForS) :: rest =>
    let event := emitTransientErrorRecovered (at_ 0) classification agent throttledForS
    let (after, closings) := emitPending (fun i => at_ (i + 1)) (write journal event) rest
    (after, ⟨agent, journal⟩ :: closings)

/-- The throttle part of `_throttle_skip_context`: the active map at `now`, and the
breadcrumbs of the agents that cleared without one. -/
def skipCycle (host : Host) (now later : ℚ) (at_ : Nat → Reading) (journal : Journal) :
    Except PyErr (Dict String TransientErrorState × Journal × List Closing) := do
  let (active, _) ← activeThrottles host (logDir journal) now none none
  let pending ← pendingRecovered host (logDir journal) later (some active)
  return (active, emitPending at_ journal pending)

/-- What a back-off emits, in order. -/
def emitAll (at_ : Nat → Reading) (journal : Journal) : List Emission → Journal × List Closing
  | [] => (journal, [])
  | .backoffCapped payload :: rest =>
    emitAll (fun i => at_ (i + 1)) (write journal (emitTransientErrorBackoffCapped (at_ 0) payload))
      rest
  | .recovered p :: rest =>
    let event := emitTransientErrorRecovered (at_ 0) p.classification p.agent p.throttledForS
    let (after, closings) := emitAll (fun i => at_ (i + 1)) (write journal event) rest
    (after, ⟨p.agent, journal⟩ :: closings)

/-- `_gate_throttle` with the action `back_off`: the throttle is judged at `now`, the
back-off starts at `start`. -/
def backOff (host : Host) (now start : ℚ) (s : Surroundings) (jitter : Jitter) (chunkS : ℕ+)
    (at_ : Nat → Reading) (journal : Journal) : Except PyErr (Journal × List Closing) := do
  let (throttle, _) ← checkThrottleState host (logDir journal) now none
  match throttle with
  | none => return (journal, [])
  | some throttle =>
    let (_, w) ← applyBackOff host s (logDir journal) throttle jitter chunkS (.start start)
    return emitAll at_ journal w.emitted

/-! ## Runs -/

/-- A step of the supervisor. A round writes any events but recoveries. -/
inductive Move where
  | round (written : Journal)
      (rounds : ∀ entry ∈ written, isKind entry.2 transientErrorRecovered = false)
  | skip (now later : ℚ) (at_ : Nat → Reading)
  | backOff (now start : ℚ) (s : Surroundings) (jitter : Jitter) (chunkS : ℕ+)
      (at_ : Nat → Reading)

def step (host : Host) (journal : Journal) : Move → Except PyErr (Journal × List Closing)
  | .round written _ => .ok (journal ++ written, [])
  | .skip now later at_ => (skipCycle host now later at_ journal).map Prod.snd
  | .backOff now start s jitter chunkS at_ => backOff host now start s jitter chunkS at_ journal

/-- A run, and the breadcrumbs it left. -/
def run (host : Host) : List Move → Journal → Except PyErr (Journal × List Closing)
  | [], journal => .ok (journal, [])
  | move :: moves, journal => do
    let (next, closings) ← step host journal move
    let (last, later) ← run host moves next
    return (last, closings ++ later)

/-- The latest transient event of each agent in the whole stream. -/
def latestEver (host : Host) (journal : Journal) : Dict String (Option Event) :=
  (journal.map Prod.snd).foldl (latestStep host) .empty

/-- The agent's latest transient event, of all that were ever written, is a detection. -/
def Open (host : Host) (journal : Journal) (agent : String) : Prop :=
  ∃ detected, (latestEver host journal).get? agent = some (some detected)

/-- The agent's latest transient event in the newest two month files is a detection. -/
def OpenInTail (host : Host) (journal : Journal) (agent : String) : Prop :=
  ∃ detected, (latestTransientPerAgent host (logDir journal)).get? agent = some (some detected)

end AgentRunner.Breadcrumbs
