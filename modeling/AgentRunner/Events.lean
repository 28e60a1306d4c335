import AgentRunner.PyValue

/-! The event kinds the modelled readers compare against, and the parsed event
stream of one log directory: its `events-YYYY-MM.jsonl` files, oldest first. -/
namespace AgentRunner.Events
open PyValue

def agentUsageRecorded : String := "agent_usage_recorded"
def dirtyAutoCommitted : String := "dirty_auto_committed"
def dirtyDetected : String := "dirty_detected"
def goalAssessment : String := "goal_assessment"
def goalCheck : String := "goal_check"
def memLoop : String := "mem_loop"
def roundMemTerminated : String := "round_mem_terminated"
def roundSubstrateAfter : String := "round_substrate_after"
def roundSubstrateBefore : String := "round_substrate_before"
def transientErrorBackoffCapped : String := "transient_error_backoff_capped"
def transientErrorDetected : String := "transient_error_detected"
def transientErrorRecovered : String := "transient_error_recovered"

/-- The events files of a log directory, oldest to newest, each as the list of
JSON objects its lines decode to. -/
structure LogDir where
  months : List (List Event)

/-- `event_log.newest_month_files(log_dir, n)`: the newest `n` files, oldest first. -/
def newestMonthFiles (logDir : LogDir) (n : Nat) : List (List Event) :=
  logDir.months.drop (logDir.months.length - n)

/-- `_tail_events`: the newest two files, read forward, old then new. -/
def tailEvents (logDir : LogDir) : List Event := (newestMonthFiles logDir 2).flatten

/-- A log directory with a single events file. -/
def LogDir.single (events : List Event) : LogDir := ⟨[events]⟩

@[simp] theorem tailEvents_single (events : List Event) :
    tailEvents (.single events) = events := by
  simp [tailEvents, newestMonthFiles, LogDir.single]

/-- How the stream lies in month files, all of it within the newest two. -/
structure Files where
  spread : List Event → LogDir
  whole : ∀ tail, tailEvents (spread tail) = tail

/-- Kinds are compared as constants, so an event has at most one. -/
theorem isKind_unique {ev : Event} {kind other : String} (h : isKind ev kind = true)
    (different : kind ≠ other) : isKind ev other = false := by
  unfold isKind at *
  cases value : get ev "event" with
  | str s =>
    rw [value] at h
    simp only [Json.isText_str, beq_iff_eq] at h
    simpa [h] using different
  | _ => rw [value] at h; cases h

end AgentRunner.Events
