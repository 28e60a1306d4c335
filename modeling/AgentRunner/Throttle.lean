import AgentRunner.Dict
import AgentRunner.Events
import AgentRunner.IsoTime

/-! `_throttle.py`: the throttle state reconstructed from the events tail. The
clock is a value `now`, the reading of `clock.epoch()`. Warnings are not
modelled: they change no result. -/
namespace AgentRunner.Throttle
open PyValue Events IsoTime

/-! ## Field coercion -/

/-- `_coerce_int`: an int from a parsed field, or `default` for anything that
is not a number. The `int()` calls can raise; the guards keep them from it. -/
def coerceInt (host : Host) (value : Json) (default : Int) : Except PyErr Int :=
  match value with
  | .bool b => .ok b.toInt
  | .int n => .ok n
  | .float x => if isFinite x then intOfFloat x else .ok default
  | .str s =>
    match intOfStr host s with
    | .error .valueError => .ok default
    | result => result
  | _ => .ok default

def epochSanityWindowS : Int := 366 * 24 * 3600

/-- `_coerce_epoch_int`: additionally rejects a result outside `[0, now + ~1y]`. -/
def coerceEpochInt (host : Host) (value : Json) (default : Int) (now : ℚ) : Except PyErr Int := do
  let coerced ← coerceInt host value default
  if coerced < 0 ∨ now + epochSanityWindowS < coerced then return default else return coerced

/-! ## Scans of the events tail -/

/-- `str(ev.get("agent", "unknown"))`. -/
def agentLabel (host : Host) (ev : Event) : String := str host (getOr ev "agent" (.str "unknown"))

/-- `_scan_events_for_transient`: the file's last transient event; the outer
`none` is `_NO_TRANSIENT`, the inner one a `recovered`. -/
def scanEventsForTransient (file : List Event) : Option (Option Event) :=
  file.foldl (fun latest ev =>
    if isKind ev transientErrorDetected then some (some ev)
    else if isKind ev transientErrorRecovered then some none
    else latest) none

/-- `_latest_unrecovered_detected`: newest file first, stopping at the first
one that holds any transient event. -/
def latestUnrecoveredDetected (logDir : LogDir) : Option Event :=
  ((newestMonthFiles logDir 2).reverse.findSome? scanEventsForTransient).join

def latestStep (host : Host) (latest : Dict String (Option Event)) (ev : Event) :
    Dict String (Option Event) :=
  if isKind ev transientErrorDetected then latest.set (agentLabel host ev) (some ev)
  else if isKind ev transientErrorRecovered then latest.set (agentLabel host ev) none
  else latest

/-- `_latest_transient_per_agent`. -/
def latestTransientPerAgent (host : Host) (logDir : LogDir) : Dict String (Option Event) :=
  (tailEvents logDir).foldl (latestStep host) .empty

/-- The loop body of `_backoff_exponent`: note the default `""`, not `"unknown"`. -/
def countStep (host : Host) (agent : String) (count : Nat) (ev : Event) : Nat :=
  if str host (getOr ev "agent" (.str "")) ≠ agent then count
  else if isKind ev transientErrorDetected then count + 1
  else if isKind ev agentUsageRecorded && (get ev "success").truthy then 0
  else count

/-- `_backoff_exponent`: detections since the agent's last success, minus one. -/
def backoffExponent (host : Host) (logDir : LogDir) (agent : String) : Nat :=
  (tailEvents logDir).foldl (countStep host agent) 0 - 1

/-! ## The back-off ladder -/

/-- `_BACK_OFF_DEFAULTS`. -/
def backOffDefaults (classification : String) : Option Nat :=
  if classification = "rate_limit_model" then some 60
  else if classification = "api_transient_5xx" then some 60
  else if classification = "api_timeout" then some 30
  else none

def expCap : Nat := 5
def absoluteCapS : Nat := 1800

/-- `_extend_reset`: push an estimated class's reset out along the ladder. -/
def extendReset (classification : String) (resetAtEpoch : Int) (exponent : Nat) : Int :=
  match backOffDefaults classification with
  | none => resetAtEpoch
  | some base =>
    if classification = "rate_limit_account" ∨ exponent = 0 then resetAtEpoch
    else resetAtEpoch + (min (base * (2 ^ min exponent expCap - 1)) absoluteCapS : Nat)

/-- The exponent cache threaded through one caller. -/
abbrev ExponentCache := Option (Dict String Nat)

/-- `_events_derived_reset`: the extended reset, and the cache after the call. -/
def eventsDerivedReset (host : Host) (logDir : LogDir) (agent classification : String)
    (resetAtEpoch : Int) (cache : ExponentCache) : Int × ExponentCache :=
  match cache with
  | none => (extendReset classification resetAtEpoch (backoffExponent host logDir agent), none)
  | some known =>
    match known.get? agent with
    | some exponent => (extendReset classification resetAtEpoch exponent, some known)
    | none =>
      let exponent := backoffExponent host logDir agent
      (extendReset classification resetAtEpoch exponent, some (known.set agent exponent))

/-- `TransientErrorState`. -/
structure TransientErrorState where
  resetAtEpoch : Int
  classification : String
  agent : String
  sinceRound : Int
  phase : String
  deriving DecidableEq

/-- `str(detected.get("classification", "rate_limit_account"))`. -/
def classificationOf (host : Host) (detected : Event) : String :=
  str host (getOr detected "classification" (.str "rate_limit_account"))

/-- One pass of the loop of `_active_throttles`: the state reported for an agent
whose latest transient event is `detected`, if its reset is still ahead. -/
def throttleOf (host : Host) (logDir : LogDir) (now : ℚ) (agent : String) (detected : Event)
    (cache : ExponentCache) : Except PyErr (Option TransientErrorState × ExponentCache) := do
  let classification := classificationOf host detected
  let raw ← coerceEpochInt host (get detected "reset_at_epoch") 0 now
  let (resetAt, cache) := eventsDerivedReset host logDir agent classification raw cache
  if (resetAt : ℚ) ≤ now then return (none, cache)
  let sinceRound ← coerceInt host (get detected "round_num") 0
  return (some { resetAtEpoch := resetAt, classification, agent, sinceRound,
                 phase := str host (getOr detected "phase" (.str "")) }, cache)

/-- The loop of `_active_throttles` over `latest.items()`. -/
def activeLoop (host : Host) (logDir : LogDir) (now : ℚ) :
    List (String × Option Event) → Dict String TransientErrorState → ExponentCache →
      Except PyErr (Dict String TransientErrorState × ExponentCache)
  | [], active, cache => .ok (active, cache)
  | (_, none) :: rest, active, cache => activeLoop host logDir now rest active cache
  | (agent, some detected) :: rest, active, cache => do
    match ← throttleOf host logDir now agent detected cache with
    | (none, cache) => activeLoop host logDir now rest active cache
    | (some state, cache) => activeLoop host logDir now rest (active.set agent state) cache

/-- `_active_throttles`, with the cache it leaves behind. -/
def activeThrottles (host : Host) (logDir : LogDir) (now : ℚ) (exponentCache : ExponentCache)
    (latest : Option (Dict String (Option Event))) :
    Except PyErr (Dict String TransientErrorState × ExponentCache) :=
  let latest := latest.getD (latestTransientPerAgent host logDir)
  activeLoop host logDir now latest.entries .empty exponentCache

/-- `_check_throttle_state`, with the cache it leaves behind. -/
def checkThrottleState (host : Host) (logDir : LogDir) (now : ℚ) (exponentCache : ExponentCache) :
    Except PyErr (Option TransientErrorState × ExponentCache) :=
  match latestUnrecoveredDetected logDir with
  | none => .ok (none, exponentCache)
  | some detected => throttleOf host logDir now (agentLabel host detected) detected exponentCache

/-- `max(states, key=reset_at_epoch)`: the first of the largest. -/
def latestReset : List TransientErrorState → Option TransientErrorState
  | [] => none
  | s :: rest =>
    match latestReset rest with
    | none => some s
    | some t => if s.resetAtEpoch < t.resetAtEpoch then some t else some s

/-- `effective_throttle_view`. -/
def effectiveThrottleView (host : Host) (logDir : LogDir) (now : ℚ) :
    Except PyErr (Option TransientErrorState × Dict String TransientErrorState) := do
  let (throttle, cache) ← checkThrottleState host logDir now (some .empty)
  let (active, _) ← activeThrottles host logDir now cache none
  match throttle with
  | some t =>
    match active.get? t.agent with
    | some state => return (some state, active)
    | none => return (some t, active)
  | none => return (latestReset active.values, active)

/-! ## Recovery -/

/-- `_elapsed_s`. -/
def elapsedS (sinceEpoch now : ℚ) : Int := max 0 (trunc (now - sinceEpoch))

/-- `_throttled_for_s`: best effort, 0 for a timestamp that cannot be read. -/
def throttledForS (host : Host) (ts : Json) (now : ℚ) : Except PyErr Int :=
  if ts.truthy = false then .ok 0
  else
    match parseIsoMs (.str (str host ts)) with
    | .error .valueError | .error .typeError => .ok 0
    | .error e => .error e
    | .ok detected => do
      let aware := if naive : detected.offset = none then asUtc detected naive else detected
      let since ← timestamp host aware
      return elapsedS since now

/-- The loop of `pending_recovered` over the latest transient event per agent. -/
def pendingLoop (host : Host) (now : ℚ) (active : Dict String TransientErrorState) :
    List (String × Option Event) → Except PyErr (List (String × String × Int))
  | [] => .ok []
  | (_, none) :: rest => pendingLoop host now active rest
  | (agent, some detected) :: rest =>
    if active.contains agent then pendingLoop host now active rest
    else do
      let throttledFor ← throttledForS host (get detected "ts") now
      let cleared ← pendingLoop host now active rest
      return (agent, classificationOf host detected, throttledFor) :: cleared

/-- `pending_recovered`. -/
def pendingRecovered (host : Host) (logDir : LogDir) (now : ℚ)
    (active : Option (Dict String TransientErrorState)) :
    Except PyErr (List (String × String × Int)) := do
  let active ← match active with
    | some known => .ok known
    | none => (activeThrottles host logDir now none none).map Prod.fst
  pendingLoop host now active (latestTransientPerAgent host logDir).entries

/-! ## The memory-loop window -/

/-- The loop of `mem_loop_events_in_window`: an event counts when it carries a
timestamp at or after the cutoff. The timestamp is parsed unguarded. -/
def memLoopCount (host : Host) (cutoff : ℚ) : List Event → Nat → Except PyErr Nat
  | [], count => .ok count
  | ev :: rest, count =>
    if isKind ev memLoop && (get ev "ts").truthy then do
      let stamped ← timestamp host (← parseIsoMs (get ev "ts"))
      memLoopCount host cutoff rest (if cutoff ≤ stamped then count + 1 else count)
    else memLoopCount host cutoff rest count

/-- `mem_loop_events_in_window`. -/
def memLoopEventsInWindow (host : Host) (logDir : LogDir) (now : ℚ) (windowS : ℚ) :
    Except PyErr Nat :=
  memLoopCount host (now - windowS) (tailEvents logDir) 0

end AgentRunner.Throttle
