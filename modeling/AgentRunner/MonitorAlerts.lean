import AgentRunner.Dict
import AgentRunner.PyValue
import Mathlib.Data.List.Perm.Subperm

/-! The monitor's polling loop: `_observe._monitor_loop_iter`, the identity it knows an
episode by, and what `monitor.on_alert` does with one alert. -/
namespace AgentRunner.MonitorAlerts
open PyValue

/-- The names `run_all_detectors` can put on an alert: `KNOWN_ALERT_KINDS`. -/
inductive Detector where
  | timeoutRate
  | hung
  | orphanChain
  | diskWarning
  | diskCritical
  | diskGrowth
  | memPressure
  | memSignalUnavailable
  | memPressureGateInert
  | oauthFail
  | networkFail
  | rateLimitActive
  | anomalyRepetitiveActive
  | supervisorStale
  deriving DecidableEq

def Detector.name : Detector → String
  | timeoutRate => "timeout_rate"
  | hung => "hung"
  | orphanChain => "orphan_chain"
  | diskWarning => "disk_warning"
  | diskCritical => "disk_critical"
  | diskGrowth => "disk_growth"
  | memPressure => "mem_pressure"
  | memSignalUnavailable => "mem_signal_unavailable"
  | memPressureGateInert => "mem_pressure_gate_inert"
  | oauthFail => "oauth_fail"
  | networkFail => "network_fail"
  | rateLimitActive => "rate_limit_active"
  | anomalyRepetitiveActive => "anomaly_repetitive_active"
  | supervisorStale => "supervisor_stale"

/-- `_ALERT_IDENTITY_FIELDS`. -/
def Detector.identityFields : Detector → List String
  | hung => ["round_num"]
  | orphanChain => ["last_round"]
  | rateLimitActive => ["agent", "throttled_until_iso"]
  | anomalyRepetitiveActive => ["latest_tool", "latest_target"]
  | supervisorStale => ["last_ts"]
  | _ => []

/-- `Alert`; `context` is its `get`, and the timestamp is not read. -/
structure Alert where
  severity : String
  detector : Detector
  message : String
  context : String → Option Json
  autoAction : String

/-- `alert_identity`; `repr` is Python's, of a value or of `None`. -/
def alertIdentity (repr : Option Json → String) (alert : Alert) : String :=
  match alert.detector.identityFields with
  | [] => alert.detector.name
  | fields => alert.detector.name ++ ":" ++
      "|".intercalate (fields.map fun k => k ++ "=" ++ repr (alert.context k))

inductive Verdict where
  | triggered
  | failed
  | draining
  | none
  deriving DecidableEq

inductive ServiceMode where
  | systemdUser
  | pidFile
  | none
  deriving DecidableEq

structure ServiceStatus where
  active : Bool
  mode : ServiceMode

def ServiceMode.value : ServiceMode → String
  | systemdUser => "systemd_user"
  | pidFile => "pid_file"
  | none => "none"

/-- What `on_alert` records. -/
inductive Breadcrumb where
  | alertEmitted (severity message autoAction : String)
  | autoStopFailed (error : String)
  | autoStopTriggered
  deriving DecidableEq

/-- `_stop_then_record`; a stop that raises comes as the text recorded for it. -/
def stopThenRecord (stop : Except String ServiceStatus) : List Breadcrumb × Verdict :=
  match stop with
  | .error e => ([.autoStopFailed e], .failed)
  | .ok result =>
    if result.active then
      if result.mode = .pidFile then ([], .draining)
      else ([.autoStopFailed
        ("stop did not take effect (mode=" ++ result.mode.value ++ ", still active)")], .failed)
    else ([.autoStopTriggered], .triggered)

/-- `on_alert`, given what `api.stop` would come to. -/
def onAlert (allowedStopNames : List String) (alert : Alert) (stop : Except String ServiceStatus) :
    List Breadcrumb × Verdict :=
  let emitted := Breadcrumb.alertEmitted alert.severity alert.message alert.autoAction
  if alert.autoAction ≠ "stop_service" then ([emitted], .none)
  else if alert.detector.name ∉ allowedStopNames then ([emitted], .none)
  else (emitted :: (stopThenRecord stop).1, (stopThenRecord stop).2)

def seenCap : ℕ := 512

/-- The episodes seen, oldest first. -/
abbrev Seen := Dict String Unit

/-- A call of `on_alert`: the identity it was made for, and its answer. -/
abbrev Call := String × Verdict

/-- What the guarded call of `on_alert` leaves in `verdict`. -/
def guarded (answer : Except String Verdict) : Verdict :=
  match answer with
  | .ok verdict => verdict
  | .error _ => .failed

section Loop
variable (repr : Option Json → String) (answer : Alert → Except String Verdict)

/-- The loop over one poll's alerts, with the calls it makes. -/
def alertLoop (seen : Seen) : List Alert → Seen × List Call
  | [] => (seen, [])
  | alert :: rest =>
    let key := alertIdentity repr alert
    if seen.contains key then alertLoop (seen.moveToEnd key) rest
    else
      let added := seen.set key ()
      let bounded := if seenCap < added.size then added.popFirst else added
      let verdict := guarded (answer alert)
      let kept := if verdict = .draining then bounded.erase key else bounded
      let (final, calls) := alertLoop kept rest
      (final, (key, verdict) :: calls)

/-- The re-arming: only episodes that still fire survive. -/
def rearm (seen : Seen) (alerts : List Alert) : Seen :=
  seen.filterKeys fun key => (alerts.map (alertIdentity repr)).contains key

end Loop

/-- A poll: `_poll_once` raised, or it returned alerts, each of which `on_alert` would
answer in some way. -/
inductive Poll where
  | failed
  | returned (alerts : List Alert) (answer : Alert → Except String Verdict)

/-- At most one alert for each detector. -/
def Poll.OnePerDetector : Poll → Prop
  | .failed => True
  | .returned alerts _ => (alerts.map Alert.detector).Nodup

/-- What a poll that returned came to: the identities present, and the calls made. -/
structure Outcome where
  present : List String
  calls : List Call

/-- The loop between two polls, and the outcome of the last poll that returned. -/
structure Monitor where
  seen : Seen
  last : Option Outcome

def start : Monitor := ⟨Dict.empty, none⟩

def outcome (repr : Option Json → String) (m : Monitor) (alerts : List Alert)
    (answer : Alert → Except String Verdict) : Outcome :=
  ⟨alerts.map (alertIdentity repr), (alertLoop repr answer m.seen alerts).2⟩

/-- One turn of the loop. -/
def Monitor.turn (repr : Option Json → String) (m : Monitor) : Poll → Monitor
  | .failed => m
  | .returned alerts answer =>
    ⟨rearm repr (alertLoop repr answer m.seen alerts).1 alerts, some (outcome repr m alerts answer)⟩

def watch (repr : Option Json → String) (polls : List Poll) : Monitor :=
  polls.foldl (Monitor.turn repr) start

end AgentRunner.MonitorAlerts
