import AgentRunner.ContextStore
import AgentRunner.JsonAscii
import AgentRunner.LockRecord
import AgentRunner.Triples

/-! `serve.pid` and the holder sidecar of the round lock, and the verbs that read them while
the processes they name go their own way: `stop` and `kill` of `_lifecycle.py`, and the
message of a round that finds the lock held. -/
namespace AgentRunner.ServicePids
open Effects Triples PyValue JsonText TextLines ContextStore JsonAscii

/-! ## What is written -/

/-- The payload of `PIDFile.write`. -/
def pidPayload (pid : ℕ) (createTime : ℚ) : Json :=
  .obj [("pid", .int pid), ("create_time", .float (.finite createTime))]

/-- The payload of `_write_holder_sidecar`. -/
def holderPayload (pid : ℕ) (startedAt cmdline : String) (createTime : ℚ) : Json :=
  .obj [("pid", .int pid), ("started_at", .str startedAt), ("cmdline", .str cmdline),
    ("create_time", .float (.finite createTime))]

/-- `write_text(json.dumps(payload))`. -/
def sidecarBytes (i : Interpreter) (payload : Json) : List UInt8 :=
  Utf8.encode (asciiDumps i payload)

/-! ## What a command sees -/

/-- What the disk, `psutil`, `os.kill(pid, 0)` and systemd answer at one moment. -/
structure View where
  pidFile : Option (List UInt8)
  sidecar : Option (List UInt8)
  createTimeOf : ℤ → Option ℚ
  /-- No `ProcessLookupError`. -/
  present : ℤ → Bool
  /-- Nor a `PermissionError`. -/
  signalable : ℤ → Bool
  unitFile : Bool
  isActive : Option String
  systemctl : Bool
  monotonic : ℚ

inductive Signal where
  | term
  | kill
  deriving DecidableEq

/-- A signal, and the moment it was sent at. -/
structure Sent where
  moment : ℕ
  pid : ℤ
  signal : Signal
  deriving DecidableEq

/-- A command under way: each of its calls takes a moment. -/
structure Caller where
  moment : ℕ
  sent : List Sent

/-- An exception. `killed` is none: the command is no more. -/
inductive Raised where
  | python (e : PyErr)
  | systemctl
  | killed
  deriving DecidableEq

abbrev Cmd := Command Caller Raised

inductive ServiceMode where
  | systemdUser
  | pidFile
  | none
  deriving DecidableEq

/-- `ServiceStatus`, but for what only its display uses. -/
structure ServiceStatus where
  mode : ServiceMode
  active : Bool
  pid : Option ℤ
  deriving DecidableEq

section
variable (i : Interpreter) (host : Host) (views : ℕ → View) (patience : ℕ)

/-- One call that looks at something. -/
def look {α : Type} (read : View → α) : Cmd α :=
  perform fun c => (.ok (read (views c.moment)), { c with moment := c.moment + 1 })

/-- What a reader raises is raised on. -/
def lift {α : Type} : Except PyErr α → Cmd α
  | .ok a => return a
  | .error e => raise (.python e)

/-! ## Readers -/

/-- `_valid_pid`. -/
def validPid : Json → Option ℤ
  | .int n => if 1 < n then some n else none
  | _ => none

/-- `abs(created - recorded) < 1.0`. -/
def near (created : ℚ) : Json → Except PyErr Bool
  | .float (.finite q) => .ok (decide (|created - q| < 1))
  | .float _ => .ok false
  | .bool b => .ok (decide (|created - b.toInt| < 1))
  | .int n =>
    match host.floatOfInt n with
    | none => .error .overflowError
    | some q => .ok (decide (|created - q| < 1))
  | _ => .error .typeError

/-- `create_time_matches`. -/
def createTimeMatches (pid : ℤ) (recorded : Json) : Cmd Bool :=
  match recorded with
  | .null => return true
  | recorded => do
    match ← look views (·.createTimeOf pid) with
    | none => return false
    | some created => lift (near host created recorded)

/-- What `PIDFile.read` parses: nothing where it returns `None`. -/
def pidFileJson (content : Option (List UInt8)) : Except PyErr (Option Json) :=
  match content with
  | none => .ok none
  | some bytes =>
    match decodeStrict bytes with
    | none => .error .valueError
    | some text =>
      match loads i (strip (universalNewlines text)) with
      | .ok data => .ok data
      | .error .valueError => .ok none
      | .error e => .error e

/-- `PIDFile.read`. -/
def pidFileRead : Cmd (Option ℤ) := do
  let content ← look views (·.pidFile)
  match ← lift (pidFileJson i content) with
  | some (.obj fields) =>
    match validPid (get fields "pid") with
    | none => return none
    | some pid =>
      if ← createTimeMatches host views pid (get fields "create_time") then return some pid
      else return none
  | some (.int n) => return validPid (.int n)
  | _ => return none

/-- `pid_alive`. -/
def pidAlive (pid : ℤ) : Cmd Bool := look views (·.signalable pid)

/-- `_round_holder_pid`. -/
def roundHolderPid : Cmd (Option ℤ) := do
  let content ← look views (·.sidecar)
  match ← lift (readJson i content) with
  | .obj fields =>
    match validPid (get fields "pid") with
    | none => return none
    | some pid =>
      if ← pidAlive views pid then
        if ← createTimeMatches host views pid (get fields "create_time") then return some pid
        else return none
      else return none
  | _ => return none

/-- What `_format_holder_msg` says of the holder. -/
inductive HolderMsg where
  | missing
  | unreadable
  | stale (pid : ℤ)
  | held (pid : ℤ) (startedAt cmdline : Json)

/-- `isinstance(pid, int)`. -/
def intOf : Json → Option ℤ
  | .int n => some n
  | .bool b => some b.toInt
  | _ => none

/-- `_format_holder_msg`. -/
def formatHolderMsg : Cmd HolderMsg := do
  let content ← look views (·.sidecar)
  match ← lift (readJson i content) with
  | .null => return .missing
  | .obj fields =>
    match intOf (get fields "pid") with
    | none => return .unreadable
    | some pid =>
      if ← look views (·.present pid) then
        return .held pid (getOr fields "started_at" (.str "")) (getOr fields "cmdline" (.str ""))
      else return .stale pid
  | _ => return .unreadable

/-! ## Verbs -/

/-- `send_signal_to_pid`. -/
def sendSignalToPid (pid : ℤ) (signal : Signal) : Cmd Unit :=
  perform fun c => (.ok (), ⟨c.moment + 1, c.sent ++ [⟨c.moment, pid, signal⟩]⟩)

/-- `wait_until`. -/
def waitUntil (predicate : Cmd Bool) (timeoutS : ℚ) : Cmd Bool := do
  let started ← look views (·.monotonic)
  loop .killed (fun _ => do
    if ← predicate then return .inr ()
    else if (← look views (·.monotonic)) < started + timeoutS then return .inl ()
    else return .inr ()) patience ()
  predicate

def pidSignalGraceS : ℚ := 5

def roundTermGraceS : ℚ := 15

/-- `_await_pid_exit`. -/
def awaitPidExit (pid : ℤ) (timeoutS : ℚ) : Cmd Bool := do
  return !(← waitUntil views patience (do return !(← pidAlive views pid)) timeoutS)

/-- `_terminate_round_pid`, but for the strays of the round, whose groups are taken down by a
snapshot of their own. -/
def terminateRoundPid (pid : ℤ) : Cmd Unit := do
  sendSignalToPid pid .term
  if ← awaitPidExit views patience pid roundTermGraceS then sendSignalToPid pid .kill
  else return ()

def systemdActive (state : Option String) : Bool :=
  state == some "active" || state == some "activating" || state == some "reloading"

def systemdInactive (state : Option String) : Bool :=
  state == some "failed" || state == some "inactive"

/-- `_systemctl_user`. -/
def systemctlUser : Cmd Unit := do
  if ← look views (·.systemctl) then return ()
  else raise .systemctl

/-- `detect_service_mode`. -/
def detectServiceMode : Cmd ServiceMode := do
  if ← look views (·.unitFile) then
    if systemdActive (← look views (·.isActive)) then return .systemdUser
    else
      match ← pidFileRead i host views with
      | none => return .systemdUser
      | some pid => if ← pidAlive views pid then return .pidFile else return .systemdUser
  else if ← look views (·.pidFile.isSome) then return .pidFile
  else return .none

/-- Whether `serve.pid` names a live process. -/
def pidFileActive : Cmd (Option ℤ × Bool) := do
  match ← pidFileRead i host views with
  | none => return (none, false)
  | some pid => return (some pid, ← pidAlive views pid)

/-- `status`. -/
def status : Cmd ServiceStatus := do
  match ← detectServiceMode i host views with
  | .systemdUser =>
    let state ← look views (·.isActive)
    if systemdActive state then return ⟨.systemdUser, true, none⟩
    else if systemdInactive state then return ⟨.systemdUser, false, none⟩
    else return ⟨.systemdUser, (← pidFileActive i host views).2, none⟩
  | .pidFile =>
    let (pid, active) ← pidFileActive i host views
    return ⟨.pidFile, active, pid⟩
  | .none => return ⟨.none, false, none⟩

/-- `stop`. -/
def stop : Cmd ServiceStatus := do
  match ← detectServiceMode i host views with
  | .systemdUser =>
    systemctlUser views
    let _ ← waitUntil views patience (do return systemdInactive (← look views (·.isActive)))
      pidSignalGraceS
    status i host views
  | _ =>
    match ← pidFileRead i host views with
    | none => status i host views
    | some pid =>
      sendSignalToPid pid .term
      let _ ← awaitPidExit views patience pid pidSignalGraceS
      status i host views

/-- The round in flight, taken down behind its supervisor. -/
def killRound : Cmd Unit := do
  match ← roundHolderPid i host views with
  | none => return ()
  | some pid => terminateRoundPid views patience pid

/-- `kill`. -/
def kill : Cmd ServiceStatus := do
  match ← detectServiceMode i host views with
  | .systemdUser =>
    systemctlUser views
    if ← waitUntil views patience (do return systemdInactive (← look views (·.isActive)))
        pidSignalGraceS then status i host views
    else
      systemctlUser views
      status i host views
  | _ =>
    match ← pidFileRead i host views with
    | none => status i host views
    | some pid =>
      sendSignalToPid pid .term
      killRound i host views patience
      if ← awaitPidExit views patience pid pidSignalGraceS then
        sendSignalToPid pid .kill
        return ⟨.pidFile, ← pidAlive views pid, some pid⟩
      else return ⟨.pidFile, false, some pid⟩

end

end AgentRunner.ServicePids
