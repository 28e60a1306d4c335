import AgentRunner.EmittedEvents
import Mathlib.Data.List.Sort
import Mathlib.Data.String.Basic

/-! `agent-runner events --tail [--since]`, as it runs on the supervised host while
writers append to the month files: it seeds its offsets at the ends of the newest
two files, replays the backlog from the `--since` stamp on, and then follows the
newest two files. Between any two of its reads other processes may append. -/
namespace AgentRunner.RemoteTail
open PyValue IsoTime EventFile EmittedEvents

/-! ## The remote log -/

/-- The month files of the host's log directory: their sorted names, and the events
in each. -/
structure RemoteLog where
  names : List String
  content : String → List Emitted
  sorted : names.Pairwise (· ≤ ·)
  listed : ∀ month, content month ≠ [] → month ∈ names

namespace RemoteLog

def empty : RemoteLog := ⟨[], fun _ => [], .nil, fun _ held => absurd rfl held⟩

/-- `emit`: one line at the end of the event's month file, which is created if need be. -/
def append (log : RemoteLog) (e : Emitted) : RemoteLog where
  names := if e.month ∈ log.names then log.names else log.names.orderedInsert (· ≤ ·) e.month
  content := Function.update log.content e.month (log.content e.month ++ [e])
  sorted := by
    split
    · exact log.sorted
    · exact log.sorted.orderedInsert e.month log.names
  listed := by
    intro month held
    by_cases same : month = e.month
    · subst same
      split
      · assumption
      · exact (List.mem_orderedInsert _).mpr (.inl rfl)
    · rw [Function.update_of_ne same] at held
      split
      · exact log.listed month held
      · exact (List.mem_orderedInsert _).mpr (.inr (log.listed month held))

/-- The size of a file, in lines. -/
def size (log : RemoteLog) (month : String) : Nat := (log.content month).length

/-- `newest_month_files(log_dir, 2)`. -/
def newest (log : RemoteLog) : List String := log.names.drop (log.names.length - 2)

end RemoteLog

/-- A line of the log and where it stands. The place is not sent anywhere: it tells
which event a line is of. -/
structure Line where
  month : String
  index : Nat
  event : Emitted

def Line.place (line : Line) : String × Nat := (line.month, line.index)

/-- The lines of a file from `pos` on. -/
def linesFrom (log : RemoteLog) (month : String) (pos : Nat) : List Line :=
  ((log.content month).zipIdx.drop pos).map fun (event, index) => ⟨month, index, event⟩

/-! ## The filters -/

/-- `ev.get("event") in kind_set`: a list or an object cannot be hashed. -/
def inKindSet (kinds : List String) (ev : Event) : Except PyErr Bool :=
  match get ev "event" with
  | .str kind => .ok (decide (kind ∈ kinds))
  | .arr _ | .obj _ => .error .typeError
  | _ => .ok false

/-- A naive stamp is read in UTC. -/
def inUtc (d : Datetime) : Datetime := if naive : d.offset = none then asUtc d naive else d

/-- `_matches_since`. -/
def matchesSince (kinds : List String) (since : Datetime) (ev : Event) : Except PyErr Bool := do
  let wanted ← inKindSet kinds ev
  if wanted = false then return false
  match get ev "ts" with
  | .str ts =>
    match parseIsoMs (.str ts) with
    | .ok stamp => ge (inUtc stamp) since
    | .error _ => return false
  | _ => return false

/-- `month_of_datetime`: the month of `d` in UTC. -/
def monthOfDatetime (d : Datetime) : String :=
  let (year, month, _) := ord2ymd (d.instant / 86400000000).toNat
  String.ofList (pad4 year ++ '-' :: pad2 month)

/-! ## The process -/

/-- Where the process stands: listing the files to seed, seeding their offsets,
replaying the files of `todo` (the first of them from line `pos` on), or following,
between two polls or inside one. -/
inductive Phase where
  | connecting
  | seeding (todo : List String) (offsets : Dict String Nat)
  | replaying (todo : List String) (pos : Nat) (current : String) (offsets : Dict String Nat)
  | following (offsets : Dict String Nat)
  | polling (todo : List String) (found : List Line) (offsets : Dict String Nat)

structure Remote where
  since : Option Datetime
  phase : Phase

/-- The lines for which the test succeeds, in order. -/
def selectLines (test : Event → Except PyErr Bool) : List Line → Except PyErr (List Line)
  | [] => .ok []
  | line :: lines => do
    let wanted ← test line.event.event
    let rest ← selectLines test lines
    return if wanted then line :: rest else rest

/-- The next step of the process, and what it prints. `current` is the month of the
host's clock. An exception ends the process. -/
def Remote.step (kinds : List String) (log : RemoteLog) (current : String) (r : Remote) :
    Except PyErr (Phase × List Line) :=
  match r.phase with
  | .connecting => .ok (.seeding log.newest .empty, [])
  | .seeding (month :: todo) offsets => .ok (.seeding todo (offsets.set month (log.size month)), [])
  | .seeding [] offsets =>
    match r.since with
    | none => .ok (.following offsets, [])
    | some _ => .ok (.replaying log.names 0 current offsets, [])
  | .replaying [] _ _ offsets => .ok (.following offsets, [])
  | .replaying (month :: todo) pos current offsets =>
    match r.since with
    | none => .ok (.following offsets, [])
    | some since =>
      if month < monthOfDatetime since then
        .ok (.replaying todo 0 current
          (if month = current then offsets.set month (log.size month) else offsets), [])
      else match (log.content month)[pos]? with
        | some event => do
          let printed ← selectLines (matchesSince kinds since) [⟨month, pos, event⟩]
          return (.replaying (month :: todo) (pos + 1) current offsets, printed)
        | none =>
          .ok (.replaying todo 0 current
            (if month = current then offsets.set month pos else offsets), [])
  | .following offsets => .ok (.polling log.newest [] offsets, [])
  | .polling (month :: todo) found offsets =>
    let known := offsets.getD month 0
    let pos := if log.size month < known then 0 else known
    .ok (.polling todo (found ++ linesFrom log month pos) (offsets.set month (log.size month)), [])
  | .polling [] found offsets => do
    let printed ← selectLines (inKindSet kinds) found
    return (.following offsets, printed)

end AgentRunner.RemoteTail
