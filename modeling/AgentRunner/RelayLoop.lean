import AgentRunner.RemoteTail

/-! `relay_remote_events` and the link it drives: ssh runs the remote tail, hands
over its lines in order and drops; after each drop the relay reconnects and resumes
from the newest stamp it has relayed. One move is one step of one of the parties. -/
namespace AgentRunner.RelayLoop
open PyValue IsoTime EventFile EmittedEvents RemoteTail

/-! ## The relay -/

/-- `_line_ts` of a whole line. A line cut short is no JSON and has none. -/
def lineTs (ev : Event) : Option (String × Datetime) :=
  match get ev "ts" with
  | .str ts =>
    match parseIsoMs (.str ts) with
    | .ok stamp => some (ts, stamp)
    | .error _ => none
  | _ => none

/-- What the relay has written, the newest stamp among it as text and parsed, and
its account of the present outage. -/
structure Relay where
  out : List Line
  last : Option (String × Datetime)
  blipStart : Option ℚ
  attempt : Nat

/-- Before the first connection. -/
def Relay.fresh : Relay := ⟨[], none, none, 0⟩

/-- A line is written as it came; the stamp is kept if it is newer, and the outage,
if there was one, is over. -/
def Relay.onLine (r : Relay) (line : Line) : Except PyErr Relay := do
  let last ← match lineTs line.event.event, r.last with
    | none, last => pure last
    | some stamp, none => pure (some stamp)
    | some stamp, some last => do
      let newer ← lt last.2 stamp.2
      pure (some (if newer then stamp else last))
  return ⟨r.out ++ [line], last, none, 0⟩

/-- The beginning of a line that was cut short is written too, and has no stamp. -/
def Relay.onTorn (r : Relay) : Relay := { r with blipStart := none, attempt := 0 }

/-- `_RECONNECT_BACKOFF_S`. -/
def reconnectBackoffS (attempt : Nat) : ℚ := [1, 2, 4, 8, 16].getD (attempt - 1) 30

/-- After an ssh exit at `now`: how long to sleep, or `none` to give up. -/
def Relay.onExit (r : Relay) (toleranceS now : ℚ) : Relay × Option ℚ :=
  let blipStart := r.blipStart.getD now
  let elapsed := now - blipStart
  let r := { r with blipStart := some blipStart, attempt := r.attempt + 1 }
  if toleranceS ≤ 0 ∨ toleranceS ≤ elapsed then (r, none)
  else (r, some (min (reconnectBackoffS r.attempt) (toleranceS - elapsed)))

/-! ## The system -/

/-- A connection: the remote process, and what it has printed that ssh has not yet
handed over. -/
structure Link where
  remote : Remote
  pipe : List Line

/-- The host's log, the relay and its connection, if it is up. `began` records that
a remote tail has begun to follow, and `due` the lines appended since. -/
structure System where
  log : RemoteLog
  relay : Relay
  link : Option Link
  began : Bool
  due : List Line

inductive Move where
  | append (e : Emitted)
  | remote (current : String)
  | deliver
  | drop (torn : Bool) (now : ℚ)
  | reconnect

/-- `events --tail [--since <last ts>]`; a stamp the remote cannot parse is refused. -/
def connect (last : Option (String × Datetime)) : Option Link :=
  match last with
  | none => some ⟨⟨none, .connecting⟩, []⟩
  | some (ts, _) =>
    match parseIsoMs (.str ts) with
    | .ok since => some ⟨⟨some (inUtc since), .connecting⟩, []⟩
    | .error _ => none

def Phase.follows : Phase → Bool
  | .following _ => true
  | _ => false

/-- One move; `none` where it cannot be taken, where a party raises, and where the
relay gives up. -/
def System.step (kinds : List String) (toleranceS : ℚ) (s : System) : Move → Option System
  | .append e =>
    let line : Line := ⟨e.month, s.log.size e.month, e⟩
    some { s with log := s.log.append e, due := if s.began then s.due ++ [line] else s.due }
  | .remote current =>
    match s.link with
    | none => none
    | some link =>
      match link.remote.step kinds s.log current with
      | .error _ => none
      | .ok (phase, printed) =>
        some { s with
          link := some ⟨{ link.remote with phase := phase }, link.pipe ++ printed⟩
          began := s.began || Phase.follows phase }
  | .deliver =>
    match s.link with
    | some ⟨remote, line :: pipe⟩ =>
      match s.relay.onLine line with
      | .error _ => none
      | .ok relay => some { s with relay := relay, link := some ⟨remote, pipe⟩ }
    | _ => none
  | .drop torn now =>
    match s.link with
    | none => none
    | some link =>
      if torn = true ∧ link.pipe = [] then none
      else
        let relay := if torn then s.relay.onTorn else s.relay
        match relay.onExit toleranceS now with
        | (relay, some _) => some { s with relay := relay, link := none }
        | (_, none) => none
  | .reconnect =>
    match s.link with
    | some _ => none
    | none => (connect s.relay.last).map fun link => { s with link := some link }

/-- The relay starts on a host with some log. -/
def start (log : RemoteLog) : System := ⟨log, .fresh, connect none, false, []⟩

def run (kinds : List String) (toleranceS : ℚ) (s : System) (moves : List Move) : Option System :=
  moves.foldlM (System.step kinds toleranceS) s

/-- The connection is up, has replayed, and has handed over all there is in the
newest two files. -/
def CaughtUp (s : System) : Prop :=
  ∃ remote offsets, s.link = some ⟨remote, []⟩ ∧ remote.phase = .following offsets ∧
    ∀ month ∈ s.log.newest, s.log.size month ≤ offsets.getD month 0

/-- Every line of a requested kind that was appended since a tail began to follow
has been written. -/
def NothingLost (kinds : List String) (s : System) : Prop :=
  ∀ line ∈ s.due, line.event.kind ∈ kinds → line ∈ s.relay.out

end AgentRunner.RelayLoop
