import AgentRunner.Dict
import AgentRunner.Runs
import Mathlib.Logic.Function.Basic

/-! `_notify.py`: the doorbell, one named pipe for each listener under `.notify/`. A system
call is one step; a listener enters while any number of processes ring, in any order. -/
namespace AgentRunner.Doorbell
open Runs

/-- What a ring's `os.write` of one byte came to: delivered, `EAGAIN`, or `EPIPE`. -/
inductive Write where
  | delivered (fifo : ℕ)
  | full (fifo : ℕ)
  | broken (fifo : ℕ)
  deriving DecidableEq

/-- Where a process is in `ring`, with the paths it has yet to open and its writes so far. -/
inductive RingState where
  | idle
  | called
  | scanning (paths : List String) (writes : List Write)
  | stale (path : String) (paths : List String) (writes : List Write)
  | opened (fifo : ℕ) (paths : List String) (writes : List Write)
  | finished (writes : List Write)
  deriving DecidableEq

/-- Where the listener is: before `mkfifo` or before `open`, with the tries it has left;
entered with a descriptor on a FIFO; failed; and leaving the `with` block. -/
inductive ListenerState where
  | making (tries : ℕ)
  | opening (tries : ℕ)
  | entered (fifo : ℕ)
  | raised
  | degraded
  | leaving
  | exited
  deriving DecidableEq

/-- The directory `.notify/` links names to FIFOs, numbered as they are made. Some FIFOs
are held open for reading by other processes; each buffers some bytes. -/
structure System where
  dir : Dict String ℕ
  nextFifo : ℕ
  heldElsewhere : List ℕ
  buffered : ℕ → ℕ
  listener : ListenerState
  rings : ℕ → RingState

/-- A step: the listener's next system call, a read of its whole buffer, the end of its
`with` block, a call of `ring`, a ring's next system call, or what other processes do to
files that are not the listener's. -/
inductive Action where
  | listener
  | drain
  | exit
  | call (i : ℕ)
  | ring (i : ℕ)
  | world (dir : Dict String ℕ) (nextFifo : ℕ) (heldElsewhere : List ℕ) (buffered : ℕ → ℕ)

/-- `f"{os.getpid()}-{id(self)}.fifo"`. -/
def fifoName (pid id : ℕ) : String := toString pid ++ "-" ++ toString id ++ ".fifo"

/-- `name.endswith(".fifo")`. -/
def isFifo (name : String) : Bool := ".fifo".toList.isSuffixOf name.toList

def System.setRing (s : System) (i : ℕ) (ring : RingState) : System :=
  { s with rings := Function.update s.rings i ring }

/-- Some process holds the FIFO open for reading. -/
def System.hasReader (s : System) (fifo : ℕ) : Bool :=
  s.listener == .entered fifo || s.heldElsewhere.contains fifo

/-- The pipe's capacity, the listener's FIFO name, and the rings that may remove an entry
of the directory. -/
structure Setting where
  capacity : ℕ
  pid : ℕ
  id : ℕ
  mayUnlink : ℕ → Bool

def Setting.path (c : Setting) : String := fifoName c.pid c.id

variable (c : Setting)

/-- The next system call of `Listener.__enter__`, of the clean-up in `open_listener`, or of
`__exit__`. -/
def System.listenerStep (s : System) : Option System :=
  match s.listener with
  | .making tries =>
    match s.dir.get? c.path with
    | some _ => some { s with listener := .opening tries }
    | none => some { s with
        dir := s.dir.set c.path s.nextFifo
        nextFifo := s.nextFifo + 1
        listener := .opening tries }
  | .opening tries =>
    match s.dir.get? c.path with
    | some fifo => some { s with listener := .entered fifo }
    | none => some { s with listener := if tries ≤ 1 then .raised else .making (tries - 1) }
  | .raised => some { s with dir := s.dir.erase c.path, listener := .degraded }
  | .leaving => some { s with dir := s.dir.erase c.path, listener := .exited }
  | .entered _ | .degraded | .exited => none

/-- The next system call of `ring` in process `i`. -/
def System.ringStep (s : System) (i : ℕ) : Option System :=
  match s.rings i with
  | .idle => none
  | .called => some (s.setRing i (.scanning ((s.dir.entries.map Prod.fst).filter isFifo) []))
  | .scanning [] writes => some (s.setRing i (.finished writes))
  | .scanning (path :: paths) writes =>
    match s.dir.get? path with
    | none => some (s.setRing i (.scanning paths writes))
    | some fifo =>
      if s.hasReader fifo then some (s.setRing i (.opened fifo paths writes))
      else some (s.setRing i (.stale path paths writes))  -- ENXIO
  | .stale path paths writes =>
    let dir := if c.mayUnlink i then s.dir.erase path else s.dir
    some ({ s with dir := dir }.setRing i (.scanning paths writes))
  | .opened fifo paths writes =>
    if s.hasReader fifo = false then
      some (s.setRing i (.scanning paths (writes ++ [Write.broken fifo])))
    else if s.buffered fifo < c.capacity then
      some ({ s with buffered := Function.update s.buffered fifo (s.buffered fifo + 1) }.setRing i
        (.scanning paths (writes ++ [Write.delivered fifo])))
    else some (s.setRing i (.scanning paths (writes ++ [Write.full fifo])))
  | .finished _ => none

/-- The listener's own buffer is as it was. -/
def System.keepsBuffer (s : System) (buffered : ℕ → ℕ) : Bool :=
  match s.listener with
  | .entered fifo => buffered fifo == s.buffered fifo
  | _ => true

/-- One step; `none` where it cannot be taken. The other processes neither link nor unlink
the listener's name, and do not read from its descriptor. -/
def System.step (s : System) : Action → Option System
  | .listener => s.listenerStep c
  | .drain =>
    match s.listener with
    | .entered fifo => some { s with buffered := Function.update s.buffered fifo 0 }
    | _ => none
  | .exit =>
    match s.listener with
    | .entered _ => some { s with listener := .leaving }
    | _ => none
  | .call i => if s.rings i = .idle then some (s.setRing i .called) else none
  | .ring i => s.ringStep c i
  | .world dir nextFifo heldElsewhere buffered =>
    if dir.get? c.path = s.dir.get? c.path ∧ s.nextFifo ≤ nextFifo ∧
        s.keepsBuffer buffered = true then
      some { s with dir := dir, nextFifo := nextFifo, heldElsewhere := heldElsewhere,
                    buffered := buffered }
    else none

end AgentRunner.Doorbell
