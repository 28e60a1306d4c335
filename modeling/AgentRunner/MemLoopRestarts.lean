import AgentRunner.MonitorThrottle
import AgentRunner.MonthFiles
import AgentRunner.MonthOrder
import AgentRunner.ServePolicy
import Mathlib.Tactic.Linarith

/-! Serve lifetimes over one log directory. A memory loop ends a lifetime with the
restartable 71, unless two of its kind already stand in the last two hours of the
stream, counted anew from the newest two month files: then it is 70, and stays. -/
namespace AgentRunner.MemLoopRestarts
open PyValue Events IsoTime EmittedEvents MonthFiles MonthOrder Throttle RoundVerdicts ServePolicy
  Shards MonitorThrottle

/-! ## Lifetimes -/

/-- `clock.epoch()` at a reading. -/
def epochOf (d : Datetime) : ℚ := ((d.instant - Datetime.epochMicros : Int) : ℚ) / 1000000

/-- A round that has run its course: the events written since the last verdict, the
child's exit and `_round_scan`'s verdicts, and the clock's readings when the window
is counted and when a give-up is written. -/
structure Finished where
  written : List Emitted
  returncode : Int
  durationS : ℚ
  throttleActive : Bool
  outcome : RoundOutcome
  excused : outcome.memTerminated = true → throttleActive = true
  decided : Reading
  at_ : Reading
  reason : String

/-- The log directory a stream of events leaves. -/
def logDirOf (stream : List Emitted) : LogDir := logDir (stream.map fun e => (e.month, e.event))

/-- What `post_round_verdicts` has at hand. -/
def Finished.round (f : Finished) (stream : List Emitted) : Round where
  returncode := f.returncode
  durationS := f.durationS
  throttleActive := f.throttleActive
  outcome := f.outcome
  logDir := logDirOf stream
  now := epochOf f.decided.1
  excused := f.excused

/-- The fields of a give-up event; `reason` is the redacted tail of the round log, where
the event does not bring its own. -/
def giveUpFields (reason : String) (g : GiveUpEvent) : List (String × Json) :=
  (g.consecutive.toList.map fun n => ("consecutive", .int n)) ++
    (g.exitCode.toList.map fun n => ("exit_code", .int n)) ++
    [("reason", .str (g.reason.getD reason))]

theorem giveUpFields_plain (reason : String) (g : GiveUpEvent) :
    ∀ field ∈ giveUpFields reason g, field.1 ≠ "ts" ∧ field.1 ≠ "event" := by
  intro field member
  simp only [giveUpFields, List.mem_append, List.mem_map, List.mem_singleton] at member
  obtain (⟨_, -, rfl⟩ | ⟨_, -, rfl⟩) | rfl := member <;> simp

/-- The give-up event as it is written. -/
def giveUpEvent (at_ : Reading) (reason : String) (g : GiveUpEvent) : Emitted where
  reading := at_.1
  utc := Reading.utc at_
  kind := g.kind
  fields := giveUpFields reason g
  plain := giveUpFields_plain reason g

/-- A give-up: its exit code, the clock it was decided at, the stream it was decided
on and the event it left. -/
structure Exit where
  code : Int
  decided : Reading
  stream : List Emitted
  event : Emitted

/-- One lifetime from its streaks on: rounds are judged until one of them ends it, by
a give-up or an exception; a lifetime stopped from outside runs out of rounds. -/
def lifetime (host : Host) (restartDelayS : Int) :
    Streaks → List Emitted → List Finished → List Emitted × Option Exit
  | _, stream, [] => (stream, none)
  | streaks, stream, f :: rest =>
    let stream := stream ++ f.written
    match postRoundVerdicts host restartDelayS streaks (f.round stream) with
    | .error _ => (stream, none)
    | .ok verdicts =>
      match verdicts.exit, verdicts.emitted with
      | some code, some g =>
        let event := giveUpEvent f.at_ f.reason g
        (stream ++ [event], some ⟨code, f.decided, stream, event⟩)
      | _, _ => lifetime host restartDelayS verdicts.streaks stream rest

/-- Lifetimes over one log directory, each from zero streaks, and their give-ups. -/
def lifetimes (host : Host) (restartDelayS : Int) :
    List Emitted → List (List Finished) → List Emitted × List Exit
  | stream, [] => (stream, [])
  | stream, rounds :: later =>
    let (stream, exit) := lifetime host restartDelayS .zero stream rounds
    let (stream, exits) := lifetimes host restartDelayS stream later
    (stream, exit.toList ++ exits)

/-- The clock readings of a round, in the order they are taken. -/
def Finished.readings (f : Finished) : List Int :=
  (f.written.map fun e => e.reading.instant) ++ [f.decided.1.instant, f.at_.1.instant]

/-- The wall clock never steps back, within a lifetime or between two. -/
def ClockForward (stream : List Emitted) (runs : List (List Finished)) : Prop :=
  ((stream.map fun e => e.reading.instant) ++
    runs.flatMap fun rounds => rounds.flatMap Finished.readings).Pairwise (· ≤ ·)

/-! ## The count in the window -/

/-- A `mem_loop` stamped no more than two hours before the clock showed `decided`. -/
def recentLoop (decided : Reading) (e : Emitted) : Bool :=
  e.kind == memLoop && decide (decided.1.instant - 7200000000 ≤ e.stamped)

/-- The number of them in a stream. -/
def recentLoops (decided : Reading) (stream : List Emitted) : Nat :=
  (stream.filter (recentLoop decided)).length

private theorem timestamp_stamp (host : Host) (e : Emitted) :
    timestamp host (truncMs e.reading) = .ok (epochOf (truncMs e.reading)) := by
  have utc : (truncMs e.reading).offset = some 0 := e.utc
  rw [timestamp, utc]
  rfl

private theorem cutoff_iff (decided d : Datetime) :
    epochOf decided - 7200 ≤ epochOf d ↔ decided.instant - 7200000000 ≤ d.instant := by
  have cast : epochOf decided - 7200 ≤ epochOf d ↔
      ((decided.instant - 7200000000 : Int) : ℚ) ≤ (d.instant : Int) := by
    rw [epochOf, epochOf]
    push_cast
    constructor <;> intro h <;> linarith
  rw [cast, Int.cast_le]

/-- The loop counts the recent `mem_loop` events, and never raises on emitted ones. -/
theorem memLoopCount_emitted (host : Host) (decided : Reading) (stream : List Emitted)
    (count : Nat) : memLoopCount host (epochOf decided.1 - 7200) (stream.map Emitted.event) count =
      .ok (count + recentLoops decided stream) := by
  induction stream generalizing count with
  | nil => rfl
  | cons e rest ih =>
    rw [List.map_cons, memLoopCount, isKind_event, get_ts, isoMs_truthy, Bool.and_true]
    by_cases loop : (e.kind == memLoop) = true
    · rw [if_pos loop]
      simp only [parseIsoMs_isoMs e.reading e.utc, timestamp_stamp, bind, Except.bind, cutoff_iff]
      rw [ih, recentLoops, recentLoops, List.filter_cons, recentLoop, loop, Bool.true_and]
      by_cases recent : decided.1.instant - 7200000000 ≤ e.stamped
      · have recent' : decided.1.instant - 7200000000 ≤ (truncMs e.reading).instant := recent
        simp only [recent, recent', decide_true, if_true, List.length_cons]
        congr 1
        omega
      · have past : ¬ decided.1.instant - 7200000000 ≤ (truncMs e.reading).instant := recent
        simp only [recent, past, decide_false, if_false, Bool.false_eq_true]
    · rw [if_neg loop, ih, recentLoops, recentLoops, List.filter_cons, recentLoop,
        Bool.eq_false_iff.mpr loop, Bool.false_and, if_neg Bool.false_ne_true]

/-! ## The tail holds the window -/

theorem stamped_bounds (e : Emitted) :
    e.stamped ≤ e.reading.instant ∧ e.reading.instant < e.stamped + 1000 ∧
      e.stamped % 1000 = 0 := by
  simp only [Emitted.stamped, Datetime.instant, Datetime.micros, truncMs, e.utc, Option.getD_some]
  omega

/-- The stream, each event under its month. -/
def keyed (stream : List Emitted) : List (String × Emitted) := stream.map fun e => (e.month, e)

theorem tailEvents_logDirOf (stream : List Emitted) : tailEvents (logDirOf stream) =
    ((newest 2 (keyed stream)).flatMap Prod.snd).map Emitted.event := by
  rw [logDirOf, tailEvents_logDir, ← newest_map, keyed, List.map_map]
  rfl

/-- A clock that never steps back writes the months in order. -/
theorem keyed_inOrder {stream : List Emitted}
    (forward : (stream.map fun e => e.reading.instant).Pairwise (· ≤ ·)) :
    InOrder (keyed stream) := by
  rw [InOrder, keyed, List.map_map]
  rw [List.pairwise_map] at forward ⊢
  exact forward.imp fun {a b} earlier => monthOf_le (monthIndex_mono a.utc b.utc earlier)

/-- What lies in no newest file is too old for the window. -/
theorem older_not_recent {stream : List Emitted} {decided : Reading}
    (passed : ∀ e ∈ stream, e.reading.instant ≤ decided.1.instant) {e : Emitted}
    (member : e ∈ (older 2 (keyed stream)).flatMap Prod.snd) : recentLoop decided e = false := by
  obtain ⟨file, held, inside⟩ := List.mem_flatMap.mp member
  obtain ⟨middle, middleHeld, last, lastHeld, first, second⟩ := older_keys held
  obtain ⟨-, from_⟩ := mem_files (List.mem_of_mem_take held)
  obtain ⟨m, -, rfl⟩ := List.mem_map.mp middleHeld
  obtain ⟨l, there, rfl⟩ := List.mem_map.mp lastHeld
  obtain ⟨e', -, same⟩ := List.mem_map.mp (from_ e inside)
  obtain ⟨name, same⟩ := Prod.mk.inj same
  rw [same] at name
  rw [← name] at first
  have apart := two_months_apart e.utc l.utc
    (Nat.lt_of_le_of_lt (monthIndex_lt first) (monthIndex_lt second))
  have now := passed l there
  have stamp := (stamped_bounds e).1
  rw [recentLoop, Bool.and_eq_false_iff]
  exact .inr (decide_eq_false (by omega))

/-- The window count reads the newest two files and misses no recent event. -/
theorem memLoopEventsInWindow_stream (host : Host) {stream : List Emitted} {decided : Reading}
    (forward : (stream.map fun e => e.reading.instant).Pairwise (· ≤ ·))
    (passed : ∀ e ∈ stream, e.reading.instant ≤ decided.1.instant) :
    memLoopEventsInWindow host (logDirOf stream) (epochOf decided.1) 7200 =
      .ok (recentLoops decided stream) := by
  have whole := older_newest_flat 2 (keyed_inOrder forward)
  have back : (keyed stream).map Prod.snd = stream := by
    rw [keyed, List.map_map]
    exact List.map_id _
  have old : ((older 2 (keyed stream)).flatMap Prod.snd).filter (recentLoop decided) = [] :=
    List.filter_eq_nil_iff.mpr fun e member => by
      rw [older_not_recent passed member]
      exact Bool.false_ne_true
  rw [memLoopEventsInWindow, tailEvents_logDirOf, memLoopCount_emitted, Nat.zero_add]
  congr 1
  rw [back] at whole
  conv_rhs => rw [← whole]
  rw [recentLoops, recentLoops, List.filter_append, old, List.nil_append]

/-! ## One verdict -/

/-- How a give-up exits: only a memory loop exits with 70 or 71, and it exits with 70
exactly when two earlier ones are in the window. -/
theorem verdict_exit {host : Host} {delay : Int} {streaks : Streaks} {r : Round}
    {verdicts : Verdicts} {prior : Nat}
    (counted : memLoopEventsInWindow host r.logDir r.now 7200 = .ok prior)
    (judged : postRoundVerdicts host delay streaks r = .ok verdicts) {code : Int}
    (gaveUp : verdicts.exit = some code) :
    ∃ g, verdicts.emitted = some g ∧
      (code ≠ 70 ∧ code ≠ 71 ∨ code = 70 ∧ 2 ≤ prior ∨
        code = 71 ∧ prior < 2 ∧ g.kind = memLoop) := by
  have window : memLoopEventsInWindow host r.logDir r.now memLoopPersistWindowS =
      .ok prior := counted
  unfold postRoundVerdicts at judged
  cases progress : r.noProgress host with
  | error e =>
    rw [progress] at judged
    cases judged
  | ok shown =>
    simp only [progress, memLoopGiveUp, window, bind, Except.bind, pure, Except.pure] at judged
    split at judged
    · cases judged
      cases gaveUp
      exact ⟨_, rfl, .inl (by decide)⟩
    split at judged
    · by_cases third : memLoopPersistThreshold ≤ prior + 1
      · simp only [if_pos third] at judged
        cases judged
        cases gaveUp
        exact ⟨_, rfl, .inr (.inl ⟨rfl, Nat.le_of_succ_le_succ third⟩)⟩
      · simp only [if_neg third] at judged
        cases judged
        cases gaveUp
        refine ⟨_, rfl, .inr (.inr ⟨rfl, ?_, rfl⟩)⟩
        exact Nat.lt_of_succ_lt_succ (Nat.not_le.mp third)
    split at judged
    · cases judged
      cases gaveUp
      exact ⟨_, rfl, .inl (by decide)⟩
    split at judged
    · cases judged
      cases gaveUp
      exact ⟨_, rfl, .inl (by decide)⟩
    · cases judged
      cases gaveUp

/-! ## Over lifetimes -/

/-- What a give-up shows: its readings, and the window it was judged by. -/
structure Judged (e : Exit) : Prop where
  forward : (e.stream.map fun ev => ev.reading.instant).Pairwise (· ≤ ·)
  passed : ∀ ev ∈ e.stream, ev.reading.instant ≤ e.decided.1.instant
  written : e.decided.1.instant ≤ e.event.reading.instant
  exit : e.code ≠ 70 ∧ e.code ≠ 71 ∨ e.code = 70 ∧ 2 ≤ recentLoops e.decided e.stream ∨
    e.code = 71 ∧ recentLoops e.decided e.stream < 2 ∧ e.event.kind = memLoop

/-- The clock readings of a stream. -/
def readingsOf (stream : List Emitted) : List Int := stream.map fun e => e.reading.instant

private theorem judged_of_verdict {host : Host} {delay : Int} {streaks : Streaks} {f : Finished}
    {stream : List Emitted} {verdicts : Verdicts} {code : Int} {g : GiveUpEvent}
    (forward : (readingsOf stream ++ [f.decided.1.instant, f.at_.1.instant]).Pairwise (· ≤ ·))
    (judged : postRoundVerdicts host delay streaks (f.round stream) = .ok verdicts)
    (gaveUp : verdicts.exit = some code) (emitted : verdicts.emitted = some g) :
    Judged ⟨code, f.decided, stream, giveUpEvent f.at_ f.reason g⟩ := by
  obtain ⟨before, two, across⟩ := List.pairwise_append.mp forward
  have passed : ∀ ev ∈ stream, ev.reading.instant ≤ f.decided.1.instant := fun ev member =>
    across _ (List.mem_map_of_mem member) _ (.head _)
  obtain ⟨g', emitted', exit⟩ :=
    verdict_exit (memLoopEventsInWindow_stream host before passed) judged gaveUp
  cases emitted.symm.trans emitted'
  exact ⟨before, passed, List.rel_of_pairwise_cons two (.head _), exit⟩

/-- One lifetime: it only appends, at readings the clock took; a give-up is judged on
the stream up to its own event, the last. -/
theorem lifetime_spec (host : Host) (delay : Int) (rounds : List Finished) (streaks : Streaks)
    (stream : List Emitted)
    (forward : (readingsOf stream ++ rounds.flatMap Finished.readings).Pairwise (· ≤ ·)) :
    (readingsOf (lifetime host delay streaks stream rounds).1).Sublist
        (readingsOf stream ++ rounds.flatMap Finished.readings) ∧
      stream <+: (lifetime host delay streaks stream rounds).1 ∧
      ∀ e ∈ (lifetime host delay streaks stream rounds).2,
        (lifetime host delay streaks stream rounds).1 = e.stream ++ [e.event] ∧
          stream <+: e.stream ∧ Judged e := by
  induction rounds generalizing streaks stream with
  | nil =>
    exact ⟨by simp [lifetime], List.prefix_rfl, fun e h => (by cases h)⟩
  | cons f rest ih =>
    have shape : readingsOf stream ++ (f :: rest).flatMap Finished.readings =
        readingsOf (stream ++ f.written) ++ ([f.decided.1.instant, f.at_.1.instant] ++
          rest.flatMap Finished.readings) := by
      simp [readingsOf, Finished.readings]
    rw [shape] at forward ⊢
    have grown : stream <+: stream ++ f.written := List.prefix_append ..
    have skip : (readingsOf (stream ++ f.written) ++ rest.flatMap Finished.readings).Sublist
        (readingsOf (stream ++ f.written) ++ ([f.decided.1.instant, f.at_.1.instant] ++
          rest.flatMap Finished.readings)) :=
      (List.Sublist.refl _).append (List.sublist_append_right _ _)
    simp only [lifetime]
    cases judged : postRoundVerdicts host delay streaks (f.round (stream ++ f.written)) with
    | error e => exact ⟨List.sublist_append_left _ _, grown, fun e h => (by cases h)⟩
    | ok verdicts =>
      dsimp only
      split
      · rename_i code g gaveUp emitted
        have here : (readingsOf (stream ++ f.written) ++
            [f.decided.1.instant, f.at_.1.instant]).Pairwise (· ≤ ·) := by
          rw [← List.append_assoc] at forward
          exact (List.pairwise_append.mp forward).1
        refine ⟨?_, grown.trans (List.prefix_append ..), fun e h => ?_⟩
        · rw [readingsOf, List.map_append]
          refine (List.Sublist.refl _).append ?_
          exact .cons _ (.cons_cons _ (List.nil_sublist _))
        · cases h
          exact ⟨rfl, grown, judged_of_verdict here judged gaveUp emitted⟩
      · obtain ⟨readings, extends_, exits⟩ :=
          ih verdicts.streaks (stream ++ f.written) (forward.sublist skip)
        refine ⟨readings.trans skip, grown.trans extends_, fun e h => ?_⟩
        obtain ⟨last, before, good⟩ := exits e h
        exact ⟨last, grown.trans before, good⟩

/-- Lifetimes one after the other: the give-ups, in order, each on a stream that
begins with the one before and its event. -/
theorem lifetimes_spec (host : Host) (delay : Int) (runs : List (List Finished))
    (stream : List Emitted) (forward : ClockForward stream runs) :
    (∀ e ∈ (lifetimes host delay stream runs).2, stream <+: e.stream ∧ Judged e) ∧
      (lifetimes host delay stream runs).2.Pairwise fun a b =>
        a.stream ++ [a.event] <+: b.stream := by
  induction runs generalizing stream with
  | nil => exact ⟨fun e h => (by cases h), List.Pairwise.nil⟩
  | cons rounds later ih =>
    rw [ClockForward, List.flatMap_cons, ← List.append_assoc] at forward
    obtain ⟨readings, grown, exits⟩ := lifetime_spec host delay rounds .zero stream
      (List.pairwise_append.mp forward).1
    obtain ⟨good, chain⟩ := ih (lifetime host delay .zero stream rounds).1
      (forward.sublist (readings.append_right _))
    simp only [lifetimes]
    refine ⟨fun e member => ?_, List.pairwise_append.mpr ⟨?_, chain, fun a first b second => ?_⟩⟩
    · obtain now | then_ := List.mem_append.mp member
      · obtain ⟨-, before, judged⟩ := exits e (Option.mem_toList.mp now)
        exact ⟨before, judged⟩
      · obtain ⟨before, judged⟩ := good e then_
        exact ⟨grown.trans before, judged⟩
    · cases (lifetime host delay .zero stream rounds).2 with
      | none => exact List.Pairwise.nil
      | some e => exact List.pairwise_singleton _ _
    · obtain ⟨last, -⟩ := exits a (Option.mem_toList.mp first)
      exact last ▸ (good b second).1

/-- A `mem_loop` stamped less than two hours before another one's stamp is still in
the window that one was judged by. -/
theorem recent_of_close {e : Exit} {ev : Emitted} (judged : Judged e) (loop : ev.kind = memLoop)
    (close : e.event.stamped - ev.stamped < 7200000000) : recentLoop e.decided ev = true := by
  have later := stamped_bounds e.event
  have earlier := stamped_bounds ev
  have written := judged.written
  rw [recentLoop, loop, beq_self_eq_true, Bool.true_and]
  exact decide_eq_true (by omega)

/-- **Memory-loop restarts converge.**  Over every sequence of lifetimes on one log
directory whose clock never steps back, events of any kind in between: no three exits
with 71 have left their events within less than two hours; a memory-loop give-up
is 70 exactly when two `mem_loop` events are stamped in the last two hours, and after
more than two hours without one it is 71. -/
theorem mem_loop_restarts_converge (host : Host) (restartDelayS : Int) (stream : List Emitted)
    (runs : List (List Finished)) (forward : ClockForward stream runs) :
    (∀ a b c, [a, b, c].Sublist ((lifetimes host restartDelayS stream runs).2.filter
        fun e => e.code = memLoopExit) → 7200000000 ≤ c.event.stamped - a.event.stamped) ∧
    ∀ e ∈ (lifetimes host restartDelayS stream runs).2,
      e.code = memLoopExit ∨ e.code = memLoopPersistentExit →
        (e.code = memLoopPersistentExit ↔ 2 ≤ recentLoops e.decided e.stream) ∧
        ((∀ ev ∈ e.stream, ev.kind = memLoop →
          ev.stamped + 7200000000 < e.decided.1.instant) → e.code = memLoopExit) := by
  obtain ⟨good, chain⟩ := lifetimes_spec host restartDelayS runs stream forward
  constructor
  · intro a b c exits
    have member : ∀ e ∈ [a, b, c], Judged e ∧ e.code = 71 := by
      intro e here
      obtain ⟨held, code⟩ := List.mem_filter.mp (exits.subset here)
      exact ⟨(good e held).2, of_decide_eq_true code⟩
    obtain ⟨judgedA, codeA⟩ := member a (.head _)
    obtain ⟨judgedB, codeB⟩ := member b (.tail _ (.head _))
    obtain ⟨judgedC, codeC⟩ := member c (.tail _ (.tail _ (.head _)))
    have nested := chain.sublist (exits.trans List.filter_sublist)
    obtain ⟨first, second⟩ := List.pairwise_cons.mp nested
    have inB := first b (.head _)
    have inC := List.rel_of_pairwise_cons second (.head _)
    have pair : [a.event, b.event].Sublist c.stream := by
      refine List.Sublist.trans ?_ inC.sublist
      exact ((List.sublist_append_right _ _).trans inB.sublist).append (List.Sublist.refl [b.event])
    obtain ⟨loopA, loopB⟩ : a.event.kind = memLoop ∧ b.event.kind = memLoop := by
      obtain ⟨-, other⟩ | ⟨other, -⟩ | ⟨-, -, loopA⟩ := judgedA.exit
      · exact absurd codeA other
      · omega
      obtain ⟨-, other⟩ | ⟨other, -⟩ | ⟨-, -, loopB⟩ := judgedB.exit
      · exact absurd codeB other
      · omega
      exact ⟨loopA, loopB⟩
    have ordered : a.event.reading.instant ≤ b.event.reading.instant :=
      List.rel_of_pairwise_cons (judgedC.forward.sublist (pair.map _)) (.head _)
    by_contra close
    have recentA := recent_of_close judgedC loopA (not_le.mp close)
    have recentB := recent_of_close judgedC loopB (by
      have stampA := stamped_bounds a.event
      have stampB := stamped_bounds b.event
      omega)
    have two := (pair.filter (recentLoop c.decided)).length_le
    rw [List.filter_cons_of_pos recentA, List.filter_cons_of_pos recentB] at two
    obtain ⟨-, other⟩ | ⟨other, -⟩ | ⟨-, few, -⟩ := judgedC.exit
    · exact other codeC
    · omega
    · exact absurd few (Nat.not_lt.mpr two)
  · intro e member memory
    obtain ⟨other, other'⟩ | ⟨code, two⟩ | ⟨code, few, -⟩ := (good e member).2.exit
    · exact absurd memory (by rintro (h | h); exacts [other' h, other h])
    · refine ⟨iff_of_true code two, fun quiet => ?_⟩
      obtain ⟨ev, recent⟩ := List.exists_mem_of_length_pos (Nat.lt_of_lt_of_le Nat.two_pos two)
      obtain ⟨held, test⟩ := List.mem_filter.mp recent
      rw [recentLoop, Bool.and_eq_true, beq_iff_eq, decide_eq_true_eq] at test
      have past := quiet ev held test.1
      omega
    · exact ⟨iff_of_false (by rw [code]; decide) (Nat.not_le.mpr few), fun _ => code⟩

private theorem evening_valid : Valid 2026 1 31 23 0 0 0 (some 0) := by decide

private theorem nearMidnight_valid : Valid 2026 1 31 23 59 59 999999 (some 0) := by decide

private theorem afterMidnight_valid : Valid 2026 2 1 0 30 0 0 (some 0) := by decide

private theorem noon_valid : Valid 2026 2 1 12 0 0 0 (some 0) := by decide

def evening : Reading := ⟨⟨2026, 1, 31, 23, 0, 0, 0, some 0, evening_valid⟩, rfl⟩

def nearMidnight : Reading := ⟨⟨2026, 1, 31, 23, 59, 59, 999999, some 0, nearMidnight_valid⟩, rfl⟩

def afterMidnight : Reading := ⟨⟨2026, 2, 1, 0, 30, 0, 0, some 0, afterMidnight_valid⟩, rfl⟩

def noon : Reading := ⟨⟨2026, 2, 1, 12, 0, 0, 0, some 0, noon_valid⟩, rfl⟩

/-- A lifetime of five memory-terminated rounds, all at one reading. -/
def thrashing (at_ : Reading) : List Finished :=
  List.replicate 5
    { written := []
      returncode := 1
      durationS := 100
      throttleActive := true
      outcome := ⟨true, false, none, none, .empty, none, .empty, .empty, .empty⟩
      excused := fun _ => rfl
      decided := at_
      at_ := at_
      reason := "" }

def overnight : List (List Finished) := [evening, nearMidnight, afterMidnight, noon].map thrashing

/-- Three loops around midnight at a month's end, and one at noon. -/
theorem overnight_converges :
    (lifetimes bareHost 5 [] overnight).2.map Exit.code = [71, 71, 70, 71] ∧
    ∀ e ∈ (lifetimes bareHost 5 [] overnight).2, e.code = memLoopPersistentExit →
      2 ≤ recentLoops e.decided e.stream :=
  ⟨by decide +kernel, fun e member persistent =>
    ((mem_loop_restarts_converge bareHost 5 [] overnight (by unfold ClockForward; decide +kernel)).2
      e member (.inr persistent)).1.mp persistent⟩

end AgentRunner.MemLoopRestarts
