import AgentRunner.RelayLoop
import AgentRunner.TornTail

/-! What the relay loses and what it does not. After a drop the remote replays from
the newest stamp relayed, so a line still owed that is stamped earlier, or any line
at all when nothing was relayed yet, falls between the two connections. Where every
line owed lies in what the new connection will still come to, none is lost. -/
namespace AgentRunner.RelayGaps
open PyValue IsoTime EventFile EmittedEvents RemoteTail RelayLoop

/-! ## Reading an emitted event -/

theorem lineTs_event (e : Emitted) :
    lineTs e.event = some (isoMs e.reading, truncMs e.reading) := by
  simp only [lineTs, get_ts, parseIsoMs_isoMs e.reading e.utc]

theorem inKindSet_event (kinds : List String) (e : Emitted) :
    inKindSet kinds e.event = .ok (decide (e.kind ∈ kinds)) := by
  simp only [inKindSet, get_kind]

theorem matchesSince_event (kinds : List String) {since : Datetime} (aware : since.offset ≠ none)
    (e : Emitted) : matchesSince kinds since e.event =
      .ok (decide (e.kind ∈ kinds) && decide (since.instant ≤ e.stamped)) := by
  have utc : (truncMs e.reading).offset = some 0 := e.utc
  have kept : inUtc (truncMs e.reading) = truncMs e.reading := by
    rw [inUtc, dif_neg (by rw [utc]; exact Option.some_ne_none 0)]
  have both : (truncMs e.reading).isNaive = since.isNaive := by
    cases zone : since.offset with
    | none => exact absurd zone aware
    | some o => simp only [Datetime.isNaive, utc, zone, Option.isNone_some]
  simp only [matchesSince, inKindSet_event, get_ts, parseIsoMs_isoMs e.reading e.utc]
  by_cases wanted : e.kind ∈ kinds
  · simp [bind, Except.bind, wanted, kept, ge, both, Emitted.stamped]
    rfl
  · simp [bind, Except.bind, pure, Except.pure, wanted]

theorem selectLines_kinds (kinds : List String) (lines : List Line) :
    selectLines (inKindSet kinds) lines =
      .ok (lines.filter fun line => decide (line.event.kind ∈ kinds)) := by
  induction lines with
  | nil => rfl
  | cons line lines ih =>
    simp only [selectLines, inKindSet_event, ih, bind, Except.bind, pure, Except.pure,
      List.filter_cons]

theorem mem_linesFrom {log : RemoteLog} {month : String} {pos : Nat} {line : Line} :
    line ∈ linesFrom log month pos ↔
      line.month = month ∧ pos ≤ line.index ∧
        (log.content month)[line.index]? = some line.event := by
  rw [linesFrom, List.mem_map]
  constructor
  · rintro ⟨⟨event, index⟩, member, rfl⟩
    obtain ⟨at_, found⟩ := List.mem_iff_getElem?.mp member
    rw [List.getElem?_drop, List.getElem?_zipIdx, Option.map_eq_some_iff] at found
    obtain ⟨held, stands, same⟩ := found
    cases same
    exact ⟨rfl, by simp, by simpa using stands⟩
  · obtain ⟨_, index, event⟩ := line
    rintro ⟨rfl, later, stands⟩
    refine ⟨(event, index), List.mem_iff_getElem?.mpr ⟨index - pos, ?_⟩, rfl⟩
    have place : pos + (index - pos) = index := Nat.add_sub_cancel' later
    rw [List.getElem?_drop, List.getElem?_zipIdx, place]
    simpa using stands

/-! ## What a connection still comes to -/

/-- The replay from `since` takes the line in. -/
def covers (since : Datetime) (line : Line) : Bool :=
  decide (¬ line.month < monthOfDatetime since) && decide (since.instant ≤ line.event.stamped)

/-- The replay has still to reach the place of the line. -/
def replays (phase : Phase) (line : Line) : Bool :=
  match phase with
  | .connecting | .seeding _ _ => true
  | .replaying (month :: todo) pos _ _ =>
    decide (line.month ∈ todo) || (decide (line.month = month) && decide (pos ≤ line.index))
  | _ => false

/-- The line stands behind the offset its file is followed from. -/
def awaits (phase : Phase) (line : Line) : Bool :=
  match phase with
  | .connecting => false
  | .seeding todo offsets =>
    decide (line.month ∉ todo) && decide (offsets.getD line.month 0 ≤ line.index)
  | .replaying todo _ current offsets =>
    (decide (line.month ∉ todo) || decide (line.month ≠ current)) &&
      decide (offsets.getD line.month 0 ≤ line.index)
  | .following offsets | .polling _ _ offsets => decide (offsets.getD line.month 0 ≤ line.index)

/-- The file is one of those the next polls read. -/
def polls (phase : Phase) (newest : List String) (month : String) : Bool :=
  match phase with
  | .polling todo _ _ => decide (month ∈ todo) || decide (month ∈ newest)
  | _ => decide (month ∈ newest)

/-- The remote process will print the line, by replay or by following its file. -/
def coming (newest : List String) (r : Remote) (line : Line) : Bool :=
  (match r.since with
    | some since => covers since line && replays r.phase line
    | none => false) ||
  (awaits r.phase line && polls r.phase newest line.month)

/-- The lines a poll under way has read. -/
def found : Phase → List Line
  | .polling _ found _ => found
  | _ => []

/-! ## The condition -/

/-- The lines of a requested kind still owed: appended since a tail began to follow,
and not written. -/
def outstanding (kinds : List String) (s : System) : List Line :=
  s.due.filter fun line =>
    decide (line.event.kind ∈ kinds) && !(s.relay.out.map Line.place).contains line.place

/-- What a move must meet for no line to fall between two connections: at a
reconnect, each line owed is stamped at or after the newest stamp relayed; when the
replay begins, those stamped before it are not in the file of the host's clock; and
an append goes where the connection still comes to, and displaces no file from the
newest two while a line owed is unread in it. -/
def meets (kinds : List String) (s : System) : Move → Bool
  | .reconnect => (outstanding kinds s).all fun line =>
    match s.relay.last with
    | none => false
    | some (_, stamp) => covers (inUtc stamp) line
  | .remote current =>
    match s.link with
    | some ⟨⟨some since, .seeding [] _⟩, _⟩ =>
      (outstanding kinds s).all fun line => covers since line || decide (line.month ≠ current)
    | _ => true
  | .append e =>
    match s.link with
    | none => true
    | some link =>
      let newest := (s.log.append e).newest
      (!(s.began && decide (e.kind ∈ kinds)) ||
        coming newest link.remote ⟨e.month, s.log.size e.month, e⟩) &&
      (outstanding kinds s).all fun line =>
        !coming s.log.newest link.remote line || coming newest link.remote line
  | _ => true

/-- Every move of the run meets the condition. -/
def steady (kinds : List String) (toleranceS : ℚ) (s : System) : List Move → Bool
  | [] => true
  | move :: moves => meets kinds s move &&
    match s.step kinds toleranceS move with
    | none => true
    | some s' => steady kinds toleranceS s' moves

/-! ## A step of the remote process -/

/-- The line stands in the log where it says it does. -/
def Written (log : RemoteLog) (line : Line) : Prop :=
  (log.content line.month)[line.index]? = some line.event

def offsetsOf : Phase → Dict String Nat
  | .connecting => .empty
  | .seeding _ offsets | .replaying _ _ _ offsets | .following offsets | .polling _ _ offsets =>
    offsets

/-- The process has read no further than the files reach. -/
structure Sound (log : RemoteLog) (phase : Phase) : Prop where
  offsets : ∀ month, (offsetsOf phase).getD month 0 ≤ log.size month
  pos : ∀ month todo pos current offsets,
    phase = .replaying (month :: todo) pos current offsets → pos ≤ log.size month
  found : ∀ line ∈ found phase, Written log line

private theorem getD_set (offsets : Dict String Nat) (k j : String) (v : Nat) :
    (offsets.set k v).getD j 0 = if j = k then v else offsets.getD j 0 := by
  simp only [Dict.getD, Dict.get?_set]
  split <;> rfl

private theorem set_bounded {log : RemoteLog} {offsets : Dict String Nat} {pos : Nat} {k : String}
    (bounded : ∀ month, offsets.getD month 0 ≤ log.size month) (within : pos ≤ log.size k)
    (month : String) : (offsets.set k pos).getD month 0 ≤ log.size month := by
  rw [getD_set]
  split
  · rename_i same
    exact same ▸ within
  · exact bounded month

/-- One line read by the replay: it is printed if it is wanted and late enough. -/
theorem replay_line (kinds : List String) {since : Datetime} (aware : since.offset ≠ none)
    (line : Line) : selectLines (matchesSince kinds since) [line] =
      .ok (if line.event.kind ∈ kinds ∧ since.instant ≤ line.event.stamped then [line]
        else []) := by
  by_cases wanted : line.event.kind ∈ kinds <;>
    by_cases late : since.instant ≤ line.event.stamped <;>
      simp [selectLines, matchesSince_event kinds aware, bind, Except.bind, pure, Except.pure,
        wanted, late]

variable {kinds : List String} {log : RemoteLog} {current : String} {r : Remote} {phase : Phase}
  {printed : List Line}

section Replaying
variable {since : Datetime} {month now : String} {todo : List String} {pos : Nat}
  {offsets : Dict String Nat}

/-- A step of the replay reads the next line of a file, or leaves the file behind it. -/
theorem replaying_sound (aware : since.offset ≠ none)
    (sound : Sound log (.replaying (month :: todo) pos now offsets))
    (step : (Remote.mk (some since) (.replaying (month :: todo) pos now offsets)).step kinds log
      current = .ok (phase, printed)) :
    Sound log phase ∧ ∀ line ∈ printed, Written log line := by
  have nothing : ∀ line ∈ ([] : List Line), Written log line := List.forall_mem_nil _
  have left : ∀ n, n ≤ log.size month → Sound log
      (.replaying todo 0 now (if month = now then offsets.set month n else offsets)) := by
    intro n small
    refine ⟨fun other => ?_, fun _ _ _ _ _ h => (by cases h; exact Nat.zero_le _), nothing⟩
    rw [offsetsOf]
    split
    · exact set_bounded sound.offsets small other
    · exact sound.offsets other
  simp only [Remote.step] at step
  split at step
  · cases step
    exact ⟨left _ le_rfl, nothing⟩
  split at step
  · rename_i event stands
    rw [replay_line kinds aware] at step
    cases step
    have inside : pos < log.size month := (List.getElem?_eq_some_iff.mp stands).1
    refine ⟨⟨sound.offsets, fun _ _ _ _ _ h => (by cases h; exact inside), nothing⟩,
      fun line member => ?_⟩
    split at member
    · cases List.mem_singleton.mp member
      exact stands
    · cases member
  · cases step
    exact ⟨left pos (sound.pos month todo pos now offsets rfl), nothing⟩

end Replaying

/-- A step reads no further than the files reach, and prints what stands in them. -/
theorem step_sound (aware : ∀ since, r.since = some since → since.offset ≠ none)
    (sound : Sound log r.phase) (step : r.step kinds log current = .ok (phase, printed)) :
    Sound log phase ∧ ∀ line ∈ printed, Written log line := by
  obtain ⟨since, before⟩ := r
  have bounded := sound.offsets
  have nothing : ∀ line ∈ ([] : List Line), Written log line := List.forall_mem_nil _
  cases before with
  | connecting =>
    cases step
    exact ⟨⟨fun month => Nat.zero_le _, fun _ _ _ _ _ h => (by cases h), nothing⟩, nothing⟩
  | seeding todo offsets =>
    cases todo with
    | cons month todo =>
      cases step
      exact ⟨⟨set_bounded bounded le_rfl, fun _ _ _ _ _ h => (by cases h), nothing⟩, nothing⟩
    | nil =>
      cases since with
      | none =>
        cases step
        exact ⟨⟨bounded, fun _ _ _ _ _ h => (by cases h), nothing⟩, nothing⟩
      | some since =>
        cases step
        refine ⟨⟨bounded, fun _ _ _ _ _ h => ?_, nothing⟩, nothing⟩
        obtain ⟨-, rfl, -⟩ := Phase.replaying.inj h
        exact Nat.zero_le _
  | replaying todo pos now offsets =>
    cases todo with
    | nil =>
      cases step
      exact ⟨⟨bounded, fun _ _ _ _ _ h => (by cases h), nothing⟩, nothing⟩
    | cons month todo =>
      cases since with
      | none =>
        cases step
        exact ⟨⟨bounded, fun _ _ _ _ _ h => (by cases h), nothing⟩, nothing⟩
      | some since => exact replaying_sound (aware since rfl) sound step
  | following offsets =>
    cases step
    exact ⟨⟨bounded, fun _ _ _ _ _ h => (by cases h), nothing⟩, nothing⟩
  | polling todo read offsets =>
    cases todo with
    | cons month todo =>
      cases step
      refine ⟨⟨set_bounded bounded le_rfl, fun _ _ _ _ _ h => (by cases h), ?_⟩, nothing⟩
      intro line member
      obtain old | new := List.mem_append.mp member
      · exact sound.found line old
      · obtain ⟨same, -, stands⟩ := mem_linesFrom.mp new
        rw [← same] at stands
        exact stands
    | nil =>
      simp only [Remote.step, selectLines_kinds] at step
      cases step
      refine ⟨⟨bounded, fun _ _ _ _ _ h => (by cases h), nothing⟩, ?_⟩
      exact fun line member => sound.found line (List.mem_of_mem_filter member)

theorem Written.size {line : Line} (written : Written log line) :
    line.index < log.size line.month := (List.getElem?_eq_some_iff.mp written).1

theorem Written.listed {line : Line} (written : Written log line) : line.month ∈ log.names := by
  apply log.listed
  intro empty
  rw [Written, empty] at written
  cases written

private theorem replays_from_start (todo : List String) (now : String)
    (offsets : Dict String Nat) (line : Line) :
    replays (.replaying todo 0 now offsets) line = decide (line.month ∈ todo) := by
  cases todo with
  | nil => rfl
  | cons month todo => simp [replays, Bool.or_comm]

/-- The replay leaves a file behind: what it was still to reach there is none, and
the lines behind the file's offset stay behind it. -/
private theorem file_done {since : Datetime} {month now : String} {todo : List String} {n : Nat}
    {offsets : Dict String Nat} {line : Line} (newest : List String)
    (ahead : covers since line = true ∧ line.month ∈ todo ∨
      ((line.month ∉ month :: todo ∨ line.month ≠ now) ∧
        offsets.getD line.month 0 ≤ line.index) ∧ line.month ∈ newest) :
    coming newest ⟨some since, .replaying todo 0 now
      (if month = now then offsets.set month n else offsets)⟩ line = true := by
  simp only [coming, replays_from_start, awaits, polls, Bool.or_eq_true, Bool.and_eq_true,
    decide_eq_true_eq]
  simp only [List.mem_cons, not_or] at ahead
  refine ahead.imp id fun polled => ⟨⟨polled.1.1.imp And.right id, ?_⟩, polled.2⟩
  obtain ⟨⟨unread, behind⟩, -⟩ := polled
  split
  · rename_i same
    rw [getD_set, if_neg]
    · exact behind
    · rintro rfl
      exact unread.elim (fun other => other.1 rfl) fun other => other same
  · exact behind

section Forgetting
variable {since : Datetime} {month now : String} {todo : List String} {pos : Nat}
  {offsets : Dict String Nat} {line : Line} {read : List Line}

/-- Seeding a file takes its end for the offset, and the file as still to be replayed. -/
theorem seeding_coming {replay : Option Datetime} (newest : List String) (n : Nat)
    (ahead : coming newest ⟨replay, .seeding (month :: todo) offsets⟩ line = true) :
    coming newest ⟨replay, .seeding todo (offsets.set month n)⟩ line = true := by
  simp only [coming, replays, awaits, polls, Bool.or_eq_true, Bool.and_eq_true,
    decide_eq_true_eq] at ahead ⊢
  refine ahead.imp id fun ⟨⟨unseeded, behind⟩, polled⟩ => ?_
  rw [List.mem_cons, not_or] at unseeded
  rw [getD_set, if_neg unseeded.1]
  exact ⟨⟨unseeded.2, behind⟩, polled⟩

/-- Once all files are seeded, the replay begins with every file, and what it does not
cover is not in the one that is followed from its end. -/
theorem seeded_coming {names newest : List String} (listed : line.month ∈ names)
    (begins : covers since line = true ∨ line.month ≠ current)
    (ahead : coming newest ⟨some since, .seeding [] offsets⟩ line = true) :
    coming newest ⟨some since, .replaying names 0 current offsets⟩ line = true := by
  simp only [coming, replays, awaits, polls, Bool.or_eq_true, Bool.and_eq_true,
    decide_eq_true_eq, and_true] at ahead
  simp only [coming, replays_from_start, awaits, polls, Bool.or_eq_true, Bool.and_eq_true,
    decide_eq_true_eq]
  by_cases covered : covers since line = true
  · exact .inl ⟨covered, listed⟩
  · have elsewhere := begins.resolve_left covered
    obtain ⟨⟨-, behind⟩, polled⟩ := ahead.resolve_left covered
    exact .inr ⟨⟨.inr elsewhere, behind⟩, polled⟩

/-- The line that the replay reads is printed if it is wanted, and any other is still to
come. -/
theorem replaying_coming (aware : since.offset ≠ none)
    (step : (Remote.mk (some since) (.replaying (month :: todo) pos now offsets)).step kinds log
      current = .ok (phase, printed))
    (written : Written log line) (wanted : line.event.kind ∈ kinds)
    (ahead : coming log.newest ⟨some since, .replaying (month :: todo) pos now offsets⟩ line =
      true) :
    line ∈ printed ∨ coming log.newest ⟨some since, phase⟩ line = true := by
  simp only [coming, replays, awaits, polls, Bool.or_eq_true, Bool.and_eq_true,
    decide_eq_true_eq] at ahead
  simp only [Remote.step] at step
  split at step
  · rename_i early
    cases step
    refine .inr (file_done _ (ahead.imp (fun ⟨covered, place⟩ => ⟨covered, ?_⟩) id))
    refine place.resolve_right fun here => ?_
    simp only [covers, here.1, early, not_true_eq_false, decide_false, Bool.false_and,
      Bool.false_eq_true] at covered
  split at step
  · rename_i event stands
    rw [replay_line kinds aware] at step
    cases step
    by_cases here : line.month = month ∧ line.index = pos ∧ covers since line = true
    · obtain ⟨rfl, rfl, covered⟩ := here
      have same : line.event = event := Option.some.inj (written.symm.trans stands)
      subst same
      simp only [covers, Bool.and_eq_true, decide_eq_true_eq] at covered
      exact .inl (by rw [if_pos ⟨wanted, covered.2⟩]; exact List.mem_singleton_self _)
    · refine .inr ?_
      simp only [coming, replays, awaits, polls, Bool.or_eq_true, Bool.and_eq_true,
        decide_eq_true_eq]
      refine ahead.imp (fun ⟨covered, place⟩ => ⟨covered, place.imp id ?_⟩) id
      rintro ⟨same, reached⟩
      have past : line.index ≠ pos := fun at_ => here ⟨same, at_, covered⟩
      exact ⟨same, by omega⟩
  · rename_i ended
    cases step
    refine .inr (file_done _ (ahead.imp (fun ⟨covered, place⟩ => ⟨covered, ?_⟩) id))
    refine place.resolve_right fun ⟨here, reached⟩ => ?_
    have inside := written.size
    rw [here] at inside
    have beyond := List.getElem?_eq_none_iff.mp ended
    rw [RemoteLog.size] at inside
    omega

/-- A poll that reads a file has found the lines behind its offset, and leaves those of the
other files to come. -/
theorem polling_coming {replay : Option Datetime} (written : Written log line)
    (ahead : coming log.newest ⟨replay, .polling (month :: todo) read offsets⟩ line = true)
    {n : Nat} (start : n ≤ offsets.getD month 0) :
    line ∈ read ++ linesFrom log month n ∨
      coming log.newest ⟨replay, .polling todo (read ++ linesFrom log month n)
        (offsets.set month (log.size month))⟩ line = true := by
  have behind : offsets.getD line.month 0 ≤ line.index ∧
      (line.month = month ∨ line.month ∈ todo ∨ line.month ∈ log.newest) := by
    cases replay <;> simpa [coming, replays, awaits, polls, or_assoc] using ahead
  by_cases here : line.month = month
  · refine .inl (List.mem_append_right _ (mem_linesFrom.mpr ⟨here, ?_, here ▸ written⟩))
    rw [here] at behind
    exact start.trans behind.1
  · refine .inr ?_
    have unset := getD_set offsets month line.month (log.size month)
    rw [if_neg here] at unset
    cases replay <;>
      simpa [coming, replays, awaits, polls, unset, behind.1] using behind.2.resolve_left here

end Forgetting

/-- **A step forgets nothing.**  A wanted line that the process is still to print is
printed by its next step, or is still to be printed after it. -/
theorem step_coming (aware : ∀ since, r.since = some since → since.offset ≠ none)
    (sound : Sound log r.phase) (step : r.step kinds log current = .ok (phase, printed))
    {line : Line} (written : Written log line) (wanted : line.event.kind ∈ kinds)
    (begins : ∀ since offsets, r = ⟨some since, .seeding [] offsets⟩ →
      covers since line = true ∨ line.month ≠ current)
    (ahead : line ∈ found r.phase ∨ coming log.newest r line = true) :
    line ∈ printed ∨ line ∈ found phase ∨ coming log.newest ⟨r.since, phase⟩ line = true := by
  obtain ⟨since, before⟩ := r
  cases before with
  | connecting =>
    obtain held | coming' := ahead
    · cases held
    cases step
    cases since with
    | none => cases coming'
    | some since =>
      simp only [coming, replays, awaits, Bool.and_true, Bool.false_and, Bool.or_false] at coming'
      simp only [coming, replays, coming', Bool.and_true, Bool.true_or, or_true]
  | seeding todo offsets =>
    obtain held | coming' := ahead
    · cases held
    cases todo with
    | cons month todo =>
      cases step
      exact .inr (.inr (seeding_coming _ _ coming'))
    | nil =>
      cases since with
      | none =>
        cases step
        exact .inr (.inr (by simpa [coming, awaits, polls] using coming'))
      | some since =>
        cases step
        exact .inr (.inr (seeded_coming written.listed (begins since offsets rfl) coming'))
  | replaying todo pos now offsets =>
    obtain held | coming' := ahead
    · cases held
    cases todo with
    | nil =>
      cases step
      refine .inr (.inr ?_)
      cases since <;> simpa [coming, replays, awaits, polls] using coming'
    | cons month todo =>
      cases since with
      | none =>
        cases step
        simp only [coming, awaits, polls, Bool.false_or, Bool.and_eq_true,
          decide_eq_true_eq] at coming'
        simp [coming, awaits, polls, coming'.1.2, coming'.2]
      | some since =>
        exact (replaying_coming (aware since rfl) step written wanted coming').imp_right .inr
  | following offsets =>
    obtain held | coming' := ahead
    · cases held
    cases step
    refine .inr (.inr ?_)
    cases since <;> simp_all [coming, replays, awaits, polls]
  | polling todo read offsets =>
    cases todo with
    | nil =>
      simp only [Remote.step, selectLines_kinds] at step
      cases step
      obtain held | coming' := ahead
      · exact .inl (List.mem_filter.mpr ⟨held, decide_eq_true wanted⟩)
      · refine .inr (.inr ?_)
        cases since <;> simpa [coming, replays, awaits, polls] using coming'
    | cons month todo =>
      cases step
      obtain held | coming' := ahead
      · exact .inr (.inl (List.mem_append_left _ held))
      have small : offsets.getD month 0 ≤ log.size month := sound.offsets month
      refine .inr (polling_coming written coming' ?_)
      rw [if_neg (Nat.not_lt.mpr small)]

/-! ## A move of the system -/

theorem content_append (log : RemoteLog) (e : Emitted) (month : String) :
    (log.append e).content month =
      if month = e.month then log.content e.month ++ [e] else log.content month := by
  rw [RemoteLog.append]
  dsimp only
  split
  · rename_i same
    rw [same, Function.update_self]
  · rename_i other
    rw [Function.update_of_ne other]

theorem Written.append {log : RemoteLog} {line : Line} (written : Written log line) (e : Emitted) :
    Written (log.append e) line := by
  rw [Written, content_append]
  split
  · rename_i same
    rw [← same, List.getElem?_append_left written.size]
    exact written
  · exact written

theorem written_new (log : RemoteLog) (e : Emitted) :
    Written (log.append e) ⟨e.month, log.size e.month, e⟩ := by
  simp [Written, content_append, RemoteLog.size]

theorem size_append (log : RemoteLog) (e : Emitted) (month : String) :
    log.size month ≤ (log.append e).size month := by
  rw [RemoteLog.size, RemoteLog.size, content_append]
  split
  · rename_i same
    rw [same, List.length_append]
    exact Nat.le_add_right _ _
  · exact le_rfl

theorem Sound.append {log : RemoteLog} {phase : Phase} (sound : Sound log phase) (e : Emitted) :
    Sound (log.append e) phase where
  offsets month := (sound.offsets month).trans (size_append log e month)
  pos month todo pos current offsets h :=
    (sound.pos month todo pos current offsets h).trans (size_append log e month)
  found line member := (sound.found line member).append e

/-- The line is written to the output, or the connection still has it to bring. -/
def Owed (s : System) (line : Line) : Prop :=
  line ∈ s.relay.out ∨ ∀ link ∈ s.link,
    line ∈ link.pipe ∨ line ∈ found link.remote.phase ∨
      coming s.log.newest link.remote line = true

/-- What every move of a steady run keeps. -/
structure Kept (kinds : List String) (s : System) : Prop where
  due : ∀ line ∈ s.due, Written s.log line
  out : ∀ line ∈ s.relay.out, Written s.log line
  pipe : ∀ link ∈ s.link, ∀ line ∈ link.pipe, Written s.log line
  sound : ∀ link ∈ s.link, Sound s.log link.remote.phase
  aware : ∀ link ∈ s.link, ∀ since, link.remote.since = some since → since.offset ≠ none
  resume : ∀ ts stamp, s.relay.last = some (ts, stamp) →
    parseIsoMs (.str ts) = .ok stamp ∧ stamp.offset ≠ none
  owed : ∀ line ∈ s.due, line.event.kind ∈ kinds → Owed s line

/-- A line at its place is the only one there. -/
theorem Written.unique {log : RemoteLog} {line other : Line} (written : Written log line)
    (there : Written log other) (same : line.place = other.place) : line = other := by
  obtain ⟨month, index, event⟩ := line
  obtain ⟨month', index', event'⟩ := other
  obtain ⟨rfl, rfl⟩ := Prod.mk.inj same
  cases Option.some.inj (written.symm.trans there)
  rfl

/-- A line of a requested kind that is not outstanding has been written. -/
theorem Kept.outstanding_or_out {kinds : List String} {s : System} (kept : Kept kinds s)
    {line : Line} (member : line ∈ s.due) (wanted : line.event.kind ∈ kinds) :
    line ∈ outstanding kinds s ∨ line ∈ s.relay.out := by
  by_cases at_ : line.place ∈ s.relay.out.map Line.place
  · obtain ⟨other, there, same⟩ := List.mem_map.mp at_
    exact .inr ((kept.due line member).unique (kept.out other there) same.symm ▸ there)
  · refine .inl (List.mem_filter.mpr ⟨member, ?_⟩)
    simp only [wanted, decide_true, Bool.true_and, Bool.not_eq_true', List.contains_eq_mem, at_,
      decide_false]

/-- The stamp relayed last stays one that parses. -/
theorem onLine_kept {r r' : Relay} {line : Line} (step : r.onLine line = .ok r')
    (resume : ∀ ts stamp, r.last = some (ts, stamp) →
      parseIsoMs (.str ts) = .ok stamp ∧ stamp.offset ≠ none) :
    r'.out = r.out ++ [line] ∧ ∀ ts stamp, r'.last = some (ts, stamp) →
      parseIsoMs (.str ts) = .ok stamp ∧ stamp.offset ≠ none := by
  have utc : (truncMs line.event.reading).offset = some 0 := line.event.utc
  have fresh : parseIsoMs (.str (isoMs line.event.reading)) = .ok (truncMs line.event.reading) ∧
      (truncMs line.event.reading).offset ≠ none :=
    ⟨parseIsoMs_isoMs _ line.event.utc, by rw [utc]; exact Option.some_ne_none 0⟩
  simp only [Relay.onLine, lineTs_event] at step
  cases held : r.last with
  | none =>
    rw [held] at step
    cases step
    refine ⟨rfl, fun ts stamp same => ?_⟩
    cases same
    exact fresh
  | some last =>
    simp only [held, lt, bind, Except.bind, pure, Except.pure] at step
    split at step
    · cases step
    · cases step
      refine ⟨rfl, fun ts stamp same => ?_⟩
      have chosen := Option.some.inj same
      split at chosen
      · cases chosen
        exact fresh
      · exact resume ts stamp (held.trans (congrArg some chosen))

theorem Kept.append {kinds : List String} {s : System} {e : Emitted} (kept : Kept kinds s)
    (met : meets kinds s (.append e) = true) :
    Kept kinds { s with
      log := s.log.append e
      due := if s.began then s.due ++ [⟨e.month, s.log.size e.month, e⟩] else s.due } := by
  have added : ∀ line ∈ (if s.began then s.due ++ [⟨e.month, s.log.size e.month, e⟩] else s.due),
      line ∈ s.due ∨ s.began = true ∧ line = ⟨e.month, s.log.size e.month, e⟩ := by
    intro line member
    split at member
    · rename_i began
      exact (List.mem_append.mp member).imp id fun new => ⟨began, List.mem_singleton.mp new⟩
    · exact .inl member
  refine ⟨fun line member => ?_, fun line member => (kept.out line member).append e,
    fun link up line member => (kept.pipe link up line member).append e,
    fun link up => (kept.sound link up).append e, kept.aware, kept.resume,
    fun line member wanted => ?_⟩
  · obtain old | ⟨-, rfl⟩ := added line member
    · exact (kept.due line old).append e
    · exact written_new s.log e
  cases up : s.link with
  | none => exact .inr fun link other => (by cases other)
  | some link =>
    simp only [meets, up, Bool.and_eq_true, Bool.or_eq_true, Bool.not_eq_true',
      List.all_eq_true] at met
    obtain old | ⟨began, rfl⟩ := added line member
    · obtain owed | written := kept.outstanding_or_out old wanted
      · obtain written | ahead := kept.owed line old wanted
        · exact .inl written
        refine .inr fun other same => ?_
        cases same
        refine (ahead link up).imp id (Or.imp id fun coming' => ?_)
        exact (met.2 line owed).resolve_left (by rw [coming']; exact Bool.true_eq_false_eq_False)
      · exact .inl written
    · refine .inr fun other same => .inr (.inr ?_)
      cases same
      refine met.1.resolve_left ?_
      rw [began, decide_eq_true wanted]
      exact Bool.noConfusion

theorem Kept.remote {kinds : List String} {s : System} {link : Link} {current : String}
    {phase : Phase} {printed : List Line} (kept : Kept kinds s) (up : s.link = some link)
    (step : link.remote.step kinds s.log current = .ok (phase, printed))
    (met : meets kinds s (.remote current) = true) :
    Kept kinds { s with
      link := some ⟨{ link.remote with phase := phase }, link.pipe ++ printed⟩
      began := s.began || Phase.follows phase } := by
  obtain ⟨sound, genuine⟩ := step_sound (kept.aware link up) (kept.sound link up) step
  refine ⟨kept.due, kept.out, fun _ same => ?_, fun _ same => ?_, fun _ same => ?_, kept.resume,
    fun line member wanted => ?_⟩
  · cases same
    exact fun line member => (List.mem_append.mp member).elim (kept.pipe link up line)
      (genuine line)
  · cases same
    exact sound
  · cases same
    exact kept.aware link up
  obtain owed | written := kept.outstanding_or_out member wanted
  · obtain written | ahead := kept.owed line member wanted
    · exact .inl written
    refine .inr fun _ same => ?_
    cases same
    obtain piped | ahead := ahead link up
    · exact .inl (List.mem_append_left _ piped)
    have begins : ∀ since offsets, link.remote = ⟨some since, .seeding [] offsets⟩ →
        covers since line = true ∨ line.month ≠ current := by
      intro since offsets same
      obtain ⟨remote, pipe⟩ := link
      cases same
      simp only [meets, up, List.all_eq_true, Bool.or_eq_true, decide_eq_true_eq] at met
      exact met line owed
    exact (step_coming (kept.aware link up) (kept.sound link up) step (kept.due line member)
      wanted begins ahead).imp (List.mem_append_right _) id
  · exact .inl written

theorem Kept.deliver {kinds : List String} {s : System} {remote : Remote} {line : Line}
    {pipe : List Line} {relay : Relay} (kept : Kept kinds s)
    (up : s.link = some ⟨remote, line :: pipe⟩) (step : s.relay.onLine line = .ok relay) :
    Kept kinds { s with relay := relay, link := some ⟨remote, pipe⟩ } := by
  obtain ⟨out, resume⟩ := onLine_kept step kept.resume
  refine ⟨kept.due, fun other member => ?_, fun _ same => ?_, fun _ same => ?_, fun _ same => ?_,
    resume, fun other member wanted => ?_⟩
  · rw [out] at member
    obtain old | new := List.mem_append.mp member
    · exact kept.out other old
    · cases List.mem_singleton.mp new
      exact kept.pipe _ up _ (.head _)
  · cases same
    exact fun other member => kept.pipe _ up other (.tail _ member)
  · cases same
    exact kept.sound ⟨remote, line :: pipe⟩ up
  · cases same
    exact kept.aware ⟨remote, line :: pipe⟩ up
  · rw [Owed, out]
    obtain written | ahead := kept.owed other member wanted
    · exact .inl (List.mem_append_left _ written)
    · obtain piped | ahead := ahead _ up
      · obtain rfl | later := List.mem_cons.mp piped
        · exact .inl (List.mem_append_right _ (List.mem_singleton_self _))
        · exact .inr fun _ same => (by cases same; exact .inl later)
      · exact .inr fun _ same => (by cases same; exact .inr ahead)

theorem Kept.reconnect {kinds : List String} {s : System} {link : Link} (kept : Kept kinds s)
    (connected : connect s.relay.last = some link) (met : meets kinds s .reconnect = true) :
    Kept kinds { s with link := some link } := by
  have shape : link.pipe = [] ∧ link.remote.phase = .connecting ∧
      (∀ since, link.remote.since = some since → since.offset ≠ none) ∧
      ∀ ts stamp, s.relay.last = some (ts, stamp) → link.remote.since = some (inUtc stamp) := by
    cases last : s.relay.last with
    | none =>
      rw [last] at connected
      cases connected
      exact ⟨rfl, rfl, fun _ h => (by cases h), fun _ _ h => (by cases h)⟩
    | some last' =>
      obtain ⟨ts, stamp⟩ := last'
      obtain ⟨parses, aware⟩ := kept.resume ts stamp last
      simp only [last, connect, parses] at connected
      cases connected
      have kept' : inUtc stamp = stamp := by rw [inUtc, dif_neg aware]
      refine ⟨rfl, rfl, fun since h => ?_, fun _ _ h => ?_⟩
      · cases h
        rw [kept']
        exact aware
      · cases h
        rfl
  obtain ⟨pipe, phase, aware, since⟩ := shape
  refine ⟨kept.due, kept.out, fun _ same => ?_, fun _ same => ?_, fun _ same => ?_, kept.resume,
    fun line member wanted => ?_⟩
  · cases same
    rw [pipe]
    exact fun line member => (by cases member)
  · cases same
    rw [phase]
    exact ⟨fun _ => Nat.zero_le _, fun _ _ _ _ _ h => (by cases h), fun _ h => (by cases h)⟩
  · cases same
    exact aware
  obtain owed | written := kept.outstanding_or_out member wanted
  · refine .inr fun _ same => .inr (.inr ?_)
    cases same
    have covered := List.all_eq_true.mp met line owed
    cases last : s.relay.last with
    | none =>
      rw [last] at covered
      cases covered
    | some last' =>
      obtain ⟨ts, stamp⟩ := last'
      rw [last] at covered
      simp only [coming, since ts stamp last, phase, replays, Bool.and_true, covered, Bool.true_or]
  · exact .inl written

/-- An ssh exit leaves the output and the resume stamp as they are. -/
private theorem onExit_kept (r : Relay) (toleranceS now : ℚ) :
    (r.onExit toleranceS now).1.out = r.out ∧ (r.onExit toleranceS now).1.last = r.last := by
  unfold Relay.onExit
  constructor <;> dsimp only <;> split <;> rfl

private theorem torn_kept (r : Relay) (torn : Bool) :
    (if torn then r.onTorn else r).out = r.out ∧ (if torn then r.onTorn else r).last = r.last := by
  cases torn <;> exact ⟨rfl, rfl⟩

/-- Every move that meets the condition keeps what is kept. -/
theorem Kept.step {kinds : List String} {toleranceS : ℚ} {s s' : System} {move : Move}
    (kept : Kept kinds s) (met : meets kinds s move = true)
    (step : s.step kinds toleranceS move = some s') : Kept kinds s' := by
  cases move with
  | append e =>
    cases step
    exact kept.append met
  | remote current =>
    cases up : s.link with
    | none => simp only [System.step, up, reduceCtorEq] at step
    | some link =>
      simp only [System.step, up] at step
      split at step
      · cases step
      · rename_i phase printed stepped
        cases step
        exact kept.remote up stepped met
  | deliver =>
    simp only [System.step] at step
    split at step
    · rename_i remote line pipe up
      split at step
      · cases step
      · rename_i relay stepped
        cases step
        exact kept.deliver up stepped
    · cases step
  | drop torn now =>
    cases up : s.link with
    | none => simp only [System.step, up, reduceCtorEq] at step
    | some link =>
      simp only [System.step, up] at step
      split at step
      · cases step
      have same := onExit_kept (if torn then s.relay.onTorn else s.relay) toleranceS now
      rw [(torn_kept s.relay torn).1, (torn_kept s.relay torn).2] at same
      split at step
      · rename_i relay _ exited
        cases step
        rw [exited] at same
        refine ⟨kept.due, same.1 ▸ kept.out, fun _ h => (by cases h), fun _ h => (by cases h),
          fun _ h => (by cases h), same.2 ▸ kept.resume, fun _ _ _ => .inr fun _ h => (by cases h)⟩
      · cases step
  | reconnect =>
    cases up : s.link with
    | some link => simp only [System.step, up, reduceCtorEq] at step
    | none =>
      simp only [System.step, up, Option.map_eq_some_iff] at step
      obtain ⟨link, connected, rfl⟩ := step
      exact kept.reconnect connected met

/-- What a move keeps, a run keeps. -/
theorem Kept.run {kinds : List String} {toleranceS : ℚ} (moves : List Move) {s s' : System}
    (kept : Kept kinds s) (met : steady kinds toleranceS s moves = true)
    (ran : run kinds toleranceS s moves = some s') : Kept kinds s' := by
  induction moves generalizing s with
  | nil =>
    cases ran
    exact kept
  | cons move moves ih =>
    rw [steady, Bool.and_eq_true] at met
    rw [RelayLoop.run, List.foldlM_cons] at ran
    obtain ⟨next, stepped, rest⟩ := Option.bind_eq_some_iff.mp ran
    rw [stepped] at met
    exact ih (kept.step met.1 stepped) met.2 rest

theorem kept_start (kinds : List String) (log : RemoteLog) : Kept kinds (start log) where
  due _ member := by cases member
  out _ member := by cases member
  pipe link up line member := by
    cases up
    cases member
  sound link up := by
    cases up
    exact ⟨fun _ => Nat.zero_le _, fun _ _ _ _ _ h => (by cases h), fun _ h => (by cases h)⟩
  aware link up since h := by
    cases up
    cases h
  resume _ _ h := by cases h
  owed _ member := by cases member

/-- **Nothing falls between two connections of a steady run.**  For every log of the
remote host, every interleaving of appends, steps of the remote process, deliveries,
drops and reconnects whose moves meet the condition: once the last connection has
replayed and caught up, each event of a requested kind appended since the first tail
began to follow has been written to the output. -/
theorem steady_relay_loses_nothing (kinds : List String) (toleranceS : ℚ) (log : RemoteLog)
    (moves : List Move) (s : System) (ran : run kinds toleranceS (start log) moves = some s)
    (met : steady kinds toleranceS (start log) moves = true) (caughtUp : CaughtUp s) :
    NothingLost kinds s := by
  have kept := (kept_start kinds log).run moves met ran
  intro line member wanted
  obtain ⟨remote, offsets, up, follows, read⟩ := caughtUp
  obtain written | ahead := kept.owed line member wanted
  · exact written
  exfalso
  obtain piped | held | coming' := ahead _ up
  · cases piped
  · rw [follows] at held
    cases held
  · have inside := (kept.due line member).size
    have behind : offsets.getD line.month 0 ≤ line.index ∧ line.month ∈ s.log.newest := by
      simp only [coming, follows, replays, awaits, polls, Bool.and_false, Bool.or_eq_true,
        Bool.and_eq_true, decide_eq_true_eq] at coming'
      split at coming' <;> simpa using coming'
    exact absurd (read line.month behind.2) (by omega)

/-- `CaughtUp`, as a test. -/
def caughtUp (s : System) : Bool :=
  match s.link with
  | some ⟨⟨_, .following offsets⟩, []⟩ =>
    s.log.newest.all fun month => decide (s.log.size month ≤ offsets.getD month 0)
  | _ => false

theorem caughtUp_iff (s : System) : caughtUp s = true ↔ CaughtUp s := by
  unfold caughtUp
  constructor
  · intro test
    split at test
    · rename_i since offsets up
      exact ⟨_, offsets, up, rfl, fun month member =>
        of_decide_eq_true (List.all_eq_true.mp test month member)⟩
    · cases test
  · rintro ⟨⟨since, phase⟩, offsets, up, rfl, read⟩
    rw [up]
    exact List.all_eq_true.mpr fun month member => decide_eq_true (read month member)

/-- A run that ends, and ends as tested. -/
private theorem ends_as {kinds : List String} {toleranceS : ℚ} {log : RemoteLog}
    {moves : List Move} {test : System → Bool}
    (ends : ((run kinds toleranceS (start log) moves).map test).getD false = true) :
    ∃ s, run kinds toleranceS (start log) moves = some s ∧ test s = true := by
  cases ran : run kinds toleranceS (start log) moves with
  | none =>
    rw [ran] at ends
    cases ends
  | some s =>
    rw [ran] at ends
    exact ⟨s, rfl, ends⟩

/-- An event stamped at the start of 2026. -/
def gaveUp : Emitted where
  reading := TornTail.newYear
  utc := rfl
  kind := "gave_up"
  fields := []
  plain _ member := by cases member

/-- One event relayed, the link dropped, one event appended, the link back. -/
def relayed : List Move :=
  .remote "2026-01" :: .remote "2026-01" :: .append gaveUp ::
  List.replicate 3 (.remote "2026-01") ++ [.deliver, .drop false 0, .append gaveUp, .reconnect] ++
  List.replicate 7 (.remote "2026-01") ++ [.deliver, .deliver]

theorem both_relayed : ∃ s, run ["gave_up"] 90 (start .empty) relayed = some s ∧
    s.due.length = 2 ∧ NothingLost ["gave_up"] s := by
  obtain ⟨s, ran, test⟩ : ∃ s, run ["gave_up"] 90 (start .empty) relayed = some s ∧
      (caughtUp s && s.due.length == 2) = true := ends_as (by decide +kernel)
  rw [Bool.and_eq_true, beq_iff_eq] at test
  exact ⟨s, ran, test.2, steady_relay_loses_nothing _ _ _ _ s ran (by decide +kernel)
    ((caughtUp_iff s).mp test.1)⟩

/-- The link drops before anything was relayed, and an event is appended before it
is back. -/
def blipped : List Move :=
  List.replicate 2 (.remote "2026-01") ++ [.drop false 0, .append gaveUp, .reconnect] ++
  List.replicate 3 (.remote "2026-01")

/-- The relay has no stamp to resume from: the second tail begins at the end of the
file, past the event, and catches up without it. -/
theorem blip_loses_event : ∃ s, run ["gave_up"] 90 (start .empty) blipped = some s ∧
    CaughtUp s ∧ ¬ NothingLost ["gave_up"] s := by
  obtain ⟨s, ran, test⟩ : ∃ s, run ["gave_up"] 90 (start .empty) blipped = some s ∧
      (caughtUp s && s.relay.out.isEmpty && s.due.any fun line =>
        decide (line.event.kind ∈ ["gave_up"])) = true := ends_as (by decide +kernel)
  simp only [Bool.and_eq_true, decide_eq_true_eq, List.isEmpty_iff, List.any_eq_true] at test
  obtain ⟨⟨read, nothing⟩, line, member, wanted⟩ := test
  refine ⟨s, ran, (caughtUp_iff s).mp read, fun kept => ?_⟩
  have written := kept line member wanted
  rw [nothing] at written
  cases written

end AgentRunner.RelayGaps
