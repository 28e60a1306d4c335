import AgentRunner.RelayGaps
import AgentRunner.Runs

/-! The hand-over of `events --tail --since` from its replay to the follow loop, while
writers append between any two of its steps. No line is lost; a line is printed twice where
it was appended to a file that the replay does not take for the current one, after the file
was seeded and before the replay had read it. -/
namespace AgentRunner.ReplayHandoff
open IsoTime EventFile EmittedEvents RemoteTail RelayGaps Runs

/-- The host's log, one `events --tail --since` and its output. Recorded beside them: the
month the replay takes for the current one, and the places of the lines appended to a file
whose offset is set while the replay has yet to read it to the end. -/
structure Tailed where
  log : RemoteLog
  process : Remote
  out : List Line
  live : Option String
  overtaken : List (String × Nat)

/-- A writer appends an event, or the process takes a step while the clock is in a month. -/
inductive Move where
  | append (e : Emitted)
  | read (current : String)

/-- The file's offset is set, and the replay has yet to read it to the end. -/
def exposed (phase : Phase) (month : String) : Bool :=
  match phase with
  | .seeding todo _ => decide (month ∉ todo)
  | .replaying todo _ _ _ => decide (month ∈ todo)
  | _ => false

/-- The month the replay takes for the current one, from the step that lists the files. -/
def listed (phase : Phase) (current : String) (live : Option String) : Option String :=
  match phase with
  | .seeding [] _ => some current
  | _ => live

def Tailed.step (kinds : List String) (s : Tailed) : Move → Option Tailed
  | .append e => some { s with
      log := s.log.append e
      overtaken := if exposed s.process.phase e.month then
        s.overtaken ++ [(e.month, s.log.size e.month)] else s.overtaken }
  | .read current =>
    match s.process.step kinds s.log current with
    | .error _ => none
    | .ok (phase, printed) => some { s with
        process := { s.process with phase := phase }
        out := s.out ++ printed
        live := listed s.process.phase current s.live }

/-- `events --tail --since` begins on a host with some log; a naive `--since` is in UTC. -/
def begin (log : RemoteLog) (since : Datetime) : Tailed :=
  ⟨log, ⟨some (inUtc since), .connecting⟩, [], none, []⟩

/-- The process follows, and has read all there is in the newest two files. -/
def CaughtUp (s : Tailed) : Prop :=
  ∃ offsets, s.process.phase = .following offsets ∧
    ∀ month ∈ s.log.newest, s.log.size month ≤ offsets.getD month 0

/-- How often the line at a place occurs. -/
def countAt (lines : List Line) (place : String × Nat) : ℕ :=
  lines.countP fun other => decide (other.place = place)

/-- How often a line has been printed. -/
def printed (s : Tailed) (line : Line) : ℕ := countAt s.out line.place

/-- The line was overtaken in a file the replay does not seed. -/
def Doubled (s : Tailed) (line : Line) : Prop :=
  line.place ∈ s.overtaken ∧ s.live ≠ some line.month

instance (s : Tailed) (line : Line) : Decidable (Doubled s line) :=
  inferInstanceAs (Decidable (_ ∧ _))

/-! ## What the steps keep -/

theorem inUtc_aware (d : Datetime) : (inUtc d).offset ≠ none := by
  unfold inUtc
  split
  · simp [asUtc]
  · assumption

theorem names_append (log : RemoteLog) (e : Emitted) : (log.append e).names =
    if e.month ∈ log.names then log.names else log.names.orderedInsert (· ≤ ·) e.month := rfl

theorem nodup_append {log : RemoteLog} (distinct : log.names.Nodup) (e : Emitted) :
    (log.append e).names.Nodup := by
  rw [names_append]
  split
  · exact distinct
  · rename_i new
    exact (List.perm_orderedInsert _ _ _).nodup_iff.mpr (List.nodup_cons.mpr ⟨new, distinct⟩)

/-- Inserting an entry moves no other into the last two. -/
theorem mem_drop_insert {α : Type} {left right : List α} {a b : α} (other : b ≠ a)
    (member : b ∈ (left ++ a :: right).drop ((left ++ a :: right).length - 2)) :
    b ∈ (left ++ right).drop ((left ++ right).length - 2) := by
  obtain ⟨i, found⟩ := List.mem_iff_getElem?.mp member
  rw [List.getElem?_drop] at found
  have inside := (List.getElem?_eq_some_iff.mp found).1
  simp only [List.length_append, List.length_cons] at found inside
  have place : ∀ j, left.length + right.length - 2 ≤ j → (left ++ right)[j]? = some b →
      b ∈ (left ++ right).drop ((left ++ right).length - 2) := by
    intro j late here
    rw [List.mem_iff_getElem?]
    refine ⟨j - ((left ++ right).length - 2), ?_⟩
    rw [List.getElem?_drop, ← here, List.length_append]
    congr 1
    omega
  obtain before | at_ | after :=
    lt_trichotomy (left.length + (right.length + 1) - 2 + i) left.length
  · rw [List.getElem?_append_left before] at found
    exact place _ (by omega) ((List.getElem?_append_left before).trans found)
  · rw [at_, List.getElem?_append_right le_rfl, Nat.sub_self] at found
    exact absurd (Option.some.inj found).symm other
  · rw [List.getElem?_append_right after.le, List.getElem?_cons, if_neg (by omega)] at found
    refine place (left.length + (right.length + 1) - 2 + i - 1) (by omega) ?_
    rw [List.getElem?_append_right (by omega), ← found]
    congr 1
    omega

/-- A file that is still among the newest two after an append was among them before. -/
theorem newest_append {log : RemoteLog} {e : Emitted} {month : String}
    (known : month ∈ log.names) (member : month ∈ (log.append e).newest) :
    month ∈ log.newest := by
  rw [RemoteLog.newest, names_append] at member
  rw [RemoteLog.newest]
  split at member
  · exact member
  · rename_i new
    rw [List.orderedInsert_eq_take_drop] at member
    have whole := List.takeWhile_append_dropWhile (p := fun b => !decide (e.month ≤ b))
      (l := log.names)
    have kept := mem_drop_insert (by rintro rfl; exact new known) member
    simpa [whole] using kept

/-! ## How often a line is printed -/

/-- The line lies behind the offset of its file, and the follow loop has passed it. -/
def followed (offsets : Dict String Nat) (line : Line) : ℕ :=
  if line.index < offsets.getD line.month 0 then 1 else 0

def doubled (s : Tailed) (line : Line) : ℕ := if Doubled s line then 1 else 0

/-- Where the process stands, the times a wanted line has been printed so far. -/
def Accounted (s : Tailed) (line : Line) : Prop :=
  match s.process.phase with
  | .connecting => printed s line = 0 ∧ line.place ∉ s.overtaken
  | .seeding todo offsets => printed s line = 0 ∧
      (line.place ∈ s.overtaken ↔ line.month ∉ todo ∧ offsets.getD line.month 0 ≤ line.index)
  | .replaying todo pos _ offsets =>
    if line.month ∈ todo then
      printed s line = (if todo.head? = some line.month ∧ line.index < pos then 1 else 0) ∧
        (line.place ∈ s.overtaken ↔ offsets.getD line.month 0 ≤ line.index)
    else printed s line = followed offsets line + doubled s line
  | .following offsets => printed s line = followed offsets line + doubled s line
  | .polling _ read offsets =>
    printed s line + countAt read line.place =
      followed offsets line + doubled s line

/-- What every step keeps. -/
structure Handed (kinds : List String) (since : Datetime) (s : Tailed) : Prop where
  distinct : s.log.names.Nodup
  since_eq : s.process.since = some (inUtc since)
  sound : Sound s.log s.process.phase
  out : ∀ line ∈ s.out, Written s.log line
  marked : ∀ place ∈ s.overtaken, place.2 < s.log.size place.1
  replay : ∀ todo pos current offsets, s.process.phase = .replaying todo pos current offsets →
    todo.Nodup ∧ s.live = some current
  accounted : ∀ line, Written s.log line → line.event.kind ∈ kinds →
    covers (inUtc since) line = true → line.month ∈ s.log.newest → Accounted s line

variable {kinds : List String} {since : Datetime} {s t : Tailed} {line : Line}

theorem handed_begin (kinds : List String) (since : Datetime) {log : RemoteLog}
    (distinct : log.names.Nodup) : Handed kinds since (begin log since) where
  distinct := distinct
  since_eq := rfl
  sound := ⟨fun _ => Nat.zero_le _, fun _ _ _ _ _ h => (by cases h), fun _ h => (by cases h)⟩
  out _ h := by cases h
  marked _ h := by cases h
  replay _ _ _ _ h := by cases h
  accounted _ _ _ _ _ := ⟨rfl, by simp [begin]⟩

theorem count_below {log : RemoteLog} {lines : List Line}
    (written : ∀ other ∈ lines, Written log other) {place : String × Nat}
    (past : log.size place.1 ≤ place.2) : countAt lines place = 0 := by
  rw [countAt, List.countP_eq_zero]
  intro other member
  have inside := (written other member).size
  rw [decide_eq_true_eq]
  rintro rfl
  exact absurd past (not_le.mpr inside)

/-- The line an append adds has not been printed, and its offset is not past it. -/
theorem accounted_new (handed : Handed kinds since s) {e : Emitted}
    (stepped : s.step kinds (.append e) = some t) :
    Accounted t ⟨e.month, s.log.size e.month, e⟩ := by
  obtain rfl := Option.some.inj stepped
  have unprinted : countAt s.out (e.month, s.log.size e.month) = 0 :=
    count_below handed.out le_rfl
  have unfound : countAt (found s.process.phase) (e.month, s.log.size e.month) = 0 :=
    count_below handed.sound.found le_rfl
  have unmarked : (e.month, s.log.size e.month) ∉ s.overtaken := fun member =>
    lt_irrefl _ (handed.marked _ member)
  have bounded := handed.sound.offsets e.month
  simp only [Accounted, printed, followed, doubled, Doubled, Line.place]
  cases phase : s.process.phase with
  | connecting => simp [exposed, unprinted, unmarked]
  | seeding todo offsets =>
    rw [phase] at bounded
    have behind : offsets.getD e.month 0 ≤ s.log.size e.month := bounded
    by_cases later : e.month ∈ todo <;> simp [exposed, unprinted, unmarked, later, behind]
  | replaying todo pos current offsets =>
    rw [phase] at bounded
    by_cases ahead : e.month ∈ todo
    · have read : ¬ (todo.head? = some e.month ∧ s.log.size e.month < pos) := by
        rintro ⟨head, further⟩
        obtain ⟨rest, rfl⟩ := List.head?_eq_some_iff.mp head
        exact absurd (handed.sound.pos _ _ _ _ _ phase) (not_le.mpr further)
      simp only [exposed, ahead, decide_true, if_true, unprinted, if_neg read, List.mem_append,
        List.mem_singleton, or_true, true_iff, true_and]
      exact bounded
    · have behind : ¬ s.log.size e.month < offsets.getD e.month 0 := not_lt.mpr bounded
      simp [exposed, ahead, unprinted, unmarked, behind]
  | following offsets =>
    rw [phase] at bounded
    have behind : ¬ s.log.size e.month < offsets.getD e.month 0 := not_lt.mpr bounded
    simp [exposed, unprinted, unmarked, behind]
  | polling todo read offsets =>
    rw [phase] at bounded unfound
    have behind : ¬ s.log.size e.month < offsets.getD e.month 0 := not_lt.mpr bounded
    have unread : countAt read (e.month, s.log.size e.month) = 0 := unfound
    simp [exposed, unprinted, unmarked, behind, unread]

/-- An append leaves the account of the lines there are. -/
theorem accounted_old {e : Emitted} (old : line.index < s.log.size line.month)
    (accounted : Accounted s line) (stepped : s.step kinds (.append e) = some t) :
    Accounted t line := by
  obtain rfl := Option.some.inj stepped
  have other : line.place ≠ (e.month, s.log.size e.month) := by
    intro same
    obtain ⟨month, index⟩ := Prod.mk.inj same
    rw [month, index] at old
    exact lt_irrefl _ old
  have marks : (line.place ∈ if exposed s.process.phase e.month then
      s.overtaken ++ [(e.month, s.log.size e.month)] else s.overtaken) ↔
        line.place ∈ s.overtaken := by
    split
    · simp [other]
    · rfl
  simp only [Accounted, printed, doubled, Doubled, marks] at accounted ⊢
  exact accounted

theorem handed_append (handed : Handed kinds since s) {e : Emitted}
    (stepped : s.step kinds (.append e) = some t) : Handed kinds since t := by
  have new := accounted_new handed stepped
  have old : ∀ line : Line, line.index < s.log.size line.month → Accounted s line →
      Accounted t line := fun _ old accounted => accounted_old old accounted stepped
  obtain rfl := Option.some.inj stepped
  refine ⟨nodup_append handed.distinct e, handed.since_eq, handed.sound.append e,
    fun line member => (handed.out line member).append e, fun place member => ?_, handed.replay,
    fun line written wanted covered recent => ?_⟩
  · have grown : s.log.size e.month < (s.log.append e).size e.month := by
      rw [RemoteLog.size, RemoteLog.size, content_append, if_pos rfl, List.length_append]
      exact Nat.lt_succ_self _
    have known : place ∈ s.overtaken ∨ place = (e.month, s.log.size e.month) := by
      dsimp only at member
      split at member
      · exact (List.mem_append.mp member).imp_right List.mem_singleton.mp
      · exact Or.inl member
    obtain before | rfl := known
    · exact (handed.marked place before).trans_le (size_append s.log e _)
    · exact grown
  · by_cases before : line.index < s.log.size line.month
    · have stands : Written s.log line := by
        rw [Written, content_append] at written
        split at written
        · rename_i same
          rw [List.getElem?_append_left (same ▸ before)] at written
          rw [Written, same]
          exact written
        · exact written
      exact old line before (handed.accounted line stands wanted covered
        (newest_append stands.listed recent))
    · have added : line = ⟨e.month, s.log.size e.month, e⟩ := by
        rw [Written, content_append] at written
        split at written
        · rename_i same
          have last : line.index = s.log.size e.month := by
            have inside := (List.getElem?_eq_some_iff.mp written).1
            rw [List.length_append] at inside
            rw [same] at before
            simp only [RemoteLog.size, List.length_singleton] at inside before ⊢
            omega
          rw [last, RemoteLog.size, List.getElem?_append_right le_rfl, Nat.sub_self] at written
          obtain ⟨month, index, event⟩ := line
          obtain rfl := Option.some.inj written
          simp only at same last
          rw [same, last]
        · exact absurd (List.getElem?_eq_some_iff.mp written).1 before
      rw [added]
      exact new

/-! ## A step of the process -/

@[simp] theorem countAt_nil (place : String × Nat) : countAt [] place = 0 := rfl

@[simp] theorem countAt_append (left right : List Line) (place : String × Nat) :
    countAt (left ++ right) place = countAt left place + countAt right place :=
  List.countP_append ..

theorem linesFrom_places (log : RemoteLog) (month : String) (pos : Nat) :
    ((linesFrom log month pos).map Line.place).Nodup := by
  have places : (linesFrom log month pos).map Line.place =
      (((log.content month).zipIdx.map Prod.snd).drop pos).map fun index => (month, index) := by
    rw [linesFrom, List.map_map, ← List.map_drop, List.map_map]
    rfl
  rw [places, List.zipIdx_map_snd]
  refine List.Nodup.map (fun i j same => (Prod.mk.inj same).2) ?_
  exact (List.nodup_range' ..).sublist (List.drop_sublist _ _)

/-- What is read of a file from a position on holds a written line once, if it is there. -/
theorem countAt_linesFrom {log : RemoteLog} (written : Written log line) (month : String)
    (pos : Nat) : countAt (linesFrom log month pos) line.place =
      if line.month = month ∧ pos ≤ line.index then 1 else 0 := by
  have counted : countAt (linesFrom log month pos) line.place =
      ((linesFrom log month pos).map Line.place).count line.place := by
    rw [countAt, List.count, List.countP_map]
    exact List.countP_congr fun other _ => by simp
  have there : line.place ∈ (linesFrom log month pos).map Line.place ↔
      line.month = month ∧ pos ≤ line.index := by
    rw [List.mem_map]
    constructor
    · rintro ⟨other, member, same⟩
      obtain ⟨file, later, _⟩ := mem_linesFrom.mp member
      obtain ⟨months, indices⟩ := Prod.mk.inj same
      exact ⟨months ▸ file, indices ▸ later⟩
    · rintro ⟨file, later⟩
      exact ⟨line, mem_linesFrom.mpr ⟨file, later, file ▸ written⟩, rfl⟩
  rw [counted, (linesFrom_places log month pos).count]
  simp only [there]

/-- A line of a requested kind passes the filter of the follow loop. -/
theorem countAt_filter {log : RemoteLog} {lines : List Line} (written : Written log line)
    (all : ∀ other ∈ lines, Written log other) (wanted : line.event.kind ∈ kinds) :
    countAt (lines.filter fun other => decide (other.event.kind ∈ kinds)) line.place =
      countAt lines line.place := by
  rw [countAt, countAt, List.countP_filter]
  apply List.countP_congr
  intro other member
  simp only [Bool.and_eq_true, decide_eq_true_eq, and_iff_left_iff_imp]
  intro same
  rw [(all other member).unique written same]
  exact wanted

theorem getD_set_self (offsets : Dict String Nat) (k : String) (v : Nat) :
    (offsets.set k v).getD k 0 = v := by
  simp [Dict.getD]

theorem getD_set_other (offsets : Dict String Nat) {k j : String} (other : j ≠ k) (v : Nat) :
    (offsets.set k v).getD j 0 = offsets.getD j 0 := by
  simp [Dict.getD, other]

/-- The offset the replay sets at the end of a file is that file's only. -/
theorem getD_seeded (offsets : Dict String Nat) {month current j : String} (other : j ≠ month)
    (v : Nat) : (if month = current then offsets.set month v else offsets).getD j 0 =
      offsets.getD j 0 := by
  split
  · exact getD_set_other offsets other v
  · rfl

theorem step_read {current : String} {phase : Phase} {lines : List Line}
    (read : s.process.step kinds s.log current = .ok (phase, lines))
    (stepped : s.step kinds (.read current) = some t) :
    t = { s with
      process := { s.process with phase := phase }
      out := s.out ++ lines
      live := listed s.process.phase current s.live } := by
  rw [Tailed.step, read] at stepped
  exact (Option.some.inj stepped).symm

/-- Reading one line of a file accounts for that line, and no other. -/
theorem accounted_line {s : Tailed} {month now : String} {todo : List String} {pos : Nat}
    {offsets : Dict String Nat} {lines : List Line}
    (phase : s.process.phase = .replaying (month :: todo) pos now offsets)
    (accounted : Accounted s line)
    (lines_count : countAt lines line.place =
      if line.month = month ∧ line.index = pos then 1 else 0) :
    Accounted { s with
      process := { s.process with phase := .replaying (month :: todo) (pos + 1) now offsets }
      out := s.out ++ lines
      live := listed s.process.phase now s.live } line := by
  simp only [Accounted, phase, listed, printed, doubled, Doubled, countAt_append, lines_count,
    List.head?_cons, Option.some.injEq] at accounted ⊢
  by_cases ahead : line.month ∈ month :: todo
  · rw [if_pos ahead] at accounted ⊢
    refine ⟨?_, accounted.2⟩
    rw [accounted.1]
    by_cases same : month = line.month
    · simp only [same, true_and]
      split <;> split <;> split <;> omega
    · simp [same, Ne.symm same]
  · rw [if_neg ahead] at accounted ⊢
    have other : ¬ (line.month = month ∧ line.index = pos) := fun same =>
      ahead (same.1 ▸ List.mem_cons_self)
    rw [if_neg other, Nat.add_zero]
    exact accounted

/-- At the end of a file of the replay, its lines have been printed once; those overtaken
lie behind the offset, unless it is set here. -/
theorem accounted_end {s : Tailed} {month now : String} {todo : List String} {pos stop : Nat}
    {offsets : Dict String Nat}
    (phase : s.process.phase = .replaying (month :: todo) pos now offsets)
    (distinct : (month :: todo).Nodup) (live : s.live = some now)
    (read : line.month = month → line.index < pos ∧ line.index < stop)
    (accounted : Accounted s line) :
    Accounted { s with
      process := { s.process with
        phase := .replaying todo 0 now (if month = now then offsets.set month stop else offsets) }
      out := s.out ++ []
      live := listed s.process.phase now s.live } line := by
  simp only [Accounted, phase, listed, printed, doubled, Doubled, List.append_nil,
    List.head?_cons, Option.some.injEq, live] at accounted ⊢
  by_cases same : line.month = month
  · have gone : line.month ∉ todo := same ▸ (List.nodup_cons.mp distinct).1
    obtain ⟨before, seeded⟩ := read same
    rw [if_pos (same ▸ List.mem_cons_self)] at accounted
    rw [if_neg gone, accounted.1, if_pos ⟨same.symm, before⟩, followed]
    by_cases here : month = now
    · have current : ¬ (line.place ∈ s.overtaken ∧ some now ≠ some month) := fun both =>
        both.2 (congrArg some here.symm)
      rw [if_pos here, same, getD_set_self, if_pos seeded, if_neg current]
    · have elsewhere : some now ≠ some line.month := fun eq =>
        here (same.symm.trans (Option.some.inj eq).symm)
      simp only [if_neg here, accounted.2, elsewhere, ne_eq, not_false_eq_true, and_true]
      split <;> split <;> omega
  · have kept : (if month = now then offsets.set month stop else offsets).getD line.month 0 =
        offsets.getD line.month 0 := getD_seeded offsets same stop
    by_cases ahead : line.month ∈ todo
    · rw [if_pos (List.mem_cons_of_mem _ ahead)] at accounted
      rw [if_pos ahead, kept]
      simpa [Ne.symm same] using accounted
    · have gone : line.month ∉ month :: todo := by simp [same, ahead]
      rw [if_neg gone] at accounted
      rw [if_neg ahead, followed, kept]
      exact accounted

/-- Seeding a file puts what stands in it before its offset, and overtakes nothing. -/
theorem accounted_seed {s : Tailed} {month current : String} {todo : List String}
    {offsets : Dict String Nat} (phase : s.process.phase = .seeding (month :: todo) offsets)
    (written : Written s.log line) (accounted : Accounted s line) :
    Accounted { s with
      process := { s.process with phase := .seeding todo (offsets.set month (s.log.size month)) }
      out := s.out ++ []
      live := listed s.process.phase current s.live } line := by
  simp only [Accounted, phase, printed, countAt_append, countAt_nil] at accounted ⊢
  obtain ⟨unprinted, marked⟩ := accounted
  refine ⟨unprinted, marked.trans ?_⟩
  by_cases same : line.month = month
  · have seeded : ¬ s.log.size month ≤ line.index := not_le.mpr (same ▸ written.size)
    simp [same, getD_set_self, seeded]
  · rw [getD_set_other offsets same, List.mem_cons, not_or]
    simp [same]

/-- A step of the replay reads one line, or ends a file. -/
theorem accounted_replay {month now current : String} {todo : List String} {pos : Nat}
    {offsets : Dict String Nat}
    (process : s.process = ⟨some (inUtc since), .replaying (month :: todo) pos now offsets⟩)
    (distinct : (month :: todo).Nodup) (live : s.live = some now)
    (stepped : s.step kinds (.read current) = some t) (written : Written s.log line)
    (wanted : line.event.kind ∈ kinds) (covered : covers (inUtc since) line = true)
    (accounted : Accounted s line) : Accounted t line := by
  obtain ⟨log, reading, out, live', overtaken⟩ := s
  simp only at process live written
  subst process
  simp only [Tailed.step, Remote.step] at stepped
  by_cases early : month < monthOfDatetime (inUtc since)
  · rw [if_pos early] at stepped
    obtain rfl := Option.some.inj stepped
    have other : line.month ≠ month := by
      rintro rfl
      simp [covers, early] at covered
    exact accounted_end rfl distinct live (fun same => absurd same other) accounted
  rw [if_neg early] at stepped
  cases stands : (log.content month)[pos]? with
  | none =>
    rw [stands] at stepped
    obtain rfl := Option.some.inj stepped
    refine accounted_end rfl distinct live (fun same => ?_) accounted
    have end_ : log.size month ≤ pos := List.getElem?_eq_none_iff.mp stands
    have inside : line.index < pos := (same ▸ written.size : _ < log.size month).trans_le end_
    exact ⟨inside, inside⟩
  | some event =>
    rw [stands] at stepped
    simp only [replay_line kinds (inUtc_aware since)] at stepped
    obtain rfl := Option.some.inj stepped
    refine accounted_line rfl accounted ?_
    have late : (inUtc since).instant ≤ line.event.stamped := by
      simp only [covers, Bool.and_eq_true, decide_eq_true_eq] at covered
      exact covered.2
    by_cases same : line.month = month ∧ line.index = pos
    · have event_eq : line.event = event := by
        rw [Written, same.1, same.2, stands] at written
        exact (Option.some.inj written).symm
      rw [if_pos same, ← event_eq, if_pos ⟨wanted, late⟩]
      simp [countAt, Line.place, same]
    · have apart : (month, pos) ≠ line.place := fun eq =>
        same ⟨(Prod.mk.inj eq).1.symm, (Prod.mk.inj eq).2.symm⟩
      rw [if_neg same]
      split
      · simp [countAt, Line.place] at apart ⊢
        exact apart
      · rfl

/-- A poll takes what it reads of a file over from behind its offset. -/
theorem accounted_poll {s : Tailed} {month current : String} {todo : List String}
    {read : List Line} {offsets : Dict String Nat}
    (phase : s.process.phase = .polling (month :: todo) read offsets)
    (written : Written s.log line) (known : offsets.getD month 0 ≤ s.log.size month)
    (accounted : Accounted s line) :
    Accounted { s with
      process := { s.process with
        phase := .polling todo (read ++ linesFrom s.log month
          (if s.log.size month < offsets.getD month 0 then 0 else offsets.getD month 0))
          (offsets.set month (s.log.size month)) }
      out := s.out ++ []
      live := listed s.process.phase current s.live } line := by
  have count := countAt_linesFrom written month (offsets.getD month 0)
  simp only [Accounted, phase, printed, followed, countAt_append, countAt_nil, Nat.add_zero,
    if_neg (not_lt.mpr known), count] at accounted ⊢
  by_cases same : line.month = month
  · have inside : line.index < s.log.size month := same ▸ written.size
    simp only [same, true_and, getD_set_self, if_pos inside, doubled, Doubled, listed]
      at accounted ⊢
    by_cases past : offsets.getD month 0 ≤ line.index
    · rw [if_neg (not_lt.mpr past)] at accounted
      rw [if_pos past, ← add_assoc, accounted]
      omega
    · rw [if_pos (not_le.mp past)] at accounted
      rw [if_neg past, ← add_assoc, accounted]
      omega
  · rw [getD_set_other offsets same, if_neg (fun both => same both.1), Nat.add_zero]
    exact accounted

/-- Every step of the process keeps the account of a wanted line. -/
theorem accounted_read (handed : Handed kinds since s) {current : String}
    (stepped : s.step kinds (.read current) = some t) (written : Written s.log line)
    (wanted : line.event.kind ∈ kinds) (covered : covers (inUtc since) line = true)
    (recent : line.month ∈ s.log.newest) (accounted : Accounted s line) : Accounted t line := by
  have bounded := handed.sound.offsets
  have replay := handed.replay
  have since_eq := handed.since_eq
  have genuine := handed.sound.found
  obtain ⟨log, ⟨since', phase⟩, out, live, overtaken⟩ := s
  simp only at since_eq
  subst since_eq
  simp only at bounded replay genuine written recent
  cases phase with
  | connecting =>
    obtain rfl := Option.some.inj stepped
    obtain ⟨unprinted, unmarked⟩ := accounted
    simp only [Accounted, printed, countAt_append, countAt_nil] at unprinted ⊢
    exact ⟨unprinted, ⟨fun marked => absurd marked unmarked, fun h => absurd recent h.1⟩⟩
  | seeding todo offsets =>
    cases todo with
    | nil =>
      obtain ⟨unprinted, marked⟩ := accounted
      obtain rfl := Option.some.inj stepped
      simp only [Accounted, printed, countAt_append, countAt_nil, if_pos written.listed,
        Nat.not_lt_zero, and_false, if_false] at unprinted ⊢
      exact ⟨unprinted, by simpa using marked⟩
    | cons month todo =>
      obtain rfl := Option.some.inj stepped
      exact accounted_seed rfl written accounted
  | replaying todo pos now offsets =>
    obtain ⟨distinct, lives⟩ := replay todo pos now offsets rfl
    cases todo with
    | nil =>
      obtain rfl := Option.some.inj stepped
      simp only [Accounted, List.not_mem_nil, if_false, printed, countAt_append, countAt_nil]
        at accounted ⊢
      exact accounted
    | cons month todo =>
      exact accounted_replay rfl distinct lives stepped written wanted covered accounted
  | following offsets =>
    obtain rfl := Option.some.inj stepped
    simp only [Accounted, printed, countAt_append, countAt_nil] at accounted ⊢
    exact accounted
  | polling todo read offsets =>
    cases todo with
    | cons month todo =>
      obtain rfl := Option.some.inj stepped
      exact accounted_poll rfl written (bounded month) accounted
    | nil =>
      have kept : countAt (read.filter fun other => decide (other.event.kind ∈ kinds)) line.place =
          countAt read line.place := countAt_filter written genuine wanted
      simp only [Tailed.step, Remote.step, selectLines_kinds] at stepped
      obtain rfl := Option.some.inj stepped
      simp only [Accounted, printed, countAt_append] at accounted ⊢
      rw [kept]
      exact accounted

/-- The replay goes through the files it listed, each once. -/
theorem replay_read (handed : Handed kinds since s) {current : String} {phase : Phase}
    {lines : List Line} (read : s.process.step kinds s.log current = .ok (phase, lines))
    {todo : List String} {pos : Nat} {now : String} {offsets : Dict String Nat}
    (replays : phase = .replaying todo pos now offsets) :
    todo.Nodup ∧ listed s.process.phase current s.live = some now := by
  subst replays
  have replay := handed.replay
  have since_eq := handed.since_eq
  obtain ⟨log, ⟨since', phase⟩, out, live, overtaken⟩ := s
  simp only at since_eq replay read
  subst since_eq
  cases phase with
  | connecting => cases read
  | seeding left offsets =>
    cases left with
    | nil =>
      cases read
      exact ⟨handed.distinct, rfl⟩
    | cons => cases read
  | replaying left pos now offsets =>
    obtain ⟨distinct, lives⟩ := replay left pos now offsets rfl
    cases left with
    | nil => cases read
    | cons month left =>
      simp only [Remote.step] at read
      split at read
      · cases read
        exact ⟨(List.nodup_cons.mp distinct).2, lives⟩
      split at read
      · rw [replay_line kinds (inUtc_aware since)] at read
        cases read
        exact ⟨distinct, lives⟩
      · cases read
        exact ⟨(List.nodup_cons.mp distinct).2, lives⟩
  | following offsets => cases read
  | polling left found offsets =>
    cases left with
    | nil =>
      simp only [Remote.step, selectLines_kinds] at read
      cases read
    | cons => cases read

theorem handed_read (handed : Handed kinds since s) {current : String}
    (stepped : s.step kinds (.read current) = some t) : Handed kinds since t := by
  have account := fun line written wanted covered recent =>
    accounted_read handed stepped written wanted covered recent
      (handed.accounted line written wanted covered recent)
  have aware : ∀ since', s.process.since = some since' → since'.offset ≠ none := by
    intro since' same
    obtain rfl := Option.some.inj (handed.since_eq.symm.trans same)
    exact inUtc_aware since
  cases result : s.process.step kinds s.log current with
  | error e =>
    rw [Tailed.step, result] at stepped
    cases stepped
  | ok next =>
    obtain ⟨phase, lines⟩ := next
    obtain ⟨sound, genuine⟩ := step_sound aware handed.sound result
    obtain rfl := step_read result stepped
    refine ⟨handed.distinct, handed.since_eq, sound, fun line member => ?_, handed.marked,
      fun todo pos now offsets same => ?_, account⟩
    · exact (List.mem_append.mp member).elim (handed.out line) (genuine line)
    · exact replay_read handed result same

/-- What every step keeps, by either party. -/
theorem handed_step (s : Tailed) (move : Move) (t : Tailed) (handed : Handed kinds since s)
    (stepped : s.step kinds move = some t) : Handed kinds since t := by
  cases move with
  | append e => exact handed_append handed stepped
  | read current => exact handed_read handed stepped

/-- **A line handed over is printed once, unless it was overtaken.**  For every log, every
`--since`, every set of kinds and every interleaving of appends, to any month files and new
ones, with the steps of the seeding, the replay and the follow loop: once the process has
caught up, a line of a requested kind that the replay covers and that lies in the newest two
files has been printed exactly once if and only if it was not appended, between the seeding
of its file and the end of the replay's read of it, to a file other than the one the replay
takes for the current one. -/
theorem printed_once_iff (kinds : List String) (since : Datetime) (log : RemoteLog)
    (distinct : log.names.Nodup) (moves : List Move) (s : Tailed)
    (ran : run (Tailed.step kinds) (begin log since) moves = some s) (caughtUp : CaughtUp s)
    (line : Line) (written : Written s.log line) (wanted : line.event.kind ∈ kinds)
    (covered : covers (inUtc since) line = true) (recent : line.month ∈ s.log.newest) :
    printed s line = 1 ↔ ¬ Doubled s line := by
  have handed := run_preserves _ handed_step (handed_begin kinds since distinct) ran
  have accounted := handed.accounted line written wanted covered recent
  obtain ⟨offsets, follows, read⟩ := caughtUp
  have behind : line.index < offsets.getD line.month 0 := written.size.trans_le (read _ recent)
  simp only [Accounted, follows, followed, if_pos behind, doubled] at accounted
  rw [accounted]
  split
  · rename_i twice
    exact iff_of_false (by decide) (not_not_intro twice)
  · rename_i once
    exact iff_of_true rfl once

/-- `CaughtUp`, as a test. -/
def atEnd (s : Tailed) : Bool :=
  match s.process.phase with
  | .following offsets =>
    s.log.newest.all fun month => decide (s.log.size month ≤ offsets.getD month 0)
  | _ => false

theorem caughtUp_of_atEnd {s : Tailed} (test : atEnd s = true) : CaughtUp s := by
  unfold atEnd at test
  split at test
  · rename_i offsets follows
    exact ⟨offsets, follows, fun month member =>
      of_decide_eq_true (List.all_eq_true.mp test month member)⟩
  · cases test

/-- One event is there; a second is appended to the same file once that is seeded, and the
clock is in the next month by the time the replay lists the files. -/
def rolledOver : List Move :=
  [.append gaveUp, .read "2026-01", .read "2026-01", .append gaveUp] ++
  List.replicate 8 (.read "2026-02")

/-- The line is wanted, covered, in the newest two files, and printed so often. -/
def isPrinted (times : Nat) (s : Tailed) (line : Line) : Bool :=
  decide (line.event.kind ∈ ["gave_up"]) && covers (inUtc TornTail.newYear) line &&
    decide (line.month ∈ s.log.newest) && decide (printed s line = times)

/-- A run that ends at the end of the files, with a line so printed at a place. -/
private theorem rolledOver_ends {index times : Nat}
    (ends : ((run (Tailed.step ["gave_up"]) (begin .empty TornTail.newYear) rolledOver).map
      fun s => atEnd s && (((s.log.content "2026-01")[index]?).map fun e =>
        isPrinted times s ⟨"2026-01", index, e⟩).getD false).getD false = true) :
    ∃ s line, run (Tailed.step ["gave_up"]) (begin .empty TornTail.newYear) rolledOver = some s ∧
      CaughtUp s ∧ Written s.log line ∧ line.event.kind ∈ ["gave_up"] ∧
      covers (inUtc TornTail.newYear) line = true ∧ line.month ∈ s.log.newest ∧
      printed s line = times := by
  cases ran : run (Tailed.step ["gave_up"]) (begin .empty TornTail.newYear) rolledOver with
  | none =>
    rw [ran] at ends
    cases ends
  | some s =>
    rw [ran, Option.map_some, Option.getD_some, Bool.and_eq_true] at ends
    obtain ⟨caughtUp, shown⟩ := ends
    cases stands : (s.log.content "2026-01")[index]? with
    | none =>
      rw [stands] at shown
      cases shown
    | some e =>
      rw [stands, Option.map_some, Option.getD_some] at shown
      simp only [isPrinted, Bool.and_eq_true, decide_eq_true_eq] at shown
      obtain ⟨⟨⟨wanted, covered⟩, recent⟩, times⟩ := shown
      exact ⟨s, ⟨"2026-01", index, e⟩, rfl, caughtUp_of_atEnd caughtUp, stands, wanted, covered,
        recent, times⟩

theorem seeded_line_undoubled : ∃ s line,
    run (Tailed.step ["gave_up"]) (begin .empty TornTail.newYear) rolledOver = some s ∧
      CaughtUp s ∧ printed s line = 1 ∧ ¬ Doubled s line := by
  obtain ⟨s, line, ran, caughtUp, written, wanted, covered, recent, once⟩ :=
    @rolledOver_ends 0 1 (by decide +kernel)
  have undoubled := printed_once_iff ["gave_up"] TornTail.newYear .empty List.nodup_nil rolledOver
    s ran caughtUp line written wanted covered recent
  exact ⟨s, line, ran, caughtUp, once, undoubled.mp once⟩

/-- The line appended behind the seed is printed by the replay, which goes on to its end, and
by the follow loop, which begins at the seed. -/
theorem overtaken_line_printed_twice : ∃ s line,
    run (Tailed.step ["gave_up"]) (begin .empty TornTail.newYear) rolledOver = some s ∧
      CaughtUp s ∧ Written s.log line ∧ line.event.kind ∈ ["gave_up"] ∧
      covers (inUtc TornTail.newYear) line = true ∧ line.month ∈ s.log.newest ∧
      printed s line = 2 := by
  exact @rolledOver_ends 1 2 (by decide +kernel)

end AgentRunner.ReplayHandoff
