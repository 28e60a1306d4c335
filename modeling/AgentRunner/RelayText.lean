import AgentRunner.JsonText
import AgentRunner.RelayLoop

/-! The loop of `relay_remote_events` over the lines as the pipe hands them over, whatever is in
them: each is written, and may move the stamp that the next connection resumes from. -/
namespace AgentRunner.RelayText
open PyValue IsoTime

/-! ## The first maximum -/

section FirstMax
variable {α κ : Type} [LinearOrder κ] (key : α → κ)

/-- The first of the values whose key is the greatest. -/
def IsFirstMax (xs : List α) (x : α) : Prop :=
  ∃ before after, xs = before ++ x :: after ∧ (∀ y ∈ before, key y < key x) ∧
    ∀ y ∈ after, key y ≤ key x

theorem isFirstMax_singleton (x : α) : IsFirstMax key [x] x :=
  ⟨[], [], rfl, List.forall_mem_nil _, List.forall_mem_nil _⟩

/-- A value takes over from the first maximum only if it is greater. -/
theorem IsFirstMax.snoc {xs : List α} {x : α} (max : IsFirstMax key xs x) (next : α) :
    IsFirstMax key (xs ++ [next]) (if key x < key next then next else x) := by
  obtain ⟨before, after, rfl, earlier, later⟩ := max
  split
  · rename_i greater
    refine ⟨before ++ x :: after, [], rfl, ?_, List.forall_mem_nil _⟩
    intro y member
    obtain first | rest := List.mem_append.mp member
    · exact (earlier y first).trans greater
    · obtain rfl | rest := List.mem_cons.mp rest
      · exact greater
      · exact (later y rest).trans_lt greater
  · rename_i lesser
    refine ⟨before, after ++ [next], by simp, earlier, ?_⟩
    intro y member
    obtain old | new := List.mem_append.mp member
    · exact later y old
    · rw [List.mem_singleton.mp new]
      exact not_lt.mp lesser

end FirstMax

/-! ## The loop -/

/-- What the relay has written, the newest stamp among it as text and parsed, and its account of
the present outage. -/
structure Relay where
  written : List (List Char)
  last : Option (String × Datetime)
  blipStart : Option ℚ
  attempt : ℕ

/-- Before the first connection. -/
def Relay.fresh : Relay := ⟨[], none, none, 0⟩

/-- `line if line.endswith("\n") else line + "\n"`. -/
def ended (line : List Char) : List Char :=
  if line.getLast? = some '\n' then line else line ++ ['\n']

section Lines
variable (i : JsonText.Interpreter)

/-- `_line_ts`: only a `JSONDecodeError` is caught of what `json.loads` raises. -/
def lineTs (line : List Char) : Except PyErr (Option (String × Datetime)) := do
  match ← JsonText.loads i line with
  | some (.obj evt) => return RelayLoop.lineTs evt
  | _ => return none

/-- `last_ts, last_dt` behind a line. -/
def resumeFrom (last parsed : Option (String × Datetime)) :
    Except PyErr (Option (String × Datetime)) :=
  match parsed, last with
  | none, last => .ok last
  | some stamp, none => .ok (some stamp)
  | some stamp, some last => do
    let newer ← lt last.2 stamp.2
    return some (if newer then stamp else last)

/-- One line: it is written, the stamp is kept if it is newer, and the outage is over. -/
def Relay.onLine (r : Relay) (line : List Char) : Except PyErr Relay := do
  let parsed ← lineTs i line
  let last ← resumeFrom r.last parsed
  return ⟨r.written ++ [ended line], last, none, 0⟩

/-- After an ssh exit at `now`: how long to sleep, or `none` to give up. -/
def Relay.onExit (r : Relay) (toleranceS now : ℚ) : Relay × Option ℚ :=
  let blipStart := r.blipStart.getD now
  let elapsed := now - blipStart
  let attempt := r.attempt + 1
  ({ r with blipStart := some blipStart, attempt },
    if toleranceS ≤ 0 ∨ toleranceS ≤ elapsed then none
    else some (min (RelayLoop.reconnectBackoffS attempt) (toleranceS - elapsed)))

/-- A line is relayed, or ssh exits and the relay connects again. -/
inductive Move where
  | line (text : List Char)
  | reconnect (now : ℚ)

def Move.text? : Move → Option (List Char)
  | .line text => some text
  | .reconnect _ => none

def Relay.step (toleranceS : ℚ) (r : Relay) : Move → Except PyErr Relay
  | .line text => r.onLine i text
  | .reconnect now => .ok (r.onExit toleranceS now).1

def run (toleranceS : ℚ) (moves : List Move) : Except PyErr Relay :=
  moves.foldlM (Relay.step i toleranceS) .fresh

/-- The lines of a run. -/
def linesOf (moves : List Move) : List (List Char) := moves.filterMap Move.text?

/-- The stamp of a line, if one can be read. -/
def stampOf (line : List Char) : Option (String × Datetime) :=
  match lineTs i line with
  | .ok parsed => parsed
  | .error _ => none

def stamps (lines : List (List Char)) : List (String × Datetime) := lines.filterMap (stampOf i)

/-- Every line has been written as it came, with an end if it had none, and the pointer is the
first of the newest stamps, or there is no stamp. -/
structure Follows (lines : List (List Char)) (r : Relay) : Prop where
  written : r.written = lines.map ended
  unset : r.last = none → stamps i lines = []
  newest : ∀ last, r.last = some last →
    IsFirstMax (fun stamp => stamp.2.instant) (stamps i lines) last

/-- Lines whose stamps can be compared: none of them is more than `json.loads` can read, and the
stamps are all naive or all aware. -/
structure Comparable (lines : List (List Char)) : Prop where
  readable : ∀ line ∈ lines, ∃ value, JsonText.loads i line = .ok value
  alike : ∀ one ∈ stamps i lines, ∀ other ∈ stamps i lines, one.2.isNaive = other.2.isNaive

end Lines

/-! ## One line -/

section Step
variable {i : JsonText.Interpreter} {line : List Char} {lines : List (List Char)} {r r' : Relay}

theorem lineTs_ok : (∃ parsed, lineTs i line = .ok parsed) ↔
    ∃ value, JsonText.loads i line = .ok value := by
  unfold lineTs
  cases JsonText.loads i line with
  | error e => simp [bind, Except.bind]
  | ok value =>
    refine ⟨fun _ => ⟨value, rfl⟩, fun _ => ?_⟩
    cases value with
    | none => exact ⟨none, rfl⟩
    | some value => cases value <;> exact ⟨_, rfl⟩

theorem stampOf_eq {parsed : Option (String × Datetime)} (read : lineTs i line = .ok parsed) :
    stampOf i line = parsed := by
  rw [stampOf, read]

theorem stamps_snoc : stamps i (lines ++ [line]) = stamps i lines ++ (stampOf i line).toList := by
  unfold stamps
  rw [List.filterMap_append]
  cases found : stampOf i line <;> simp [found]

/-- The pointer behind a line, where the comparison does not raise. -/
theorem resumeFrom_ok {last next : Option (String × Datetime)} {stamp : String × Datetime}
    (kept : resumeFrom last (some stamp) = .ok next) :
    next = some stamp ∧ last = none ∨ ∃ old, last = some old ∧
      old.2.isNaive = stamp.2.isNaive ∧
      next = some (if old.2.instant < stamp.2.instant then stamp else old) := by
  cases last with
  | none =>
    cases kept
    exact .inl ⟨rfl, rfl⟩
  | some old =>
    refine .inr ⟨old, rfl, ?_⟩
    simp only [resumeFrom, lt] at kept
    by_cases kind : old.2.isNaive = stamp.2.isNaive
    · rw [if_pos kind] at kept
      cases kept
      exact ⟨kind, by simp only [decide_eq_true_eq]⟩
    · rw [if_neg kind] at kept
      cases kept

theorem Follows.pointer_mem (follows : Follows i lines r) {last : String × Datetime}
    (held : r.last = some last) : last ∈ stamps i lines := by
  obtain ⟨before, after, shape, -⟩ := follows.newest last held
  rw [shape]
  exact List.mem_append_right _ (.head _)

/-- A line that can be compared with all that came before it does not raise. -/
theorem onLine_returns (follows : Follows i lines r)
    (comparable : Comparable i (lines ++ [line])) : ∃ r', r.onLine i line = .ok r' := by
  obtain ⟨parsed, read⟩ := lineTs_ok.mpr (comparable.readable line
    (List.mem_append_right _ (.head _)))
  have alike := comparable.alike
  rw [stamps_snoc, stampOf_eq read] at alike
  have kept : ∃ next, resumeFrom r.last parsed = .ok next := by
    cases parsed with
    | none => exact ⟨r.last, rfl⟩
    | some stamp =>
      cases held : r.last with
      | none => exact ⟨some stamp, rfl⟩
      | some old =>
        have kind := alike old (List.mem_append_left _ (follows.pointer_mem held)) stamp
          (List.mem_append_right _ (.head _))
        rw [resumeFrom, lt, if_pos kind]
        exact ⟨_, rfl⟩
  obtain ⟨next, kept⟩ := kept
  rw [Relay.onLine, read]
  simp only [bind, Except.bind, kept]
  exact ⟨_, rfl⟩

/-- What a line that does not raise does. -/
theorem onLine_ok (relayed : r.onLine i line = .ok r') :
    ∃ parsed next, lineTs i line = .ok parsed ∧ resumeFrom r.last parsed = .ok next ∧
      r' = ⟨r.written ++ [ended line], next, none, 0⟩ := by
  unfold Relay.onLine at relayed
  cases read : lineTs i line with
  | error e =>
    rw [read] at relayed
    cases relayed
  | ok parsed =>
    rw [read] at relayed
    simp only [bind, Except.bind] at relayed
    cases kept : resumeFrom r.last parsed with
    | error e =>
      rw [kept] at relayed
      cases relayed
    | ok next =>
      rw [kept] at relayed
      cases relayed
      exact ⟨parsed, next, rfl, kept, rfl⟩

theorem alike_snoc {stamp old : String × Datetime} {stamps : List (String × Datetime)}
    (alike : ∀ one ∈ stamps, ∀ other ∈ stamps, one.2.isNaive = other.2.isNaive)
    (held : old ∈ stamps) (kind : old.2.isNaive = stamp.2.isNaive) :
    ∀ one ∈ stamps ++ [stamp], ∀ other ∈ stamps ++ [stamp],
      one.2.isNaive = other.2.isNaive := by
  have own : ∀ one ∈ stamps ++ [stamp], one.2.isNaive = stamp.2.isNaive := by
    intro one member
    obtain first | new := List.mem_append.mp member
    · exact (alike one first old held).trans kind
    · rw [List.mem_singleton.mp new]
  exact fun one member other others => (own one member).trans (own other others).symm

/-- A line that does not raise is relayed, its stamp can be compared with those before it, and
the pointer goes on following them. -/
theorem onLine_follows (follows : Follows i lines r) (comparable : Comparable i lines)
    (relayed : r.onLine i line = .ok r') :
    Follows i (lines ++ [line]) r' ∧ Comparable i (lines ++ [line]) := by
  obtain ⟨parsed, next, read, kept, rfl⟩ := onLine_ok relayed
  have written : r.written ++ [ended line] = (lines ++ [line]).map ended := by
    rw [follows.written, List.map_append, List.map_singleton]
  have readable : ∀ l ∈ lines ++ [line], ∃ value, JsonText.loads i l = .ok value := by
    intro l member
    obtain old | new := List.mem_append.mp member
    · exact comparable.readable l old
    · rw [List.mem_singleton.mp new]
      exact lineTs_ok.mp ⟨parsed, read⟩
  have grown : stamps i (lines ++ [line]) = stamps i lines ++ parsed.toList := by
    rw [stamps_snoc, stampOf_eq read]
  cases parsed with
  | none =>
    cases kept
    rw [Option.toList_none, List.append_nil] at grown
    exact ⟨⟨written, fun unset => grown.trans (follows.unset unset),
      fun last held => grown.symm ▸ follows.newest last held⟩, readable,
      grown.symm ▸ comparable.alike⟩
  | some stamp =>
    rw [Option.toList_some] at grown
    obtain ⟨rfl, first⟩ | ⟨old, held, kind, rfl⟩ := resumeFrom_ok kept
    · rw [follows.unset first, List.nil_append] at grown
      refine ⟨⟨written, (fun unset => by cases unset), ?_⟩, readable, ?_⟩
      · rintro _ ⟨⟩
        rw [grown]
        exact isFirstMax_singleton _ _
      · rw [grown]
        simp
    · refine ⟨⟨written, (fun unset => by cases unset), ?_⟩, readable, ?_⟩
      · rintro _ ⟨⟩
        rw [grown]
        exact (follows.newest old held).snoc _ stamp
      · rw [grown]
        exact alike_snoc comparable.alike (follows.pointer_mem held) kind

end Step

/-! ## Every run -/

section Runs
variable {i : JsonText.Interpreter} {toleranceS : ℚ}

theorem run_snoc (moves : List Move) (move : Move) : run i toleranceS (moves ++ [move]) =
    run i toleranceS moves >>= fun r => r.step i toleranceS move := by
  rw [run, List.foldlM_append]
  simp only [run, List.foldlM_cons, List.foldlM_nil, bind_pure]

theorem linesOf_line (moves : List Move) (text : List Char) :
    linesOf (moves ++ [.line text]) = linesOf moves ++ [text] := by
  simp [linesOf, Move.text?]

theorem linesOf_reconnect (moves : List Move) (now : ℚ) :
    linesOf (moves ++ [.reconnect now]) = linesOf moves := by
  simp [linesOf, Move.text?]

theorem Comparable.init {lines : List (List Char)} {line : List Char}
    (comparable : Comparable i (lines ++ [line])) : Comparable i lines := by
  have earlier : ∀ stamp ∈ stamps i lines, stamp ∈ stamps i (lines ++ [line]) := by
    intro stamp member
    rw [stamps_snoc]
    exact List.mem_append_left _ member
  exact ⟨fun l member => comparable.readable l (List.mem_append_left _ member),
    fun one member other others =>
      comparable.alike one (earlier one member) other (earlier other others)⟩

/-- An exit leaves the pointer and what is written as they are. -/
theorem Follows.onExit {lines : List (List Char)} {r : Relay} (follows : Follows i lines r)
    (now : ℚ) : Follows i lines (r.onExit toleranceS now).1 :=
  ⟨follows.written, follows.unset, follows.newest⟩

/-- A run that does not raise has followed its lines, and they can be compared. -/
theorem run_follows {moves : List Move} {r : Relay} (ran : run i toleranceS moves = .ok r) :
    Follows i (linesOf moves) r ∧ Comparable i (linesOf moves) := by
  induction moves using List.reverseRecOn generalizing r with
  | nil =>
    cases ran
    exact ⟨⟨rfl, fun _ => rfl, fun _ none_ => by cases none_⟩, List.forall_mem_nil _,
      List.forall_mem_nil _⟩
  | append_singleton moves move ih =>
    rw [run_snoc] at ran
    cases before : run i toleranceS moves with
    | error e =>
      rw [before] at ran
      cases ran
    | ok earlier =>
      rw [before] at ran
      obtain ⟨follows, comparable⟩ := ih before
      cases move with
      | line text =>
        rw [linesOf_line]
        exact onLine_follows follows comparable ran
      | reconnect now =>
        rw [linesOf_reconnect]
        cases ran
        exact ⟨follows.onExit now, comparable⟩

/-- Where its lines can be compared, a run does not raise. -/
theorem run_returns {moves : List Move} (comparable : Comparable i (linesOf moves)) :
    ∃ r, run i toleranceS moves = .ok r := by
  induction moves using List.reverseRecOn with
  | nil => exact ⟨.fresh, rfl⟩
  | append_singleton moves move ih =>
    cases move with
    | line text =>
      rw [linesOf_line] at comparable
      obtain ⟨r, ran⟩ := ih comparable.init
      obtain ⟨r', relayed⟩ := onLine_returns (run_follows ran).1 comparable
      exact ⟨r', by rw [run_snoc, ran]; exact relayed⟩
    | reconnect now =>
      rw [linesOf_reconnect] at comparable
      obtain ⟨r, ran⟩ := ih comparable
      exact ⟨(r.onExit toleranceS now).1, by rw [run_snoc, ran]; rfl⟩

theorem comparable_before {before moves : List Move} (first : before <+: moves)
    (comparable : Comparable i (linesOf moves)) : Comparable i (linesOf before) := by
  obtain ⟨after, rfl⟩ := first
  induction after using List.reverseRecOn with
  | nil => rwa [List.append_nil] at comparable
  | append_singleton after move ih =>
    rw [← List.append_assoc] at comparable
    cases move with
    | line text => exact ih (linesOf_line _ text ▸ comparable).init
    | reconnect now => exact ih (linesOf_reconnect _ now ▸ comparable)

end Runs

/-- A line whose stamp has no zone, and one of the same year in UTC. -/
def zonelessLine : List Char := "\x7b\"ts\":\"2026-01-01T00:00:00\"\x7d\n".toList
def zonedLine : List Char := "\x7b\"ts\":\"2026-06-01T00:00:00Z\"\x7d\n".toList

/-- The relay of the link, which is handed events for lines, is in the same state. -/
structure Mirrors (r : Relay) (link : RelayLoop.Relay) : Prop where
  last : r.last = link.last
  blipStart : r.blipStart = link.blipStart
  attempt : r.attempt = link.attempt

/-- Behind a line, in terms of the stamp that is kept. -/
theorem link_onLine (link : RelayLoop.Relay) (line : RemoteTail.Line) : link.onLine line =
    (resumeFrom link.last (RelayLoop.lineTs line.event.event)).map
      fun last => ⟨link.out ++ [line], last, none, 0⟩ := by
  unfold RelayLoop.Relay.onLine resumeFrom
  cases RelayLoop.lineTs line.event.event with
  | none => rfl
  | some stamp =>
    cases link.last with
    | none => rfl
    | some last => cases compared : lt last.2 stamp.2 <;> simp [compared, bind, Except.bind,
        pure, Except.pure, Except.map]

/-- It goes on as this one does with the text of its event: both raise, or both keep the same
stamp. -/
theorem Mirrors.onLine {i : JsonText.Interpreter} {r : Relay} {link : RelayLoop.Relay}
    (mirrors : Mirrors r link) {line : RemoteTail.Line} {text : List Char}
    (read : JsonText.loads i text = .ok (some (.obj line.event.event))) :
    ∃ kept : Except PyErr (Option (String × Datetime)),
      link.onLine line = kept.map (fun last => ⟨link.out ++ [line], last, none, 0⟩) ∧
      r.onLine i text = kept.map fun last => ⟨r.written ++ [ended text], last, none, 0⟩ := by
  refine ⟨_, link_onLine link line, ?_⟩
  have stamp : lineTs i text = .ok (RelayLoop.lineTs line.event.event) := by
    rw [lineTs, read]
    rfl
  rw [Relay.onLine, stamp, ← mirrors.last]
  simp only [bind, Except.bind]
  cases resumeFrom r.last (RelayLoop.lineTs line.event.event) <;> rfl

/-- Over one line after another, as long as this one does not raise. -/
theorem Mirrors.onLines {i : JsonText.Interpreter} {r r' : Relay} {link : RelayLoop.Relay}
    (mirrors : Mirrors r link) (lines : List (RemoteTail.Line × List Char))
    (read : ∀ p ∈ lines, JsonText.loads i p.2 = .ok (some (.obj p.1.event.event)))
    (relayed : (lines.map Prod.snd).foldlM (Relay.onLine i) r = .ok r') :
    ∃ link', (lines.map Prod.fst).foldlM RelayLoop.Relay.onLine link = .ok link' ∧
      Mirrors r' link' := by
  induction lines generalizing r link with
  | nil =>
    cases relayed
    exact ⟨link, rfl, mirrors⟩
  | cons p rest ih =>
    obtain ⟨kept, linked, texted⟩ := mirrors.onLine (read p (.head _))
    rw [List.map_cons, List.foldlM_cons, texted] at relayed
    rw [List.map_cons, List.foldlM_cons, linked]
    cases kept with
    | error e => cases relayed
    | ok last => exact ih ⟨rfl, rfl, rfl⟩ (fun q later => read q (.tail _ later)) relayed

/-- It sleeps as long behind an exit, and gives up with it. -/
theorem Mirrors.onExit {r : Relay} {link : RelayLoop.Relay} (mirrors : Mirrors r link)
    (toleranceS now : ℚ) : (r.onExit toleranceS now).2 = (link.onExit toleranceS now).2 ∧
      Mirrors (r.onExit toleranceS now).1 (link.onExit toleranceS now).1 := by
  simp only [Relay.onExit, RelayLoop.Relay.onExit, mirrors.blipStart, mirrors.attempt]
  split <;> exact ⟨rfl, mirrors.last, rfl, rfl⟩

end AgentRunner.RelayText
