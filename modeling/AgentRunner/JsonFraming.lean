import AgentRunner.JsonText

/-! What can stand before a JSON object on its line. A document read inside open
containers leaves them open, and one read where no value is due is rejected, so
nothing but white space in front of an object leaves it a document. -/
namespace AgentRunner.JsonFraming
open PyValue JsonText

/-- The text reads as a document from `s` on. -/
def Reads (i : Interpreter) (s : State) (text : List Char) : Prop :=
  ∃ v, run i s text >>= finish i = .ok v

theorem loads_reads {i : Interpreter} {text : List Char} {v : Json}
    (loaded : loads i text = .ok (some v)) : Reads i start text := by
  unfold loads at loaded
  split at loaded
  · exact ⟨_, by assumption⟩
  · cases loaded
  · cases loaded

theorem reads_cons {i : Interpreter} {s : State} {c : Char} {rest : List Char}
    (reads : Reads i s (c :: rest)) : ∃ s', step i s c = .ok s' ∧ Reads i s' rest := by
  obtain ⟨v, ran⟩ := reads
  rw [run, List.foldlM_cons] at ran
  cases stepped : step i s c with
  | error stop => rw [stepped] at ran; cases ran
  | ok s' => exact ⟨s', rfl, v, by rwa [stepped] at ran⟩

theorem reads_append {i : Interpreter} {s : State} {left right : List Char}
    (reads : Reads i s (left ++ right)) : ∃ s', run i s left = .ok s' ∧ Reads i s' right := by
  obtain ⟨v, ran⟩ := reads
  rw [run, List.foldlM_append] at ran
  cases first : run i s left with
  | error stop =>
    rw [run] at first
    rw [first] at ran
    cases ran
  | ok s' =>
    rw [run] at first
    exact ⟨s', rfl, v, by rwa [first] at ran⟩

/-! ## Reading above open containers -/

/-- The state `s` with the containers of `below` open around its document. -/
def lift (below : List Frame) (s : State) : Except Stop State :=
  match s.mode with
  | .done v => deliver v below
  | mode => .ok ⟨mode, s.stack ++ below⟩

/-- The outcome is the expected one, unless reading stopped. -/
def Follows (outcome expected : Except Stop State) : Prop :=
  outcome = expected ∨ ∃ stop, outcome = .error stop

theorem deliver_lift {v : Json} {stack : List Frame} {s : State}
    (delivered : deliver v stack = .ok s) (below : List Frame) :
    deliver v (stack ++ below) = lift below s := by
  cases stack with
  | nil => cases delivered; rfl
  | cons frame rest =>
    cases frame with
    | obj fields => cases delivered
    | field fields key => cases delivered; rfl
    | arr items => cases delivered; rfl

theorem close_lift {stack : List Frame} {c : Char} {s : State} (closed : close stack c = .ok s)
    (below : List Frame) : close (stack ++ below) c = lift below s := by
  cases stack with
  | nil => cases closed
  | cons frame rest =>
    cases frame with
    | field fields key => cases closed
    | obj fields =>
      simp only [close, List.cons_append] at closed ⊢
      split at closed
      · rename_i ends
        rw [if_pos ends]
        exact deliver_lift closed below
      · cases closed
    | arr items =>
      simp only [close, List.cons_append] at closed ⊢
      split at closed
      · rename_i ends
        rw [if_pos ends]
        exact deliver_lift closed below
      · cases closed

theorem afterValue_ws (s : State) {c : Char} (ws : isWs c = true) : afterValue s c = .ok s := by
  rw [afterValue, if_pos ws]

theorem afterValue_lift {s s' : State} {c : Char} (after : afterValue s c = .ok s')
    (below : List Frame) :
    Follows (lift below s >>= fun t => afterValue t c) (lift below s') := by
  by_cases ws : isWs c = true
  · rw [afterValue_ws s ws] at after
    cases after
    cases lift below s with
    | error stop => exact .inr ⟨stop, rfl⟩
    | ok t => exact .inl (afterValue_ws t ws)
  · rw [afterValue, if_neg ws] at after
    obtain ⟨mode, stack⟩ := s
    split at after
    · rename_i fields rest same shape
      cases same
      cases shape
      left
      change afterValue ⟨.next, .obj fields :: (rest ++ below)⟩ c = _
      rw [afterValue, if_neg ws]
      split at after
      · rename_i comma
        cases after
        exact if_pos comma
      · rename_i other
        exact (if_neg other).trans (close_lift after below)
    · rename_i items rest same shape
      cases same
      cases shape
      left
      change afterValue ⟨.next, .arr items :: (rest ++ below)⟩ c = _
      rw [afterValue, if_neg ws]
      split at after
      · rename_i comma
        cases after
        exact if_pos comma
      · rename_i other
        exact (if_neg other).trans (close_lift after below)
    · cases after

theorem lift_unfinished {mode : Mode} (unfinished : ∀ v, mode ≠ .done v)
    (below stack : List Frame) : lift below ⟨mode, stack⟩ = .ok ⟨mode, stack ++ below⟩ := by
  cases mode with
  | done v => exact absurd rfl (unfinished v)
  | _ => rfl

theorem enter_lift {i : Interpreter} {mode : Mode} {frame : Frame} {stack : List Frame} {s : State}
    (entered : enter i mode frame stack = .ok s) (below : List Frame)
    (unfinished : ∀ v, mode ≠ .done v) :
    Follows (enter i mode frame (stack ++ below)) (lift below s) := by
  simp only [enter] at entered ⊢
  split at entered
  · cases entered
  · cases entered
    split
    · exact .inr ⟨_, rfl⟩
    · exact .inl (lift_unfinished unfinished below (frame :: stack)).symm

/-- A mode that a value can begin with: what it goes on in is neither another value nor
its end, and a literal goes on in letters. -/
structure Begins (mode : Mode) : Prop where
  value : mode ≠ .value
  firstItem : mode ≠ .firstItem
  unfinished : ∀ v, mode ≠ .done v
  letters : ∀ rest v, mode = .literal rest v → '{' ∉ rest

theorem literal_begins {rest : List Char} {v : Json} (letters : '{' ∉ rest) :
    Begins (.literal rest v) :=
  ⟨nofun, nofun, nofun, fun _ _ same => by cases same; exact letters⟩

/-- What begins a value does not depend on the containers around it, unless it opens
another. -/
theorem startValue_cases (i : Interpreter) (c : Char) :
    (∃ mode, Begins mode ∧ ∀ stack, startValue i stack c = .ok ⟨mode, stack⟩) ∨
    (∃ mode frame, (mode = .firstKey ∨ mode = .firstItem) ∧
      ∀ stack, startValue i stack c = enter i mode frame stack) ∨
    ∀ stack, startValue i stack c = .error .malformed := by
  unfold startValue
  by_cases quote : c = '"'
  · exact .inl ⟨.text false [], ⟨nofun, nofun, nofun, nofun⟩, fun _ => if_pos quote⟩
  by_cases brace : c = '{'
  · exact .inr (.inl ⟨_, _, .inl rfl, fun _ => (if_neg quote).trans (if_pos brace)⟩)
  simp only [if_neg quote, if_neg brace]
  by_cases bracket : c = '['
  · exact .inr (.inl ⟨_, _, .inr rfl, fun _ => if_pos bracket⟩)
  simp only [if_neg bracket]
  by_cases null : c = 'n'
  · exact .inl ⟨_, literal_begins (by decide), fun _ => if_pos null⟩
  simp only [if_neg null]
  by_cases yes : c = 't'
  · exact .inl ⟨_, literal_begins (by decide), fun _ => if_pos yes⟩
  simp only [if_neg yes]
  by_cases no : c = 'f'
  · exact .inl ⟨_, literal_begins (by decide), fun _ => if_pos no⟩
  simp only [if_neg no]
  by_cases nan : c = 'N'
  · exact .inl ⟨_, literal_begins (by decide), fun _ => if_pos nan⟩
  simp only [if_neg nan]
  by_cases infinity : c = 'I'
  · exact .inl ⟨_, literal_begins (by decide), fun _ => if_pos infinity⟩
  simp only [if_neg infinity]
  by_cases number : c = '-' ∨ isDigit c = true
  · exact .inl ⟨.number [c], ⟨nofun, nofun, nofun, nofun⟩, fun _ => if_pos number⟩
  · exact .inr (.inr fun _ => if_neg number)

theorem startValue_lift {i : Interpreter} {stack : List Frame} {c : Char} {s : State}
    (started : startValue i stack c = .ok s) (below : List Frame) :
    Follows (startValue i (stack ++ below) c) (lift below s) := by
  obtain ⟨mode, begins, same⟩ | ⟨mode, frame, opens, same⟩ | malformed := startValue_cases i c
  · rw [same] at started ⊢
    cases started
    exact .inl (lift_unfinished begins.unfinished below stack).symm
  · rw [same] at started ⊢
    refine enter_lift started below fun v done => ?_
    obtain rfl | rfl := opens <;> cases done
  · rw [malformed] at started
    cases started

theorem textStep_lift {isKey : Bool} {units : List Nat} {stack : List Frame} {c : Char} {s : State}
    (stepped : textStep isKey units stack c = .ok s) (below : List Frame) :
    Follows (textStep isKey units (stack ++ below) c) (lift below s) := by
  unfold textStep at stepped ⊢
  dsimp only at stepped ⊢
  split_ifs at stepped ⊢
  case pos => cases stepped; exact .inl rfl
  case neg => exact .inl (deliver_lift stepped below)
  all_goals cases stepped
  all_goals exact .inl rfl

theorem escapeStep_lift {isKey : Bool} {units : List Nat} {stack : List Frame} {c : Char}
    {s : State} (stepped : escapeStep isKey units stack c = .ok s) (below : List Frame) :
    Follows (escapeStep isKey units (stack ++ below) c) (lift below s) := by
  unfold escapeStep at stepped ⊢
  split_ifs at stepped ⊢
  · cases stepped
    exact .inl rfl
  · cases known : escapes.lookup c with
    | none => rw [known] at stepped; cases stepped
    | some unit => rw [known] at stepped; cases stepped; exact .inl rfl

theorem hexStep_lift {isKey : Bool} {units : List Nat} {read unit : Nat} {stack : List Frame}
    {c : Char} {s : State} (stepped : hexStep isKey units read unit stack c = .ok s)
    (below : List Frame) :
    Follows (hexStep isKey units read unit (stack ++ below) c) (lift below s) := by
  unfold hexStep at stepped ⊢
  cases known : hexDigit? c with
  | none => rw [known] at stepped; cases stepped
  | some digit =>
    rw [known] at stepped
    dsimp only at stepped ⊢
    split_ifs at stepped ⊢ <;> cases stepped
    · exact .inl rfl
    · exact .inl rfl

/-- Reading goes on after a delivered value as after any value. -/
theorem deliver_step {i : Interpreter} {v : Json} {stack : List Frame} {s : State}
    (delivered : deliver v stack = .ok s) (c : Char) : step i s c = afterValue s c := by
  cases stack with
  | nil => cases delivered; rfl
  | cons frame rest => cases frame <;> cases delivered <;> rfl

/-- A character that a number does not go on in delivers it, and stands behind a value. -/
theorem number_ends {i : Interpreter} {token : List Char} {stack : List Frame} {c : Char}
    {s : State} (stepped : (do
      let v ← readNumber i token
      let t ← deliver v stack
      afterValue t c) = .ok s) :
    ∃ v t, readNumber i token = .ok v ∧ deliver v stack = .ok t ∧ afterValue t c = .ok s := by
  cases known : readNumber i token with
  | error stop => rw [known] at stepped; cases stepped
  | ok v =>
    rw [known] at stepped
    cases delivered : deliver v stack with
    | error stop => simp only [delivered, bind, Except.bind] at stepped; cases stepped
    | ok t =>
      simp only [delivered, bind, Except.bind] at stepped
      exact ⟨v, t, rfl, delivered, stepped⟩

/-- A step taken above open containers is the step taken without them, but for the
nesting it may find too deep. -/
theorem step_lift {i : Interpreter} {s s' : State} {c : Char} (stepped : step i s c = .ok s')
    (below : List Frame) : Follows (lift below s >>= fun t => step i t c) (lift below s') := by
  obtain ⟨mode, stack⟩ := s
  cases mode with
  | value =>
    change Follows (step i ⟨.value, stack ++ below⟩ c) _
    simp only [step] at stepped ⊢
    split_ifs at stepped ⊢
    · cases stepped
      exact .inl rfl
    · exact startValue_lift stepped below
  | firstItem =>
    change Follows (step i ⟨.firstItem, stack ++ below⟩ c) _
    simp only [step] at stepped ⊢
    split_ifs at stepped ⊢
    · cases stepped
      exact .inl rfl
    · exact .inl (close_lift stepped below)
    · exact startValue_lift stepped below
  | firstKey =>
    change Follows (step i ⟨.firstKey, stack ++ below⟩ c) _
    simp only [step] at stepped ⊢
    split_ifs at stepped ⊢
    · cases stepped
      exact .inl rfl
    · cases stepped
      exact .inl rfl
    · exact .inl (close_lift stepped below)
  | key =>
    change Follows (step i ⟨.key, stack ++ below⟩ c) _
    simp only [step] at stepped ⊢
    split_ifs at stepped ⊢ <;> cases stepped
    · exact .inl rfl
    · exact .inl rfl
  | colon key =>
    change Follows (step i ⟨.colon key, stack ++ below⟩ c) _
    simp only [step] at stepped ⊢
    by_cases ws : isWs c = true
    · rw [if_pos ws] at stepped ⊢
      cases stepped
      exact .inl rfl
    · rw [if_neg ws] at stepped ⊢
      split at stepped
      · split at stepped <;> cases stepped
        rename_i colon
        exact .inl (if_pos colon)
      · cases stepped
  | next => exact afterValue_lift stepped below
  | done v =>
    change afterValue _ c = _ at stepped
    by_cases ws : isWs c = true
    · rw [afterValue_ws _ ws] at stepped
      cases stepped
      change Follows (deliver v below >>= _) (deliver v below)
      cases delivered : deliver v below with
      | error stop => exact .inr ⟨stop, rfl⟩
      | ok t => exact .inl ((deliver_step delivered c).trans (afterValue_ws t ws))
    · rw [afterValue, if_neg ws] at stepped
      cases stepped
  | text isKey units => exact textStep_lift stepped below
  | escape isKey units => exact escapeStep_lift stepped below
  | hex isKey units read unit => exact hexStep_lift stepped below
  | number token =>
    change Follows (step i ⟨.number token, stack ++ below⟩ c) _
    simp only [step] at stepped ⊢
    split_ifs at stepped ⊢
    · cases stepped
      exact .inl rfl
    · cases stepped
      exact .inl rfl
    · obtain ⟨v, t, known, delivered, after⟩ := number_ends stepped
      rw [known]
      simp only [bind, Except.bind]
      rw [deliver_lift delivered below]
      exact afterValue_lift after below
  | literal rest v =>
    change Follows (step i ⟨.literal rest v, stack ++ below⟩ c) _
    simp only [step] at stepped ⊢
    split_ifs at stepped ⊢
    · exact .inl (deliver_lift stepped below)
    · cases stepped
      exact .inl rfl

theorem run_lift {i : Interpreter} {text : List Char} {s s' : State}
    (ran : run i s text = .ok s') (below : List Frame) :
    Follows (lift below s >>= fun t => run i t text) (lift below s') := by
  induction text generalizing s with
  | nil =>
    obtain rfl : s = s' := Except.ok.inj ran
    cases lift below s with
    | error stop => exact .inr ⟨stop, rfl⟩
    | ok t => exact .inl rfl
  | cons c text ih =>
    rw [run, List.foldlM_cons] at ran
    cases stepped : step i s c with
    | error stop => rw [stepped] at ran; cases ran
    | ok middle =>
      rw [stepped] at ran
      have follows := step_lift stepped below
      cases lifted : lift below s with
      | error stop => exact .inr ⟨stop, rfl⟩
      | ok t =>
        rw [lifted] at follows
        change Follows (run i t (c :: text)) _
        rw [run, List.foldlM_cons]
        rcases follows with same | ⟨stop, stopped⟩
        · change step i t c = _ at same
          rw [same]
          exact ih ran
        · change step i t c = _ at stopped
          rw [stopped]
          exact .inr ⟨stop, rfl⟩

/-- **A document leaves the containers around it open.**  So the text that ends
with it is none. -/
theorem not_reads_nested {i : Interpreter} {text : List Char} (reads : Reads i start text)
    {stack : List Frame} (open_ : stack ≠ []) : ¬ Reads i ⟨.value, stack⟩ text := by
  obtain ⟨v, whole⟩ := reads
  rintro ⟨w, nested⟩
  cases ran : run i start text with
  | error stop => rw [ran] at whole; cases whole
  | ok s =>
    rw [ran] at whole
    have follows := run_lift ran stack
    change Follows (run i ⟨.value, stack⟩ text) _ at follows
    rcases follows with same | ⟨stop, stopped⟩
    · rw [same] at nested
      obtain ⟨mode, rest⟩ := s
      change finish i ⟨mode, rest⟩ = .ok v at whole
      cases mode with
      | done u =>
        change deliver u stack >>= finish i = .ok w at nested
        cases stack with
        | nil => exact open_ rfl
        | cons frame stack => cases frame <;> cases nested
      | number token =>
        change finish i ⟨.number token, rest ++ stack⟩ = .ok w at nested
        have still : rest ++ stack ≠ [] := List.append_ne_nil_of_right_ne_nil rest open_
        cases known : readNumber i token with
        | error stop => simp [finish, known, bind, Except.bind] at nested
        | ok u => simp [finish, known, bind, Except.bind, still] at nested
      | _ => cases whole
    · rw [stopped] at nested
      cases nested

/-! ## What stands before the document -/

/-- A state in which reading has begun: a value is due only inside a container, and
a literal goes on in letters. -/
structure Inside (s : State) : Prop where
  nested : s.mode = .value ∨ s.mode = .firstItem → s.stack ≠ []
  letters : ∀ rest v, s.mode = .literal rest v → '{' ∉ rest

theorem deliver_inside {v : Json} {stack : List Frame} {s : State}
    (delivered : deliver v stack = .ok s) : Inside s := by
  cases stack with
  | nil => cases delivered; exact ⟨nofun, nofun⟩
  | cons frame rest => cases frame <;> cases delivered <;> exact ⟨nofun, nofun⟩

theorem close_inside {stack : List Frame} {c : Char} {s : State} (closed : close stack c = .ok s) :
    Inside s := by
  unfold close at closed
  split at closed
  · split at closed
    · exact deliver_inside closed
    · cases closed
  · split at closed
    · exact deliver_inside closed
    · cases closed
  · cases closed

theorem enter_inside {i : Interpreter} {mode : Mode} {frame : Frame} {stack : List Frame}
    {s : State} (entered : enter i mode frame stack = .ok s)
    (other : ∀ rest v, mode ≠ .literal rest v) : Inside s := by
  unfold enter at entered
  split at entered <;> cases entered
  exact ⟨fun _ => List.cons_ne_nil _ _, fun rest v same => absurd same (other rest v)⟩

theorem literal_inside {rest : List Char} {v : Json} {stack : List Frame}
    (letters : '{' ∉ rest) : Inside ⟨.literal rest v, stack⟩ :=
  ⟨nofun, fun _ _ same => by cases same; exact letters⟩

theorem startValue_inside {i : Interpreter} {stack : List Frame} {c : Char} {s : State}
    (started : startValue i stack c = .ok s) : Inside s := by
  obtain ⟨mode, begins, same⟩ | ⟨mode, frame, opens, same⟩ | malformed := startValue_cases i c
  · rw [same] at started
    cases started
    exact ⟨Or.rec (absurd · begins.value) (absurd · begins.firstItem), begins.letters⟩
  · rw [same] at started
    refine enter_inside started fun rest v literal => ?_
    obtain rfl | rfl := opens <;> cases literal
  · rw [malformed] at started
    cases started

theorem afterValue_inside {s s' : State} {c : Char} (inside : Inside s)
    (after : afterValue s c = .ok s') : Inside s' := by
  unfold afterValue at after
  split at after
  · cases after
    exact inside
  · split at after
    · split at after
      · cases after
        exact ⟨nofun, nofun⟩
      · exact close_inside after
    · rename_i shape
      split at after
      · cases after
        exact ⟨fun _ => by rw [shape]; exact List.cons_ne_nil _ _, nofun⟩
      · exact close_inside after
    · cases after

theorem step_inside {i : Interpreter} {s s' : State} {c : Char} (inside : Inside s)
    (stepped : step i s c = .ok s') : Inside s' := by
  obtain ⟨mode, stack⟩ := s
  cases mode with
  | value =>
    simp only [step] at stepped
    split at stepped
    · cases stepped
      exact inside
    · exact startValue_inside stepped
  | firstItem =>
    simp only [step] at stepped
    split_ifs at stepped
    · cases stepped
      exact inside
    · exact close_inside stepped
    · exact startValue_inside stepped
  | firstKey =>
    simp only [step] at stepped
    split_ifs at stepped
    · cases stepped
      exact inside
    · cases stepped
      exact ⟨nofun, nofun⟩
    · exact close_inside stepped
  | key =>
    simp only [step] at stepped
    split_ifs at stepped <;> cases stepped
    · exact inside
    · exact ⟨nofun, nofun⟩
  | colon key =>
    simp only [step] at stepped
    split at stepped
    · cases stepped
      exact inside
    · split at stepped
      · split at stepped <;> cases stepped
        exact ⟨fun _ => List.cons_ne_nil _ _, nofun⟩
      · cases stepped
  | next => exact afterValue_inside inside stepped
  | done v => exact afterValue_inside inside stepped
  | text isKey units =>
    simp only [step, textStep] at stepped
    split_ifs at stepped
    case neg => exact deliver_inside stepped
    all_goals cases stepped
    all_goals exact ⟨nofun, nofun⟩
  | escape isKey units =>
    simp only [step, escapeStep] at stepped
    split at stepped
    · cases stepped
      exact ⟨nofun, nofun⟩
    · split at stepped <;> cases stepped
      exact ⟨nofun, nofun⟩
  | hex isKey units read unit =>
    simp only [step, hexStep] at stepped
    split at stepped
    · cases stepped
    · split at stepped <;> cases stepped <;> exact ⟨nofun, nofun⟩
  | number token =>
    simp only [step] at stepped
    split_ifs at stepped
    · cases stepped
      exact ⟨nofun, nofun⟩
    · cases stepped
      exact literal_inside (by decide)
    · obtain ⟨v, t, -, delivered, after⟩ := number_ends stepped
      exact afterValue_inside (deliver_inside delivered) after
  | literal rest v =>
    simp only [step] at stepped
    split_ifs at stepped
    · exact deliver_inside stepped
    · cases stepped
      exact literal_inside fun member => inside.letters rest v rfl (List.mem_of_mem_tail member)

theorem close_opening (stack : List Frame) : ∃ stop, close stack '{' = .error stop := by
  cases stack with
  | nil => exact ⟨_, rfl⟩
  | cons frame rest => cases frame <;> exact ⟨_, rfl⟩

theorem afterValue_opening (s : State) : ∃ stop, afterValue s '{' = .error stop := by
  obtain ⟨mode, stack⟩ := s
  unfold afterValue
  rw [if_neg (by decide)]
  dsimp only
  split
  · rw [if_neg (by decide)]
    exact close_opening _
  · rw [if_neg (by decide)]
    exact close_opening _
  · exact ⟨_, rfl⟩

theorem afterValue_letter (s : State) : ∃ stop, afterValue s 't' = .error stop := by
  obtain ⟨mode, stack⟩ := s
  unfold afterValue
  rw [if_neg (by decide)]
  dsimp only
  split
  · exact ⟨_, rfl⟩
  · exact ⟨_, rfl⟩
  · exact ⟨_, rfl⟩

/-- An open string ends at the first quote of the object, and the letter after it
fits nothing that can follow a string. -/
theorem not_reads_text {i : Interpreter} {isKey : Bool} {units : List Nat} {stack : List Frame}
    (rest : List Char) : ¬ Reads i ⟨.text isKey units, stack⟩ ('"' :: 't' :: rest) := by
  intro reads
  obtain ⟨s, closed, reads⟩ := reads_cons reads
  obtain ⟨s', after, -⟩ := reads_cons reads
  cases isKey with
  | true => cases closed; cases stack with
    | nil => cases after
    | cons frame stack => cases frame <;> cases after
  | false =>
    change deliver _ stack = .ok s at closed
    rw [deliver_step closed] at after
    obtain ⟨stop, stopped⟩ := afterValue_letter s
    rw [stopped] at after
    cases after

/-- **Nothing stands before an object.**  Once reading has begun, a text that goes
on with a document is none itself, if the document is an object whose first key
starts with the letter every event starts with. -/
theorem not_reads_inside {i : Interpreter} {s : State} (inside : Inside s) {rest : List Char}
    (document : Reads i start ('{' :: '"' :: 't' :: rest)) :
    ¬ Reads i s ('{' :: '"' :: 't' :: rest) := by
  intro reads
  obtain ⟨s', stepped, after⟩ := reads_cons reads
  obtain ⟨mode, stack⟩ := s
  have rejected {outcome : Except Stop State} (stops : ∃ stop, outcome = .error stop)
      (same : outcome = .ok s') : False := by
    obtain ⟨stop, stopped⟩ := stops
    rw [stopped] at same
    cases same
  cases mode with
  | value => exact not_reads_nested document (inside.nested (.inl rfl)) reads
  | firstItem => exact not_reads_nested document (inside.nested (.inr rfl)) reads
  | firstKey => exact rejected (close_opening stack) stepped
  | key => cases stepped
  | colon key => cases stack with
    | nil => cases stepped
    | cons frame stack => cases frame <;> cases stepped
  | next => exact rejected (afterValue_opening _) stepped
  | done v => exact rejected (afterValue_opening _) stepped
  | text isKey units =>
    cases stepped
    exact not_reads_text rest after
  | escape isKey units => cases stepped
  | hex isKey units read unit => cases stepped
  | number token =>
    simp only [step, show inNumber '{' = false from rfl] at stepped
    rw [if_neg (by simp), if_neg (by simp)] at stepped
    obtain ⟨v, t, -, -, after⟩ := number_ends stepped
    exact rejected (afterValue_opening t) after
  | literal letters v =>
    have absent := inside.letters letters v rfl
    simp only [step] at stepped
    rw [if_neg (by rintro rfl; exact absent (.head _)),
      if_neg fun first => absent (List.mem_of_head? first)] at stepped
    cases stepped

theorem run_inside {i : Interpreter} {text : List Char} {s s' : State} (inside : Inside s)
    (ran : run i s text = .ok s') : Inside s' := by
  induction text generalizing s with
  | nil => cases ran; exact inside
  | cons c text ih =>
    rw [run, List.foldlM_cons] at ran
    cases stepped : step i s c with
    | error stop => rw [stepped] at ran; cases ran
    | ok middle =>
      rw [stepped] at ran
      exact ih (step_inside inside stepped) ran

/-- So a text with anything but JSON's white space in front of an event is no document. -/
theorem loads_before {i : Interpreter} {c : Char} (solid : isWs c = false)
    {before rest : List Char} (document : Reads i start ('{' :: '"' :: 't' :: rest)) (v : Json) :
    loads i (c :: before ++ '{' :: '"' :: 't' :: rest) ≠ .ok (some v) := by
  intro loaded
  obtain ⟨s, ran, reads⟩ := reads_append (loads_reads loaded)
  refine not_reads_inside ?_ document reads
  rw [run, List.foldlM_cons] at ran
  cases stepped : step i start c with
  | error stop => rw [stepped] at ran; cases ran
  | ok middle =>
    rw [stepped] at ran
    simp only [step, start, solid] at stepped
    exact run_inside (startValue_inside stepped) ran

end AgentRunner.JsonFraming
