import AgentRunner.MigrationLines

/-! A line taken from its place and put after another: what is seen of the text then. -/
namespace AgentRunner.RelocatedLines
open TextLines MigrationEdits MigrationLines

variable {table : TableSpec} {hit : Text → Bool}

/-! ## Lines joined -/

/-- The header the lines end under. -/
def headerAfter (cur : Option String) : List Text → Option String
  | [] => cur
  | line :: lines =>
    match tableHeader line with
    | some name => headerAfter (some name) lines
    | none => headerAfter cur lines

theorem seen_append (cur : Option String) (before after : List Text) :
    seen table hit cur (before ++ after) =
      (seen table hit cur before || seen table hit (headerAfter cur before) after) := by
  induction before generalizing cur with
  | nil => rfl
  | cons line rest ih =>
    rw [List.cons_append, seen, seen, headerAfter]
    cases tableHeader line with
    | some name => exact ih (some name)
    | none => simp only [ih cur, Bool.or_assoc]

theorem headerAfter_append (cur : Option String) (before after : List Text) :
    headerAfter cur (before ++ after) = headerAfter (headerAfter cur before) after := by
  induction before generalizing cur with
  | nil => rfl
  | cons line rest ih =>
    rw [List.cons_append, headerAfter, headerAfter]
    cases tableHeader line with
    | some name => exact ih (some name)
    | none => exact ih cur

/-- Under a header that is not looked under, fewer lines are seen than under any other. -/
theorem seen_uncovered {cur : Option String} (uncovered : cur.any table.covers = false)
    {lines : List Text} (shown : seen table hit cur lines = true) (cur' : Option String) :
    seen table hit cur' lines = true := by
  induction lines with
  | nil => cases shown
  | cons line rest ih =>
    rw [seen] at shown ⊢
    cases header : tableHeader line with
    | some name => rwa [header] at shown
    | none =>
      rw [header, uncovered, Bool.false_and, Bool.false_or] at shown
      simp only [ih shown, Bool.or_true]

/-- Every line has its end, or is empty. -/
def AllClosed (lines : List Text) : Prop := ∀ l ∈ lines, Closed l ∨ l = []

theorem AllClosed.pieces {before after : List Text} (closed : AllClosed before)
    (pieces : Pieces after) : Pieces (before ++ after) := by
  induction before with
  | nil => exact pieces
  | cons line rest ih =>
    rw [AllClosed, List.forall_mem_cons] at closed
    exact .cons closed.1 (ih closed.2)

theorem pieces_split {before after : List Text} (pieces : Pieces (before ++ after)) :
    Pieces after ∧ (after ≠ [] → AllClosed before) := by
  induction before with
  | nil => exact ⟨pieces, fun _ => nofun⟩
  | cons line rest ih =>
    rw [List.cons_append] at pieces
    generalize whole : rest ++ after = tail at pieces
    cases pieces with
    | last line =>
      obtain ⟨rfl, rfl⟩ := List.append_eq_nil_iff.mp whole
      exact ⟨.nil, fun some_ => absurd rfl some_⟩
    | cons closed later =>
      obtain ⟨own, others⟩ := ih (whole ▸ later)
      exact ⟨own, fun some_ => List.forall_mem_cons.mpr ⟨closed, others some_⟩⟩

theorem pieces_eraseIdx {lines : List Text} (pieces : Pieces lines) (k : Nat) :
    Pieces (lines.eraseIdx k) := by
  induction pieces generalizing k with
  | nil => exact .nil
  | last line =>
    cases k with
    | zero => exact .nil
    | succ k => exact .last line
  | cons closed rest ih =>
    cases k with
    | zero => exact rest
    | succ k => exact .cons closed (ih k)

/-! ## A line taken out -/

theorem seen_eraseIdx {lines : List Text} {k : Nat} {line : Text} (here : lines[k]? = some line)
    (header : tableHeader line = none) {cur : Option String}
    (shown : seen table hit cur (lines.eraseIdx k) = true) : seen table hit cur lines = true := by
  induction lines generalizing k cur with
  | nil => cases here
  | cons first rest ih =>
    cases k with
    | zero =>
      cases here
      rw [seen, header]
      simp only [show seen table hit cur rest = true from shown, Bool.or_true]
    | succ k =>
      rw [List.eraseIdx_cons_succ, seen] at shown
      rw [seen]
      cases other : tableHeader first with
      | some name =>
        rw [other] at shown
        exact ih here shown
      | none =>
        rw [other] at shown
        obtain own | later := Bool.or_eq_true_iff.mp shown
        · simp only [own, Bool.true_or]
        · simp only [ih here later, Bool.or_true]

/-- Without the one line that is selected none is. -/
theorem seen_eraseIdx_hit {lines : List Text} {i k : Nat} {cur : Option String}
    (one : tableHits table hit i cur lines = [i + k]) :
    seen table hit cur (lines.eraseIdx k) = false := by
  induction lines generalizing i k cur with
  | nil => cases one
  | cons line rest ih =>
    have later : ∀ cur', tableHits table hit (i + 1) cur' rest = [i + k] →
        ∃ k', k = k' + 1 ∧ seen table hit cur' (rest.eraseIdx k') = false := by
      intro cur' same
      obtain ⟨k', _, place, -⟩ := tableHits_line (same ▸ List.mem_singleton_self (i + k))
      obtain rfl : k = k' + 1 := by omega
      exact ⟨k', rfl, ih (by rw [same, show i + (k' + 1) = i + 1 + k' by omega])⟩
    rw [tableHits] at one
    cases header : tableHeader line with
    | some name =>
      rw [header] at one
      obtain ⟨k', rfl, gone⟩ := later _ one
      exact (seen_header header cur _).trans gone
    | none =>
      rw [header] at one
      simp only at one
      split at one
      · obtain ⟨place, none_⟩ := List.cons.inj one
        obtain rfl : k = 0 := by omega
        exact (seen_iff_hits (i + 1) cur rest).mpr none_
      · rename_i passed
        obtain ⟨k', rfl, gone⟩ := later _ one
        rw [List.eraseIdx_cons_succ, seen, header]
        simp only [Bool.not_eq_true _ ▸ passed, Bool.false_or, gone]

/-! ## A line put after another -/

/-- The destination is the last line of a run under the table. -/
theorem destination_spec {toTable : String} {lines : List Text} {i j : Nat}
    {cur : Option String} {found : Option Nat}
    (state : found = none ∧ cur ≠ some toTable ∨
      (∃ k, found = some k ∧ k + 1 = i) ∧ cur = some toTable)
    (place : destination toTable i cur found lines = some j) :
    ∃ before after, lines = before ++ after ∧ j + 1 = i + before.length ∧
      headerAfter cur before = some toTable := by
  have stopped : found = some j → ∃ before after, lines = before ++ after ∧
      j + 1 = i + before.length ∧ headerAfter cur before = some toTable := by
    intro same
    obtain ⟨none_, -⟩ | ⟨⟨k, some_, next⟩, under⟩ := state
    · cases none_.symm.trans same
    · cases some_.symm.trans same
      exact ⟨[], lines, rfl, next, under⟩
  induction lines generalizing i cur found with
  | nil => exact stopped place
  | cons line rest ih =>
    have later : ∀ {cur' : Option String} {found' : Option Nat},
        (found' = none ∧ cur' ≠ some toTable ∨
          (∃ k, found' = some k ∧ k + 1 = i + 1) ∧ cur' = some toTable) →
        destination toTable (i + 1) cur' found' rest = some j →
        ∃ before after, rest = before ++ after ∧ j + 1 = i + 1 + before.length ∧
          headerAfter cur' before = some toTable := by
      intro cur' found' state' place'
      refine ih state' place' fun same => ?_
      obtain ⟨none_, -⟩ | ⟨⟨k, some_, next⟩, under⟩ := state'
      · cases none_.symm.trans same
      · cases some_.symm.trans same
        exact ⟨[], rest, rfl, next, under⟩
    rw [destination] at place
    cases header : tableHeader line with
    | some name =>
      rw [header] at place
      simp only at place
      split at place
      · exact stopped place
      · rename_i apart
        have none_ : found = none := by
          obtain ⟨none_, -⟩ | ⟨⟨k, rfl, -⟩, rfl⟩ := state
          · exact none_
          · simp at apart
        refine ?_
        obtain ⟨before, after, rfl, length, under⟩ := later (by
          by_cases same : name = toTable
          · exact .inr ⟨⟨i, if_pos same, rfl⟩, congrArg some same⟩
          · exact .inl ⟨(if_neg same).trans none_, fun equal => same (Option.some.inj equal)⟩) place
        refine ⟨line :: before, after, rfl, by rw [List.length_cons]; omega, ?_⟩
        rw [headerAfter, header]
        exact under
    | none =>
      rw [header] at place
      simp only at place
      obtain ⟨before, after, rfl, length, under⟩ := later (by
        by_cases same : cur = some toTable
        · exact .inr ⟨⟨i, if_pos same, rfl⟩, same⟩
        · obtain ⟨none_, -⟩ | ⟨-, under⟩ := state
          · exact .inl ⟨(if_neg same).trans none_, same⟩
          · exact absurd under same) place
      refine ⟨line :: before, after, rfl, by rw [List.length_cons]; omega, ?_⟩
      rw [headerAfter, header]
      exact under

theorem insertIdx_append (before after : List Text) (line : Text) :
    (before ++ after).insertIdx before.length line = before ++ line :: after := by
  induction before with
  | nil => rfl
  | cons first rest ih => rw [List.cons_append, List.length_cons, List.insertIdx_succ_cons, ih]; rfl

/-- The line is no header and not selected, whatever follows it. -/
def Unseen (hit : Text → Bool) (line : Text) : Prop :=
  ∀ more, tableHeader (line ++ more) = none ∧ hit (line ++ more) = false

theorem tableHeader_append {line : Text} {name : String} (header : tableHeader line = some name)
    (more : Text) : tableHeader (line ++ more) = some name := by
  unfold tableHeader lstrip at header ⊢
  obtain space | ⟨c, rest, -, dropped⟩ := dropWhile_split isSpace line
  · rw [List.dropWhile_eq_nil_iff.mpr space] at header
    cases header
  · have alone := dropped []
    rw [List.append_nil, List.append_nil] at alone
    rw [alone] at header
    rw [dropped more]
    by_cases bracket : c = '['
    · subst bracket
      simp only at header ⊢
      by_cases open_ : (rest.takeWhile (· != ']')).length = rest.length
      · rw [open_, List.drop_length] at header
        simp at header
      · have read := name_closed open_ []
        rw [List.append_nil] at read
        rw [read.2] at header
        rw [(name_closed open_ more).1, (name_closed open_ more).2]
        exact header
    · split at header
      · rename_i same
        exact absurd (List.cons.inj same).1 bracket
      · cases header

section Moved
variable {toTable : String} {moved : Text} (blind : EndBlind hit)
  (uncovered : table.covers toTable = false) (unseen : Unseen hit moved)

include uncovered in
/-- A last line under a table that is not looked under shows nothing, whatever is joined to
it. -/
theorem seen_last {init : List Text} {b : Text}
    (under : headerAfter none (init ++ [b]) = some toTable) (more : Text) :
    seen table hit (headerAfter none init) [b ++ more] = false := by
  rw [headerAfter_append, headerAfter] at under
  cases header : tableHeader b with
  | some name => exact seen_header (tableHeader_append header more) _ []
  | none =>
    rw [header] at under
    rw [show headerAfter none init = some toTable from under, seen]
    split
    · rfl
    · simp [uncovered, seen]

include blind uncovered unseen in
/-- A line put after the last one of a run shows nothing new, even where it lacks its end and
swallows the line that follows. -/
theorem seen_moved {before after : List Text} (line : Line moved)
    (pieces : Pieces (before ++ after)) (filled : ∀ l ∈ after, l ≠ [])
    (under : headerAfter none before = some toTable)
    (shown : seen table hit none (splitLines (before ++ moved :: after).flatten) = true) :
    seen table hit none (before ++ after) = true := by
  obtain ⟨later, earlier⟩ := pieces_split pieces
  have alone := unseen []
  rw [List.append_nil] at alone
  cases after with
  | nil =>
    obtain rfl | ⟨init, b, rfl⟩ := List.eq_nil_or_concat before
    · cases under
    · rw [List.concat_eq_append] at *
      rw [List.append_nil] at pieces ⊢
      obtain ⟨last, init_⟩ := pieces_split pieces
      have closed := init_ (List.cons_ne_nil _ _)
      obtain ends | open_ := last.head.cases
      · have all : AllClosed (init ++ [b]) :=
          List.forall_mem_append.mpr ⟨closed, List.forall_mem_singleton.mpr (.inl ends)⟩
        rw [seen_flatten blind (all.pieces (.last line)), seen_append,
          seen_plain alone.1 alone.2] at shown
        simpa [seen] using shown
      · have joined : (init ++ [b] ++ [moved]).flatten = (init ++ [b ++ moved]).flatten := by simp
        rw [joined, seen_flatten blind (closed.pieces (.last (open_.line line))), seen_append,
          seen_last uncovered under, Bool.or_false] at shown
        rw [seen_append, shown, Bool.true_or]
  | cons a as =>
    have closed := earlier (List.cons_ne_nil _ _)
    rw [seen_append, under]
    obtain ends | open_ := line.cases
    · rw [seen_flatten blind (closed.pieces (.cons (.inl ends) later)), seen_append, under,
        seen_plain alone.1 alone.2] at shown
      exact shown
    · have joined : (before ++ moved :: a :: as).flatten =
          (before ++ (moved ++ a) :: as).flatten := by
        simp
      have swallowed : Pieces ((moved ++ a) :: as) := by
        cases later with
        | last line => exact .last (open_.line line)
        | cons ends rest =>
          exact .cons (.inl (open_.closed (ends.resolve_right (filled a (.head _))))) rest
      rw [joined, seen_flatten blind (closed.pieces swallowed), seen_append, under,
        seen_plain (unseen a).1 (unseen a).2] at shown
      obtain before_ | after_ := Bool.or_eq_true_iff.mp shown
      · rw [before_, Bool.true_or]
      · rw [Bool.or_eq_true_iff]
        refine .inr ?_
        rw [seen]
        split
        · exact seen_uncovered (by simp [uncovered]) after_ _
        · rw [after_, Bool.or_true]

include blind in
/-- Ending the last line shows nothing new. -/
theorem endLastLine_closed {lines : List Text} (pieces : Pieces lines) :
    ∃ ended, AllClosed ended ∧ ended.flatten = (endLastLine lines).flatten ∧
      ∀ cur, seen table hit cur ended = seen table hit cur lines := by
  obtain rfl | ⟨init, last, rfl⟩ := List.eq_nil_or_concat lines
  · exact ⟨[], nofun, rfl, fun _ => rfl⟩
  · rw [List.concat_eq_append] at *
    obtain ⟨own, init_⟩ := pieces_split pieces
    have closed := init_ (List.cons_ne_nil _ _)
    rw [endLastLine, List.getLast?_concat]
    simp only
    split
    · rename_i newline
      refine ⟨init ++ [last], List.forall_mem_append.mpr ⟨closed, ?_⟩, rfl, fun _ => rfl⟩
      refine List.forall_mem_singleton.mpr (.inl (own.head.cases.resolve_right fun plain => ?_))
      have member := List.mem_of_getLast? (beq_iff_eq.mp newline)
      exact absurd (plain _ member) (by decide)
    · rw [List.dropLast_concat]
      obtain ends | plain := own.head.cases
      · refine ⟨init ++ [last, ['\n']], List.forall_mem_append.mpr ⟨closed, ?_⟩, by simp, ?_⟩
        · simp only [List.forall_mem_cons]
          exact ⟨.inl ends, .inl ⟨[], _, rfl, nofun, .single '\n' rfl, nofun⟩, nofun⟩
        · intro cur
          rw [seen_append, seen_append]
          exact congrArg _ (seen_cons_congr fun cur => seen_newline blind cur [])
      · refine ⟨init ++ [last ++ ['\n']], List.forall_mem_append.mpr ⟨closed, ?_⟩, by simp, ?_⟩
        · refine List.forall_mem_singleton.mpr (.inl ⟨last, _, rfl, plain, .single '\n' rfl, nofun⟩)
        · intro cur
          rw [seen_append, seen_append, seen_congr blind (.single '\n' rfl) .missing,
            List.append_nil]

include blind unseen in
/-- A line put at the end of the text under a header of its own shows nothing new. -/
theorem seen_appended {lines : List Text} {header : Text} (line : Line moved)
    (pieces : Pieces lines) (closed : Closed header) (named : tableHeader header = some toTable)
    (shown : seen table hit none (splitLines (endLastLine lines ++ [header, moved]).flatten) =
      true) : seen table hit none lines = true := by
  have alone := unseen []
  rw [List.append_nil] at alone
  obtain ⟨ended, all, same, kept⟩ := @endLastLine_closed table hit blind lines pieces
  rw [List.flatten_append, ← same, ← List.flatten_append,
    seen_flatten blind (all.pieces (.cons (.inl closed) (.last line))), seen_append, kept,
    seen_header named, seen_plain alone.1 alone.2] at shown
  simpa [seen] using shown

end Moved

end AgentRunner.RelocatedLines
