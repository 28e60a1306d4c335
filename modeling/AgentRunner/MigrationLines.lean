import AgentRunner.MigrationEdits

/-! The lines that a rewrite looks for, and which of them a text still has when it is put
together again from edited lines. -/
namespace AgentRunner.MigrationLines
open TextLines MigrationEdits

/-! ## A line and its end -/

/-- No character ends a line. -/
def Plain (t : Text) : Prop := ∀ c ∈ t, isBoundary c = false

/-- What a line ends with: nothing, where it is the last one, or a boundary. -/
inductive Ending : Text → Prop where
  | missing : Ending []
  | single (c : Char) : isBoundary c = true → Ending [c]
  | crlf : Ending ['\r', '\n']

/-- A line with its end, which may be missing. -/
def Line (l : Text) : Prop := ∃ body ending, l = body ++ ending ∧ Plain body ∧ Ending ending

/-- A line whose end is there. -/
def Closed (l : Text) : Prop :=
  ∃ body ending, l = body ++ ending ∧ Plain body ∧ Ending ending ∧ ending ≠ []

theorem Closed.line {l : Text} (closed : Closed l) : Line l := by
  obtain ⟨body, ending, made, plain, ends, -⟩ := closed
  exact ⟨body, ending, made, plain, ends⟩

theorem Ending.boundary {ending : Text} (ends : Ending ending) :
    ∀ c ∈ ending, isBoundary c = true := by
  cases ends with
  | missing => nofun
  | single c boundary => exact List.forall_mem_singleton.mpr boundary
  | crlf => exact List.forall_mem_cons.mpr ⟨rfl, List.forall_mem_singleton.mpr rfl⟩

theorem Plain.append {t u : Text} (first : Plain t) (second : Plain u) : Plain (t ++ u) :=
  List.forall_mem_append.mpr ⟨first, second⟩

theorem Plain.left {t u : Text} (plain : Plain (t ++ u)) : Plain t :=
  (List.forall_mem_append.mp plain).1

theorem Plain.right {t u : Text} (plain : Plain (t ++ u)) : Plain u :=
  (List.forall_mem_append.mp plain).2

theorem Line.cases {l : Text} (line : Line l) : Closed l ∨ Plain l := by
  obtain ⟨body, ending, rfl, plain, ends⟩ := line
  by_cases open_ : ending = []
  · subst open_
    rw [List.append_nil]
    exact .inr plain
  · exact .inl ⟨body, ending, rfl, plain, ends, open_⟩

theorem Plain.line {t l : Text} (plain : Plain t) (line : Line l) : Line (t ++ l) := by
  obtain ⟨body, ending, rfl, inner, ends⟩ := line
  exact ⟨t ++ body, ending, by rw [List.append_assoc], plain.append inner, ends⟩

theorem Plain.closed {t l : Text} (plain : Plain t) (closed : Closed l) : Closed (t ++ l) := by
  obtain ⟨body, ending, rfl, inner, ends, some_⟩ := closed
  exact ⟨t ++ body, ending, by rw [List.append_assoc], plain.append inner, ends, some_⟩

/-- A text up to a character that ends no line lies before the end. -/
theorem split_before_end {body ending front back : Text} {c : Char} (ends : Ending ending)
    (inside : isBoundary c = false) (made : body ++ ending = front ++ c :: back) :
    ∃ rest, body = front ++ c :: rest ∧ back = rest ++ ending := by
  obtain ⟨more, rfl, same⟩ | ⟨more, rfl, same⟩ := List.append_eq_append_iff.mp made
  · have held := ends.boundary c (same ▸ by simp)
    rw [inside] at held
    cases held
  · cases more with
    | nil =>
      rw [List.nil_append] at same
      have held := ends.boundary c (same ▸ List.mem_cons_self)
      rw [inside] at held
      cases held
    | cons d rest =>
      cases same
      exact ⟨rest, rfl, rfl⟩

/-- A line may be changed up to a character that ends none. -/
theorem Line.replace {front front' back : Text} {c : Char} (line : Line (front ++ c :: back))
    (inside : isBoundary c = false) (plain : Plain front → Plain front') :
    Line (front' ++ back) := by
  obtain ⟨body, ending, made, whole, ends⟩ := line
  obtain ⟨rest, rfl, rfl⟩ := split_before_end ends inside made.symm
  rw [Plain, List.forall_mem_append, List.forall_mem_cons] at whole
  exact ⟨front' ++ rest, ending, by simp, (plain whole.1).append whole.2.2, ends⟩

theorem Closed.replace {front front' back : Text} {c : Char} (closed : Closed (front ++ c :: back))
    (inside : isBoundary c = false) (plain : Plain front → Plain front') :
    Closed (front' ++ back) := by
  obtain ⟨body, ending, made, whole, ends, some_⟩ := closed
  obtain ⟨rest, rfl, rfl⟩ := split_before_end ends inside made.symm
  rw [Plain, List.forall_mem_append, List.forall_mem_cons] at whole
  exact ⟨front' ++ rest, ending, by simp, (plain whole.1).append whole.2.2, ends, some_⟩

/-! ## Lines put together -/

/-- Every line but the last is closed; an edit may have emptied some. -/
inductive Pieces : List Text → Prop where
  | nil : Pieces []
  | last {l : Text} : Line l → Pieces [l]
  | cons {l : Text} {ls : List Text} : Closed l ∨ l = [] → Pieces ls → Pieces (l :: ls)

theorem Pieces.head {l : Text} {ls : List Text} (pieces : Pieces (l :: ls)) : Line l := by
  cases pieces with
  | last line => exact line
  | cons closed _ =>
    obtain closed | rfl := closed
    · exact closed.line
    · exact ⟨[], [], rfl, nofun, .missing⟩

theorem Pieces.member {ls : List Text} (pieces : Pieces ls) : ∀ l ∈ ls, Line l := by
  induction pieces with
  | nil => nofun
  | last line => exact List.forall_mem_singleton.mpr line
  | cons closed rest ih => exact List.forall_mem_cons.mpr ⟨(Pieces.cons closed rest).head, ih⟩

/-- A newline can only end a line. -/
theorem Line.newline {l : Text} (line : Line l) : '\n' ∉ l.dropLast := by
  obtain ⟨body, ending, rfl, plain, ends⟩ := line
  have inside : '\n' ∉ body := fun member => absurd (plain _ member) (by decide)
  cases ends with
  | missing =>
    rw [List.append_nil]
    exact fun member => inside (List.dropLast_subset _ member)
  | single c _ => rwa [List.dropLast_concat]
  | crlf =>
    rw [← List.singleton_append, ← List.append_assoc, List.dropLast_concat, List.mem_append]
    exact fun member => member.elim inside (by decide)

theorem push_pieces {c : Char} (inside : isBoundary c = false) {lines : List Text}
    (pieces : Pieces lines) (filled : ∀ l ∈ lines, l ≠ []) : Pieces (push c lines) := by
  cases pieces with
  | nil => exact .last ⟨[c], [], by simp, List.forall_mem_singleton.mpr inside, .missing⟩
  | last line =>
    obtain ⟨body, ending, rfl, plain, ends⟩ := line
    exact .last ⟨c :: body, ending, rfl, List.forall_mem_cons.mpr ⟨inside, plain⟩, ends⟩
  | cons closed rest =>
    obtain ⟨body, ending, rfl, plain, ends, some_⟩ :=
      closed.resolve_right (filled _ (.head _))
    refine .cons (.inl ⟨c :: body, ending, rfl, ?_, ends, some_⟩) rest
    exact List.forall_mem_cons.mpr ⟨inside, plain⟩

/-- The lines of a text are closed, up to the last one, and not empty. -/
theorem splitLines_pieces (text : Text) :
    Pieces (splitLines text) ∧ ∀ l ∈ splitLines text, l ≠ [] := by
  induction text using splitLines.induct with
  | case1 => exact ⟨.nil, List.forall_mem_nil _⟩
  | case2 rest ih =>
    rw [splitLines, List.forall_mem_cons]
    exact ⟨.cons (.inl ⟨[], _, rfl, List.forall_mem_nil _, .crlf, List.cons_ne_nil _ _⟩) ih.1,
      List.cons_ne_nil _ _, ih.2⟩
  | case3 c rest other boundary ih =>
    rw [splitLines, if_pos boundary, List.forall_mem_cons]
    · exact ⟨.cons (.inl ⟨[], _, rfl, List.forall_mem_nil _, .single c boundary,
        List.cons_ne_nil _ _⟩) ih.1, List.cons_ne_nil _ _, ih.2⟩
    · exact other
  | case4 c rest other inside ih =>
    rw [splitLines, if_neg inside]
    · refine ⟨push_pieces (Bool.not_eq_true _ ▸ inside) ih.1 ih.2, ?_⟩
      cases lines : splitLines rest with
      | nil => exact List.forall_mem_singleton.mpr (List.cons_ne_nil _ _)
      | cons head tail =>
        rw [push, List.forall_mem_cons]
        exact ⟨List.cons_ne_nil _ _, fun l member => ih.2 l (lines ▸ .tail _ member)⟩
    · exact other

/-! ## What is seen of the lines -/

/-- A line under `table` is selected, from the header `cur` on. -/
def seen (table : TableSpec) (hit : Text → Bool) (cur : Option String) : List Text → Bool
  | [] => false
  | line :: lines =>
    match tableHeader line with
    | some name => seen table hit (some name) lines
    | none => cur.any table.covers && hit line || seen table hit cur lines

/-- No line is selected for its end, nor an end alone. -/
structure EndBlind (hit : Text → Bool) : Prop where
  ended : ∀ body ending, Ending ending → hit (body ++ ending) = hit body
  blank : hit [] = false

variable {table : TableSpec} {hit : Text → Bool}

theorem seen_iff_hits (i : Nat) (cur : Option String) (lines : List Text) :
    seen table hit cur lines = false ↔ tableHits table hit i cur lines = [] := by
  induction lines generalizing i cur with
  | nil => exact iff_of_true rfl rfl
  | cons line rest ih =>
    rw [seen, tableHits]
    cases tableHeader line with
    | some name => exact ih (i + 1) _
    | none =>
      cases cur.any table.covers && hit line with
      | true => exact iff_of_false nofun (List.cons_ne_nil _ _)
      | false => exact ih (i + 1) cur

theorem seen_header {line : Text} {name : String} (header : tableHeader line = some name)
    (cur : Option String) (lines : List Text) :
    seen table hit cur (line :: lines) = seen table hit (some name) lines := by
  rw [seen, header]

theorem seen_plain {line : Text} (header : tableHeader line = none) (missed : hit line = false)
    (cur : Option String) (lines : List Text) :
    seen table hit cur (line :: lines) = seen table hit cur lines := by
  rw [seen, header, missed, Bool.and_false, Bool.false_or]

theorem dropWhile_append_of_all {p : Char → Bool} {t : Text} (all : ∀ c ∈ t, p c = true)
    (u : Text) : (t ++ u).dropWhile p = u.dropWhile p := List.dropWhile_append_of_pos all

/-- A text is dropped whole, or up to a character that stays. -/
theorem dropWhile_split (p : Char → Bool) (t : Text) :
    (∀ c ∈ t, p c = true) ∨ ∃ c rest, p c = false ∧
      ∀ u, (t ++ u).dropWhile p = c :: (rest ++ u) := by
  induction t with
  | nil => exact .inl nofun
  | cons c rest ih =>
    cases kept : p c with
    | false =>
      exact .inr ⟨c, rest, kept, fun u => List.dropWhile_cons_of_neg (by rw [kept]; exact nofun)⟩
    | true =>
      obtain all | ⟨d, tail, stays, dropped⟩ := ih
      · exact .inl (List.forall_mem_cons.mpr ⟨kept, all⟩)
      · refine .inr ⟨d, tail, stays, fun u => ?_⟩
        rw [List.cons_append, List.dropWhile_cons_of_pos kept, dropped]

theorem bracket_inside : isBoundary ']' = false ∧ isBoundary '[' = false := by decide

/-- A name that its bracket closes is read whatever follows. -/
theorem name_closed {rest : Text} (closed : (rest.takeWhile (· != ']')).length ≠ rest.length)
    (more : Text) : (rest ++ more).takeWhile (· != ']') = rest.takeWhile (· != ']') ∧
      ((rest ++ more).drop (rest.takeWhile (· != ']')).length).isEmpty = false := by
  have short : (rest.takeWhile (· != ']')).length < rest.length :=
    Nat.lt_of_le_of_ne (List.takeWhile_prefix _).length_le closed
  rw [List.takeWhile_append, if_neg closed, List.isEmpty_eq_false_iff, ne_eq, List.drop_eq_nil_iff,
    List.length_append]
  exact ⟨rfl, by omega⟩

/-- A header is read before the end of its line. -/
theorem tableHeader_ended (body : Text) {ending : Text} (ends : Ending ending) :
    tableHeader (body ++ ending) = tableHeader body := by
  have ended : ∀ c ∈ ending, (c != ']') = true := fun c member => by
    refine bne_iff_ne.mpr fun same => ?_
    have boundary := ends.boundary c member
    rw [same, bracket_inside.1] at boundary
    cases boundary
  unfold tableHeader lstrip
  obtain space | ⟨c, rest, solid, dropped⟩ := dropWhile_split isSpace body
  · have gone : body.dropWhile isSpace = [] := List.dropWhile_eq_nil_iff.mpr space
    rw [dropWhile_append_of_all space, gone]
    have left : ∀ name, ending.dropWhile isSpace ≠ '[' :: name := fun name same => by
      have member : '[' ∈ ending :=
        (List.dropWhile_sublist isSpace).subset (same ▸ List.mem_cons_self)
      have boundary := ends.boundary _ member
      rw [bracket_inside.2] at boundary
      cases boundary
    split
    · rename_i name same
      exact absurd same (left name)
    · rfl
  · have alone := dropped []
    rw [List.append_nil, List.append_nil] at alone
    rw [dropped ending, alone]
    by_cases bracket : c = '['
    · subst bracket
      simp only
      by_cases without : (rest.takeWhile (· != ']')).length = rest.length
      · have open_ : ∀ t : Text, (∀ c ∈ t, (c != ']') = true) → t.takeWhile (· != ']') = t :=
          fun t => List.takeWhile_eq_self_iff.mpr
        have kept : ∀ c ∈ rest, (c != ']') = true := List.takeWhile_eq_self_iff.mp
          ((List.takeWhile_prefix _).eq_of_length without)
        have whole := open_ (rest ++ ending) (List.forall_mem_append.mpr ⟨kept, ended⟩)
        simp [whole, open_ rest kept]
      · have alone := name_closed without []
        rw [List.append_nil] at alone
        rw [(name_closed without ending).1, (name_closed without ending).2, alone.2]
    · split
      · rename_i same
        exact absurd (List.cons.inj same).1 bracket
      · split
        · rename_i same
          exact absurd (List.cons.inj same).1 bracket
        · rfl

/-! ## Edited lines put together -/

theorem splitLines_inside {c : Char} (inside : isBoundary c = false) (rest : Text) :
    splitLines (c :: rest) = push c (splitLines rest) := by
  rw [splitLines, if_neg (by rw [inside]; exact nofun)]
  rintro _ rfl
  exact absurd inside (by decide)

/-- A closed line is split off; only a carriage return takes a newline that follows along. -/
theorem splitLines_closed {body ending : Text} (plain : Plain body) (ends : Ending ending)
    (some_ : ending ≠ []) (rest : Text) :
    splitLines (body ++ ending ++ rest) = (body ++ ending) :: splitLines rest ∨
      ending = ['\r'] ∧ ∃ more, rest = '\n' :: more ∧
        splitLines (body ++ ending ++ rest) = (body ++ ['\r', '\n']) :: splitLines more := by
  induction body with
  | nil =>
    cases ends with
    | missing => exact absurd rfl some_
    | crlf =>
      exact .inl (by rw [List.nil_append, List.cons_append, List.cons_append, splitLines]; rfl)
    | single c boundary =>
      rw [List.nil_append, List.singleton_append]
      by_cases pair : ∃ more, c :: rest = '\r' :: '\n' :: more
      · obtain ⟨more, same⟩ := pair
        obtain ⟨rfl, rfl⟩ := List.cons.inj same
        exact .inr ⟨rfl, more, rfl, by rw [splitLines]; rfl⟩
      · refine .inl ?_
        rw [splitLines, if_pos boundary]
        exact fun more cr newline => pair ⟨more, by rw [cr, newline]⟩
  | cons c body ih =>
    rw [Plain, List.forall_mem_cons] at plain
    simp only [List.cons_append, splitLines_inside plain.1]
    obtain alone | ⟨cr, more, newline, taken⟩ := ih plain.2
    · exact .inl (by rw [alone, push])
    · exact .inr ⟨cr, more, newline, by rw [taken, push]⟩

theorem splitLines_open {body : Text} (plain : Plain body) (some_ : body ≠ []) :
    splitLines body = [body] := by
  induction body with
  | nil => exact absurd rfl some_
  | cons c body ih =>
    rw [Plain, List.forall_mem_cons] at plain
    rw [splitLines_inside plain.1]
    cases body with
    | nil => rfl
    | cons d rest => rw [ih plain.2 (List.cons_ne_nil _ _), push]

theorem tableHeader_blank : tableHeader [] = none := rfl

/-- A line is seen as its body is. -/
theorem seen_congr (blind : EndBlind hit) {body first second : Text} (ends : Ending first)
    (ends' : Ending second) (cur : Option String) (lines : List Text) :
    seen table hit cur ((body ++ first) :: lines) =
      seen table hit cur ((body ++ second) :: lines) := by
  rw [seen, seen, tableHeader_ended body ends, tableHeader_ended body ends',
    blind.ended body _ ends, blind.ended body _ ends']

theorem seen_blank (blind : EndBlind hit) (cur : Option String) (lines : List Text) :
    seen table hit cur ([] :: lines) = seen table hit cur lines :=
  seen_plain tableHeader_blank blind.blank cur lines

theorem seen_newline (blind : EndBlind hit) (cur : Option String) (lines : List Text) :
    seen table hit cur (['\n'] :: lines) = seen table hit cur lines := by
  rw [← List.nil_append ['\n'], seen_congr blind (.single '\n' rfl) .missing, List.append_nil,
    seen_blank blind]

theorem seen_cons_congr {cur : Option String} {line : Text} {first second : List Text}
    (same : ∀ cur, seen table hit cur first = seen table hit cur second) :
    seen table hit cur (line :: first) = seen table hit cur (line :: second) := by
  rw [seen, seen]
  split
  · exact same _
  · rw [same]

/-- **Edited lines are seen in the text they make as they are seen themselves.** -/
theorem seen_flatten (blind : EndBlind hit) {lines : List Text} (pieces : Pieces lines)
    (cur : Option String) :
    seen table hit cur (splitLines lines.flatten) = seen table hit cur lines := by
  induction pieces generalizing cur with
  | nil => rfl
  | @last l line =>
    obtain ⟨body, ending, rfl, plain, ends⟩ := line
    rw [List.flatten_singleton]
    by_cases open_ : ending = []
    · subst open_
      rw [List.append_nil]
      by_cases blank : body = []
      · rw [blank, seen_blank blind]
        rfl
      · rw [splitLines_open plain blank]
    · obtain alone | ⟨-, more, newline, -⟩ := splitLines_closed plain ends open_ []
      · rw [List.append_nil] at alone
        rw [alone]
        rfl
      · cases newline
  | @cons l ls closed _ ih =>
    obtain ⟨body, ending, rfl, plain, ends, some_⟩ | rfl := closed
    · rw [List.flatten_cons]
      obtain alone | ⟨rfl, more, newline, taken⟩ := splitLines_closed plain ends some_ ls.flatten
      · rw [alone]
        exact seen_cons_congr ih
      · rw [taken, seen_congr blind .crlf (.single '\r' rfl)]
        refine seen_cons_congr fun cur => ?_
        rw [← ih cur, newline, ← List.nil_append ('\n' :: more)]
        obtain alone | ⟨other, -⟩ := @splitLines_closed [] ['\n'] nofun (.single '\n' rfl) nofun
          more
        · rw [← List.singleton_append, ← List.append_assoc, alone, List.nil_append,
            seen_newline blind]
        · cases other
    · rw [List.flatten_cons, List.nil_append, ih, seen_blank blind]

/-! ## Rewriting what is seen -/

/-- The lines with the selected ones rewritten. -/
def rewriteHits (table : TableSpec) (hit : Text → Bool) (rewrite : Text → Text)
    (cur : Option String) : List Text → List Text
  | [] => []
  | line :: lines =>
    match tableHeader line with
    | some name => line :: rewriteHits table hit rewrite (some name) lines
    | none => (if cur.any table.covers && hit line then rewrite line else line) ::
        rewriteHits table hit rewrite cur lines

/-- A selected line is no header and a hit. -/
theorem tableHits_line {lines : List Text} {i j : Nat} {cur : Option String}
    (member : j ∈ tableHits table hit i cur lines) :
    ∃ k line, j = i + k ∧ lines[k]? = some line ∧ hit line = true ∧ tableHeader line = none := by
  induction lines generalizing i cur with
  | nil => cases member
  | cons line rest ih =>
    have later : ∀ cur', j ∈ tableHits table hit (i + 1) cur' rest →
        ∃ k found, j = i + k ∧ (line :: rest)[k]? = some found ∧ hit found = true ∧
          tableHeader found = none := by
      intro cur' held
      obtain ⟨k, found, place, shown, hits⟩ := ih held
      exact ⟨k + 1, found, by omega, shown, hits⟩
    rw [tableHits] at member
    split at member
    · exact later _ member
    · rename_i header
      split at member
      · rename_i under
        obtain rfl | held := List.mem_cons.mp member
        · exact ⟨0, line, rfl, rfl, (Bool.and_eq_true_iff.mp under).2, header⟩
        · exact later _ held
      · exact later _ member

/-- Rewriting at the hits is rewriting what is selected. -/
theorem rewriteAt_hits (rewrite : Text → Text) (lines : List Text) :
    rewriteAt rewrite (tableHits table hit 0 none lines) lines =
      rewriteHits table hit rewrite none lines := by
  have general : ∀ (lines : List Text) (i : Nat) (cur : Option String) (chosen : List Nat),
      (∀ j, i ≤ j → chosen.contains j = (tableHits table hit i cur lines).contains j) →
      (lines.mapIdx fun k line => if chosen.contains (i + k) then rewrite line else line) =
        rewriteHits table hit rewrite cur lines := by
    intro lines
    induction lines with
    | nil => exact fun _ _ _ _ => rfl
    | cons line rest ih =>
      intro i cur chosen same
      have later : ∀ cur', i ∉ tableHits table hit (i + 1) cur' rest := fun cur' member => by
        obtain ⟨k, -, place, -⟩ := tableHits_line member
        omega
      have shift : (fun k line => if chosen.contains (i + (k + 1)) then rewrite line else line) =
          fun k line => if chosen.contains (i + 1 + k) then rewrite line else line := by
        funext k line
        rw [show i + (k + 1) = i + 1 + k by omega]
      rw [List.mapIdx_cons, rewriteHits, shift, Nat.add_zero]
      have missed : ∀ cur', (tableHits table hit (i + 1) cur' rest).contains i = false :=
        fun cur' => by simpa using later cur'
      have here := same i (Nat.le_refl i)
      rw [tableHits] at here same
      cases header : tableHeader line with
      | some name =>
        rw [header] at here same
        rw [ih (i + 1) (some name) chosen fun j le => same j (by omega), here]
        simp only [missed, Bool.false_eq_true, if_false]
      | none =>
        rw [header] at here same
        cases under : cur.any table.covers && hit line with
        | false =>
          rw [under] at here same
          rw [ih (i + 1) cur chosen fun j le => same j (by omega), here]
          simp only [missed, Bool.false_eq_true, if_false]
        | true =>
          rw [under] at here same
          rw [ih (i + 1) cur chosen fun j le => ?_, here]
          · simp only [if_true, List.contains_cons, beq_self_eq_true, Bool.true_or]
          · rw [same j (by omega), if_pos rfl, List.contains_cons,
              beq_eq_false_iff_ne.mpr (by omega),
              Bool.false_or]
  have whole := general lines 0 none (tableHits table hit 0 none lines) fun _ _ => rfl
  simp only [Nat.zero_add] at whole
  exact whole

/-- The rewrite of a line is a line as the line is, or empties it. -/
structure Tame (rewrite : Text → Text) (l : Text) : Prop where
  line : Line l → Line (rewrite l)
  closed : Closed l → Closed (rewrite l) ∨ rewrite l = []

theorem rewriteHits_pieces (blind : EndBlind hit) {rewrite : Text → Text}
    (tame : ∀ line, hit line = true → Tame rewrite line) {lines : List Text}
    (pieces : Pieces lines) (cur : Option String) :
    Pieces (rewriteHits table hit rewrite cur lines) := by
  induction pieces generalizing cur with
  | nil => exact .nil
  | @last l line =>
    rw [rewriteHits]
    split
    · exact .last line
    · split
      · rename_i under
        exact .last ((tame l (Bool.and_eq_true_iff.mp under).2).line line)
      · exact .last line
  | @cons l ls closed _ ih =>
    rw [rewriteHits]
    split
    · exact .cons closed (ih _)
    · split
      · rename_i under
        have selected := (Bool.and_eq_true_iff.mp under).2
        refine .cons ((tame l selected).closed (closed.resolve_right ?_)) (ih _)
        rintro rfl
        rw [blind.blank] at selected
        cases selected
      · exact .cons closed (ih _)

/-- A rewritten line that is no header shows no more than the line did. -/
theorem seen_rewriteHits {other : TableSpec} {otherHit : Text → Bool} {rewrite : Text → Text}
    (fewer : ∀ line, hit line = true → tableHeader line = none →
      tableHeader (rewrite line) = none ∧ (otherHit (rewrite line) = true → otherHit line = true))
    {lines : List Text} {cur cur' : Option String}
    (shown : seen other otherHit cur' (rewriteHits table hit rewrite cur lines) = true) :
    seen other otherHit cur' lines = true := by
  induction lines generalizing cur cur' with
  | nil => cases shown
  | cons line rest ih =>
    rw [rewriteHits] at shown
    rw [seen]
    cases header : tableHeader line with
    | some name =>
      rw [header] at shown
      simp only [seen_header header] at shown
      exact ih shown
    | none =>
      rw [header] at shown
      simp only at shown
      split at shown
      · rename_i under
        obtain ⟨plain, less⟩ := fewer line (Bool.and_eq_true_iff.mp under).2 header
        rw [seen, plain] at shown
        obtain here | later := Bool.or_eq_true_iff.mp shown
        · obtain ⟨covered, hits⟩ := Bool.and_eq_true_iff.mp here
          simp only [covered, less hits, Bool.and_self, Bool.true_or]
        · simp only [ih later, Bool.or_true]
      · rw [seen, header] at shown
        obtain here | later := Bool.or_eq_true_iff.mp shown
        · simp only [here, Bool.true_or]
        · simp only [ih later, Bool.or_true]

/-- Where the rewritten lines are no hits, none is left. -/
theorem seen_rewritten {rewrite : Text → Text}
    (gone : ∀ line, hit line = true → tableHeader line = none →
      tableHeader (rewrite line) = none ∧ hit (rewrite line) = false)
    (lines : List Text) (cur : Option String) :
    seen table hit cur (rewriteHits table hit rewrite cur lines) = false := by
  induction lines generalizing cur with
  | nil => rfl
  | cons line rest ih =>
    rw [rewriteHits]
    cases header : tableHeader line with
    | some name => exact (seen_header header cur _).trans (ih _)
    | none =>
      simp only
      split
      · rename_i under
        obtain ⟨plain, missed⟩ := gone line (Bool.and_eq_true_iff.mp under).2 header
        exact (seen_plain plain missed cur _).trans (ih cur)
      · rename_i passed
        rw [seen, header]
        simp only [Bool.not_eq_true _ ▸ passed, Bool.false_or, ih cur]

end AgentRunner.MigrationLines
