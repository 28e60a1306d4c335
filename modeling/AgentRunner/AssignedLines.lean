import AgentRunner.MigrationLines

/-! What the patterns of the rewrites match: an assignment of a key, and one of a bare
string, each told by what the line starts with. -/
namespace AgentRunner.AssignedLines
open TextLines MigrationEdits MigrationLines

/-- A character of a key. -/
def wordChar (c : Char) : Bool :=
  let n := c.toNat
  (0x30 ≤ n && n ≤ 0x39) || (0x61 ≤ n && n ≤ 0x7A) || n == 0x5F

/-- The key is a bare one, in the letters of the config's keys. -/
def Word (key : String) : Prop := key.toList ≠ [] ∧ ∀ c ∈ key.toList, wordChar c = true

instance (key : String) : Decidable (Word key) :=
  decidable_of_iff (key.toList ≠ [] ∧ key.toList.all wordChar = true) (by simp [Word])

theorem wordChar_inside {c : Char} (letter : wordChar c = true) :
    isSpace c = false ∧ isBoundary c = false ∧ isBlank c = false ∧ c ≠ '=' ∧ c ≠ '[' := by
  have range : (0x30 ≤ c.toNat ∧ c.toNat ≤ 0x39) ∨ (0x61 ≤ c.toNat ∧ c.toNat ≤ 0x7A) ∨
      c.toNat = 0x5F := by
    simpa [wordChar, or_assoc] using letter
  have other : ∀ d : Char, d.toNat < 0x30 ∨ (0x39 < d.toNat ∧ d.toNat < 0x5F) → c ≠ d := by
    rintro d far rfl
    omega
  refine ⟨?_, ?_, ?_, other '=' (by decide), other '[' (by decide)⟩
  · simp [isSpace]
    omega
  · simp [isBoundary]
    omega
  · simp [isBlank, other ' ' (by decide), other '\t' (by decide)]

theorem blank_inside {c : Char} (blank : isBlank c = true) :
    isSpace c = true ∧ isBoundary c = false := by
  obtain rfl | rfl : c = ' ' ∨ c = '\t' := by simpa [isBlank] using blank
  · decide
  · decide

/-- Blanks and nothing else. -/
def Blanks (t : Text) : Prop := ∀ c ∈ t, isBlank c = true

theorem Blanks.plain {t : Text} (blanks : Blanks t) : Plain t :=
  fun c member => (blank_inside (blanks c member)).2

theorem Word.plain {key : String} (word : Word key) : Plain key.toList :=
  fun c member => (wordChar_inside (word.2 c member)).2.1

/-- The line assigns the key, with `back` behind the equals sign. -/
structure Assigns (key : String) (line back : Text) : Prop where
  split : ∃ indent blanks, Blanks indent ∧ Blanks blanks ∧
    line = indent ++ key.toList ++ blanks ++ '=' :: back

theorem Assigns.more {key : String} {line back : Text} (assigns : Assigns key line back)
    (more : Text) : Assigns key (line ++ more) (back ++ more) := by
  obtain ⟨indent, blanks, blankI, blankB, rfl⟩ := assigns.split
  exact ⟨indent, blanks, blankI, blankB, by simp⟩

theorem word_stripped {key : String} (word : Word key) {indent : Text} (blankI : Blanks indent)
    (rest : Text) : (indent ++ key.toList ++ rest).dropWhile isBlank = key.toList ++ rest := by
  rw [List.append_assoc, List.dropWhile_append_of_pos blankI]
  cases made : key.toList with
  | nil => exact absurd made word.1
  | cons c letters =>
    have solid := (wordChar_inside (word.2 c (made ▸ List.mem_cons_self))).2.2.1
    rw [List.cons_append, List.dropWhile_cons_of_neg (by rw [solid]; exact Bool.false_ne_true)]

theorem equals_stripped {blanks : Text} (blankB : Blanks blanks) (back : Text) :
    (blanks ++ '=' :: back).dropWhile isBlank = '=' :: back := by
  rw [List.dropWhile_append_of_pos blankB, List.dropWhile_cons_of_neg (by decide)]

/-- The letters in front of the blanks and the equals sign are the key. -/
theorem word_taken {key : String} (word : Word key) {blanks : Text} (blankB : Blanks blanks)
    (back : Text) : (key.toList ++ (blanks ++ '=' :: back)).takeWhile wordChar = key.toList := by
  rw [List.takeWhile_append_of_pos word.2]
  cases blanks with
  | nil => rw [List.nil_append, List.takeWhile_cons_of_neg (by decide), List.append_nil]
  | cons c rest =>
    have blank := blankB c (.head _)
    have letter : ¬ wordChar c = true := fun letter => by
      rw [(wordChar_inside letter).2.2.1] at blank
      cases blank
    rw [List.cons_append, List.takeWhile_cons_of_neg letter, List.append_nil]

/-- Only its key is assigned by a line, with one rest. -/
theorem Assigns.unique {key other : String} {line back back' : Text} (word : Word key)
    (word' : Word other) (first : Assigns key line back) (second : Assigns other line back') :
    key.toList = other.toList ∧ back = back' := by
  obtain ⟨indent, blanks, blankI, blankB, made⟩ := first.split
  obtain ⟨indent', blanks', blankI', blankB', made'⟩ := second.split
  have same : key.toList ++ (blanks ++ '=' :: back) =
      other.toList ++ (blanks' ++ '=' :: back') := by
    rw [← word_stripped word blankI, ← word_stripped word' blankI', ← List.append_assoc, ← made,
      ← List.append_assoc, ← made']
  have keys : key.toList = other.toList := by
    rw [← word_taken word blankB back, same, word_taken word' blankB' back']
  rw [keys] at same
  have equals := equals_stripped blankB back
  rw [List.append_cancel_left same, equals_stripped blankB' back'] at equals
  exact ⟨keys, (List.cons.inj equals).2.symm⟩

/-! ## Assignments -/

/-- What a matched assignment is made of. -/
theorem assignment_spec {key : String} {line : Text} {a : Assignment}
    (found : assignment key line = some a) :
    line = a.indent ++ key.toList ++ a.sp ++ a.rest ∧ Blanks a.indent ∧
      ∃ blanks, Blanks blanks ∧ a.sp = blanks ++ ['='] := by
  unfold assignment at found
  simp only at found
  split at found
  · rename_i starts
    obtain ⟨after, split⟩ := List.isPrefixOf_iff_prefix.mp starts
    split at found
    · rename_i rest equals
      cases found
      refine ⟨?_, fun c member => List.mem_takeWhile_imp member, _,
        fun c member => List.mem_takeWhile_imp member, rfl⟩
      have drop : (line.dropWhile isBlank).drop key.length = after := by
        rw [← split, ← String.length_toList, List.drop_left]
      rw [drop] at equals ⊢
      have blanks := List.takeWhile_append_dropWhile (p := isBlank) (l := after)
      have indent := List.takeWhile_append_dropWhile (p := isBlank) (l := line)
      rw [equals] at blanks
      rw [← split, ← blanks] at indent
      refine indent.symm.trans ?_
      simp only [List.append_assoc, List.cons_append, List.nil_append]
    · cases found
  · cases found

theorem assignment_assigns {key : String} {line : Text} {a : Assignment}
    (found : assignment key line = some a) : Assigns key line a.rest := by
  obtain ⟨made, indent, blanks, blank, sp⟩ := assignment_spec found
  exact ⟨a.indent, blanks, indent, blank, by rw [made, sp]; simp⟩

theorem Assigns.assignment {key : String} {line back : Text} (word : Word key)
    (assigns : Assigns key line back) : ∃ a, assignment key line = some a ∧ a.rest = back := by
  obtain ⟨indent, blanks, blankI, blankB, rfl⟩ := assigns.split
  have stripped := word_stripped word blankI (blanks ++ '=' :: back)
  rw [← List.append_assoc] at stripped
  rw [MigrationEdits.assignment]
  simp only [stripped, List.isPrefixOf_iff_prefix.mpr (List.prefix_append _ _), if_true]
  rw [← String.length_toList, List.drop_left, equals_stripped blankB]
  exact ⟨_, rfl, rfl⟩

/-- An assignment lies before the end of its line. -/
theorem assigns_ended {key : String} {body ending back : Text} (ends : Ending ending)
    (assigns : Assigns key (body ++ ending) back) :
    ∃ rest, Assigns key body rest ∧ back = rest ++ ending := by
  obtain ⟨indent, blanks, blankI, blankB, made⟩ := assigns.split
  obtain ⟨rest, rfl, rfl⟩ := split_before_end ends (c := '=') (by decide) made
  exact ⟨rest, ⟨indent, blanks, blankI, blankB, rfl⟩, rfl⟩

/-- The assignment of a line is the one of its body. -/
theorem assignment_ended {key : String} (word : Word key) (body : Text) {ending : Text}
    (ends : Ending ending) :
    (assignment key (body ++ ending)).map Assignment.rest =
      (assignment key body).map fun a => a.rest ++ ending := by
  cases own : assignment key body with
  | some a =>
    obtain ⟨b, found, rest⟩ := ((assignment_assigns own).more ending).assignment word
    rw [found, Option.map_some, Option.map_some, rest]
  | none =>
    cases found : assignment key (body ++ ending) with
    | none => rfl
    | some b =>
      obtain ⟨rest, assigns, -⟩ := assigns_ended ends (assignment_assigns found)
      obtain ⟨a, same, -⟩ := assigns.assignment word
      cases own.symm.trans same

/-- An assignment is no header. -/
theorem Assigns.header {key : String} {line back : Text} (word : Word key)
    (assigns : Assigns key line back) : tableHeader line = none := by
  obtain ⟨indent, blanks, blankI, -, rfl⟩ := assigns.split
  cases made : key.toList with
  | nil => exact absurd made word.1
  | cons c rest =>
    obtain ⟨solid, -, -, -, bracket⟩ := wordChar_inside (word.2 c (made ▸ List.mem_cons_self))
    have spaces : ∀ d ∈ indent, isSpace d = true := fun d member =>
      (blank_inside (blankI d member)).1
    rw [tableHeader, List.append_assoc, List.append_assoc, lstrip_blank spaces, lstrip,
      List.cons_append, List.dropWhile_cons_of_neg (by rw [solid]; exact Bool.false_ne_true)]
    split
    · rename_i same
      exact absurd (List.cons.inj same).1 bracket
    · rfl

/-- Up to its end and with it, what follows the equals sign is all of it. -/
theorem rest_ends {key : String} {line : Text} {a : Assignment}
    (found : assignment key line = some a) (whole : Line line) :
    a.rest.takeWhile (· != '\n') ++ (if endsLine line then ['\n'] else []) = a.rest := by
  obtain ⟨made, -, blanks, -, sp⟩ := assignment_spec found
  have plain := whole.newline
  obtain none_ | ⟨front, last, some_⟩ := List.eq_nil_or_concat a.rest
  · rw [none_, List.append_nil, sp, ← List.append_assoc] at made
    rw [none_, made, endsLine, List.getLast?_concat]
    rfl
  · rw [some_, List.concat_eq_append, ← List.append_assoc] at made
    rw [made, List.dropLast_concat] at plain
    have inner : ∀ c ∈ front, (c != '\n') = true := fun c member =>
      bne_iff_ne.mpr fun same => plain (List.mem_append_right _ (same ▸ member))
    rw [some_, List.concat_eq_append, made, endsLine, List.getLast?_concat,
      List.takeWhile_append_of_pos inner]
    by_cases ends : last = '\n'
    · subst ends
      simp
    · simp [ends]

/-! ## Bare strings -/

/-- Either of the two quotes. -/
def isQuote (c : Char) : Bool := c == '"' || c == '\''

/-- The text between the first two quotes behind the blanks. -/
def quoted (rest : Text) : Option Text :=
  match rest.dropWhile isBlank with
  | q :: rest =>
    if isQuote q then
      let val := rest.takeWhile fun c => c != q && c != '\n'
      match rest.drop val.length with
      | close :: _ => if close == q then some val else none
      | [] => none
    else none
  | [] => none

/-- A bare string is an assignment whose rest starts with a quoted text. -/
theorem bareString_val (key : String) (line : Text) :
    (bareString key line).map BareString.val =
      (assignment key line).bind fun a => quoted a.rest := by
  rw [bareString]
  cases assignment key line with
  | none => rfl
  | some a =>
    rw [Option.bind_some, quoted]
    simp only
    cases a.rest.dropWhile isBlank with
    | nil => rfl
    | cons q rest =>
      simp only [isQuote]
      by_cases quote : (q == '"' || q == '\'') = true
      · simp only [quote, if_true]
        cases rest.drop (rest.takeWhile fun c => c != q && c != '\n').length with
        | nil => rfl
        | cons close tail =>
          simp only
          split <;> rfl
      · simp only [quote, Bool.false_eq_true, if_false]
        rfl

theorem quote_inside {q : Char} (quote : isQuote q = true) :
    isBoundary q = false ∧ isBlank q = false := by
  obtain rfl | rfl : q = '"' ∨ q = '\'' := by simpa [isQuote] using quote
  · decide
  · decide

theorem drop_takeWhile (p : Char → Bool) (t : Text) :
    t.drop (t.takeWhile p).length = t.dropWhile p := by
  calc t.drop (t.takeWhile p).length
      = (t.takeWhile p ++ t.dropWhile p).drop (t.takeWhile p).length := by
        rw [List.takeWhile_append_dropWhile]
    _ = t.dropWhile p := List.drop_left

/-- A text is quoted before the end of its line. -/
theorem quoted_ended (rest : Text) {ending : Text} (ends : Ending ending) :
    quoted (rest ++ ending) = quoted rest := by
  have noQuote : ∀ (p : Char → Bool) (q : Char) (tail : Text), ending.dropWhile p = q :: tail →
      isQuote q = false := by
    intro p q tail same
    have member : q ∈ ending := (List.dropWhile_sublist p).subset (same ▸ List.mem_cons_self)
    have boundary := ends.boundary q member
    by_contra quote
    rw [(quote_inside (Bool.not_eq_false _ ▸ quote)).1] at boundary
    cases boundary
  unfold quoted
  obtain blank | ⟨q, tail, -, dropped⟩ := dropWhile_split isBlank rest
  · rw [dropWhile_append_of_all blank, List.dropWhile_eq_nil_iff.mpr blank]
    split
    · rename_i q tail same
      rw [if_neg (by rw [noQuote _ q tail same]; exact nofun)]
    · rfl
  · have alone := dropped []
    rw [List.append_nil, List.append_nil] at alone
    rw [dropped ending, alone]
    simp only
    by_cases quote : isQuote q = true
    · simp only [if_pos quote, drop_takeWhile]
      obtain inside | ⟨d, later, -, closes⟩ :=
        dropWhile_split (fun c => c != q && c != '\n') tail
      · rw [dropWhile_append_of_all inside, List.dropWhile_eq_nil_iff.mpr inside]
        split
        · rename_i close more same
          have other : ¬ (close == q) = true := fun equal => by
            rw [← beq_iff_eq.mp equal, noQuote _ close more same] at quote
            cases quote
          rw [if_neg other]
        · rfl
      · have whole := closes []
        rw [List.append_nil, List.append_nil] at whole
        have short : (tail.takeWhile fun c => c != q && c != '\n').length ≠ tail.length :=
          fun same => by
            rw [← drop_takeWhile, same, List.drop_length] at whole
            cases whole
        rw [closes ending, whole, List.takeWhile_append, if_neg short]
    · rw [if_neg quote, if_neg quote]

/-- What a matched bare string is made of. -/
theorem bareString_spec {key : String} {line : Text} {b : BareString}
    (found : bareString key line = some b) :
    line = b.indent ++ key.toList ++ b.sp ++ [b.quote] ++ b.val ++ b.quote :: b.rest ∧
      isQuote b.quote = true ∧ Blanks b.indent ∧
      ∃ blanks gap, Blanks blanks ∧ Blanks gap ∧ b.sp = blanks ++ '=' :: gap := by
  unfold bareString at found
  split at found
  · cases found
  · rename_i a assigned
    obtain ⟨made, indent, blanks, blank, sp⟩ := assignment_spec assigned
    split at found
    · rename_i q rest behind
      split at found
      · rename_i quote
        simp only [drop_takeWhile] at found
        split at found
        · rename_i close tail closes
          split at found
          · rename_i same
            cases found
            cases beq_iff_eq.mp same
            have inner := List.takeWhile_append_dropWhile (p := fun c => c != q && c != '\n')
              (l := rest)
            have whole := List.takeWhile_append_dropWhile (p := isBlank) (l := a.rest)
            rw [closes] at inner
            rw [behind, ← inner] at whole
            refine ⟨?_, quote, indent, blanks, a.rest.takeWhile isBlank, blank,
              fun c member => List.mem_takeWhile_imp member, by rw [sp]; simp⟩
            refine made.trans ?_
            conv_lhs => rw [← whole]
            simp
          · cases found
        · cases found
      · cases found
    · cases found

/-- A matched bare string with its value wrapped. -/
theorem bareString_wrapped {key : String} {line : Text} {b : BareString}
    (found : bareString key line = some b) :
    ∃ gap, Blanks gap ∧ Assigns key
      (b.indent ++ key.toList ++ b.sp ++ ['[', b.quote] ++ b.val ++ [b.quote, ']'] ++ b.rest)
      (gap ++ '[' :: b.quote :: (b.val ++ b.quote :: ']' :: b.rest)) := by
  obtain ⟨-, -, indent, blanks, gap, blank, blankG, sp⟩ := bareString_spec found
  exact ⟨gap, blankG, b.indent, blanks, indent, blank, by rw [sp]; simp⟩

/-- A list is no quoted text. -/
theorem quoted_list {gap : Text} (blank : Blanks gap) (rest : Text) :
    quoted (gap ++ '[' :: rest) = none := by
  rw [quoted, List.dropWhile_append_of_pos blank, List.dropWhile_cons_of_neg (by decide)]
  rfl

end AgentRunner.AssignedLines
