import Mathlib.Data.List.DropRight

/-! Lines of a text as a reader that knows every newline convention yields them,
and `strip`. Up to blank lines, which line-oriented readers skip, the lines of a
text cut at a line end are the lines of its two parts. -/
namespace AgentRunner.TextLines

/-- `char.isspace()`. -/
def isSpace (c : Char) : Bool :=
  let n := c.toNat
  (0x09 ≤ n && n ≤ 0x0D) || (0x1C ≤ n && n ≤ 0x20) || n == 0x85 || n == 0xA0 || n == 0x1680 ||
    (0x2000 ≤ n && n ≤ 0x200A) || n == 0x2028 || n == 0x2029 || n == 0x202F || n == 0x205F ||
    n == 0x3000

/-- `text.lstrip()`. -/
def lstrip (text : List Char) : List Char := text.dropWhile isSpace

/-- `text.strip()`. -/
def strip (text : List Char) : List Char := (lstrip text).rdropWhile isSpace

/-- Put `c` in front of the first line. -/
def push (c : Char) : List (List Char) → List (List Char)
  | [] => [[c]]
  | line :: lines => (c :: line) :: lines

/-- `for line in f` in universal-newline mode, each line without its end. -/
def readLines : List Char → List (List Char)
  | [] => []
  | '\r' :: '\n' :: rest => [] :: readLines rest
  | '\r' :: rest => [] :: readLines rest
  | '\n' :: rest => [] :: readLines rest
  | c :: rest => push c (readLines rest)

/-- The two characters that end a line. -/
def LineEnd (c : Char) : Prop := c = '\n' ∨ c = '\r'

instance (c : Char) : Decidable (LineEnd c) := by
  unfold LineEnd
  infer_instance

/-- A text without a line end. -/
def OneLine (text : List Char) : Prop := ∀ c ∈ text, ¬ LineEnd c

instance (text : List Char) : Decidable (OneLine text) :=
  decidable_of_iff ((text.all fun c => !decide (LineEnd c)) = true) (by simp [OneLine])

theorem OneLine.append {left right : List Char} (first : OneLine left) (second : OneLine right) :
    OneLine (left ++ right) := List.forall_mem_append.mpr ⟨first, second⟩

theorem OneLine.cons {c : Char} (plain : ¬ LineEnd c) {text : List Char} (rest : OneLine text) :
    OneLine (c :: text) := List.forall_mem_cons.mpr ⟨plain, rest⟩

/-- The lines with something in them. -/
def filled (lines : List (List Char)) : List (List Char) := lines.filter fun line => !line.isEmpty

@[simp] theorem filled_nil : filled [] = [] := rfl

@[simp] theorem filled_blank (lines : List (List Char)) : filled ([] :: lines) = filled lines := rfl

@[simp] theorem filled_cons (c : Char) (line : List Char) (lines : List (List Char)) :
    filled ((c :: line) :: lines) = (c :: line) :: filled lines := rfl

@[simp] theorem filled_append (left right : List (List Char)) :
    filled (left ++ right) = filled left ++ filled right := List.filter_append _ _

theorem readLines_plain {c : Char} (plain : ¬ LineEnd c) (rest : List Char) :
    readLines (c :: rest) = push c (readLines rest) := by
  rw [LineEnd, not_or] at plain
  rw [readLines]
  · exact fun _ same _ => plain.2 same
  · exact plain.2
  · exact plain.1

/-- A carriage return takes a newline after it along. -/
theorem readLines_return {d : Char} (single : d ≠ '\n') (rest : List Char) :
    readLines ('\r' :: d :: rest) = [] :: readLines (d :: rest) := by
  rw [readLines]
  exact fun _ same => single (List.cons.inj same).1

/-- A line end at the front closes a blank line. -/
theorem readLines_lineEnd {e : Char} (ends : LineEnd e) (rest : List Char) :
    ∃ lines, readLines (e :: rest) = [] :: lines ∧ filled lines = filled (readLines rest) := by
  rcases ends with rfl | rfl
  · exact ⟨_, rfl, rfl⟩
  · cases rest with
    | nil => exact ⟨_, rfl, rfl⟩
    | cons d rest =>
      by_cases pair : d = '\n'
      · subst pair
        exact ⟨readLines rest, rfl, rfl⟩
      · exact ⟨_, readLines_return pair rest, rfl⟩

/-- The lines of a text that goes on after a line end: those of its first part,
which is not empty, then those of the rest, up to blank ones. -/
theorem readLines_cut {e : Char} (ends : LineEnd e) (right : List Char) (c : Char)
    (left : List Char) : ∃ line lines more, readLines (c :: left) = line :: lines ∧
      readLines (c :: left ++ e :: right) = line :: (lines ++ more) ∧
      filled more = filled (readLines right) := by
  obtain ⟨after, closes, same⟩ := readLines_lineEnd ends right
  induction left generalizing c with
  | nil =>
    by_cases plain : LineEnd c
    · rcases plain with rfl | rfl
      · exact ⟨[], [], readLines (e :: right), rfl, rfl, by rw [closes, filled_blank, same]⟩
      · by_cases pair : e = '\n'
        · subst pair
          exact ⟨[], [], readLines right, rfl, rfl, rfl⟩
        · exact ⟨[], [], readLines (e :: right), rfl, readLines_return pair right,
            by rw [closes, filled_blank, same]⟩
    · refine ⟨[c], [], after, readLines_plain plain [], ?_, same⟩
      rw [List.singleton_append, readLines_plain plain, closes]
      rfl
  | cons d left ih =>
    by_cases plain : LineEnd c
    · obtain ⟨line, lines, more, first, whole, rest⟩ := ih d
      rcases plain with rfl | rfl
      · refine ⟨[], line :: lines, more, ?_, ?_, rest⟩
        · rw [readLines, first]
        · rw [List.cons_append, readLines, whole, List.cons_append]
      · by_cases pair : d = '\n'
        -- The newline belongs to the carriage return: what follows it is what follows it alone.
        · subst pair
          rw [readLines] at first
          rw [List.cons_append, readLines] at whole
          obtain ⟨-, firstTail⟩ := List.cons.inj first
          obtain ⟨-, wholeTail⟩ := List.cons.inj whole
          refine ⟨[], lines, more, ?_, ?_, rest⟩
          · rw [readLines, firstTail]
          · rw [List.cons_append, List.cons_append, readLines, wholeTail]
        · refine ⟨[], line :: lines, more, ?_, ?_, rest⟩
          · rw [readLines_return pair, first]
          · rw [List.cons_append, List.cons_append, readLines_return pair, ← List.cons_append,
              whole, List.cons_append]
    · obtain ⟨line, lines, more, first, whole, rest⟩ := ih d
      refine ⟨c :: line, lines, more, ?_, ?_, rest⟩
      · rw [readLines_plain plain, first, push]
      · rw [List.cons_append, readLines_plain plain, whole, push]

/-- **Lines may be cut at a line end.**  Blank lines aside, the lines before it do
not depend on what follows, nor those after it on what came before. -/
theorem filled_readLines_append (left : List Char) {e : Char} (ends : LineEnd e)
    (right : List Char) :
    filled (readLines (left ++ e :: right)) =
      filled (readLines left) ++ filled (readLines right) := by
  cases left with
  | nil =>
    obtain ⟨lines, closes, same⟩ := readLines_lineEnd ends right
    rw [List.nil_append, closes, filled_blank, same]
    rfl
  | cons c left =>
    obtain ⟨line, lines, more, first, whole, rest⟩ := readLines_cut ends right c left
    rw [whole, first, ← List.cons_append, filled_append, rest]

/-- A text without line ends is one line. -/
theorem readLines_single {text : List Char} (filled_ : text ≠ [])
    (plain : OneLine text) : readLines text = [text] := by
  induction text with
  | nil => exact absurd rfl filled_
  | cons c rest ih =>
    obtain ⟨here, later⟩ := List.forall_mem_cons.mp plain
    rw [readLines_plain here]
    cases rest with
    | nil => rfl
    | cons d rest => rw [ih (List.cons_ne_nil d rest) later, push]

/-! ## Stripping -/

theorem lstrip_blank {text : List Char} (blank : ∀ c ∈ text, isSpace c = true) (rest : List Char) :
    lstrip (text ++ rest) = lstrip rest := List.dropWhile_append_of_pos blank

/-- What is left of a text that is not blank starts with a character that is no space. -/
theorem lstrip_filled {text : List Char} (filled_ : ¬ ∀ c ∈ text, isSpace c = true) :
    ∃ c rest, isSpace c = false ∧ lstrip text = c :: rest ∧
      ∀ more, lstrip (text ++ more) = c :: (rest ++ more) := by
  induction text with
  | nil => exact absurd (List.forall_mem_nil _) filled_
  | cons c text ih =>
    cases space : isSpace c with
    | true =>
      have later : ¬ ∀ c ∈ text, isSpace c = true := fun blank =>
        filled_ (List.forall_mem_cons.mpr ⟨space, blank⟩)
      obtain ⟨d, rest, solid, stripped, more⟩ := ih later
      refine ⟨d, rest, solid, ?_, fun extra => ?_⟩
      · rw [lstrip, List.dropWhile_cons_of_pos space]
        exact stripped
      · rw [List.cons_append, lstrip, List.dropWhile_cons_of_pos space]
        exact more extra
    | false =>
      have solid : ¬ isSpace c = true := by rw [space]; exact Bool.false_ne_true
      exact ⟨c, text, space, List.dropWhile_cons_of_neg solid,
        fun more => List.dropWhile_cons_of_neg solid⟩

theorem rstrip_solid {text : List Char} {c : Char} (solid : isSpace c = false) :
    (text ++ [c]).rdropWhile isSpace = text ++ [c] :=
  List.rdropWhile_concat_neg isSpace text c (by rw [solid]; exact Bool.false_ne_true)

end AgentRunner.TextLines
