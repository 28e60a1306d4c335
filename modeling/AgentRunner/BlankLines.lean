import AgentRunner.GitOutput
import AgentRunner.TextLines
import Mathlib.Data.List.Chain

/-! Blocks of text with a blank line between them: how `text.split("\n\n")` takes them apart, and
which texts come back as the one block they were written as. -/
namespace AgentRunner.BlankLines
open TextLines GitOutput

/-- `text.split("\n\n")`. -/
def splitBlank : List Char → List (List Char)
  | [] => [[]]
  | '\n' :: '\n' :: rest => [] :: splitBlank rest
  | c :: rest => push c (splitBlank rest)

/-- `"\n\n".join(blocks)`. -/
def joinBlank (blocks : List (List Char)) : List Char := ['\n', '\n'].intercalate blocks

@[simp] theorem joinBlank_singleton (block : List Char) : joinBlank [block] = block :=
  List.intercalate_singleton

theorem joinBlank_cons (block next : List Char) (rest : List (List Char)) :
    joinBlank (block :: next :: rest) = block ++ '\n' :: '\n' :: joinBlank (next :: rest) := by
  rw [joinBlank, List.intercalate_cons_cons, List.append_assoc]
  rfl

/-- No line of a text is blank, but for its first. -/
def NoBlankLine (text : List Char) : Prop := [] ∉ ((translateNewlines text).splitOn '\n').tail

instance (text : List Char) : Decidable (NoBlankLine text) :=
  inferInstanceAs (Decidable (¬ _ ∈ _))

/-- Two line ends in a row are one. -/
def Joined (x y : Char) : Prop := LineEnd x → LineEnd y → x = '\r' ∧ y = '\n'

/-- A text that has no blank line, and leaves none before what is written after a newline. -/
structure Unbroken (text : List Char) : Prop where
  joined : text.IsChain Joined
  closed : ∀ c ∈ text.getLast?, ¬ LineEnd c

/-! ## Texts without a blank line -/

theorem joined_of_left {x : Char} (plain : ¬ LineEnd x) (y : Char) : Joined x y :=
  fun ends _ => absurd ends plain

theorem joined_of_right {y : Char} (plain : ¬ LineEnd y) (x : Char) : Joined x y :=
  fun _ ends => absurd ends plain

theorem Unbroken.nil : Unbroken [] := ⟨.nil, fun _ none => by cases none⟩

/-- A character goes before an unbroken text where it makes no blank line with its first. -/
theorem Unbroken.cons {c : Char} {text : List Char} (first : ∀ d ∈ text.head?, Joined c d)
    (alone : text = [] → ¬ LineEnd c) (unbroken : Unbroken text) : Unbroken (c :: text) := by
  refine ⟨List.isChain_cons.mpr ⟨first, unbroken.joined⟩, ?_⟩
  cases text with
  | nil =>
    intro d last
    obtain rfl := Option.some.inj last
    exact alone rfl
  | cons d text =>
    rw [List.getLast?_cons_cons]
    exact unbroken.closed

theorem Unbroken.right {left right : List Char} (unbroken : Unbroken (left ++ right)) :
    Unbroken right := by
  refine ⟨unbroken.joined.suffix (List.suffix_append left right), fun c last => ?_⟩
  apply unbroken.closed c
  rw [Option.mem_def] at last ⊢
  rw [List.getLast?_append, last, Option.some_or]

theorem isChain_oneLine {text : List Char} (oneLine : OneLine text) : text.IsChain Joined := by
  induction text with
  | nil => exact .nil
  | cons c text ih =>
    obtain ⟨plain, rest⟩ := List.forall_mem_cons.mp oneLine
    exact List.isChain_cons.mpr ⟨fun d _ => joined_of_left plain d, ih rest⟩

/-- Some text without a line end may stand between two texts, whatever the first ends in. -/
theorem unbroken_splice {left middle right : List Char} (before : left.IsChain Joined)
    (oneLine : OneLine middle) (some_there : middle ≠ []) (after : Unbroken right) :
    Unbroken (left ++ (middle ++ right)) := by
  have first : ∀ d ∈ (middle ++ right).head?, ¬ LineEnd d := by
    intro d here
    obtain ⟨c, rest, rfl⟩ := List.exists_cons_of_ne_nil some_there
    obtain rfl := Option.some.inj here
    exact oneLine c List.mem_cons_self
  have tail : (middle ++ right).IsChain Joined := by
    refine List.isChain_append.mpr ⟨isChain_oneLine oneLine, after.joined, fun c last d _ => ?_⟩
    exact joined_of_left (oneLine c (List.mem_of_mem_getLast? last)) d
  refine ⟨List.isChain_append.mpr ⟨before, tail, fun c _ d here =>
    joined_of_right (first d here) c⟩, fun c last => ?_⟩
  rw [List.getLast?_append, List.getLast?_append] at last
  cases ends : right.getLast? with
  | some d =>
    rw [ends, Option.some_or, Option.some_or] at last
    exact after.closed c (ends.trans last)
  | none =>
    obtain ⟨d, middles⟩ := Option.isSome_iff_exists.mp (List.getLast?_isSome.mpr some_there)
    rw [ends, Option.none_or, middles, Option.some_or] at last
    obtain rfl := Option.some.inj last
    exact oneLine d (List.mem_of_mem_getLast? middles)

theorem unbroken_oneLine {text : List Char} (oneLine : OneLine text) : Unbroken text :=
  ⟨isChain_oneLine oneLine, fun c last => oneLine c (List.mem_of_mem_getLast? last)⟩

/-- A next line: one that begins with some text and goes on with an unbroken one. -/
theorem Unbroken.line {text lead field : List Char} (unbroken : Unbroken text)
    (oneLine : OneLine lead) (some_there : lead ≠ []) (rest : Unbroken field) :
    Unbroken (text ++ '\n' :: (lead ++ field)) := by
  have before : (text ++ ['\n']).IsChain Joined := by
    refine List.isChain_append.mpr ⟨unbroken.joined, .singleton _, fun c last d _ => ?_⟩
    exact joined_of_left (unbroken.closed c last) d
  have spliced := unbroken_splice before oneLine some_there rest
  rwa [List.append_assoc] at spliced

theorem splitOn_newline (text : List Char) :
    ('\n' :: text).splitOn '\n' = [] :: text.splitOn '\n' := List.splitOnP_cons_eq_if_modifyHead _ _

theorem translateNewlines_lineEnd {c : Char} (ends : LineEnd c) (rest : List Char) :
    ∃ more, translateNewlines (c :: rest) = '\n' :: more := by
  obtain rfl | rfl := ends
  · exact ⟨_, translateNewlines_plain (by decide) rest⟩
  · cases rest with
    | nil => exact ⟨[], rfl⟩
    | cons d rest =>
      by_cases pair : d = '\n'
      · subst pair
        exact ⟨_, rfl⟩
      · exact ⟨_, translateNewlines_return pair rest⟩

/-- A text whose first line is not blank begins with a character of that line. -/
theorem begins_line {text : List Char} (filled : [] ∉ (translateNewlines text).splitOn '\n') :
    ∃ c rest, text = c :: rest ∧ ¬ LineEnd c := by
  cases text with
  | nil => exact absurd List.mem_cons_self filled
  | cons c rest =>
    refine ⟨c, rest, rfl, fun ends => filled ?_⟩
    obtain ⟨more, here⟩ := translateNewlines_lineEnd ends rest
    rw [here, splitOn_newline]
    exact List.mem_cons_self

/-- A line end before a text whose first line is not blank. -/
theorem Unbroken.after_lineEnd {text : List Char}
    (filled : [] ∉ (translateNewlines text).splitOn '\n') (unbroken : Unbroken text) (e : Char) :
    Unbroken (e :: text) := by
  obtain ⟨c, rest, rfl, plain⟩ := begins_line filled
  refine .cons (fun d first => ?_) (fun none => by cases none) unbroken
  obtain rfl := Option.some.inj first
  exact joined_of_right plain e

theorem unbroken_of_noBlankLine {text : List Char} (tight : NoBlankLine text) :
    Unbroken text := by
  unfold NoBlankLine at tight
  fun_induction translateNewlines text with
  | case1 => exact .nil
  | case2 rest ih =>
    rw [splitOn_newline, List.tail_cons] at tight
    have further := ih fun blank => tight (List.mem_of_mem_tail blank)
    refine .cons (fun d first => ?_) (fun none => by cases none) (further.after_lineEnd tight '\n')
    obtain rfl := Option.some.inj first
    exact fun _ _ => ⟨rfl, rfl⟩
  | case3 rest single ih =>
    rw [splitOn_newline, List.tail_cons] at tight
    exact (ih fun blank => tight (List.mem_of_mem_tail blank)).after_lineEnd tight '\r'
  | case4 d rest _ plain ih =>
    by_cases newline : d = '\n'
    · subst newline
      rw [splitOn_newline, List.tail_cons] at tight
      exact (ih fun blank => tight (List.mem_of_mem_tail blank)).after_lineEnd tight '\n'
    · have solid : ¬ LineEnd d := fun ends => ends.elim newline plain
      rw [List.splitOn_eq_splitOnP, List.splitOnP_cons_eq_if_modifyHead,
        if_neg (by simpa using newline), List.tail_modifyHead] at tight
      exact .cons (fun e _ => joined_of_left solid e) (fun _ => solid) (ih tight)

/-- A whole line end in an unbroken text goes before a character of a line. -/
theorem Unbroken.next {e : Char} {text : List Char} (unbroken : Unbroken (e :: text))
    (ends : LineEnd e) (whole : ∀ rest, e = '\r' → text ≠ '\n' :: rest) :
    ∃ c rest, text = c :: rest ∧ ¬ LineEnd c := by
  cases text with
  | nil => exact absurd ends (unbroken.closed e rfl)
  | cons c rest =>
    refine ⟨c, rest, rfl, fun further => ?_⟩
    obtain ⟨rfl, rfl⟩ := (List.isChain_cons_cons.mp unbroken.joined).1 ends further
    exact whole rest rfl rfl

/-- A newline goes before a text that begins a line. -/
theorem Unbroken.newline {text : List Char} {c : Char} (solid : ¬ LineEnd c)
    (unbroken : Unbroken (c :: text)) : Unbroken ('\n' :: c :: text) := by
  refine .cons (fun d first => ?_) (fun none => by cases none) unbroken
  obtain rfl := Option.some.inj first
  exact joined_of_right solid '\n'

theorem translateNewlines_solid {c : Char} (solid : ¬ LineEnd c) (rest : List Char) :
    translateNewlines (c :: rest) = c :: translateNewlines rest :=
  translateNewlines_plain (fun same => solid (.inr same)) rest

/-- With its line ends made newlines, an unbroken text is unbroken. -/
theorem unbroken_translateNewlines {text : List Char} (unbroken : Unbroken text) :
    Unbroken (translateNewlines text) := by
  fun_induction translateNewlines text with
  | case1 => exact .nil
  | case2 rest ih =>
    have line := @Unbroken.right ['\r'] _ unbroken
    obtain ⟨c, more, rfl, solid⟩ := line.next (.inl rfl) (fun _ same => by cases same)
    rw [translateNewlines_solid solid] at ih ⊢
    exact (ih (@Unbroken.right ['\n'] _ line)).newline solid
  | case3 rest single ih =>
    obtain ⟨c, more, rfl, solid⟩ := unbroken.next (.inr rfl) fun more _ => single more
    rw [translateNewlines_solid solid] at ih ⊢
    exact (ih (@Unbroken.right ['\r'] _ unbroken)).newline solid
  | case4 d rest _ plain ih =>
    have further := ih (@Unbroken.right [d] _ unbroken)
    by_cases newline : d = '\n'
    · subst newline
      obtain ⟨c, more, rfl, solid⟩ := unbroken.next (.inl rfl) (fun _ same => by cases same)
      rw [translateNewlines_solid solid] at further ⊢
      exact further.newline solid
    · have solid : ¬ LineEnd d := fun ends => ends.elim newline plain
      exact .cons (fun e _ => joined_of_left solid e) (fun _ => solid) further

/-! ## Taking the blocks apart -/

theorem splitBlank_cons {c : Char} {text : List Char}
    (single : ∀ rest, c = '\n' → text ≠ '\n' :: rest) :
    splitBlank (c :: text) = push c (splitBlank text) := by
  rw [splitBlank]
  exact fun rest same => single rest same

/-- A block that is taken apart no further. -/
def Whole (block : List Char) : Prop := splitBlank block = [block]

/-- A block that a blank line after it closes. -/
def Sealed (block : List Char) : Prop :=
  ∀ rest, splitBlank (block ++ '\n' :: '\n' :: rest) = block :: splitBlank rest

theorem Whole.cons {c : Char} {block : List Char} (whole : Whole block)
    (single : ∀ rest, c = '\n' → block ≠ '\n' :: rest) : Whole (c :: block) := by
  rw [Whole, splitBlank_cons single, whole]
  rfl

theorem Sealed.cons {c : Char} {block : List Char} (closed : Sealed block)
    (single : c = '\n' → ∃ d rest, block = d :: rest ∧ d ≠ '\n') : Sealed (c :: block) := by
  intro rest
  rw [List.cons_append, splitBlank_cons, closed rest]
  · rfl
  · intro more newline begins
    obtain ⟨d, block, rfl, other⟩ := single newline
    exact other (List.cons.inj begins).1

/-- A block that is unbroken stays one block, whatever follows. -/
theorem whole_and_sealed {block : List Char} (unbroken : Unbroken block) (plain : '\r' ∉ block) :
    Whole block ∧ Sealed block := by
  induction block with
  | nil => exact ⟨rfl, fun _ => rfl⟩
  | cons c block ih =>
    rw [List.mem_cons, not_or] at plain
    obtain ⟨whole, closed⟩ := ih (@Unbroken.right [c] _ unbroken) plain.2
    have next : c = '\n' → ∃ d rest, block = d :: rest ∧ d ≠ '\n' := by
      intro newline
      obtain ⟨d, rest, here, solid⟩ := unbroken.next (.inl newline)
        fun _ same => absurd same.symm plain.1
      exact ⟨d, rest, here, fun same => solid (.inl same)⟩
    refine ⟨whole.cons fun rest newline begins => ?_, closed.cons next⟩
    obtain ⟨d, more, rfl, other⟩ := next newline
    exact other (List.cons.inj begins).1

/-- Blocks that come back from one text as they went into it: none can be taken apart, and each
that has another after it is closed. -/
structure Blocks (blocks : List (List Char)) : Prop where
  whole : ∀ block ∈ blocks, Whole block
  closed : blocks.Pairwise fun block _ => Sealed block

theorem Blocks.sublist {some_of all : List (List Char)} (blocks : Blocks all)
    (kept : some_of.Sublist all) : Blocks some_of :=
  ⟨fun block member => blocks.whole block (kept.subset member), blocks.closed.sublist kept⟩

theorem splitBlank_joinBlank {block : List Char} {rest : List (List Char)}
    (blocks : Blocks (block :: rest)) : splitBlank (joinBlank (block :: rest)) = block :: rest := by
  induction rest generalizing block with
  | nil =>
    rw [joinBlank_singleton]
    exact blocks.whole block List.mem_cons_self
  | cons next rest ih =>
    have closed := (List.pairwise_cons.mp blocks.closed).1 next List.mem_cons_self
    have later := ih (blocks.sublist (List.sublist_cons_self block _))
    rw [joinBlank_cons]
    exact (closed _).trans (congrArg (block :: ·) later)

theorem splitBlank_cut (text : List Char) : ∃ block rest, splitBlank text = block :: rest ∧
    block <+: text ∧ (block = [] → rest ≠ [] → ∃ more, text = '\n' :: more) := by
  fun_induction splitBlank text with
  | case1 => exact ⟨[], [], rfl, List.prefix_rfl, fun _ more => absurd rfl more⟩
  | case2 rest _ => exact ⟨[], _, rfl, List.nil_prefix, fun _ _ => ⟨_, rfl⟩⟩
  | case3 c text _ ih =>
    obtain ⟨block, rest, cut, begins, _⟩ := ih
    rw [cut]
    exact ⟨c :: block, rest, rfl, (List.prefix_cons_inj c).mpr begins, fun none => by cases none⟩

/-- What a text is taken apart into are blocks. -/
theorem blocks_splitBlank (text : List Char) : Blocks (splitBlank text) := by
  fun_induction splitBlank text with
  | case1 => exact ⟨List.forall_mem_singleton.mpr rfl, List.pairwise_singleton _ _⟩
  | case2 rest ih =>
    exact ⟨List.forall_mem_cons.mpr ⟨rfl, ih.whole⟩,
      List.pairwise_cons.mpr ⟨fun _ _ _ => rfl, ih.closed⟩⟩
  | case3 c text single ih =>
    obtain ⟨block, rest, cut, begins, blank⟩ := splitBlank_cut text
    rw [cut] at ih ⊢
    obtain ⟨whole, others⟩ := List.forall_mem_cons.mp ih.whole
    obtain ⟨closed, later⟩ := List.pairwise_cons.mp ih.closed
    have beginning : ∀ d more, block = d :: more → c = '\n' → d ≠ '\n' := by
      rintro d more rfl newline rfl
      obtain ⟨after, rfl⟩ := begins
      exact single _ newline rfl
    refine ⟨List.forall_mem_cons.mpr ⟨whole.cons fun more newline here => ?_, others⟩,
      List.pairwise_cons.mpr
        ⟨fun next member => (closed next member).cons fun newline => ?_, later⟩⟩
    · exact beginning _ more here newline rfl
    · cases block with
      | nil =>
        obtain ⟨more, rfl⟩ := blank rfl (List.ne_nil_of_mem member)
        exact absurd rfl (single more newline)
      | cons d more => exact ⟨d, more, rfl, beginning d more rfl newline⟩

theorem mem_splitBlank {c : Char} {text block : List Char} (member : block ∈ splitBlank text)
    (inside : c ∈ block) : c ∈ text := by
  fun_induction splitBlank text generalizing block with
  | case1 => rwa [List.mem_singleton.mp member] at inside
  | case2 rest ih =>
    obtain rfl | later := List.mem_cons.mp member
    · cases inside
    · exact List.mem_cons_of_mem _ (List.mem_cons_of_mem _ (ih later inside))
  | case3 d text _ ih =>
    obtain ⟨first, rest, cut, _⟩ := splitBlank_cut text
    rw [cut] at ih member
    obtain rfl | later := List.mem_cons.mp member
    · obtain rfl | further := List.mem_cons.mp inside
      · exact List.mem_cons_self
      · exact List.mem_cons_of_mem _ (ih List.mem_cons_self further)
    · exact List.mem_cons_of_mem _ (ih (List.mem_cons_of_mem _ later) inside)

/-! ## Reading back -/

/-- A newline after an unbroken text is a line end of its own. -/
theorem translateNewlines_newline {text : List Char} (unbroken : Unbroken text)
    (rest : List Char) :
    translateNewlines (text ++ '\n' :: rest) =
      translateNewlines text ++ '\n' :: translateNewlines rest := by
  fun_induction translateNewlines text with
  | case1 => exact translateNewlines_plain (by decide) rest
  | case2 text ih =>
    have further := ih (@Unbroken.right ['\r', '\n'] _ unbroken)
    rw [List.cons_append, List.cons_append, translateNewlines, further, List.cons_append]
  | case3 text single ih =>
    obtain ⟨c, more, rfl, solid⟩ := unbroken.next (.inr rfl) fun more _ => single more
    have further := ih (@Unbroken.right ['\r'] _ unbroken)
    rw [List.cons_append, List.cons_append,
      translateNewlines_return (fun same => solid (.inl same)), ← List.cons_append, further,
      List.cons_append]
  | case4 d text _ plain ih =>
    rw [List.cons_append, translateNewlines_plain plain, ih (@Unbroken.right [d] _ unbroken),
      List.cons_append]

theorem return_free_joinBlank {blocks : List (List Char)}
    (plain : ∀ block ∈ blocks, '\r' ∉ block) :
    '\r' ∉ joinBlank blocks := by
  induction blocks with
  | nil => exact List.not_mem_nil
  | cons block rest ih =>
    obtain ⟨first, others⟩ := List.forall_mem_cons.mp plain
    cases rest with
    | nil => rwa [joinBlank_singleton]
    | cons next rest =>
      rw [joinBlank_cons]
      simp only [List.mem_append, List.mem_cons, not_or]
      exact ⟨first, by decide, by decide, ih others⟩

/-- **An unbroken text comes back as one block.**  Put before blocks that a reader of the same
file has taken apart, it is the first block again, and they are the others. -/
theorem splitBlank_written {text : List Char} {blocks : List (List Char)} (unbroken : Unbroken text)
    (kept : Blocks blocks) (plain : ∀ block ∈ blocks, '\r' ∉ block) :
    splitBlank (translateNewlines (joinBlank (text :: blocks))) =
      translateNewlines text :: blocks := by
  obtain ⟨whole, closed⟩ := whole_and_sealed (unbroken_translateNewlines unbroken)
    fun member => (mem_translateNewlines member).1 rfl
  cases blocks with
  | nil =>
    rw [joinBlank_singleton]
    exact whole
  | cons next rest =>
    rw [joinBlank_cons, translateNewlines_newline unbroken, translateNewlines_plain (by decide),
      translateNewlines_eq (return_free_joinBlank plain), closed, splitBlank_joinBlank kept]

end AgentRunner.BlankLines
