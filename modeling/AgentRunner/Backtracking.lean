import Mathlib.Data.List.Infix
import Mathlib.Logic.Basic

/-! Regular expressions as a backtracking engine reads them: a match yields its ways to go
on in order of preference, and a substitution replaces the leftmost, most preferred match
and goes on after it. -/
namespace AgentRunner.Backtracking

abbrev Text := List Char

/-- Where a match stands: what it has passed, the nearest first, what is left, and the
groups it has captured, the latest first. -/
structure Cursor where
  before : Text
  rest : Text
  groups : List (ℕ × Text)

/-- An expression: a character of a class, a test of the two characters around a position,
a negative lookahead, a numbered group, sequence, choice, and greedy and lazy repetition of
a class. -/
inductive Regex where
  | empty
  | chr (p : Char → Bool)
  | edge (ok : Option Char → Option Char → Bool)
  | notAhead (r : Regex)
  | group (n : ℕ) (r : Regex)
  | seq (r s : Regex)
  | alt (r s : Regex)
  | many (p : Char → Bool) (least : ℕ) (most : Option ℕ)
  | lazily (p : Char → Bool)

/-- The ways to take between `least` and `most` characters of a class, the longest first. -/
def greedy (p : Char → Bool) : ℕ → Option ℕ → Text → Text → List (Text × Text)
  | least, _, before, [] => if least = 0 then [(before, [])] else []
  | least, most, before, c :: rest =>
    (if p c && most != some 0 then
      greedy p (least - 1) (most.map (· - 1)) (c :: before) rest else []) ++
    if least = 0 then [(before, c :: rest)] else []

/-- The ways to take characters of a class, the shortest first. -/
def reluctant (p : Char → Bool) : Text → Text → List (Text × Text)
  | before, [] => [(before, [])]
  | before, c :: rest => (before, c :: rest) :: if p c then reluctant p (c :: before) rest else []

/-- The ways to match an expression from a position, the preferred first. -/
def Regex.matches : Regex → Cursor → List Cursor
  | .empty, at_ => [at_]
  | .chr p, at_ =>
    match at_.rest with
    | c :: rest => if p c then [⟨c :: at_.before, rest, at_.groups⟩] else []
    | [] => []
  | .edge ok, at_ => if ok at_.before.head? at_.rest.head? then [at_] else []
  | .notAhead r, at_ => if (r.matches at_).isEmpty then [at_] else []
  | .group n r, at_ =>
    (r.matches at_).map fun m =>
      { m with groups := (n, at_.rest.take (at_.rest.length - m.rest.length)) :: m.groups }
  | .seq r s, at_ => (r.matches at_).flatMap s.matches
  | .alt r s, at_ => r.matches at_ ++ s.matches at_
  | .many p least most, at_ =>
    (greedy p least most at_.before at_.rest).map fun way => ⟨way.1, way.2, at_.groups⟩
  | .lazily p, at_ =>
    (reluctant p at_.before at_.rest).map fun way => ⟨way.1, way.2, at_.groups⟩

/-- A piece of a replacement: plain text, or what a group captured. -/
inductive Piece where
  | plain (text : String)
  | captured (n : ℕ)

def expand (template : List Piece) (groups : List (ℕ × Text)) : Text :=
  template.flatMap fun
    | .plain text => text.toList
    | .captured n => (groups.lookup n).getD []

/-- The substitution from a position on; a match of the empty text is passed over, and
`fuel` is at least the length of what is left. -/
def subFrom (r : Regex) (template : List Piece) : ℕ → Text → Text → Text
  | _, _, [] => []
  | 0, _, rest => rest
  | fuel + 1, before, c :: rest =>
    match (r.matches ⟨before, c :: rest, []⟩).head? with
    | some m =>
      if m.rest.length ≤ rest.length then
        expand template m.groups ++ subFrom r template fuel m.before m.rest
      else c :: subFrom r template fuel (c :: before) rest
    | none => c :: subFrom r template fuel (c :: before) rest

/-- `re.sub`. -/
def Regex.sub (r : Regex) (template : List Piece) (text : Text) : Text :=
  subFrom r template text.length [] text

/-- The text itself. -/
def literal (text : String) : Regex :=
  text.toList.foldr (fun c r => .seq (.chr (· == c)) r) .empty

/-- One of several expressions, the first preferred. -/
def oneOf : List Regex → Regex
  | [] => .notAhead .empty
  | [r] => r
  | r :: rest => .alt r (oneOf rest)

@[simp] theorem matches_seq_empty (r : Regex) (at_ : Cursor) :
    (Regex.seq r .empty).matches at_ = r.matches at_ := by
  simp [Regex.matches]

/-! ## What every match needs -/

variable {r s : Regex} {p q : Char → Bool} {at_ m : Cursor} {template : List Piece}

theorem greedy_rest {least : ℕ} {most : Option ℕ} {before rest : Text} {way : Text × Text}
    (taken : way ∈ greedy p least most before rest) : way.2 <:+ rest := by
  induction rest generalizing least most before with
  | nil =>
    rw [greedy] at taken
    split at taken
    · rw [List.mem_singleton.mp taken]
    · cases taken
  | cons c rest ih =>
    rw [greedy, List.mem_append] at taken
    obtain further | here := taken
    · split at further
      · exact (ih further).trans (List.suffix_cons c rest)
      · cases further
    · split at here
      · rw [List.mem_singleton.mp here]
      · cases here

theorem reluctant_rest {before rest : Text} {way : Text × Text}
    (taken : way ∈ reluctant p before rest) : way.2 <:+ rest := by
  induction rest generalizing before with
  | nil => rw [List.mem_singleton.mp taken]
  | cons c rest ih =>
    rw [reluctant, List.mem_cons] at taken
    obtain rfl | further := taken
    · exact List.suffix_rfl
    · split at further
      · exact (ih further).trans (List.suffix_cons c rest)
      · cases further

/-- A match goes forward. -/
theorem matches_rest (matched : m ∈ r.matches at_) : m.rest <:+ at_.rest := by
  induction r generalizing at_ m with
  | empty => rw [List.mem_singleton.mp matched]
  | chr p =>
    unfold Regex.matches at matched
    split at matched
    · rename_i c rest shape
      split at matched
      · rw [List.mem_singleton.mp matched, shape]
        exact List.suffix_cons c rest
      · cases matched
    · cases matched
  | edge ok =>
    unfold Regex.matches at matched
    split at matched
    · rw [List.mem_singleton.mp matched]
    · cases matched
  | notAhead r _ =>
    unfold Regex.matches at matched
    split at matched
    · rw [List.mem_singleton.mp matched]
    · cases matched
  | group n r ih =>
    obtain ⟨m', inner, rfl⟩ := List.mem_map.mp matched
    exact ih (m := m') inner
  | seq r s ihr ihs =>
    obtain ⟨m', first, second⟩ := List.mem_flatMap.mp matched
    exact (ihs second).trans (ihr first)
  | alt r s ihr ihs =>
    obtain left | right := List.mem_append.mp matched
    · exact ihr left
    · exact ihs right
  | many p least most =>
    obtain ⟨way, taken, rfl⟩ := List.mem_map.mp matched
    exact greedy_rest taken
  | lazily p =>
    obtain ⟨way, taken, rfl⟩ := List.mem_map.mp matched
    exact reluctant_rest taken

/-- Every match finds a character of the class ahead of it. -/
def Demands (p : Char → Bool) (r : Regex) : Prop :=
  ∀ at_, ∀ m ∈ r.matches at_, ∃ c ∈ at_.rest, p c = true

theorem demands_chr (included : ∀ c, q c = true → p c = true) : Demands p (.chr q) := by
  intro at_ m matched
  unfold Regex.matches at matched
  split at matched
  · rename_i c rest shape
    split at matched
    · rename_i holds
      exact ⟨c, by rw [shape]; exact List.mem_cons_self, included c holds⟩
    · cases matched
  · cases matched

theorem demands_group {n : ℕ} (demands : Demands p r) : Demands p (.group n r) := by
  intro at_ m matched
  obtain ⟨m', inner, rfl⟩ := List.mem_map.mp matched
  exact demands at_ m' inner

theorem demands_first (demands : Demands p r) : Demands p (.seq r s) := by
  intro at_ m matched
  obtain ⟨m', first, _⟩ := List.mem_flatMap.mp matched
  exact demands at_ m' first

theorem demands_second (demands : Demands p s) : Demands p (.seq r s) := by
  intro at_ m matched
  obtain ⟨m', first, second⟩ := List.mem_flatMap.mp matched
  obtain ⟨c, member, holds⟩ := demands m' m second
  exact ⟨c, (matches_rest first).subset member, holds⟩

theorem demands_alt (left : Demands p r) (right : Demands p s) : Demands p (.alt r s) := by
  intro at_ m matched
  obtain first | second := List.mem_append.mp matched
  · exact left at_ m first
  · exact right at_ m second

theorem demands_many {least : ℕ} {most : Option ℕ} (included : ∀ c, q c = true → p c = true) :
    Demands p (.many q (least + 1) most) := by
  intro at_ m matched
  obtain ⟨way, taken, rfl⟩ := List.mem_map.mp matched
  match shape : at_.rest with
  | [] => simp [shape, greedy] at taken
  | c :: rest =>
    rw [shape, greedy] at taken
    simp only [Nat.succ_ne_zero, if_false, List.append_nil] at taken
    split at taken
    · rename_i holds
      exact ⟨c, List.mem_cons_self, included c (Bool.and_eq_true_iff.mp holds).1⟩
    · cases taken

theorem demands_literal {text : String} {c : Char} (member : c ∈ text.toList) (holds : p c = true) :
    Demands p (literal text) := by
  unfold literal
  generalize text.toList = chars at member
  induction chars with
  | nil => cases member
  | cons d rest ih =>
    rw [List.foldr_cons]
    obtain rfl | later := List.mem_cons.mp member
    · apply demands_first
      apply demands_chr
      intro e same
      rw [beq_iff_eq.mp same]
      exact holds
    · exact demands_second (ih later)

/-- Every match begins with a character of the class. -/
def Begins (p : Char → Bool) (r : Regex) : Prop :=
  ∀ at_, ∀ m ∈ r.matches at_, at_.rest.head?.any p = true

theorem begins_first (begins : Begins p r) : Begins p (.seq r s) := by
  intro at_ m matched
  obtain ⟨m', first, _⟩ := List.mem_flatMap.mp matched
  exact begins at_ m' first

/-- A test of a position leaves the beginning to what follows. -/
theorem begins_edge {ok : Option Char → Option Char → Bool} (begins : Begins p s) :
    Begins p (.seq (.edge ok) s) := by
  intro at_ m matched
  obtain ⟨m', first, second⟩ := List.mem_flatMap.mp matched
  unfold Regex.matches at first
  split at first
  · rw [List.mem_singleton.mp first] at second
    exact begins at_ m second
  · cases first

theorem begins_oneOf {choices : List Regex} (all : ∀ r ∈ choices, Begins p r) :
    Begins p (oneOf choices) := by
  induction choices with
  | nil => intro at_ m matched; simp [oneOf, Regex.matches] at matched
  | cons r rest ih =>
    have first := all r List.mem_cons_self
    have others := ih fun s member => all s (List.mem_cons_of_mem _ member)
    cases rest with
    | nil => exact first
    | cons s rest =>
      intro at_ m matched
      obtain left | right := List.mem_append.mp matched
      · exact first at_ m left
      · exact others at_ m right

theorem begins_literal {text : String} (holds : text.toList.head?.any p = true) :
    Begins p (literal text) := by
  unfold literal
  cases shape : text.toList with
  | nil =>
    rw [shape] at holds
    cases holds
  | cons c rest =>
    rw [shape] at holds
    apply begins_first
    intro at_ m matched
    unfold Regex.matches at matched
    split at matched
    · rename_i d rest' here
      split at matched
      · rename_i same
        rw [here, beq_iff_eq.mp same]
        exact holds
      · cases matched
    · cases matched

/-- Nothing matches where the next character begins no match. -/
theorem unmatched_of_begins {c : Char} {before rest : Text} (begins : Begins p r)
    (other : p c = false) : r.matches ⟨before, c :: rest, []⟩ = [] := by
  apply List.eq_nil_iff_forall_not_mem.mpr
  intro m matched
  have holds : p c = true := begins _ m matched
  rw [other] at holds
  cases holds

theorem oneOf_unmatched {choices : List Regex} (all : ∀ r ∈ choices, r.matches at_ = []) :
    (oneOf choices).matches at_ = [] := by
  induction choices with
  | nil => simp [oneOf, Regex.matches]
  | cons r rest ih =>
    have first := all r List.mem_cons_self
    have others := ih fun s member => all s (List.mem_cons_of_mem _ member)
    cases rest with
    | nil => exact first
    | cons s rest =>
      change r.matches at_ ++ (oneOf (s :: rest)).matches at_ = []
      rw [first, others, List.append_nil]

/-- A text matches where it comes next, and nothing else. -/
theorem matches_literal (text : String) (before rest : Text) (groups : List (ℕ × Text)) :
    (literal text).matches ⟨before, rest, groups⟩ =
      if text.toList.isPrefixOf rest then
        [⟨text.toList.reverse ++ before, rest.drop text.toList.length, groups⟩] else [] := by
  unfold literal
  generalize text.toList = chars
  induction chars generalizing before rest with
  | nil => simp [Regex.matches]
  | cons c chars ih =>
    cases rest with
    | nil => simp [Regex.matches]
    | cons d rest =>
      by_cases same : d = c
      · subst same
        simp [Regex.matches, ih]
      · simp [Regex.matches, same, Ne.symm same]

theorem literal_unmatched {text : String} {before rest : Text} {groups : List (ℕ × Text)}
    (other : text.toList.isPrefixOf rest = false) :
    (Regex.seq (literal text) s).matches ⟨before, rest, groups⟩ = [] := by
  rw [Regex.matches, matches_literal, other]
  rfl

/-! ## What a substitution changes -/

theorem subFrom_skip {c : Char} {fuel : ℕ} {before rest : Text}
    (unmatched : r.matches ⟨before, c :: rest, []⟩ = []) :
    subFrom r template (fuel + 1) before (c :: rest) =
      c :: subFrom r template fuel (c :: before) rest := by
  rw [subFrom, unmatched, List.head?_nil]

theorem subFrom_skips {fuel : ℕ} {before passed rest : Text}
    (unmatched : ∀ before c rest, c ∈ passed → r.matches ⟨before, c :: rest, []⟩ = []) :
    subFrom r template (fuel + passed.length) before (passed ++ rest) =
      passed ++ subFrom r template fuel (passed.reverse ++ before) rest := by
  induction passed generalizing before with
  | nil => rfl
  | cons c passed ih =>
    rw [List.length_cons, ← Nat.add_assoc, List.cons_append,
      subFrom_skip (unmatched before c _ List.mem_cons_self),
      ih fun before d rest member => unmatched before d rest (List.mem_cons_of_mem _ member),
      List.reverse_cons, List.append_assoc]
    rfl

/-- Where no character of a text begins a match, the text stays as it is. -/
theorem subFrom_of_begins {text before : Text} {fuel : ℕ} (begins : Begins p r)
    (none_there : ∀ c ∈ text, p c = false) :
    subFrom r template (fuel + text.length) before text = text := by
  have unmatched : ∀ before c rest, c ∈ text → r.matches ⟨before, c :: rest, []⟩ = [] :=
    fun _ c _ member => unmatched_of_begins begins (none_there c member)
  calc subFrom r template (fuel + text.length) before text
      = subFrom r template (fuel + text.length) before (text ++ []) := by rw [List.append_nil]
    _ = text ++ subFrom r template fuel (text.reverse ++ before) [] := subFrom_skips unmatched
    _ = text := by cases fuel <;> simp [subFrom]

/-- A text without the characters every match needs stays as it is. -/
theorem sub_of_demands {text : Text} (demands : Demands p r)
    (none_there : ∀ c ∈ text, p c = false) :
    r.sub template text = text := by
  suffices ∀ fuel before, subFrom r template fuel before text = text from this _ _
  induction text with
  | nil => intro fuel before; cases fuel <;> rfl
  | cons c rest ih =>
    intro fuel before
    cases fuel with
    | zero => rfl
    | succ fuel =>
      rw [subFrom_skip, ih fun d member => none_there d (List.mem_cons_of_mem _ member)]
      rw [List.eq_nil_iff_forall_not_mem]
      intro m matched
      obtain ⟨d, member, holds⟩ := demands _ m matched
      rw [none_there d member] at holds
      cases holds

/-- A repetition needs as many characters as it asks for. -/
theorem greedy_short {least : ℕ} {most : Option ℕ} {before rest : Text}
    (short : rest.length < least) : greedy p least most before rest = [] := by
  induction rest generalizing least most before with
  | nil =>
    rw [greedy, if_neg (Nat.pos_iff_ne_zero.mp short)]
  | cons c rest ih =>
    rw [List.length_cons] at short
    have shorter : rest.length < least - 1 := by omega
    have wanting : least ≠ 0 := by omega
    simp [greedy, ih shorter, wanting]

/-- A greedy repetition that nothing stops takes all there is first. -/
theorem greedy_all {least : ℕ} {before rest : Text} (all : ∀ c ∈ rest, p c = true)
    (enough : least ≤ rest.length) :
    (greedy p least none before rest).head? = some (rest.reverse ++ before, []) := by
  induction rest generalizing least before with
  | nil =>
    obtain rfl := Nat.le_zero.mp enough
    rfl
  | cons c rest ih =>
    rw [List.length_cons] at enough
    have further := @ih (least - 1) (c :: before)
      (fun d member => all d (List.mem_cons_of_mem _ member)) (by omega)
    rw [greedy, all c List.mem_cons_self, Option.map_none]
    simp only [Bool.true_and, bne_iff_ne, ne_eq, reduceCtorEq, not_false_eq_true, if_true]
    rw [List.head?_append, further, List.reverse_cons, List.append_assoc]
    rfl

end AgentRunner.Backtracking
