import AgentRunner.JsonFraming
import AgentRunner.IntText

/-! `json.dumps` in every layout the program writes, and that `json.loads` reads the
value back. The reading machine is driven through the written text token by token;
a number is the one token that only ends at the character behind it, so a value is
followed up to that character. -/
namespace AgentRunner.JsonRoundTrip
open PyValue JsonText JsonFraming

/-! ## Layouts -/

/-- `separators` and `indent`. What stands behind a comma or a colon is white space. -/
structure Layout where
  itemGap : List Char
  keyGap : List Char
  indent : Option Nat
  itemBlank : ∀ c ∈ itemGap, isWs c = true
  keyBlank : ∀ c ∈ keyGap, isWs c = true

namespace Layout

/-- `json.dumps(value)`. -/
def plain : Layout :=
  ⟨[' '], [' '], none, List.forall_mem_singleton.mpr rfl, List.forall_mem_singleton.mpr rfl⟩

/-- `json.dump(value, f, indent=2)`. -/
def indented : Layout := ⟨[], [' '], some 2, nofun, List.forall_mem_singleton.mpr rfl⟩

/-- `separators=(",", ":")`. -/
def compact : Layout := ⟨[], [], none, nofun, nofun⟩

/-- `newline_indent` at a nesting depth. -/
def newline (l : Layout) (depth : Nat) : List Char :=
  match l.indent with
  | none => []
  | some n => '\n' :: List.replicate (n * depth) ' '

theorem newline_blank (l : Layout) (depth : Nat) : ∀ c ∈ l.newline depth, isWs c = true := by
  unfold newline
  cases l.indent with
  | none => exact nofun
  | some n =>
    refine List.forall_mem_cons.mpr ⟨rfl, fun c member => ?_⟩
    rw [List.eq_of_mem_replicate member]
    rfl

end Layout

mutual
/-- `json.dumps(value, ensure_ascii=False)` in a layout, `depth` containers deep. -/
def write (i : Interpreter) (l : Layout) (depth : Nat) : Json → List Char
  | .null => "null".toList
  | .bool true => "true".toList
  | .bool false => "false".toList
  | .int n => dumpsInt n
  | .float x => dumpsFloat i x
  | .str text => dumpsText text
  | .arr [] => ['[', ']']
  | .arr (v :: rest) => '[' :: writeItems i l (depth + 1) (v :: rest) ++ l.newline depth ++ [']']
  | .obj [] => ['{', '}']
  | .obj (field :: rest) =>
    '{' :: writeFields i l (depth + 1) (field :: rest) ++ l.newline depth ++ ['}']

def writeItems (i : Interpreter) (l : Layout) (depth : Nat) : List Json → List Char
  | [] => []
  | [v] => l.newline depth ++ write i l depth v
  | v :: w :: rest =>
    l.newline depth ++ write i l depth v ++ ',' :: l.itemGap ++ writeItems i l depth (w :: rest)

def writeFields (i : Interpreter) (l : Layout) (depth : Nat) : List (String × Json) → List Char
  | [] => []
  | [(key, v)] => l.newline depth ++ dumpsText key ++ ':' :: l.keyGap ++ write i l depth v
  | (key, v) :: field :: rest =>
    l.newline depth ++ dumpsText key ++ ':' :: l.keyGap ++ write i l depth v ++
      ',' :: l.itemGap ++ writeFields i l depth (field :: rest)
end

/-! ## Values that survive -/

mutual
/-- A value the reader takes back at this nesting depth: keys are distinct, as in every
`dict`, integers are short enough for `int`, a float's text denotes that float, and
containers do not nest too deep. -/
def Storable (i : Interpreter) (depth : Nat) : Json → Prop
  | .null | .bool _ | .str _ => True
  | .int n => (Nat.toDigits 10 n.natAbs).length ≤ maxStrDigits
  | .float (.finite q) => readNumber i (i.reprFloat q) = .ok (.float (.finite q))
  | .float _ => True
  | .arr items => depth < i.maxDepth ∧ StorableItems i (depth + 1) items
  | .obj fields =>
    depth < i.maxDepth ∧ (fields.map Prod.fst).Nodup ∧ StorableFields i (depth + 1) fields

def StorableItems (i : Interpreter) (depth : Nat) : List Json → Prop
  | [] => True
  | v :: rest => Storable i depth v ∧ StorableItems i depth rest

def StorableFields (i : Interpreter) (depth : Nat) : List (String × Json) → Prop
  | [] => True
  | (_, v) :: rest => Storable i depth v ∧ StorableFields i depth rest
end

/-! ## Driving the machine -/

section
variable {i : Interpreter}

/-- Reading from `s` to the end of the text. -/
def exec (i : Interpreter) (s : State) (text : List Char) : Except Stop Json :=
  run i s text >>= finish i

theorem exec_cons (s : State) (c : Char) (text : List Char) :
    exec i s (c :: text) = step i s c >>= fun t => exec i t text := by
  rw [exec, run, List.foldlM_cons]
  cases step i s c <;> rfl

theorem exec_step {s t : State} {c : Char} (stepped : step i s c = .ok t) (text : List Char) :
    exec i s (c :: text) = exec i t text := by
  rw [exec_cons, stepped]
  rfl

/-- The modes that skip white space. -/
def Skips : Mode → Prop
  | .value | .firstItem | .firstKey | .key | .colon _ | .next | .done _ => True
  | _ => False

theorem step_blank {mode : Mode} (skips : Skips mode) (stack : List Frame) {c : Char}
    (blank : isWs c = true) : step i ⟨mode, stack⟩ c = .ok ⟨mode, stack⟩ := by
  cases mode <;> first | exact skips.elim | simp [step, afterValue, blank]

theorem exec_blanks {mode : Mode} (skips : Skips mode) (stack : List Frame) {gap : List Char}
    (blank : ∀ c ∈ gap, isWs c = true) (text : List Char) :
    exec i ⟨mode, stack⟩ (gap ++ text) = exec i ⟨mode, stack⟩ text := by
  induction gap with
  | nil => rfl
  | cons c gap ih =>
    obtain ⟨first, others⟩ := List.forall_mem_cons.mp blank
    rw [List.cons_append, exec_step (step_blank skips stack first), ih others]

/-- What may stand behind a number: nothing that could belong to it. -/
def Ends (text : List Char) : Prop := ∀ c ∈ text.head?, inNumber c = false

theorem ends_cons {c : Char} (foreign : inNumber c = false) (text : List Char) :
    Ends (c :: text) := fun d member => by
  cases member
  exact foreign

/-- The modes in which a value may begin. -/
def Opens (mode : Mode) : Prop := mode = .value ∨ mode = .firstItem

theorem Opens.skips {mode : Mode} (opens : Opens mode) : Skips mode := by
  rcases opens with rfl | rfl <;> trivial

theorem step_opens {mode : Mode} (opens : Opens mode) (stack : List Frame) {c : Char}
    (solid : isWs c = false) (item : c ≠ ']') :
    step i ⟨mode, stack⟩ c = startValue i stack c := by
  rcases opens with rfl | rfl
  · simp only [step, solid, Bool.false_eq_true, if_false]
  · simp only [step, solid, Bool.false_eq_true, if_false, if_neg item]

/-- A value at the front of the text is handed to its container. -/
def Delivers (i : Interpreter) (v : Json) (stack : List Frame) (written : List Char) : Prop :=
  ∀ mode, Opens mode → ∀ rest, Ends rest →
    exec i ⟨mode, stack⟩ (written ++ rest) = deliver v stack >>= fun t => exec i t rest

/-! ## Literals and strings -/

theorem exec_literal {rest : List Char} (filled : rest ≠ []) (v : Json) (stack : List Frame)
    (text : List Char) :
    exec i ⟨.literal rest v, stack⟩ (rest ++ text) =
      deliver v stack >>= fun t => exec i t text := by
  induction rest with
  | nil => exact absurd rfl filled
  | cons c rest ih =>
    cases rest with
    | nil =>
      have stepped : step i ⟨.literal [c] v, stack⟩ c = deliver v stack := by
        simp [step]
      rw [List.singleton_append, exec_cons, stepped]
    | cons d rest =>
      have stepped : step i ⟨.literal (c :: d :: rest) v, stack⟩ c =
          .ok ⟨.literal (d :: rest) v, stack⟩ := by
        simp [step]
      rw [List.cons_append, exec_step stepped, ih (List.cons_ne_nil _ _)]

theorem charOfUnit_toNat (c : Char) : charOfUnit c.toNat = c := by
  have valid := c.valid
  rw [charOfUnit, if_neg, Char.ofNat_toNat]
  rintro ⟨low, high⟩
  simp only [UInt32.isValidChar, Nat.isValidChar] at valid
  change c.toNat < 0xD800 ∨ 0xDFFF < c.toNat ∧ c.toNat < 0x110000 at valid
  omega

/-- No character of a text is half of a surrogate pair. -/
theorem joinUnits_toNat (text : List Char) : joinUnits (text.map Char.toNat) = text := by
  induction text with
  | nil => rfl
  | cons c rest ih =>
    cases rest with
    | nil => rw [List.map_singleton, joinUnits, charOfUnit_toNat]
    | cons d rest =>
      rw [List.map_cons, List.map_cons, joinUnits, if_neg, charOfUnit_toNat, ← List.map_cons, ih]
      rintro ⟨⟨low, high⟩, -⟩
      have valid := c.valid
      simp only [UInt32.isValidChar, Nat.isValidChar] at valid
      change c.toNat < 0xD800 ∨ 0xDFFF < c.toNat ∧ c.toNat < 0x110000 at valid
      omega

theorem hexDigit?_digitChar : ∀ n : Fin 16, hexDigit? (Nat.digitChar n) = some n.val := by decide

theorem exec_unit {isKey : Bool} {units : List Nat} {stack : List Frame} {c d : Char} {unit : Nat}
    (listed : escapes.lookup d = some unit) (other : d ≠ 'u') (same : unit = c.toNat)
    (text : List Char) :
    exec i ⟨.text isKey units, stack⟩ ('\\' :: d :: text) =
      exec i ⟨.text isKey (units ++ [c.toNat]), stack⟩ text := by
  have first : step i ⟨.text isKey units, stack⟩ '\\' = .ok ⟨.escape isKey units, stack⟩ := by
    simp [step, textStep]
  have second : step i ⟨.escape isKey units, stack⟩ d =
      .ok ⟨.text isKey (units ++ [c.toNat]), stack⟩ := by
    simp only [step, escapeStep, if_neg other, listed, same]
  rw [exec_step first, exec_step second]

theorem exec_hex {isKey : Bool} {units : List Nat} {stack : List Frame} {read unit : Nat}
    (digit : Fin 16) (text : List Char) :
    exec i ⟨.hex isKey units read unit, stack⟩ (Nat.digitChar digit :: text) =
      exec i (if read = 3 then ⟨.text isKey (units ++ [unit * 16 + digit]), stack⟩
        else ⟨.hex isKey units (read + 1) (unit * 16 + digit), stack⟩) text := by
  refine exec_step ?_ text
  simp only [step, hexStep, hexDigit?_digitChar]
  split <;> rfl

theorem exec_control {isKey : Bool} {units : List Nat} {stack : List Frame} {n : Nat}
    (control : n < 0x20) (text : List Char) :
    exec i ⟨.text isKey units, stack⟩
        ('\\' :: 'u' :: '0' :: '0' :: Nat.digitChar (n / 16) :: Nat.digitChar (n % 16) :: text) =
      exec i ⟨.text isKey (units ++ [n]), stack⟩ text := by
  have first : step i ⟨.text isKey units, stack⟩ '\\' = .ok ⟨.escape isKey units, stack⟩ := by
    simp [step, textStep]
  have second : step i ⟨.escape isKey units, stack⟩ 'u' = .ok ⟨.hex isKey units 0 0, stack⟩ := by
    simp [step, escapeStep]
  have high : n / 16 < 16 := by omega
  have low : n % 16 < 16 := by omega
  have sum : n / 16 * 16 + n % 16 = n := by omega
  rw [exec_step first, exec_step second]
  refine (exec_hex 0 _).trans ((exec_hex 0 _).trans ((exec_hex ⟨n / 16, high⟩ _).trans
    ((exec_hex ⟨n % 16, low⟩ _).trans ?_)))
  simp [sum]

/-- One character of a string, escaped or not, is one unit. -/
theorem exec_escapeChar {isKey : Bool} {units : List Nat} {stack : List Frame} (c : Char)
    (text : List Char) :
    exec i ⟨.text isKey units, stack⟩ (escapeChar c ++ text) =
      exec i ⟨.text isKey (units ++ [c.toNat]), stack⟩ text := by
  unfold escapeChar
  split_ifs with quote backslash newline return_ tab feed back control
  · subst quote
    exact exec_unit rfl (by decide) rfl text
  · subst backslash
    exact exec_unit rfl (by decide) rfl text
  · subst newline
    exact exec_unit rfl (by decide) rfl text
  · subst return_
    exact exec_unit rfl (by decide) rfl text
  · subst tab
    exact exec_unit rfl (by decide) rfl text
  · exact exec_unit rfl (by decide) feed.symm text
  · exact exec_unit rfl (by decide) back.symm text
  · exact exec_control control text
  · refine exec_step ?_ text
    simp only [step, textStep, if_neg quote, if_neg backslash, if_neg control]

theorem exec_chars {isKey : Bool} {stack : List Frame} (chars : List Char) (units : List Nat)
    (text : List Char) :
    exec i ⟨.text isKey units, stack⟩ (chars.flatMap escapeChar ++ text) =
      exec i ⟨.text isKey (units ++ chars.map Char.toNat), stack⟩ text := by
  induction chars generalizing units with
  | nil => simp
  | cons c chars ih =>
    rw [List.flatMap_cons, List.append_assoc, exec_escapeChar, ih, List.map_cons,
      List.append_assoc, List.singleton_append]

theorem exec_key (key : String) (stack : List Frame) (text : List Char) :
    exec i ⟨.text true [], stack⟩ (key.toList.flatMap escapeChar ++ '"' :: text) =
      exec i ⟨.colon key, stack⟩ text := by
  rw [exec_chars, List.nil_append]
  refine exec_step ?_ text
  simp [step, textStep, joinUnits_toNat]

theorem exec_text (value : String) (stack : List Frame) (text : List Char) :
    exec i ⟨.text false [], stack⟩ (value.toList.flatMap escapeChar ++ '"' :: text) =
      deliver (.str value) stack >>= fun t => exec i t text := by
  rw [exec_chars, List.nil_append, exec_cons]
  simp [step, textStep, joinUnits_toNat]

theorem delivers_text (value : String) (stack : List Frame) :
    Delivers i (.str value) stack (dumpsText value) := by
  intro mode opens rest _
  rw [dumpsText, List.cons_append, List.cons_append, List.append_assoc, List.singleton_append,
    exec_cons, step_opens opens stack (by decide) (by decide)]
  exact exec_text value stack rest

/-- A word is told by its first letter. -/
theorem delivers_literal {c : Char} {word : List Char} {v : Json} (solid : isWs c = false)
    (item : c ≠ ']') (filled : word ≠ []) (stack : List Frame)
    (starts : startValue i stack c = .ok ⟨.literal word v, stack⟩) :
    Delivers i v stack (c :: word) := by
  intro mode opens rest _
  rw [List.cons_append, exec_step ((step_opens opens stack solid item).trans starts),
    exec_literal filled]

/-! ## Numbers -/

theorem inNumber_of_isDigit {c : Char} (digit : isDigit c = true) : inNumber c = true := by
  simp [inNumber, digit]

private theorem drop_taken (p : Char → Bool) (text : List Char) :
    text.drop (text.takeWhile p).length = text.dropWhile p := by
  calc text.drop (text.takeWhile p).length
      = (text.takeWhile p ++ text.dropWhile p).drop (text.takeWhile p).length := by
        rw [List.takeWhile_append_dropWhile]
    _ = text.dropWhile p := List.drop_left

theorem fractionOf_splits (rest : List Char) :
    (∃ more, rest = fractionOf rest ++ more) ∧ ∀ c ∈ fractionOf rest, inNumber c = true := by
  unfold fractionOf
  split
  · rename_i rest
    simp only
    split_ifs
    · exact ⟨⟨_, rfl⟩, nofun⟩
    · refine ⟨⟨rest.dropWhile isDigit, ?_⟩, ?_⟩
      · rw [List.cons_append, List.takeWhile_append_dropWhile]
      · exact List.forall_mem_cons.mpr
          ⟨rfl, fun c member => inNumber_of_isDigit (List.mem_takeWhile_imp member)⟩
  · exact ⟨⟨_, rfl⟩, nofun⟩

theorem exponentOf_splits (rest : List Char) :
    (∃ more, rest = exponentOf rest ++ more) ∧ ∀ c ∈ exponentOf rest, inNumber c = true := by
  unfold exponentOf
  split
  · rename_i e rest
    split_ifs with letter
    · simp only
      split_ifs with short
      · exact ⟨⟨_, rfl⟩, nofun⟩
      · refine ⟨⟨(rest.dropWhile fun c => c == '+' || c == '-').dropWhile isDigit, ?_⟩, ?_⟩
        · rw [drop_taken, List.cons_append, List.cons_append, List.append_assoc,
            List.takeWhile_append_dropWhile, List.takeWhile_append_dropWhile]
        · refine List.forall_mem_append.mpr ⟨List.forall_mem_cons.mpr ⟨?_, fun c member => ?_⟩,
            fun c member => inNumber_of_isDigit (List.mem_takeWhile_imp member)⟩
          · rcases letter with rfl | rfl <;> rfl
          · have sign := List.mem_takeWhile_imp member
            rw [Bool.or_eq_true, beq_iff_eq, beq_iff_eq] at sign
            rcases sign with rfl | rfl <;> rfl
    · exact ⟨⟨_, rfl⟩, nofun⟩
  · exact ⟨⟨_, rfl⟩, nofun⟩

/-- A number token consists of what numbers are made of, and begins as a number does. -/
theorem readNumber_token {token : List Char} {v : Json} (known : readNumber i token = .ok v) :
    (∃ c more, token = c :: more ∧ (c = '-' ∨ isDigit c = true)) ∧
      ∀ c ∈ token, inNumber c = true := by
  simp only [readNumber] at known
  generalize signed : (if token.head? = some '-' then ['-'] else []) = sign at known
  generalize taken : (if (token.drop sign.length).head? = some '0' then ['0']
    else (token.drop sign.length).takeWhile isDigit) = digits at known
  obtain ⟨more, whole⟩ : ∃ more, token = sign ++ more := by
    subst signed
    split
    · rename_i minus
      obtain ⟨more, rfl⟩ := List.head?_eq_some_iff.mp minus
      exact ⟨more, rfl⟩
    · exact ⟨token, rfl⟩
  subst whole
  rw [List.drop_left] at known taken
  have numeric : ∀ c ∈ digits, isDigit c = true := by
    subst taken
    split
    · intro c member
      rw [List.mem_singleton.mp member]
      rfl
    · exact fun c member => List.mem_takeWhile_imp member
  obtain ⟨after, rfl⟩ : ∃ after, more = digits ++ after := by
    subst taken
    split
    · rename_i zero
      obtain ⟨after, rfl⟩ := List.head?_eq_some_iff.mp zero
      exact ⟨after, rfl⟩
    · exact ⟨_, List.takeWhile_append_dropWhile.symm⟩
  rw [List.drop_left] at known
  obtain ⟨⟨after', split_⟩, fractional⟩ := fractionOf_splits after
  generalize fractionOf after = fraction at known split_ fractional
  subst split_
  rw [List.drop_left] at known
  obtain ⟨⟨rest, split_⟩, exponential⟩ := exponentOf_splits after'
  generalize exponentOf after' = exponent at known split_ exponential
  subst split_
  rw [List.drop_left] at known
  by_cases absent : digits = []
  · rw [if_pos absent] at known
    cases known
  · rw [if_neg absent] at known
    have complete : rest = [] := by
      by_contra more
      rw [if_pos more] at known
      split at known <;> cases known
    subst complete
    have signs : ∀ c ∈ sign, c = '-' := by
      rw [← signed]
      split
      · exact fun c member => List.mem_singleton.mp member
      · exact nofun
    refine ⟨?_, ?_⟩
    · cases sign with
      | cons c more => exact ⟨c, _, rfl, .inl (signs c (.head _))⟩
      | nil =>
        obtain ⟨c, more, rfl⟩ := List.exists_cons_of_ne_nil absent
        exact ⟨c, _, rfl, .inr (numeric c (.head _))⟩
    · simp only [List.forall_mem_append]
      refine ⟨fun c member => ?_, fun c member => inNumber_of_isDigit (numeric c member),
        fractional, exponential, nofun⟩
      rw [signs c member]
      rfl

/-- The characters of a number are gathered. -/
theorem exec_gather {more : List Char} (numeric : ∀ c ∈ more, inNumber c = true)
    (token : List Char) (stack : List Frame) (text : List Char) :
    exec i ⟨.number token, stack⟩ (more ++ text) = exec i ⟨.number (token ++ more), stack⟩ text := by
  induction more generalizing token with
  | nil => simp
  | cons c more ih =>
    obtain ⟨first, others⟩ := List.forall_mem_cons.mp numeric
    have stepped : step i ⟨.number token, stack⟩ c = .ok ⟨.number (token ++ [c]), stack⟩ := by
      simp only [step, if_pos first]
    rw [List.cons_append, exec_step stepped, ih others, List.append_assoc, List.singleton_append]

/-- A gathered number is delivered at the character behind it, or at the end. -/
theorem exec_number {token : List Char} {v : Json} (known : readNumber i token = .ok v)
    (stack : List Frame) {rest : List Char} (ends : Ends rest) :
    exec i ⟨.number token, stack⟩ rest = deliver v stack >>= fun t => exec i t rest := by
  cases rest with
  | nil =>
    change finish i ⟨.number token, stack⟩ = deliver v stack >>= finish i
    simp only [finish, known]
    cases stack with
    | nil => rfl
    | cons frame stack => cases frame <;> rfl
  | cons c rest =>
    have foreign : inNumber c = false := ends c rfl
    have minus : ¬ (token = ['-'] ∧ c = 'I') := by
      rintro ⟨rfl, -⟩
      cases known
    have stepped : step i ⟨.number token, stack⟩ c = deliver v stack >>= fun t => afterValue t c := by
      simp only [step, foreign, Bool.false_eq_true, if_false, if_neg minus, known]
      rfl
    rw [exec_cons, stepped]
    cases delivered : deliver v stack with
    | error stop => rfl
    | ok t =>
      change afterValue t c >>= _ = exec i t (c :: rest)
      rw [exec_cons, deliver_step delivered]

theorem delivers_number {token : List Char} {v : Json} (known : readNumber i token = .ok v)
    (stack : List Frame) : Delivers i v stack token := by
  obtain ⟨⟨c, more, rfl, begins⟩, numeric⟩ := readNumber_token known
  intro mode opens rest ends
  have other {d : Char} (no : ¬ (d = '-' ∨ isDigit d = true)) : c ≠ d := by
    rintro rfl
    exact no begins
  have solid : isWs c = false := by
    simp only [isWs, Bool.or_eq_false_iff, beq_eq_false_iff_ne]
    exact ⟨⟨⟨other (by decide), other (by decide)⟩, other (by decide)⟩, other (by decide)⟩
  have starts : startValue i stack c = .ok ⟨.number [c], stack⟩ := by
    rw [startValue, if_neg (other (by decide)), if_neg (other (by decide)),
      if_neg (other (by decide)), if_neg (other (by decide)), if_neg (other (by decide)),
      if_neg (other (by decide)), if_neg (other (by decide)), if_neg (other (by decide)),
      if_pos begins]
  rw [List.cons_append, exec_step ((step_opens opens stack solid (other (by decide))).trans starts),
    exec_gather fun d member => numeric d (.tail _ member)]
  exact exec_number known stack ends

theorem natOfDigits_toDigits (n : Nat) : natOfDigits (Nat.toDigits 10 n) = n := by
  rw [natOfDigits, ← Nat.ofDigitChars_eq_foldl, Nat.ofDigitChars_toDigits (by decide) (by decide)]

theorem isDigit_toDigits (n : Nat) : ∀ c ∈ Nat.toDigits 10 n, isDigit c = true := by
  intro c member
  have digit := IntText.toDigits_isDigit n c member
  simpa [Char.isDigit, isDigit, Char.le_def] using digit

/-- Only zero is written with a leading zero. -/
theorem toDigits_head (n : Nat) (zero : (Nat.toDigits 10 n).head? = some '0') :
    Nat.toDigits 10 n = ['0'] := by
  induction n using Nat.strong_induction_on with
  | _ n ih =>
    by_cases small : n < 10
    · rw [Nat.toDigits_of_lt_base small] at zero ⊢
      rw [Option.some.inj zero]
    · rw [Nat.toDigits_of_base_le (by decide) (Nat.le_of_not_lt small)] at zero
      rw [List.head?_append_of_ne_nil _ Nat.toDigits_ne_nil] at zero
      have short := ih (n / 10) (by omega) zero
      have value := natOfDigits_toDigits (n / 10)
      rw [short] at value
      change 0 = n / 10 at value
      omega

theorem readNumber_whole {s : List Char} {n : Nat}
    (signed : (if (s ++ Nat.toDigits 10 n).head? = some '-' then ['-'] else []) = s)
    (short : (Nat.toDigits 10 n).length ≤ maxStrDigits) :
    readNumber i (s ++ Nat.toDigits 10 n) = .ok (.int (if s = [] then (n : Int) else -n)) := by
  have taken : (if (Nat.toDigits 10 n).head? = some '0' then ['0']
      else (Nat.toDigits 10 n).takeWhile isDigit) = Nat.toDigits 10 n := by
    split
    · rename_i zero
      exact (toDigits_head _ zero).symm
    · exact List.takeWhile_eq_self_iff.mpr (isDigit_toDigits n)
  simp only [readNumber, signed, List.drop_left, taken, if_neg Nat.toDigits_ne_nil,
    List.drop_length, fractionOf, List.length_nil, exponentOf, true_and, if_true,
    if_neg (Nat.not_lt.mpr short), List.drop_nil, ne_eq, not_true_eq_false, if_false,
    natOfDigits_toDigits]
  rfl

/-- What `str` writes of a number is that number's token. -/
theorem readNumber_dumpsInt {n : Int} (short : (Nat.toDigits 10 n.natAbs).length ≤ maxStrDigits) :
    readNumber i (dumpsInt n) = .ok (.int n) := by
  unfold dumpsInt
  split
  · rename_i negative
    refine (readNumber_whole (s := ['-']) rfl short).trans ?_
    rw [if_neg (List.cons_ne_nil _ _)]
    congr 2
    omega
  · rename_i positive
    refine (readNumber_whole (s := []) ?_ short).trans ?_
    · rw [if_neg]
      intro minus
      have member : '-' ∈ Nat.toDigits 10 n.natAbs := List.mem_of_head? minus
      exact absurd (isDigit_toDigits _ _ member) (by decide)
    · rw [if_pos rfl]
      congr 2
      omega

theorem delivers_int {n : Int} (short : (Nat.toDigits 10 n.natAbs).length ≤ maxStrDigits)
    (stack : List Frame) : Delivers i (.int n) stack (dumpsInt n) :=
  delivers_number (readNumber_dumpsInt short) stack

theorem delivers_float {x : PyFloat} {depth : Nat} (storable : Storable i depth (.float x))
    (stack : List Frame) : Delivers i (.float x) stack (dumpsFloat i x) := by
  cases x with
  | nan => exact delivers_literal rfl (by decide) (by decide) stack rfl
  | posInf => exact delivers_literal rfl (by decide) (by decide) stack rfl
  | negInf =>
    -- a minus sign begins a number, and the letter behind it turns that into a word
    intro mode opens rest _
    have first : step i ⟨mode, stack⟩ '-' = .ok ⟨.number ['-'], stack⟩ :=
      step_opens opens stack rfl (by decide)
    have second : step i ⟨.number ['-'], stack⟩ 'I' =
        .ok ⟨.literal "nfinity".toList (.float .negInf), stack⟩ := rfl
    change exec i ⟨mode, stack⟩ ('-' :: 'I' :: ("nfinity".toList ++ rest)) = _
    rw [exec_step first, exec_step second, exec_literal (by decide)]
  | finite q => exact delivers_number storable stack

/-! ## Containers -/

theorem ends_newline (l : Layout) (depth : Nat) {c : Char} (foreign : inNumber c = false)
    (text : List Char) : Ends (l.newline depth ++ c :: text) := by
  unfold Layout.newline
  cases l.indent with
  | none => exact ends_cons foreign text
  | some n => exact ends_cons rfl _

theorem exec_enter {mode : Mode} (opens : Opens mode) {stack : List Frame}
    (shallow : stack.length < i.maxDepth) (text : List Char) :
    exec i ⟨mode, stack⟩ ('[' :: text) = exec i ⟨.firstItem, .arr [] :: stack⟩ text ∧
      exec i ⟨mode, stack⟩ ('{' :: text) = exec i ⟨.firstKey, .obj [] :: stack⟩ text := by
  constructor <;> refine exec_step ((step_opens opens stack rfl (by decide)).trans ?_) text
  · exact if_neg (Nat.not_le.mpr shallow)
  · exact if_neg (Nat.not_le.mpr shallow)

theorem exec_close {c : Char} {frame : Frame} {v : Json}
    (closes : c = ']' ∧ (∃ items, frame = .arr items ∧ v = .arr items) ∨
      c = '}' ∧ ∃ fields, frame = .obj fields ∧ v = .obj fields)
    (stack : List Frame) (text : List Char) :
    exec i ⟨.next, frame :: stack⟩ (c :: text) = deliver v stack >>= fun t => exec i t text := by
  rw [exec_cons]
  rcases closes with ⟨rfl, items, rfl, rfl⟩ | ⟨rfl, fields, rfl, rfl⟩ <;>
    simp [step, afterValue, isWs, close]

theorem exec_comma {frame : Frame} (stack : List Frame) (text : List Char) :
    (∀ items, frame = .arr items →
      exec i ⟨.next, frame :: stack⟩ (',' :: text) = exec i ⟨.value, frame :: stack⟩ text) ∧
    ∀ fields, frame = .obj fields →
      exec i ⟨.next, frame :: stack⟩ (',' :: text) = exec i ⟨.key, frame :: stack⟩ text := by
  constructor <;> rintro content rfl <;> refine exec_step ?_ text <;>
    simp [step, afterValue, isWs]

/-- The key of a member, up to where its value begins. -/
theorem exec_member (l : Layout) {mode : Mode} (keys : mode = .firstKey ∨ mode = .key)
    (key : String) (fields : Event) (stack : List Frame) (text : List Char) :
    exec i ⟨mode, .obj fields :: stack⟩ (dumpsText key ++ ':' :: (l.keyGap ++ text)) =
      exec i ⟨.value, .field fields key :: stack⟩ text := by
  have first : step i ⟨mode, .obj fields :: stack⟩ '"' = .ok ⟨.text true [], .obj fields :: stack⟩ := by
    rcases keys with rfl | rfl <;> rfl
  have colon : step i ⟨.colon key, .obj fields :: stack⟩ ':' =
      .ok ⟨.value, .field fields key :: stack⟩ := rfl
  rw [dumpsText, List.cons_append, List.cons_append, exec_step first, List.append_assoc,
    List.singleton_append, exec_key, exec_step colon, exec_blanks (by trivial) _ l.keyBlank]

/-- The items behind those already read. -/
theorem exec_items (l : Layout) {depth : Nat} {stack : List Frame} {items : List Json}
    (delivers : ∀ v ∈ items, ∀ read, Delivers i v (.arr read :: stack) (write i l depth v))
    (filled : items ≠ []) {mode : Mode} (opens : Opens mode) (read : List Json)
    {rest : List Char} (ends : Ends rest) :
    exec i ⟨mode, .arr read :: stack⟩ (writeItems i l depth items ++ rest) =
      exec i ⟨.next, .arr (read ++ items) :: stack⟩ rest := by
  induction items generalizing mode read with
  | nil => exact absurd rfl filled
  | cons v items ih =>
    obtain ⟨first, others⟩ := List.forall_mem_cons.mp delivers
    cases items with
    | nil =>
      rw [writeItems, List.append_assoc, exec_blanks opens.skips _ (l.newline_blank depth),
        first read mode opens rest ends]
      rfl
    | cons w items =>
      simp only [writeItems, List.append_assoc, List.cons_append]
      rw [exec_blanks opens.skips _ (l.newline_blank depth),
        first read mode opens _ (ends_cons rfl _)]
      change exec i ⟨.next, .arr (read ++ [v]) :: stack⟩ (',' :: _) = _
      rw [(exec_comma stack _).1 _ rfl, exec_blanks (by trivial) _ l.itemBlank,
        ih others (List.cons_ne_nil _ _) (.inl rfl) (read ++ [v]), List.append_assoc,
        List.singleton_append]

/-- The members behind those already read; a key that is new takes its place at the end. -/
theorem exec_fields (l : Layout) {depth : Nat} {stack : List Frame} {fields : Event}
    (delivers : ∀ field ∈ fields, ∀ read,
      Delivers i field.2 (.field read field.1 :: stack) (write i l depth field.2))
    (filled : fields ≠ []) {mode : Mode} (keys : mode = .firstKey ∨ mode = .key) (read : Event)
    (distinct : ((read ++ fields).map Prod.fst).Nodup) {rest : List Char} (ends : Ends rest) :
    exec i ⟨mode, .obj read :: stack⟩ (writeFields i l depth fields ++ rest) =
      exec i ⟨.next, .obj (read ++ fields) :: stack⟩ rest := by
  induction fields generalizing mode read with
  | nil => exact absurd rfl filled
  | cons field fields ih =>
    obtain ⟨key, v⟩ := field
    obtain ⟨first, others⟩ := List.forall_mem_cons.mp delivers
    have skips : Skips mode := by rcases keys with rfl | rfl <;> trivial
    have absent : key ∉ read.map Prod.fst := by
      rw [List.map_append, List.nodup_append] at distinct
      exact fun member => distinct.2.2 key member key (.head _) rfl
    cases fields with
    | nil =>
      simp only [writeFields, List.append_assoc, List.cons_append]
      rw [exec_blanks skips _ (l.newline_blank depth), exec_member l keys,
        first read .value (.inl rfl) rest ends]
      change exec i ⟨.next, .obj (Dict.put read key v) :: stack⟩ rest = _
      rw [Dict.put_absent absent]
    | cons next fields =>
      simp only [writeFields, List.append_assoc, List.cons_append]
      rw [exec_blanks skips _ (l.newline_blank depth), exec_member l keys,
        first read .value (.inl rfl) _ (ends_cons rfl _)]
      change exec i ⟨.next, .obj (Dict.put read key v) :: stack⟩ (',' :: _) = _
      have rest_distinct : ((read ++ [(key, v)] ++ next :: fields).map Prod.fst).Nodup := by
        rwa [List.append_assoc, List.singleton_append]
      rw [Dict.put_absent absent, (exec_comma stack _).2 _ rfl, exec_blanks (by trivial) _ l.itemBlank,
        ih others (List.cons_ne_nil _ _) (.inr rfl) (read ++ [(key, v)]) rest_distinct,
        List.append_assoc, List.singleton_append]

/-! ## Whole values -/

mutual
/-- **A written value is read as itself** wherever one may begin. -/
theorem delivers_write (i : Interpreter) (l : Layout) : ∀ (v : Json) (depth : Nat),
    Storable i depth v → ∀ stack : List Frame, stack.length = depth →
      Delivers i v stack (write i l depth v)
  | .null, _, _, stack, _ => delivers_literal rfl (by decide) (by decide) stack rfl
  | .bool true, _, _, stack, _ => delivers_literal rfl (by decide) (by decide) stack rfl
  | .bool false, _, _, stack, _ => delivers_literal rfl (by decide) (by decide) stack rfl
  | .int _, _, short, stack, _ => delivers_int short stack
  | .float _, _, storable, stack, _ => delivers_float storable stack
  | .str text, _, _, stack, _ => delivers_text text stack
  | .arr [], _, storable, stack, deep => by
    intro mode opens rest _
    change exec i ⟨mode, stack⟩ ('[' :: ']' :: rest) = _
    rw [(exec_enter opens (deep ▸ storable.1) _).1, exec_cons]
    rfl
  | .arr (v :: items), depth, storable, stack, deep => by
    intro mode opens rest _
    have below := delivers_items i l (v :: items) (depth + 1) storable.2
    simp only [write, List.append_assoc, List.cons_append, List.nil_append]
    rw [(exec_enter opens (deep ▸ storable.1) _).1,
      exec_items l (fun w member read => below w member _ (congrArg Nat.succ deep))
        (List.cons_ne_nil _ _) (.inr rfl) [] (ends_newline l depth rfl rest),
      exec_blanks (by trivial) _ (l.newline_blank depth)]
    exact exec_close (.inl ⟨rfl, _, rfl, rfl⟩) stack rest
  | .obj [], _, storable, stack, deep => by
    intro mode opens rest _
    change exec i ⟨mode, stack⟩ ('{' :: '}' :: rest) = _
    rw [(exec_enter opens (deep ▸ storable.1) _).2, exec_cons]
    rfl
  | .obj (field :: fields), depth, storable, stack, deep => by
    intro mode opens rest _
    have below := delivers_fields i l (field :: fields) (depth + 1) storable.2.2
    simp only [write, List.append_assoc, List.cons_append, List.nil_append]
    rw [(exec_enter opens (deep ▸ storable.1) _).2,
      exec_fields l (fun f member read => below f member _ (congrArg Nat.succ deep))
        (List.cons_ne_nil _ _) (.inl rfl) [] storable.2.1 (ends_newline l depth rfl rest),
      exec_blanks (by trivial) _ (l.newline_blank depth)]
    exact exec_close (.inr ⟨rfl, _, rfl, rfl⟩) stack rest

theorem delivers_items (i : Interpreter) (l : Layout) : ∀ (items : List Json) (depth : Nat),
    StorableItems i depth items → ∀ v ∈ items, ∀ stack : List Frame, stack.length = depth →
      Delivers i v stack (write i l depth v)
  | [], _, _ => nofun
  | v :: items, depth, storable => by
    refine List.forall_mem_cons.mpr ⟨?_, delivers_items i l items depth storable.2⟩
    exact delivers_write i l v depth storable.1

theorem delivers_fields (i : Interpreter) (l : Layout) : ∀ (fields : Event) (depth : Nat),
    StorableFields i depth fields → ∀ field ∈ fields, ∀ stack : List Frame, stack.length = depth →
      Delivers i field.2 stack (write i l depth field.2)
  | [], _, _ => nofun
  | (_, v) :: fields, depth, storable => by
    refine List.forall_mem_cons.mpr ⟨?_, delivers_fields i l fields depth storable.2⟩
    exact delivers_write i l v depth storable.1
end

theorem ends_blank {text : List Char} (blank : ∀ c ∈ text, isWs c = true) : Ends text := by
  intro c member
  have ws := blank c (List.mem_of_head? member)
  simp only [isWs, Bool.or_eq_true, beq_iff_eq] at ws
  rcases ws with ((rfl | rfl) | rfl) | rfl <;> rfl

/-- In every layout, and with any white space around it, the text of a value denotes that
value. -/
theorem loads_write (i : Interpreter) (l : Layout) {v : Json} (storable : Storable i 0 v)
    {before after : List Char} (front : ∀ c ∈ before, isWs c = true)
    (back : ∀ c ∈ after, isWs c = true) :
    loads i (before ++ write i l 0 v ++ after) = .ok (some v) := by
  have whole : exec i start (before ++ write i l 0 v ++ after) = .ok v := by
    rw [start, List.append_assoc, exec_blanks (by trivial) [] front,
      delivers_write i l v 0 storable [] rfl .value (.inl rfl) after (ends_blank back)]
    change exec i ⟨.done v, []⟩ after = _
    rw [← List.append_nil after, exec_blanks (by trivial) [] back]
    rfl
  rw [exec] at whole
  rw [loads, whole]

theorem loads_write_alone (i : Interpreter) (l : Layout) {v : Json} (storable : Storable i 0 v) :
    loads i (write i l 0 v) = .ok (some v) := by
  have reads := @loads_write i l v storable [] [] nofun nofun
  rwa [List.nil_append, List.append_nil] at reads

/-- **A text has one reading.**  In every layout, and with any white space around it, the
text of a value denotes that value; and no other value is written so, in no layout. -/
theorem written_text_reads_back (i : Interpreter) (l : Layout) {v : Json}
    (storable : Storable i 0 v) {before after : List Char} (front : ∀ c ∈ before, isWs c = true)
    (back : ∀ c ∈ after, isWs c = true) :
    loads i (before ++ write i l 0 v ++ after) = .ok (some v) ∧
      ∀ (other : Layout) (w : Json), Storable i 0 w →
        write i other 0 w = before ++ write i l 0 v ++ after → w = v := by
  have reads := loads_write i l storable front back
  refine ⟨reads, fun other w stored same => ?_⟩
  rw [← same, loads_write_alone i other stored] at reads
  exact Option.some.inj (Except.ok.inj reads)

end

/-- An interpreter that knows one float. -/
def twoAndAHalf : Interpreter where
  floatOfToken token := if token = "2.5".toList then .finite (5 / 2) else .nan
  reprFloat _ := "2.5".toList
  oneLine _ := by decide
  maxDepth := 1000

/-- A value of every kind. -/
def everyKind : Json :=
  .obj [("round_num", .int (-7)), ("duration_s", .float (.finite (5 / 2))),
    ("files", .arr [.str "a\n\"b", .null, .arr []]), ("running", .bool false)]

/-- A status of every kind of value, indented and with a line end behind it. -/
theorem written_text_reads_back_status :
    loads twoAndAHalf ([] ++ write twoAndAHalf .indented 0 everyKind ++ ['\n']) =
        .ok (some everyKind) ∧
      ∀ (other : Layout) (w : Json), Storable twoAndAHalf 0 w →
        write twoAndAHalf other 0 w = [] ++ write twoAndAHalf .indented 0 everyKind ++ ['\n'] →
          w = everyKind := by
  refine written_text_reads_back twoAndAHalf .indented ?_ nofun (List.forall_mem_singleton.mpr rfl)
  have short : (Nat.toDigits 10 7).length ≤ maxStrDigits := by decide
  exact ⟨by decide, by decide, short, rfl, ⟨by decide, trivial, trivial, ⟨by decide, trivial⟩,
    trivial⟩, trivial, trivial⟩

mutual
/-- The plain layout is the writer's default. -/
theorem write_plain (i : Interpreter) : ∀ (v : Json) (depth : Nat),
    write i .plain depth v = dumps i v
  | .null, _ => rfl
  | .bool true, _ => rfl
  | .bool false, _ => rfl
  | .int _, _ => rfl
  | .float _, _ => rfl
  | .str _, _ => rfl
  | .arr [], _ => rfl
  | .arr (v :: items), depth => by
    rw [write, writeItems_plain i (v :: items), dumps]
    simp [Layout.newline, Layout.plain]
  | .obj [], _ => rfl
  | .obj (field :: fields), depth => by
    rw [write, writeFields_plain i (field :: fields), dumps]
    simp [Layout.newline, Layout.plain]

theorem writeItems_plain (i : Interpreter) : ∀ (items : List Json) (depth : Nat),
    writeItems i .plain depth items = dumpsItems i items
  | [], _ => rfl
  | [v], depth => write_plain i v depth
  | v :: w :: items, depth => by
    rw [writeItems, write_plain i v, writeItems_plain i (w :: items), dumpsItems]
    rfl

theorem writeFields_plain (i : Interpreter) : ∀ (fields : Event) (depth : Nat),
    writeFields i .plain depth fields = dumpsFields i fields
  | [], _ => rfl
  | [(key, v)], depth => by
    rw [writeFields, write_plain i v, dumpsFields]
    rfl
  | (key, v) :: field :: fields, depth => by
    rw [writeFields, write_plain i v, writeFields_plain i (field :: fields), dumpsFields]
    rfl
end

theorem loads_dumps (i : Interpreter) {v : Json} (storable : Storable i 0 v) :
    loads i (dumps i v) = .ok (some v) := by
  rw [← write_plain, loads_write_alone i .plain storable]

end AgentRunner.JsonRoundTrip
