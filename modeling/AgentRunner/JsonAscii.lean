import AgentRunner.JsonFraming
import AgentRunner.JsonRoundTrip

/-! `json.dumps` as it writes by default: every character beyond printable ASCII escaped. The
text reads as it does unescaped, and no text of an object that was cut short reads at all. -/
namespace AgentRunner.JsonAscii
open PyValue JsonText JsonFraming JsonRoundTrip

/-! ## The writer -/

/-- `\uXXXX`. -/
def unitEscape (unit : Nat) : List Char :=
  ['\\', 'u', Nat.digitChar (unit / 0x1000 % 16), Nat.digitChar (unit / 0x100 % 16),
    Nat.digitChar (unit / 0x10 % 16), Nat.digitChar (unit % 16)]

def highSurrogate (n : Nat) : Nat := 0xD800 + (n - 0x10000) / 0x400

def lowSurrogate (n : Nat) : Nat := 0xDC00 + (n - 0x10000) % 0x400

/-- A character behind `ESCAPE_ASCII`. -/
def asciiChar (c : Char) : List Char :=
  if c.toNat ≤ 0x7E then [c]
  else if c.toNat < 0x10000 then unitEscape c.toNat
  else unitEscape (highSurrogate c.toNat) ++ unitEscape (lowSurrogate c.toNat)

/-- `json.dumps(value)`: only strings hold characters that are not printable ASCII, so these
may be escaped wherever they stand. -/
def asciiDumps (i : Interpreter) (v : Json) : List Char := (dumps i v).flatMap asciiChar

/-! ## Surrogate pairs -/

/-- The same text in units: a code point beyond the basic plane may stand as a pair. -/
inductive Paired : List Nat → List Nat → Prop where
  | nil : Paired [] []
  | unit (n : Nat) {us vs : List Nat} (rest : Paired us vs) : Paired (n :: us) (n :: vs)
  | pair {n : Nat} (wide : 0x10000 ≤ n) (valid : n ≤ 0x10FFFF) {us vs : List Nat}
      (rest : Paired us vs) : Paired (n :: us) (highSurrogate n :: lowSurrogate n :: vs)

theorem Paired.append {us vs ws xs : List Nat} (left : Paired us vs) (right : Paired ws xs) :
    Paired (us ++ ws) (vs ++ xs) := by
  induction left with
  | nil => exact right
  | unit n rest ih => exact .unit n ih
  | pair wide valid rest ih => exact .pair wide valid ih

theorem Paired.refl : ∀ us : List Nat, Paired us us
  | [] => .nil
  | n :: us => .unit n (Paired.refl us)

theorem joinUnits_pair {n : Nat} (wide : 0x10000 ≤ n) (valid : n ≤ 0x10FFFF) (rest : List Nat) :
    joinUnits (highSurrogate n :: lowSurrogate n :: rest) = Char.ofNat n :: joinUnits rest := by
  have high : 0xD800 ≤ highSurrogate n ∧ highSurrogate n ≤ 0xDBFF := by
    unfold highSurrogate
    omega
  have low : 0xDC00 ≤ lowSurrogate n ∧ lowSurrogate n ≤ 0xDFFF := by
    unfold lowSurrogate
    omega
  have sum : 0x10000 + (highSurrogate n - 0xD800) * 0x400 + (lowSurrogate n - 0xDC00) = n := by
    unfold highSurrogate lowSurrogate
    omega
  rw [joinUnits, if_pos ⟨high, low⟩, sum]

/-- A unit in front of no low surrogate is a character of its own. -/
theorem joinUnits_alone {n : Nat} {rest : List Nat}
    (alone : ∀ m ∈ rest.head?, ¬ ((0xD800 ≤ n ∧ n ≤ 0xDBFF) ∧ 0xDC00 ≤ m ∧ m ≤ 0xDFFF)) :
    joinUnits (n :: rest) = charOfUnit n :: joinUnits rest := by
  cases rest with
  | nil => rfl
  | cons m rest => rw [joinUnits, if_neg (alone m rfl)]

theorem charOfUnit_wide {n : Nat} (wide : 0x10000 ≤ n) : charOfUnit n = Char.ofNat n :=
  if_neg fun both => by omega

/-- Pairs or not, the text is the same. -/
theorem Paired.joinUnits {us vs : List Nat} (paired : Paired us vs) :
    joinUnits us = joinUnits vs := by
  suffices ∀ k us vs, us.length ≤ k → Paired us vs → JsonText.joinUnits us = JsonText.joinUnits vs
    from this us.length us vs le_rfl paired
  intro k
  induction k with
  | zero =>
    intro us vs short paired
    cases paired with
    | nil => rfl
    | unit | pair => exact absurd short (by simp)
  | succ k ih =>
    intro us vs short paired
    cases paired with
    | nil => rfl
    | @pair n wide valid us vs rest =>
      rw [joinUnits_pair wide valid, joinUnits_alone (fun m _ both => by omega),
        charOfUnit_wide wide, ih us vs (by simpa using short) rest]
    | @unit n us vs rest =>
      cases rest with
      | nil => rfl
      | @unit m us vs rest =>
        have later := ih (m :: us) (m :: vs) (by simpa using short) (.unit m rest)
        have behind := ih us vs (by simp only [List.length_cons] at short; omega) rest
        rw [JsonText.joinUnits, JsonText.joinUnits, later, behind]
      | @pair m wide valid us vs rest =>
        have later := ih (m :: us) _ (by simpa using short) (.pair wide valid rest)
        refine (joinUnits_alone ?_).trans ((congrArg _ later).trans (joinUnits_alone ?_).symm)
        · rintro _ ⟨⟩ both
          omega
        · rintro _ ⟨⟩ both
          unfold highSurrogate at both
          omega

/-! ## Reading what was escaped -/

/-- The same state, but for pairs in the text being read. -/
inductive Alike : State → State → Prop where
  | same (s : State) : Alike s s
  | text {isKey : Bool} {us vs : List Nat} {stack : List Frame} (paired : Paired us vs) :
      Alike ⟨.text isKey us, stack⟩ ⟨.text isKey vs, stack⟩
  | escape {isKey : Bool} {us vs : List Nat} {stack : List Frame} (paired : Paired us vs) :
      Alike ⟨.escape isKey us, stack⟩ ⟨.escape isKey vs, stack⟩
  | hex {isKey : Bool} {us vs : List Nat} {read unit : Nat} {stack : List Frame}
      (paired : Paired us vs) :
      Alike ⟨.hex isKey us read unit, stack⟩ ⟨.hex isKey vs read unit, stack⟩

variable {i : Interpreter} {s t s' : State} {c : Char}

/-- A printable character does the same in both. -/
theorem step_alike (alike : Alike s t) (stepped : step i s c = .ok s') :
    ∃ t', step i t c = .ok t' ∧ Alike s' t' := by
  cases alike with
  | same => exact ⟨s', stepped, .same s'⟩
  | @text isKey us vs stack paired =>
    simp only [step, textStep] at stepped ⊢
    rw [← paired.joinUnits]
    split_ifs at stepped ⊢ with quote key backslash control
    · exact ⟨s', stepped, .same s'⟩
    · exact ⟨s', stepped, .same s'⟩
    · cases stepped
      exact ⟨_, rfl, .escape paired⟩
    · cases stepped
      exact ⟨_, rfl, .text (paired.append (.unit _ .nil))⟩
  | @escape isKey us vs stack paired =>
    simp only [step, escapeStep] at stepped ⊢
    split_ifs at stepped ⊢ with hex
    · cases stepped
      exact ⟨_, rfl, .hex paired⟩
    · cases listed : escapes.lookup c with
      | none => rw [listed] at stepped; cases stepped
      | some unit =>
        rw [listed] at stepped
        cases stepped
        exact ⟨_, rfl, .text (paired.append (.unit _ .nil))⟩
  | @hex isKey us vs read unit stack paired =>
    simp only [step, hexStep] at stepped ⊢
    cases known : hexDigit? c with
    | none => rw [known] at stepped; cases stepped
    | some digit =>
      rw [known] at stepped
      dsimp only at stepped ⊢
      split_ifs at stepped ⊢
      · cases stepped
        exact ⟨_, rfl, .text (paired.append (.unit _ .nil))⟩
      · cases stepped
        exact ⟨_, rfl, .hex paired⟩

theorem ne_of_wide (wide : 0x7E < c.toNat) {d : Char} (narrow : d.toNat ≤ 0x7E) : c ≠ d := by
  rintro rfl
  omega

theorem not_le_of_wide (wide : 0x7E < c.toNat) {d : Char} (narrow : d.toNat ≤ 0x7E) : ¬ c ≤ d :=
  fun below => by
    have same : c.toNat ≤ d.toNat := below
    omega

/-- A word being read has letters only. -/
def Letters (s : State) : Prop :=
  ∀ rest v, s.mode = .literal rest v → ∀ d ∈ rest, d.toNat ≤ 0x7E

theorem narrow_of_all {text : List Char} (all : (text.all fun d => d.toNat ≤ 0x7E) = true) :
    ∀ d ∈ text, d.toNat ≤ 0x7E := fun d member =>
  of_decide_eq_true (List.all_eq_true.mp all d member)

theorem deliver_letters {v : Json} {stack : List Frame} (delivered : deliver v stack = .ok s) :
    Letters s := by
  cases stack with
  | nil => cases delivered; intro _ _ same; cases same
  | cons frame rest => cases frame <;> cases delivered <;> intro _ _ same <;> cases same

theorem close_letters {stack : List Frame} (closed : close stack c = .ok s) : Letters s := by
  unfold close at closed
  split at closed
  · split at closed
    · exact deliver_letters closed
    · cases closed
  · split at closed
    · exact deliver_letters closed
    · cases closed
  · cases closed

theorem startValue_letters {stack : List Frame} (started : startValue i stack c = .ok s) :
    Letters s := by
  unfold startValue enter at started
  split_ifs at started <;> cases started <;> rintro rest v ⟨⟩ <;>
    exact narrow_of_all rfl

theorem afterValue_letters (letters : Letters s) (after : afterValue s c = .ok s') :
    Letters s' := by
  unfold afterValue at after
  split at after
  · cases after
    exact letters
  · split at after
    · split at after
      · cases after
        intro _ _ same
        cases same
      · exact close_letters after
    · split at after
      · cases after
        intro _ _ same
        cases same
      · exact close_letters after
    · cases after

theorem step_letters (letters : Letters s) (stepped : step i s c = .ok s') : Letters s' := by
  obtain ⟨mode, stack⟩ := s
  cases mode with
  | value | firstItem | firstKey | key =>
    simp only [step] at stepped
    split_ifs at stepped <;> first
      | exact close_letters stepped
      | exact startValue_letters stepped
      | cases stepped; first | exact letters | (intro _ _ same; cases same)
  | colon key =>
    simp only [step] at stepped
    split at stepped
    · cases stepped
      exact letters
    · split at stepped
      · split at stepped <;> cases stepped
        intro _ _ same
        cases same
      · cases stepped
  | next | done => exact afterValue_letters letters stepped
  | text isKey units =>
    simp only [step, textStep] at stepped
    split_ifs at stepped <;> first
      | exact deliver_letters stepped
      | cases stepped; intro _ _ same; cases same
  | escape isKey units =>
    simp only [step, escapeStep] at stepped
    split at stepped
    · cases stepped
      intro _ _ same
      cases same
    · split at stepped <;> cases stepped
      intro _ _ same
      cases same
  | hex isKey units read unit =>
    simp only [step, hexStep] at stepped
    split at stepped
    · cases stepped
    · split at stepped <;> cases stepped <;> intro _ _ same <;> cases same
  | number token =>
    simp only [step] at stepped
    split_ifs at stepped
    · cases stepped
      intro _ _ same
      cases same
    · cases stepped
      rintro rest v same
      cases same
      exact narrow_of_all rfl
    · obtain ⟨v, t, -, delivered, after⟩ := number_ends stepped
      exact afterValue_letters (deliver_letters delivered) after
  | literal rest v =>
    simp only [step] at stepped
    split_ifs at stepped
    · exact deliver_letters stepped
    · cases stepped
      rintro _ _ ⟨⟩ d member
      exact letters rest v rfl d (List.mem_of_mem_tail member)

/-- Beyond ASCII nothing but the inside of a string goes on. -/
theorem text_of_wide (letters : Letters s) (wide : 0x7E < c.toNat)
    (stepped : step i s c = .ok s') : ∃ isKey us stack,
      s = ⟨.text isKey us, stack⟩ ∧ s' = ⟨.text isKey (us ++ [c.toNat]), stack⟩ := by
  have other : ∀ d : Char, d.toNat ≤ 0x7E → c ≠ d := fun d => ne_of_wide wide
  have blank : isWs c = false := by
    simp [isWs, other]
  have digit : isDigit c = false := by
    simp [isDigit, not_le_of_wide wide]
  have numeric : inNumber c = false := by
    simp [inNumber, digit, other]
  have hex : hexDigit? c = none := by
    simp [hexDigit?, not_le_of_wide wide]
  have listed : escapes.lookup c = none := by
    refine List.lookup_eq_none_iff.mpr fun pair member => ?_
    have narrow : pair.1.toNat ≤ 0x7E := by
      revert pair
      decide
    simpa using other _ narrow
  have starts : ∀ stack, startValue i stack c = .error .malformed := by
    simp [startValue, other, digit]
  have closes : ∀ stack, close stack c = .error .malformed := by
    intro stack
    unfold close
    split <;> simp [other]
  have after : ∀ s, afterValue s c = .error .malformed := by
    intro s
    unfold afterValue
    rw [if_neg (by simp [blank])]
    split <;> simp [other, closes]
  obtain ⟨mode, stack⟩ := s
  cases mode with
  | text isKey us =>
    have control : ¬ c.toNat < 0x20 := by omega
    simp only [step, textStep, if_neg (other '"' (by decide)), if_neg (other '\\' (by decide)),
      if_neg control] at stepped
    exact ⟨isKey, us, stack, rfl, (Except.ok.inj stepped).symm⟩
  | value | firstItem | firstKey | key => simp [step, blank, other, starts, closes] at stepped
  | colon key =>
    simp only [step, blank, Bool.false_eq_true, if_false] at stepped
    split at stepped <;> simp [other] at stepped
  | next | done => simp [step, after] at stepped
  | escape => simp [step, escapeStep, other, listed] at stepped
  | hex => simp [step, hexStep, hex] at stepped
  | number token =>
    simp only [step, numeric, Bool.false_eq_true, if_false, other 'I' (by decide), and_false]
      at stepped
    cases known : readNumber i token with
    | error stop => simp [known, bind, Except.bind] at stepped
    | ok v =>
      cases given : deliver v stack with
      | error stop => simp [known, given, bind, Except.bind] at stepped
      | ok u => simp [known, given, bind, Except.bind, after] at stepped
  | literal rest v =>
    have absent : c ∉ rest := fun member => absurd (letters rest v rfl c member) (by omega)
    simp only [step] at stepped
    rw [if_neg (by rintro rfl; exact absent (.head _)),
      if_neg fun first => absent (List.mem_of_head? first)] at stepped
    cases stepped

/-- An escaped unit is the unit. -/
theorem exec_unitEscape {isKey : Bool} {us : List Nat} {stack : List Frame} {n : Nat}
    (unit : n < 0x10000) (text : List Char) :
    exec i ⟨.text isKey us, stack⟩ (unitEscape n ++ text) =
      exec i ⟨.text isKey (us ++ [n]), stack⟩ text := by
  have first : step i ⟨.text isKey us, stack⟩ '\\' = .ok ⟨.escape isKey us, stack⟩ := by
    simp [step, textStep]
  have second : step i ⟨.escape isKey us, stack⟩ 'u' = .ok ⟨.hex isKey us 0 0, stack⟩ := by
    simp [step, escapeStep]
  have below : ∀ m, m % 16 < 16 := fun m => Nat.mod_lt m (by decide)
  have sum : ((n / 0x1000 % 16 * 16 + n / 0x100 % 16) * 16 + n / 0x10 % 16) * 16 + n % 16 = n := by
    omega
  refine (exec_step first _).trans ((exec_step second _).trans ?_)
  refine (exec_hex ⟨_, below _⟩ _).trans ((exec_hex ⟨_, below _⟩ _).trans
    ((exec_hex ⟨_, below _⟩ _).trans ((exec_hex ⟨_, below _⟩ _).trans ?_)))
  simp [sum]

theorem exec_ascii {text : List Char} {v : Json} (letters : Letters s) (alike : Alike s t)
    (ran : exec i s text = .ok v) : exec i t (text.flatMap asciiChar) = .ok v := by
  induction text generalizing s t with
  | nil =>
    cases alike with
    | same => exact ran
    | text | escape | hex => cases ran
  | cons c text ih =>
    rw [exec_cons] at ran
    cases stepped : step i s c with
    | error stop => rw [stepped] at ran; cases ran
    | ok s' =>
      rw [stepped] at ran
      have more := step_letters letters stepped
      rw [List.flatMap_cons]
      by_cases narrow : c.toNat ≤ 0x7E
      · obtain ⟨t', onward, alike⟩ := step_alike alike stepped
        rw [asciiChar, if_pos narrow, List.singleton_append, exec_step onward]
        exact ih more alike ran
      · obtain ⟨isKey, us, stack, rfl, rfl⟩ := text_of_wide letters (not_le.mp narrow) stepped
        obtain ⟨vs, paired, rfl⟩ : ∃ vs, Paired us vs ∧ t = ⟨.text isKey vs, stack⟩ := by
          cases alike with
          | same => exact ⟨us, .refl us, rfl⟩
          | text paired => exact ⟨_, paired, rfl⟩
        rw [asciiChar, if_neg narrow]
        split
        · rename_i basic
          rw [exec_unitEscape basic]
          exact ih more (.text (paired.append (.refl [c.toNat]))) ran
        · rename_i wide
          have valid : c.toNat ≤ 0x10FFFF := by
            have bound := c.valid
            simp only [UInt32.isValidChar, Nat.isValidChar] at bound
            change c.toNat < 0xD800 ∨ 0xDFFF < c.toNat ∧ c.toNat < 0x110000 at bound
            omega
          have high : highSurrogate c.toNat < 0x10000 := by
            unfold highSurrogate
            omega
          have low : lowSurrogate c.toNat < 0x10000 := by
            unfold lowSurrogate
            omega
          rw [List.append_assoc, exec_unitEscape high, exec_unitEscape low, List.append_assoc]
          exact ih more (.text (paired.append (.pair (not_lt.mp wide) valid .nil))) ran

/-- Escaping what is not ASCII changes nothing of what a text says. -/
theorem loads_ascii {text : List Char} {v : Json} (loaded : loads i text = .ok (some v)) :
    loads i (text.flatMap asciiChar) = .ok (some v) := by
  have ran : exec i start text = .ok v := by
    unfold loads at loaded
    rw [exec]
    split at loaded
    · rename_i w read
      rw [read, Option.some.inj (Except.ok.inj loaded)]
    · cases loaded
    · cases loaded
  have whole := exec_ascii (s := start) (by rintro rest v ⟨⟩) (.same start) ran
  rw [exec] at whole
  rw [loads, whole]

theorem loads_asciiDumps {v : Json} (storable : Storable i 0 v) :
    loads i (asciiDumps i v) = .ok (some v) :=
  loads_ascii (loads_dumps i storable)

/-! ## Texts cut short -/

/-- Containers are open, or the document is complete. -/
def Open (s : State) : Prop := s.stack ≠ [] ∨ ∃ v, s.mode = .done v

theorem deliver_open {v : Json} {stack : List Frame} (delivered : deliver v stack = .ok s) :
    Open s := by
  cases stack with
  | nil =>
    cases delivered
    exact .inr ⟨v, rfl⟩
  | cons frame rest => cases frame <;> cases delivered <;> exact .inl (List.cons_ne_nil _ _)

theorem close_open {stack : List Frame} (closed : close stack c = .ok s) : Open s := by
  unfold close at closed
  split at closed
  · split at closed
    · exact deliver_open closed
    · cases closed
  · split at closed
    · exact deliver_open closed
    · cases closed
  · cases closed

theorem startValue_open {stack : List Frame} (nested : stack ≠ [])
    (started : startValue i stack c = .ok s) : Open s := by
  unfold startValue enter at started
  split_ifs at started <;> cases started <;> first
    | exact .inl nested
    | exact .inl (List.cons_ne_nil _ _)

theorem afterValue_open (open_ : Open s) (after : afterValue s c = .ok s') : Open s' := by
  unfold afterValue at after
  split at after
  · cases after
    exact open_
  · split at after
    · rename_i shape
      split at after
      · cases after
        exact .inl (by rw [shape]; exact List.cons_ne_nil _ _)
      · exact close_open after
    · rename_i shape
      split at after
      · cases after
        exact .inl (by rw [shape]; exact List.cons_ne_nil _ _)
      · exact close_open after
    · cases after

/-- The document is read. -/
def isDone : Mode → Bool
  | .done _ => true
  | _ => false

theorem step_open (open_ : Open s) (stepped : step i s c = .ok s') : Open s' := by
  obtain ⟨mode, stack⟩ := s
  have nested : isDone mode = false → stack ≠ [] := fun other =>
    open_.resolve_right (by rintro ⟨v, rfl⟩; cases other)
  cases mode with
  | value | firstItem | firstKey | key =>
    simp only [step] at stepped
    split_ifs at stepped <;> first
      | exact close_open stepped
      | exact startValue_open (nested rfl) stepped
      | cases stepped; exact .inl (nested rfl)
  | colon key =>
    simp only [step] at stepped
    split at stepped
    · cases stepped
      exact open_
    · split at stepped
      · split at stepped <;> cases stepped
        exact .inl (List.cons_ne_nil _ _)
      · cases stepped
  | next | done => exact afterValue_open open_ stepped
  | text isKey units =>
    simp only [step, textStep] at stepped
    split_ifs at stepped <;> first
      | exact deliver_open stepped
      | cases stepped; exact .inl (nested rfl)
  | escape isKey units =>
    simp only [step, escapeStep] at stepped
    split at stepped
    · cases stepped
      exact .inl (nested rfl)
    · split at stepped <;> cases stepped
      exact .inl (nested rfl)
  | hex isKey units read unit =>
    simp only [step, hexStep] at stepped
    split at stepped
    · cases stepped
    · split at stepped <;> cases stepped <;> exact .inl (nested rfl)
  | number token =>
    simp only [step] at stepped
    split_ifs at stepped
    · cases stepped
      exact .inl (nested rfl)
    · cases stepped
      exact .inl (nested rfl)
    · obtain ⟨v, t, -, delivered, after⟩ := number_ends stepped
      exact afterValue_open (deliver_open delivered) after
  | literal rest v =>
    simp only [step] at stepped
    split_ifs at stepped
    · exact deliver_open stepped
    · cases stepped
      exact .inl (nested rfl)

theorem run_open {text : List Char} (open_ : Open s) (ran : run i s text = .ok s') : Open s' := by
  induction text generalizing s with
  | nil => cases ran; exact open_
  | cons c text ih =>
    rw [run, List.foldlM_cons] at ran
    cases stepped : step i s c with
    | error stop => rw [stepped] at ran; cases ran
    | ok middle =>
      rw [stepped] at ran
      exact ih (step_open open_ stepped) ran

/-- Behind a document there is only white space. -/
theorem blank_behind {v : Json} {stack : List Frame} {text : List Char}
    (reads : Reads i ⟨.done v, stack⟩ text) : ∀ c ∈ text, isWs c = true := by
  induction text with
  | nil => exact List.forall_mem_nil _
  | cons c text ih =>
    obtain ⟨s', stepped, later⟩ := reads_cons reads
    simp only [step, afterValue] at stepped
    split at stepped
    · rename_i blank
      cases stepped
      exact List.forall_mem_cons.mpr ⟨blank, ih later⟩
    · cases stepped

/-- **An object cut short is no document.**  Of a text that begins with its brace and ends
with one, no part reads. -/
theorem not_reads_torn {body part rest : List Char} {c : Char} (solid : isWs c = false)
    (reads : Reads i start ('{' :: body)) (cut : '{' :: body = part ++ rest ++ [c]) :
    ¬ Reads i start part := by
  rintro ⟨w, whole⟩
  rw [cut, List.append_assoc] at reads
  obtain ⟨s, ran, later⟩ := reads_append reads
  rw [ran] at whole
  cases part with
  | nil =>
    cases ran
    cases whole
  | cons first part =>
    obtain rfl : '{' = first := (List.cons.inj cut).1
    have opened : Open s := by
      rw [run, List.foldlM_cons] at ran
      cases entered : step i start '{' with
      | error stop => rw [entered] at ran; cases ran
      | ok middle =>
        rw [entered] at ran
        refine run_open ?_ ran
        have begun : enter i .firstKey (.obj []) [] = .ok middle := entered
        unfold enter at begun
        split at begun <;> cases begun
        exact .inl (List.cons_ne_nil _ _)
    obtain ⟨mode, stack⟩ := s
    change finish i ⟨mode, stack⟩ = .ok w at whole
    cases mode with
    | done v =>
      have blank := blank_behind later c (List.mem_append_right _ (.head _))
      rw [solid] at blank
      cases blank
    | number token =>
      have nested : stack ≠ [] := opened.resolve_right (by rintro ⟨v, ⟨⟩⟩)
      simp only [finish] at whole
      cases known : readNumber i token with
      | error stop => simp [known, bind, Except.bind] at whole
      | ok v => simp [known, bind, Except.bind, nested] at whole
    | _ => cases whole

theorem readNumber_raises {token : List Char} {e : PyErr}
    (raised : readNumber i token = .error (.raised e)) : e = .valueError := by
  unfold readNumber at raised
  simp only [bind, Except.bind, throw, throwThe, MonadExceptOf.throw, pure, Except.pure] at raised
  split_ifs at raised <;> cases raised <;> rfl

theorem finish_raises {e : PyErr} (raised : finish i s = .error (.raised e)) : e = .valueError := by
  obtain ⟨mode, stack⟩ := s
  cases mode with
  | number token =>
    simp only [finish] at raised
    cases known : readNumber i token with
    | error stop =>
      rw [known] at raised
      exact readNumber_raises (known.trans raised)
    | ok v =>
      rw [known] at raised
      simp only [bind, Except.bind] at raised
      split at raised <;> cases raised
  | done v => cases raised
  | _ => cases raised

/-- Reading an object that was cut short is an error that `except ValueError` catches. -/
theorem loads_torn {body part rest : List Char} {c : Char} {v : Json} (solid : isWs c = false)
    (loaded : loads i ('{' :: body) = .ok (some v)) (cut : '{' :: body = part ++ rest ++ [c]) :
    loads i part = .ok none ∨ loads i part = .error .valueError := by
  have torn := not_reads_torn solid (loads_reads loaded) cut
  have reads := loads_reads loaded
  rw [cut, List.append_assoc] at reads
  obtain ⟨s, ran, -⟩ := reads_append reads
  cases whole : finish i s with
  | ok w => exact absurd ⟨w, by rw [ran]; exact whole⟩ torn
  | error stop =>
    have read : run i start part >>= finish i = .error stop := by
      rw [ran]
      exact whole
    cases stop with
    | malformed => exact .inl (by rw [loads, read])
    | raised e => exact .inr (by rw [loads, read, finish_raises whole])

/-- A text of printable ASCII. -/
def Printable (text : List Char) : Prop := ∀ c ∈ text, c.toNat ≤ 0x7E

theorem digitChar_printable (n : Nat) : (Nat.digitChar (n % 16)).toNat ≤ 0x7E := by
  have digits : ∀ k : Fin 16, (Nat.digitChar k).toNat ≤ 0x7E := by decide
  exact digits ⟨n % 16, Nat.mod_lt n (by decide)⟩

theorem asciiChar_printable (c : Char) : Printable (asciiChar c) := by
  have unit : ∀ n, Printable (unitEscape n) := by
    intro n d member
    simp only [unitEscape, List.mem_cons, List.not_mem_nil, or_false] at member
    obtain rfl | rfl | rfl | rfl | rfl | rfl := member
    · decide
    · decide
    all_goals exact digitChar_printable _
  unfold asciiChar
  split_ifs with narrow
  · rintro d member
    rwa [List.mem_singleton.mp member]
  · exact unit _
  · rintro d member
    exact (List.mem_append.mp member).elim (unit _ d) (unit _ d)

theorem asciiDumps_printable (v : Json) : Printable (asciiDumps i v) := by
  intro c member
  obtain ⟨d, -, inside⟩ := List.mem_flatMap.mp member
  exact asciiChar_printable d c inside

end AgentRunner.JsonAscii
