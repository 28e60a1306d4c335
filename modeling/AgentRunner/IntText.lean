import AgentRunner.TextLines
import Mathlib.Data.List.DropRight
import Mathlib.Data.Int.Basic

/-! Integers as texts: `str(n)`, `int(text)`, and that the second reads the first back. -/
namespace AgentRunner.IntText

/-- The zeros of the decimal digits of Unicode; each is followed by its nine others. -/
def digitZeros : List ℕ :=
  [0x30, 0x660, 0x6F0, 0x7C0, 0x966, 0x9E6, 0xA66, 0xAE6, 0xB66, 0xBE6, 0xC66, 0xCE6, 0xD66,
    0xDE6, 0xE50, 0xED0, 0xF20, 0x1040, 0x1090, 0x17E0, 0x1810, 0x1946, 0x19D0, 0x1A80, 0x1A90,
    0x1B50, 0x1BB0, 0x1C40, 0x1C50, 0xA620, 0xA8D0, 0xA900, 0xA9D0, 0xA9F0, 0xAA50, 0xABF0,
    0xFF10, 0x104A0, 0x10D30, 0x11066, 0x110F0, 0x11136, 0x111D0, 0x112F0, 0x11450, 0x114D0,
    0x11650, 0x116C0, 0x11730, 0x118E0, 0x11950, 0x11C50, 0x11D50, 0x11DA0, 0x16A60, 0x16AC0,
    0x16B50, 0x1D7CE, 0x1D7D8, 0x1D7E2, 0x1D7EC, 0x1D7F6, 0x1E140, 0x1E2F0, 0x1E950, 0x1FBF0]

def digitValue (c : Char) : Option ℕ :=
  (digitZeros.find? fun z => z ≤ c.toNat && c.toNat < z + 10).map (c.toNat - ·)

/-- The digits of a text that is nothing but digits, with single underscores between them. -/
def readDigits : List Char → Option (List ℕ)
  | [] => none
  | [c] => (digitValue c).map fun d => [d]
  | c :: next :: rest =>
    match digitValue c with
    | none => none
    | some d =>
      if next = '_' then (readDigits rest).map (d :: ·)
      else (readDigits (next :: rest)).map (d :: ·)

/-- `sys.int_info.default_max_str_digits`. -/
def maxStrDigits : ℕ := 4300

def natOfDigits (digits : List ℕ) : ℕ := digits.foldl (fun n d => 10 * n + d) 0

/-- A number without its sign; longer ones are refused. -/
def readNat (text : List Char) : Option ℕ :=
  (readDigits text).bind fun digits =>
    if digits.length ≤ maxStrDigits then some (natOfDigits digits) else none

/-- `int(text)`; `none` is a `ValueError`. -/
def intOf (text : List Char) : Option ℤ :=
  match TextLines.strip text with
  | [] => none
  | c :: rest =>
    if c = '-' then (readNat rest).map fun n : ℕ => -(n : ℤ)
    else if c = '+' then (readNat rest).map fun n : ℕ => (n : ℤ)
    else (readNat (c :: rest)).map fun n : ℕ => (n : ℤ)

/-- `str(n)`; `none` is a `ValueError`. -/
def strOf (n : ℤ) : Option String :=
  if (Nat.toDigits 10 n.natAbs).length ≤ maxStrDigits then some (toString n) else none

/-! ## Read back -/

theorem digitValue_isDigit {c : Char} (digit : c.isDigit = true) :
    digitValue c = some (c.toNat - '0'.toNat) := by
  obtain ⟨low, high⟩ : '0'.toNat ≤ c.toNat ∧ c.toNat ≤ '9'.toNat := by
    simpa [Char.isDigit, UInt32.le_iff_toNat_le] using digit
  have first : (decide (0x30 ≤ c.toNat) && decide (c.toNat < 0x30 + 10)) = true := by
    rw [Bool.and_eq_true, decide_eq_true_eq, decide_eq_true_eq]
    exact ⟨low, Nat.lt_succ_of_le high⟩
  rw [digitValue, digitZeros,
    List.find?_cons_of_pos (p := fun z => decide (z ≤ c.toNat) && decide (c.toNat < z + 10)) first]
  rfl

theorem isDigit_ne_underscore {c : Char} (digit : c.isDigit = true) : c ≠ '_' := by
  rintro rfl
  exact absurd digit (by decide)

theorem isDigit_not_space {c : Char} (digit : c.isDigit = true) : TextLines.isSpace c = false := by
  obtain ⟨low, high⟩ : '0'.toNat ≤ c.toNat ∧ c.toNat ≤ '9'.toNat := by
    simpa [Char.isDigit, UInt32.le_iff_toNat_le] using digit
  change 48 ≤ c.toNat at low
  change c.toNat ≤ 57 at high
  simp only [TextLines.isSpace, Bool.or_eq_false_iff, Bool.and_eq_false_iff,
    decide_eq_false_iff_not, beq_eq_false_iff_ne, ne_eq]
  omega

theorem readDigits_isDigit {text : List Char} (filled : text ≠ [])
    (digits : ∀ c ∈ text, c.isDigit = true) :
    readDigits text = some (text.map fun c => c.toNat - '0'.toNat) := by
  induction text with
  | nil => exact absurd rfl filled
  | cons c rest ih =>
    obtain ⟨digit, others⟩ := List.forall_mem_cons.mp digits
    cases rest with
    | nil => simp only [readDigits, digitValue_isDigit digit, Option.map_some, List.map_cons,
        List.map_nil]
    | cons next rest =>
      simp only [readDigits, digitValue_isDigit digit,
        if_neg (isDigit_ne_underscore (others next (.head _))), ih (List.cons_ne_nil _ _) others,
        Option.map_some, List.map_cons]

theorem natOfDigits_chars (text : List Char) :
    natOfDigits (text.map fun c => c.toNat - '0'.toNat) = Nat.ofDigitChars 10 text 0 := by
  rw [natOfDigits, List.foldl_map, Nat.ofDigitChars_eq_foldl]

theorem toDigits_isDigit (n : ℕ) : ∀ c ∈ Nat.toDigits 10 n, c.isDigit = true :=
  fun _ member => Nat.isDigit_of_mem_toDigits (by decide) (by decide) member

theorem readNat_toDigits {n : ℕ} (short : (Nat.toDigits 10 n).length ≤ maxStrDigits) :
    readNat (Nat.toDigits 10 n) = some n := by
  rw [readNat, readDigits_isDigit Nat.toDigits_ne_nil (toDigits_isDigit n), Option.bind_some,
    List.length_map, if_pos short, natOfDigits_chars,
    Nat.ofDigitChars_toDigits (by decide) (by decide)]

theorem strip_spaceless {text : List Char} (inked : ∀ c ∈ text, TextLines.isSpace c = false) :
    TextLines.strip text = text := by
  have left : TextLines.lstrip text = text := by
    rw [TextLines.lstrip, List.dropWhile_eq_self_iff]
    exact fun _ => Bool.not_eq_true _ ▸ inked _ (List.getElem_mem _)
  rw [TextLines.strip, left, List.rdropWhile_eq_self_iff]
  exact fun filled => Bool.not_eq_true _ ▸ inked _ (List.getLast_mem filled)

theorem toDigits_spaceless (n : ℕ) : ∀ c ∈ Nat.toDigits 10 n, TextLines.isSpace c = false :=
  fun c member => isDigit_not_space (toDigits_isDigit n c member)

theorem intOf_toDigits {n : ℕ} (short : (Nat.toDigits 10 n).length ≤ maxStrDigits) :
    intOf (Nat.toDigits 10 n) = some (n : ℤ) := by
  obtain ⟨c, rest, shape⟩ := List.exists_cons_of_ne_nil (Nat.toDigits_ne_nil (n := n) (b := 10))
  have digit : c.isDigit = true := toDigits_isDigit n c (shape ▸ .head _)
  have unsigned : c ≠ '-' ∧ c ≠ '+' := by
    constructor <;> rintro rfl <;> exact absurd digit (by decide)
  rw [intOf, strip_spaceless (toDigits_spaceless n), shape]
  simp only [if_neg unsigned.1, if_neg unsigned.2]
  rw [← shape, readNat_toDigits short, Option.map_some]

theorem intOf_minus {n : ℕ} (short : (Nat.toDigits 10 n).length ≤ maxStrDigits) :
    intOf ('-' :: Nat.toDigits 10 n) = some (-(n : ℤ)) := by
  have spaceless : ∀ c ∈ '-' :: Nat.toDigits 10 n, TextLines.isSpace c = false :=
    List.forall_mem_cons.mpr ⟨by decide, toDigits_spaceless n⟩
  rw [intOf, strip_spaceless spaceless]
  simp only [if_true]
  rw [readNat_toDigits short, Option.map_some]

/-- `int` reads what `str` writes of the same number. -/
theorem intOf_strOf {n : ℤ} {text : String} (written : strOf n = some text) :
    intOf text.toList = some n := by
  rw [strOf] at written
  split at written
  · rename_i short
    cases written
    cases n with
    | ofNat m =>
      change intOf (toString m).toList = _
      rw [Nat.toString_eq_ofList_toDigits, String.toList_ofList]
      exact intOf_toDigits short
    | negSucc m =>
      change intOf ("-" ++ toString (m + 1)).toList = _
      rw [Nat.toString_eq_ofList_toDigits, String.toList_append, String.toList_ofList,
        String.toList_ofList, List.singleton_append]
      exact intOf_minus short
  · cases written

end AgentRunner.IntText
