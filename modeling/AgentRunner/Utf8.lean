import Mathlib.Data.Nat.Basic

/-! UTF-8 as text readers that replace what they cannot decode see it: a machine
that reads one byte at a time, and answers the longest beginning of a character
that is broken off, by another byte or by the end of the bytes, with one
replacement character. It resynchronizes at every ASCII byte, so text may be cut
there. -/
namespace AgentRunner.Utf8

/-- A character that has begun: the bits read so far, the continuation bytes still
owed, and the least and greatest byte the next one may be. -/
structure Pending where
  bits : Nat
  owed : Nat
  low : Nat
  high : Nat
  tail : 0x80 ≤ low

/-- What a broken or incomplete character reads as. -/
def replacement : Char := '\uFFFD'

/-- A byte between two characters. -/
def first (b : Nat) : List Char × Option Pending :=
  if b < 0x80 then ([Char.ofNat b], none)
  else if 0xC2 ≤ b ∧ b ≤ 0xDF then ([], some ⟨b - 0xC0, 1, 0x80, 0xBF, by decide⟩)
  else if b = 0xE0 then ([], some ⟨0, 2, 0xA0, 0xBF, by decide⟩)
  else if b = 0xED then ([], some ⟨0xD, 2, 0x80, 0x9F, by decide⟩)
  else if 0xE1 ≤ b ∧ b ≤ 0xEF then ([], some ⟨b - 0xE0, 2, 0x80, 0xBF, by decide⟩)
  else if b = 0xF0 then ([], some ⟨0, 3, 0x90, 0xBF, by decide⟩)
  else if b = 0xF4 then ([], some ⟨4, 3, 0x80, 0x8F, by decide⟩)
  else if 0xF1 ≤ b ∧ b ≤ 0xF3 then ([], some ⟨b - 0xF0, 3, 0x80, 0xBF, by decide⟩)
  else ([replacement], none)

/-- One byte: the characters it completes, and what is then pending. A byte that
cannot continue a character is read anew. -/
def step (state : Option Pending) (b : Nat) : List Char × Option Pending :=
  match state with
  | none => first b
  | some p =>
    if p.low ≤ b ∧ b ≤ p.high then
      let bits := p.bits * 64 + (b - 0x80)
      if p.owed = 1 then ([Char.ofNat bits], none)
      else ([], some ⟨bits, p.owed - 1, 0x80, 0xBF, by decide⟩)
    else (replacement :: (first b).1, (first b).2)

/-- The end of the bytes. -/
def flush : Option Pending → List Char
  | none => []
  | some _ => [replacement]

def decodeFrom (state : Option Pending) : List UInt8 → List Char
  | [] => flush state
  | b :: rest => (step state b.toNat).1 ++ decodeFrom (step state b.toNat).2 rest

/-- `bytes.decode("utf-8", errors="replace")`. -/
def decode (bytes : List UInt8) : List Char := decodeFrom none bytes

/-- `char.encode("utf-8")`. -/
def encodeChar (c : Char) : List UInt8 :=
  let n := c.toNat
  if n < 0x80 then [.ofNat n]
  else if n < 0x800 then [.ofNat (0xC0 + n / 64), .ofNat (0x80 + n % 64)]
  else if n < 0x10000 then
    [.ofNat (0xE0 + n / 4096), .ofNat (0x80 + n / 64 % 64), .ofNat (0x80 + n % 64)]
  else
    [.ofNat (0xF0 + n / 262144), .ofNat (0x80 + n / 4096 % 64), .ofNat (0x80 + n / 64 % 64),
      .ofNat (0x80 + n % 64)]

/-- `text.encode("utf-8")`. -/
def encode (text : List Char) : List UInt8 := text.flatMap encodeChar

@[simp] theorem encode_nil : encode [] = [] := rfl

@[simp] theorem encode_cons (c : Char) (text : List Char) :
    encode (c :: text) = encodeChar c ++ encode text := rfl

theorem encode_append (left right : List Char) :
    encode (left ++ right) = encode left ++ encode right := List.flatMap_append

/-! ## Resynchronization -/

theorem step_ascii (state : Option Pending) {b : Nat} (ascii : b < 0x80) :
    step state b = (flush state ++ [Char.ofNat b], none) := by
  cases state with
  | none => simp [step, first, flush, ascii]
  | some p =>
    have tail := p.tail
    simp [step, first, flush, ascii, show ¬ p.low ≤ b by omega]

theorem decodeFrom_ascii (state : Option Pending) {b : UInt8} (ascii : b.toNat < 0x80)
    (rest : List UInt8) :
    decodeFrom state (b :: rest) = flush state ++ Char.ofNat b.toNat :: decode rest := by
  simp [decodeFrom, decode, step_ascii state ascii]

/-- **Text may be cut before an ASCII byte.**  The characters before it do not
depend on it, and those from it on do not depend on what came before. -/
theorem decodeFrom_append (state : Option Pending) (left : List UInt8) {b : UInt8}
    (ascii : b.toNat < 0x80) (right : List UInt8) :
    decodeFrom state (left ++ b :: right) =
      decodeFrom state left ++ Char.ofNat b.toNat :: decode right := by
  induction left generalizing state with
  | nil => exact decodeFrom_ascii state ascii right
  | cons a left ih => simp only [List.cons_append, decodeFrom, ih, List.append_assoc]

theorem decode_append (left : List UInt8) {b : UInt8} (ascii : b.toNat < 0x80)
    (right : List UInt8) :
    decode (left ++ b :: right) = decode left ++ Char.ofNat b.toNat :: decode right :=
  decodeFrom_append none left ascii right

/-! ## Round trip -/

theorem toNat_byte {n : Nat} (byte : n < 256) : (UInt8.ofNat n).toNat = n := by
  rw [UInt8.toNat_ofNat']
  exact Nat.mod_eq_of_lt byte

/-- The first byte of a longer character. -/
theorem decode_begin {n : Nat} (byte : n < 256) {p : Pending} (begins : first n = ([], some p))
    (rest : List UInt8) : decode (.ofNat n :: rest) = decodeFrom (some p) rest := by
  simp [decode, decodeFrom, step, toNat_byte byte, begins]

/-- A continuation byte with more to come. -/
theorem decodeFrom_more {p : Pending} (more : p.owed ≠ 1) {n : Nat} (six : n < 64)
    (low : p.low ≤ 0x80 + n) (high : 0x80 + n ≤ p.high) (rest : List UInt8) :
    decodeFrom (some p) (.ofNat (0x80 + n) :: rest) =
      decodeFrom (some ⟨p.bits * 64 + n, p.owed - 1, 0x80, 0xBF, by decide⟩) rest := by
  rw [decodeFrom, toNat_byte (by omega)]
  simp [step, low, high, more]

/-- The last continuation byte. -/
theorem decodeFrom_last {p : Pending} (last : p.owed = 1) {n : Nat} (six : n < 64)
    (low : p.low ≤ 0x80 + n) (high : 0x80 + n ≤ p.high) (rest : List UInt8) :
    decodeFrom (some p) (.ofNat (0x80 + n) :: rest) =
      Char.ofNat (p.bits * 64 + n) :: decode rest := by
  rw [decodeFrom, toNat_byte (by omega)]
  simp [decode, step, low, high, last]

theorem first_two {n : Nat} (low : 0xC2 ≤ n) (high : n ≤ 0xDF) :
    first n = ([], some ⟨n - 0xC0, 1, 0x80, 0xBF, by decide⟩) := by
  rw [first, if_neg (by omega), if_pos ⟨low, high⟩]

/-- The first byte of three, whose second byte rules out overlong forms and surrogates. -/
theorem first_three {n : Nat} (low : 0xE0 ≤ n) (high : n ≤ 0xEF) :
    ∃ p, first n = ([], some p) ∧ p.bits = n - 0xE0 ∧ p.owed = 2 ∧
      (p.low = if n = 0xE0 then 0xA0 else 0x80) ∧ (p.high = if n = 0xED then 0x9F else 0xBF) := by
  rw [first, if_neg (by omega), if_neg (by omega)]
  by_cases least : n = 0xE0
  · subst least
    exact ⟨_, rfl, rfl, rfl, rfl, rfl⟩
  · by_cases surrogate : n = 0xED
    · subst surrogate
      exact ⟨_, rfl, rfl, rfl, rfl, rfl⟩
    · rw [if_neg least, if_neg surrogate, if_pos (by omega)]
      exact ⟨_, rfl, rfl, rfl, by rw [if_neg least], by rw [if_neg surrogate]⟩

/-- The first byte of four, whose second byte rules out overlong forms and what
lies beyond the last plane. -/
theorem first_four {n : Nat} (low : 0xF0 ≤ n) (high : n ≤ 0xF4) :
    ∃ p, first n = ([], some p) ∧ p.bits = n - 0xF0 ∧ p.owed = 3 ∧
      (p.low = if n = 0xF0 then 0x90 else 0x80) ∧ (p.high = if n = 0xF4 then 0x8F else 0xBF) := by
  rw [first, if_neg (by omega), if_neg (by omega), if_neg (by omega), if_neg (by omega),
    if_neg (by omega)]
  by_cases least : n = 0xF0
  · subst least
    exact ⟨_, rfl, rfl, rfl, rfl, rfl⟩
  · by_cases last : n = 0xF4
    · subst last
      exact ⟨_, rfl, rfl, rfl, rfl, rfl⟩
    · rw [if_neg least, if_neg last, if_pos (by omega)]
      exact ⟨_, rfl, rfl, rfl, by rw [if_neg least], by rw [if_neg last]⟩

/-- The code points a character can have. -/
theorem char_range (c : Char) : c.toNat < 0xD800 ∨ 0xDFFF < c.toNat ∧ c.toNat < 0x110000 :=
  c.valid

theorem ofNat_eq {c : Char} {n : Nat} (same : n = c.toNat) : Char.ofNat n = c := by
  rw [same, Char.ofNat_toNat]

theorem decode_encodeChar (c : Char) (rest : List UInt8) :
    decode (encodeChar c ++ rest) = c :: decode rest := by
  have range := char_range c
  unfold encodeChar
  generalize point : c.toNat = n at *
  by_cases one : n < 0x80
  · rw [if_pos one, List.singleton_append, decode, decodeFrom_ascii none
      (by rw [toNat_byte (by omega)]; exact one), toNat_byte (by omega), ofNat_eq point.symm]
    rfl
  · rw [if_neg one]
    by_cases two : n < 0x800
    · rw [if_pos two, List.cons_append, List.singleton_append,
        decode_begin (by omega) (first_two (by omega) (by omega)),
        decodeFrom_last rfl (by omega) (by dsimp only; omega) (by dsimp only; omega),
        ofNat_eq (by rw [point]; dsimp only; omega)]
    · rw [if_neg two]
      by_cases three : n < 0x10000
      · obtain ⟨p, begins, bits, owed, low, high⟩ :=
          first_three (n := 0xE0 + n / 4096) (by omega) (by omega)
        have least : p.low ≤ 0x80 + n / 64 % 64 := by rw [low]; split <;> omega
        have greatest : 0x80 + n / 64 % 64 ≤ p.high := by rw [high]; split <;> omega
        rw [if_pos three, List.cons_append, List.cons_append, List.singleton_append,
          decode_begin (by omega) begins, decodeFrom_more (by omega) (by omega) least greatest,
          decodeFrom_last (by dsimp only; omega) (by omega) (by dsimp only; omega)
            (by dsimp only; omega),
          ofNat_eq (by rw [point]; dsimp only; omega)]
      · obtain ⟨p, begins, bits, owed, low, high⟩ :=
          first_four (n := 0xF0 + n / 262144) (by omega) (by omega)
        have least : p.low ≤ 0x80 + n / 4096 % 64 := by rw [low]; split <;> omega
        have greatest : 0x80 + n / 4096 % 64 ≤ p.high := by rw [high]; split <;> omega
        rw [if_neg three, List.cons_append, List.cons_append, List.cons_append,
          List.singleton_append, decode_begin (by omega) begins,
          decodeFrom_more (by omega) (by omega) least greatest,
          decodeFrom_more (by dsimp only; omega) (by omega) (by dsimp only; omega)
            (by dsimp only; omega),
          decodeFrom_last (by dsimp only; omega) (by omega) (by dsimp only; omega)
            (by dsimp only; omega),
          ofNat_eq (by rw [point]; dsimp only; omega)]

theorem decode_encode (text : List Char) (rest : List UInt8) :
    decode (encode text ++ rest) = text ++ decode rest := by
  induction text with
  | nil => rfl
  | cons c text ih =>
    rw [encode_cons, List.append_assoc, decode_encodeChar, ih, List.cons_append]

/-- Text that starts with an ASCII character decodes as written, whatever it is
appended to, and leaves what it is appended to as it was. -/
theorem decode_append_encode (left : List UInt8) {c : Char} (ascii : c.toNat < 0x80)
    (text : List Char) : decode (left ++ encode (c :: text)) = decode left ++ c :: text := by
  have byte : (UInt8.ofNat c.toNat).toNat = c.toNat := toNat_byte (by omega)
  have rest := decode_encode text []
  rw [List.append_nil] at rest
  rw [encode_cons, encodeChar, if_pos ascii, List.singleton_append,
    decode_append left (by rw [byte]; exact ascii), byte, Char.ofNat_toNat, rest]
  exact congrArg (decode left ++ c :: ·) (List.append_nil text)

end AgentRunner.Utf8
