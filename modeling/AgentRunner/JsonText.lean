import AgentRunner.PyValue
import AgentRunner.Dict
import AgentRunner.TextLines

/-! `json.loads` as a machine that reads one character at a time over a stack of
open containers, and `json.dumps(value, ensure_ascii=False)`. A line that is not
JSON is a `JSONDecodeError`, which the event readers skip; an integer of too many
digits and containers nested too deep raise something they do not catch. -/
namespace AgentRunner.JsonText
open PyValue TextLines

/-- What the interpreter brings: the double nearest to a number token, the text of
a double, which is on one line, and how deep containers may nest. -/
structure Interpreter where
  floatOfToken : List Char → PyFloat
  reprFloat : ℚ → List Char
  oneLine : ∀ q, OneLine (reprFloat q)
  maxDepth : Nat

/-- An interpreter for lines without floats. -/
def wordsOnly : Interpreter where
  floatOfToken _ := .nan
  reprFloat _ := "nan".toList
  oneLine _ := by decide
  maxDepth := 1000

/-! ## Reading -/

/-- A container that is still open: an object between members, an object whose
member `key` awaits its value, or an array. -/
inductive Frame where
  | obj (fields : Event)
  | field (fields : Event) (key : String)
  | arr (items : List Json)

/-- What the machine reads next. Text is kept as UTF-16 units and code points, so
that an escaped surrogate pair joins. -/
inductive Mode where
  | value
  | firstItem
  | firstKey
  | key
  | colon (key : String)
  | next
  | text (isKey : Bool) (units : List Nat)
  | escape (isKey : Bool) (units : List Nat)
  | hex (isKey : Bool) (units : List Nat) (read : Nat) (unit : Nat)
  | number (token : List Char)
  | literal (rest : List Char) (value : Json)
  | done (value : Json)

structure State where
  mode : Mode
  stack : List Frame

/-- Why reading stops: a `JSONDecodeError`, or another exception. -/
inductive Stop where
  | malformed
  | raised (e : PyErr)
  deriving DecidableEq

/-- JSON's own white space. -/
def isWs (c : Char) : Bool := c == ' ' || c == '\t' || c == '\n' || c == '\r'

def isDigit (c : Char) : Bool := '0' ≤ c && c ≤ '9'

def hexDigit? (c : Char) : Option Nat :=
  if '0' ≤ c ∧ c ≤ '9' then some (c.toNat - '0'.toNat)
  else if 'a' ≤ c ∧ c ≤ 'f' then some (c.toNat - 'a'.toNat + 10)
  else if 'A' ≤ c ∧ c ≤ 'F' then some (c.toNat - 'A'.toNat + 10)
  else none

/-- A code unit on its own. Python keeps a lone surrogate; a `Char` cannot be one. -/
def charOfUnit (unit : Nat) : Char :=
  if 0xD800 ≤ unit ∧ unit ≤ 0xDFFF then '\uFFFD' else Char.ofNat unit

/-- The text of the units: a high and a low surrogate in a row are one character. -/
def joinUnits : List Nat → List Char
  | [] => []
  | [unit] => [charOfUnit unit]
  | high :: low :: rest =>
    if (0xD800 ≤ high ∧ high ≤ 0xDBFF) ∧ 0xDC00 ≤ low ∧ low ≤ 0xDFFF then
      Char.ofNat (0x10000 + (high - 0xD800) * 0x400 + (low - 0xDC00)) :: joinUnits rest
    else charOfUnit high :: joinUnits (low :: rest)

/-- `sys.int_info.default_max_str_digits`. -/
def maxStrDigits : Nat := 4300

def natOfDigits (digits : List Char) : Nat :=
  digits.foldl (fun n c => 10 * n + (c.toNat - '0'.toNat)) 0

/-- The fraction at the front of `rest`, if at least one digit follows the point. -/
def fractionOf (rest : List Char) : List Char :=
  match rest with
  | '.' :: rest =>
    let digits := rest.takeWhile isDigit
    if digits = [] then [] else '.' :: digits
  | _ => []

/-- The exponent at the front of `rest`, if it has at least one digit. -/
def exponentOf (rest : List Char) : List Char :=
  match rest with
  | e :: rest =>
    if e = 'e' ∨ e = 'E' then
      let sign := rest.takeWhile fun c => c == '+' || c == '-'
      let digits := (rest.drop sign.length).takeWhile isDigit
      if 1 < sign.length ∨ digits = [] then [] else e :: sign ++ digits
    else []
  | [] => []

/-- `_match_number`: the longest number at the front of the token, and a
`JSONDecodeError` if that is not all of it. -/
def readNumber (i : Interpreter) (token : List Char) : Except Stop Json := do
  let sign := if token.head? = some '-' then ['-'] else []
  let rest := token.drop sign.length
  let digits := if rest.head? = some '0' then ['0'] else rest.takeWhile isDigit
  if digits = [] then throw .malformed
  let rest := rest.drop digits.length
  let fraction := fractionOf rest
  let rest := rest.drop fraction.length
  let exponent := exponentOf rest
  let whole := fraction = [] ∧ exponent = []
  if whole ∧ maxStrDigits < digits.length then throw (.raised .valueError)
  if rest.drop exponent.length ≠ [] then throw .malformed
  let n : Int := natOfDigits digits
  return if whole then .int (if sign = [] then n else -n)
    else .float (i.floatOfToken (sign ++ digits ++ fraction ++ exponent))

/-- Hand a complete value to the container it stands in. -/
def deliver (v : Json) : List Frame → Except Stop State
  | [] => .ok ⟨.done v, []⟩
  | .field fields key :: rest => .ok ⟨.next, .obj (Dict.put fields key v) :: rest⟩
  | .arr items :: rest => .ok ⟨.next, .arr (items ++ [v]) :: rest⟩
  | .obj _ :: _ => .error .malformed

/-- Open a container, unless the interpreter's recursion limit is reached. -/
def enter (i : Interpreter) (mode : Mode) (frame : Frame) (stack : List Frame) :
    Except Stop State :=
  if i.maxDepth ≤ stack.length then .error (.raised .recursionError)
  else .ok ⟨mode, frame :: stack⟩

/-- The first character of a value. -/
def startValue (i : Interpreter) (stack : List Frame) (c : Char) : Except Stop State :=
  if c = '"' then .ok ⟨.text false [], stack⟩
  else if c = '{' then enter i .firstKey (.obj []) stack
  else if c = '[' then enter i .firstItem (.arr []) stack
  else if c = 'n' then .ok ⟨.literal "ull".toList .null, stack⟩
  else if c = 't' then .ok ⟨.literal "rue".toList (.bool true), stack⟩
  else if c = 'f' then .ok ⟨.literal "alse".toList (.bool false), stack⟩
  else if c = 'N' then .ok ⟨.literal "aN".toList (.float .nan), stack⟩
  else if c = 'I' then .ok ⟨.literal "nfinity".toList (.float .posInf), stack⟩
  else if c = '-' ∨ isDigit c = true then .ok ⟨.number [c], stack⟩
  else .error .malformed

/-- The end of an object or an array. -/
def close (stack : List Frame) (c : Char) : Except Stop State :=
  match stack with
  | .obj fields :: rest => if c = '}' then deliver (.obj fields) rest else .error .malformed
  | .arr items :: rest => if c = ']' then deliver (.arr items) rest else .error .malformed
  | _ => .error .malformed

/-- After a complete value, inside a container or at the top. -/
def afterValue (s : State) (c : Char) : Except Stop State :=
  if isWs c = true then .ok s
  else match s.mode, s.stack with
    | .next, .obj _ :: _ => if c = ',' then .ok ⟨.key, s.stack⟩ else close s.stack c
    | .next, .arr _ :: _ => if c = ',' then .ok ⟨.value, s.stack⟩ else close s.stack c
    | _, _ => .error .malformed

/-- A character of a string, outside any escape. -/
def textStep (isKey : Bool) (units : List Nat) (stack : List Frame) (c : Char) :
    Except Stop State :=
  if c = '"' then
    let text := String.ofList (joinUnits units)
    if isKey then .ok ⟨.colon text, stack⟩ else deliver (.str text) stack
  else if c = '\\' then .ok ⟨.escape isKey units, stack⟩
  else if c.toNat < 0x20 then .error .malformed
  else .ok ⟨.text isKey (units ++ [c.toNat]), stack⟩

/-- The character after a backslash, but for `u`. -/
def escapes : List (Char × Nat) :=
  [('"', 0x22), ('\\', 0x5C), ('/', 0x2F), ('b', 0x08), ('f', 0x0C), ('n', 0x0A), ('r', 0x0D),
    ('t', 0x09)]

def escapeStep (isKey : Bool) (units : List Nat) (stack : List Frame) (c : Char) :
    Except Stop State :=
  if c = 'u' then .ok ⟨.hex isKey units 0 0, stack⟩
  else match escapes.lookup c with
    | some unit => .ok ⟨.text isKey (units ++ [unit]), stack⟩
    | none => .error .malformed

def hexStep (isKey : Bool) (units : List Nat) (read unit : Nat) (stack : List Frame) (c : Char) :
    Except Stop State :=
  match hexDigit? c with
  | none => .error .malformed
  | some digit =>
    let unit := unit * 16 + digit
    if read = 3 then .ok ⟨.text isKey (units ++ [unit]), stack⟩
    else .ok ⟨.hex isKey units (read + 1) unit, stack⟩

/-- The characters a number token is made of. -/
def inNumber (c : Char) : Bool :=
  isDigit c || c == '-' || c == '+' || c == '.' || c == 'e' || c == 'E'

def step (i : Interpreter) (s : State) (c : Char) : Except Stop State :=
  match s.mode with
  | .value => if isWs c = true then .ok s else startValue i s.stack c
  | .firstItem =>
    if isWs c = true then .ok s else if c = ']' then close s.stack c else startValue i s.stack c
  | .firstKey =>
    if isWs c = true then .ok s
    else if c = '"' then .ok ⟨.text true [], s.stack⟩
    else close s.stack c
  | .key =>
    if isWs c = true then .ok s
    else if c = '"' then .ok ⟨.text true [], s.stack⟩
    else .error .malformed
  | .colon key =>
    if isWs c = true then .ok s
    else match s.stack with
      | .obj fields :: rest =>
        if c = ':' then .ok ⟨.value, .field fields key :: rest⟩ else .error .malformed
      | _ => .error .malformed
  | .next | .done _ => afterValue s c
  | .text isKey units => textStep isKey units s.stack c
  | .escape isKey units => escapeStep isKey units s.stack c
  | .hex isKey units read unit => hexStep isKey units read unit s.stack c
  | .number token =>
    if inNumber c = true then .ok ⟨.number (token ++ [c]), s.stack⟩
    else if token = ['-'] ∧ c = 'I' then .ok ⟨.literal "nfinity".toList (.float .negInf), s.stack⟩
    else do
      let v ← readNumber i token
      let s ← deliver v s.stack
      afterValue s c
  | .literal rest v =>
    if rest = [c] then deliver v s.stack
    else if rest.head? = some c then .ok ⟨.literal rest.tail v, s.stack⟩
    else .error .malformed

def run (i : Interpreter) (s : State) (text : List Char) : Except Stop State :=
  text.foldlM (step i) s

/-- The end of the text. -/
def finish (i : Interpreter) (s : State) : Except Stop Json :=
  match s.mode, s.stack with
  | .done v, _ => .ok v
  | .number token, stack => do
    let v ← readNumber i token
    if stack = [] then return v else throw .malformed
  | _, _ => .error .malformed

def start : State := ⟨.value, []⟩

/-- `json.loads(text)`; `none` is a `JSONDecodeError`. -/
def loads (i : Interpreter) (text : List Char) : Except PyErr (Option Json) :=
  match run i start text >>= finish i with
  | .ok v => .ok (some v)
  | .error .malformed => .ok none
  | .error (.raised e) => .error e

/-! ## Writing -/

/-- `ESCAPE_DCT`, and `\u00xx` for the other control characters. -/
def escapeChar (c : Char) : List Char :=
  if c = '"' then ['\\', '"']
  else if c = '\\' then ['\\', '\\']
  else if c = '\n' then ['\\', 'n']
  else if c = '\r' then ['\\', 'r']
  else if c = '\t' then ['\\', 't']
  else if c.toNat = 0x0C then ['\\', 'f']
  else if c.toNat = 0x08 then ['\\', 'b']
  else if c.toNat < 0x20 then
    ['\\', 'u', '0', '0', Nat.digitChar (c.toNat / 16), Nat.digitChar (c.toNat % 16)]
  else [c]

def dumpsText (text : String) : List Char := '"' :: text.toList.flatMap escapeChar ++ ['"']

def dumpsInt (n : Int) : List Char :=
  if n < 0 then '-' :: Nat.toDigits 10 n.natAbs else Nat.toDigits 10 n.natAbs

def dumpsFloat (i : Interpreter) : PyFloat → List Char
  | .nan => "NaN".toList
  | .posInf => "Infinity".toList
  | .negInf => "-Infinity".toList
  | .finite q => i.reprFloat q

mutual
/-- `json.dumps(value, ensure_ascii=False)`. -/
def dumps (i : Interpreter) : Json → List Char
  | .null => "null".toList
  | .bool true => "true".toList
  | .bool false => "false".toList
  | .int n => dumpsInt n
  | .float x => dumpsFloat i x
  | .str text => dumpsText text
  | .arr items => '[' :: dumpsItems i items ++ [']']
  | .obj fields => '{' :: dumpsFields i fields ++ ['}']

def dumpsItems (i : Interpreter) : List Json → List Char
  | [] => []
  | [v] => dumps i v
  | v :: w :: rest => dumps i v ++ ", ".toList ++ dumpsItems i (w :: rest)

def dumpsFields (i : Interpreter) : List (String × Json) → List Char
  | [] => []
  | [(key, v)] => dumpsText key ++ ": ".toList ++ dumps i v
  | (key, v) :: field :: rest =>
    dumpsText key ++ ": ".toList ++ dumps i v ++ ", ".toList ++ dumpsFields i (field :: rest)
end

/-! What is written stays on one line: the writer escapes every control character. -/

theorem digitChar_plain : ∀ n : Fin 16, ¬ LineEnd (Nat.digitChar n) := by decide

theorem escapeChar_oneLine (c : Char) : OneLine (escapeChar c) := by
  unfold escapeChar
  by_cases newline : c = '\n'
  · subst newline
    decide
  by_cases return_ : c = '\r'
  · subst return_
    decide
  rw [if_neg newline, if_neg return_]
  repeat' split
  any_goals decide
  · rename_i control
    have high := digitChar_plain ⟨c.toNat / 16, by omega⟩
    have low := digitChar_plain ⟨c.toNat % 16, by omega⟩
    simp only [OneLine, List.forall_mem_cons]
    exact ⟨by decide, by decide, by decide, by decide, high, low, by simp⟩
  · exact List.forall_mem_singleton.mpr (not_or.mpr ⟨newline, return_⟩)

theorem dumpsText_oneLine (text : String) : OneLine (dumpsText text) := by
  have escaped : OneLine (text.toList.flatMap escapeChar) := by
    intro c member
    obtain ⟨d, -, member⟩ := List.mem_flatMap.mp member
    exact escapeChar_oneLine d c member
  exact .cons (by decide) (.append escaped (by decide))

theorem digits_oneLine (n : Nat) : OneLine (Nat.toDigits 10 n) := by
  intro c member
  have digit := Nat.isDigit_of_mem_toDigits (by decide) (by decide) member
  rintro (rfl | rfl)
  · exact absurd digit (by decide)
  · exact absurd digit (by decide)

theorem dumpsInt_oneLine (n : Int) : OneLine (dumpsInt n) := by
  unfold dumpsInt
  split
  · exact .cons (by decide) (digits_oneLine _)
  · exact digits_oneLine _

theorem dumpsFloat_oneLine (i : Interpreter) (x : PyFloat) : OneLine (dumpsFloat i x) := by
  cases x with
  | nan => exact (by decide : OneLine "NaN".toList)
  | posInf => exact (by decide : OneLine "Infinity".toList)
  | negInf => exact (by decide : OneLine "-Infinity".toList)
  | finite q => exact i.oneLine q

mutual
theorem dumps_oneLine (i : Interpreter) : ∀ v, OneLine (dumps i v)
  | .null => by rw [dumps]; decide
  | .bool true => by rw [dumps]; decide
  | .bool false => by rw [dumps]; decide
  | .int n => dumpsInt_oneLine n
  | .float x => dumpsFloat_oneLine i x
  | .str text => dumpsText_oneLine text
  | .arr items => .cons (by decide) (.append (dumpsItems_oneLine i items) (by decide))
  | .obj fields => .cons (by decide) (.append (dumpsFields_oneLine i fields) (by decide))

theorem dumpsItems_oneLine (i : Interpreter) : ∀ items, OneLine (dumpsItems i items)
  | [] => by rw [dumpsItems]; decide
  | [v] => dumps_oneLine i v
  | v :: w :: rest =>
    .append (.append (dumps_oneLine i v) (by decide)) (dumpsItems_oneLine i (w :: rest))

theorem dumpsFields_oneLine (i : Interpreter) : ∀ fields, OneLine (dumpsFields i fields)
  | [] => by rw [dumpsFields]; decide
  | [(key, v)] => .append (.append (dumpsText_oneLine key) (by decide)) (dumps_oneLine i v)
  | (key, v) :: field :: rest =>
    .append (.append (.append (.append (dumpsText_oneLine key) (by decide)) (dumps_oneLine i v))
      (by decide)) (dumpsFields_oneLine i (field :: rest))
end

end AgentRunner.JsonText
