import Mathlib.Data.Rat.Defs
import Mathlib.Algebra.Order.Ring.Rat

/-! Values of the event stream as Python holds them after `json.loads`, and the
built-in operations the readers apply to them. Every operation that can raise
is an `Except`, so that a missing guard in a reader stays visible. -/
namespace AgentRunner.PyValue

/-- The exceptions the modelled code can meet. -/
inductive PyErr where
  | attributeError
  | valueError
  | typeError
  | overflowError
  | recursionError
  deriving DecidableEq, Repr

/-- The call returns: no exception escapes it. -/
def Returns {α : Type} (call : Except PyErr α) : Prop := ∃ value, call = .ok value

@[simp] theorem returns_ok {α : Type} (value : α) : Returns (.ok value) := ⟨value, rfl⟩

@[simp] theorem not_returns_error {α : Type} (e : PyErr) :
    ¬ Returns (.error e : Except PyErr α) := fun ⟨_, h⟩ => nomatch h

/-- A sequence of two calls returns when both do. -/
theorem returns_bind {α β : Type} (first : Except PyErr α) (next : α → Except PyErr β) :
    Returns (first >>= next) ↔ ∃ value, first = .ok value ∧ Returns (next value) := by
  cases first with
  | error e => simp [bind, Except.bind]
  | ok value => simp [bind, Except.bind]

/-- A float: `json.loads` accepts the bare `NaN`, `Infinity` and `-Infinity`
tokens, and every other double is a rational. -/
inductive PyFloat where
  | nan
  | posInf
  | negInf
  | finite (q : ℚ)
  deriving DecidableEq

/-- A parsed JSON value. -/
inductive Json where
  | null
  | bool (b : Bool)
  | int (n : Int)
  | float (x : PyFloat)
  | str (s : String)
  | arr (xs : List Json)
  | obj (fields : List (String × Json))

/-- One parsed line of an events file: a JSON object, as a dict. -/
abbrev Event := List (String × Json)

namespace Json

/-- Python truthiness. -/
def truthy : Json → Bool
  | .null => false
  | .bool b => b
  | .int n => n != 0
  | .float (.finite q) => q != 0
  | .float _ => true
  | .str s => s != ""
  | .arr xs => !xs.isEmpty
  | .obj fields => !fields.isEmpty

/-- `value == text` for a string constant. -/
def isText (value : Json) (text : String) : Bool :=
  match value with
  | .str s => s == text
  | _ => false

/-- A number as a float: `bool` is a subclass of `int`. -/
def number : Json → Option PyFloat
  | .bool b => some (.finite b.toInt)
  | .int n => some (.finite n)
  | .float x => some x
  | _ => none

def isNan : Json → Bool
  | .float .nan => true
  | _ => false

mutual
/-- `a == b`. Inside a container the comparison is by identity first, and the
parser hands out one NaN object. -/
def pyEq : Json → Json → Bool
  | .null, .null => true
  | .str s, .str t => s == t
  | .arr xs, .arr ys => pyEqItems xs ys
  | .obj xs, .obj ys => xs.length == ys.length && pyEqFields xs ys
  | a, b =>
    match number a, number b with
    | some x, some y => x != .nan && decide (x = y)
    | _, _ => false

def pyEqItems : List Json → List Json → Bool
  | [], [] => true
  | x :: xs, y :: ys => (isNan x && isNan y || pyEq x y) && pyEqItems xs ys
  | _, _ => false

def pyEqFields : List (String × Json) → List (String × Json) → Bool
  | [], _ => true
  | (key, x) :: rest, ys =>
    (match ys.lookup key with
      | some y => isNan x && isNan y || pyEq x y
      | none => false) && pyEqFields rest ys
end

@[simp] theorem truthy_null : truthy .null = false := rfl

@[simp] theorem isText_str (s text : String) : isText (.str s) text = (s == text) := rfl

end Json

/-- `ev.get(field)`, with `None` for a missing field. -/
def get (ev : Event) (field : String) : Json := (ev.lookup field).getD .null

/-- `ev.get(field, default)`. -/
def getOr (ev : Event) (field : String) (default : Json) : Json :=
  (ev.lookup field).getD default

/-- `ev.get("event") == kind`. -/
def isKind (ev : Event) (kind : String) : Bool := (get ev "event").isText kind

/-- What the readers take from the interpreter and the machine they run on:
`str()` of a value that is not a string, `int()` and `float()` of a stripped
string, the double nearest to an int (`none` where there is none), and the
host's local time, which `datetime.timestamp()` consults for a naive value.
Nothing is assumed about them. -/
structure Host where
  repr : Json → String
  intOfText : String → Option Int
  floatOfText : String → Option PyFloat
  floatOfInt : Int → Option ℚ
  localEpoch : List Nat → Except PyErr ℚ

/-- `str(value)`. -/
def str (host : Host) : Json → String
  | .str s => s
  | value => host.repr value

@[simp] theorem str_text (host : Host) (s : String) : str host (.str s) = s := rfl

/-- `int(q)`: truncation toward zero. -/
def trunc (q : ℚ) : Int := Int.tdiv q.num q.den

/-- `int(value)` on a float: NaN is a `ValueError`, an infinity an
`OverflowError`, and a finite value truncates. -/
def intOfFloat : PyFloat → Except PyErr Int
  | .nan => .error .valueError
  | .posInf | .negInf => .error .overflowError
  | .finite q => .ok (trunc q)

/-- `math.isfinite(value)` on a float. -/
def isFinite : PyFloat → Bool
  | .finite _ => true
  | _ => false

/-- `int(value.strip())` on a string. -/
def intOfStr (host : Host) (s : String) : Except PyErr Int :=
  match host.intOfText s with
  | some n => .ok n
  | none => .error .valueError

theorem intOfFloat_ok {x : PyFloat} (finite : isFinite x = true) : ∃ n, intOfFloat x = .ok n := by
  cases x with
  | finite q => exact ⟨_, rfl⟩
  | nan => cases finite
  | posInf => cases finite
  | negInf => cases finite

end AgentRunner.PyValue
