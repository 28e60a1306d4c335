import AgentRunner.Toml
import Mathlib.Data.List.Forall2

/-! `config/validators.py`: the checks the table parsers share. Each refuses with a
`ConfigError` that names the field, and some of them point at `agent-runner migrate`. -/
namespace AgentRunner.Validators
open PyValue Toml

/-- A `ConfigError`; `migrate` tells a message that asks for `agent-runner migrate`. -/
structure ConfigError where
  message : String
  migrate : Bool
  deriving DecidableEq

/-- What can escape `load_config`. -/
inductive Raised where
  | config (e : ConfigError)
  | other (e : PyErr)
  deriving DecidableEq

abbrev Checked := Except Raised

def refuse {α : Type} (message : String) : Checked α := .error (.config ⟨message, false⟩)

/-- A refusal that asks for `agent-runner migrate`. -/
def refuseMigrate {α : Type} (message : String) : Checked α := .error (.config ⟨message, true⟩)

/-- A sequence of two checks passes with the second's result where both pass. -/
theorem bind_eq_ok {ε α β : Type} {first : Except ε α} {next : α → Except ε β} {b : β} :
    (first >>= next) = .ok b ↔ ∃ a, first = .ok a ∧ next a = .ok b := by
  cases first with
  | error e => simp [bind, Except.bind]
  | ok a => simp [bind, Except.bind]

/-- `schedule.Window`. -/
structure Window where
  startMin : Nat
  endMin : Nat
  label : String
  days : List Nat

/-- What the loader takes from the interpreter, the file system and `schedule.py`: texts
of values, float conversion (`none` overflows), `re.compile`, paths by their text, time
zones and `parse_window`. Nothing is assumed about them. -/
structure Env where
  repr : Value → String
  text : Value → String
  isprintable : String → Bool
  floatOfInt : Int → Option ℚ
  floatText : PyFloat → String
  regexError : String → Option String
  expanduser : String → Except PyErr String
  isAbsolute : String → Bool
  join : String → String → String
  resolve : String → Except PyErr String
  pathName : String → String
  validTimezone : String → Bool
  parseWindow : String → Except String Window

variable (env : Env)

/-- `str(value)`. -/
def str : Value → String
  | .str s => s
  | value => env.text value

/-- The `repr` of a list of texts. -/
def reprNames (names : List String) : String := env.repr (.arr (names.map .str))

def sortedNames (names : List String) : List String := names.mergeSort fun a b => decide (a ≤ b)

def lift {α : Type} : Except PyErr α → Checked α
  | .ok a => .ok a
  | .error e => .error (.other e)

/-- `_reject_control_chars`. -/
def rejectControlChars (value field : String) : Checked Unit :=
  if env.isprintable value then .ok ()
  else refuse s!"{field}: contains a control or non-printable character"

/-- `_require` along `path`. -/
def require (path : List String) : Value → List String → Checked Value
  | cur, [] => .ok cur
  | .table d, p :: rest =>
    match Table.get? d p with
    | some next => require path next rest
    | none => refuse ("missing required field: " ++ ".".intercalate path)
  | _, _ :: _ => refuse ("missing required field: " ++ ".".intercalate path)

/-- `_require` for a field of its own table. -/
def requireField (d : Table) (field : String) : Checked Value := require [field] (.table d) [field]

/-- `_require_table`; without a `label` the table is named by its key. -/
def requireTable (raw : Table) (key : String) (label : Option String) : Checked Table :=
  match raw.get? key with
  | none => .ok []
  | some (.table d) => .ok d
  | some value =>
    let name := label.getD key
    let type := value.typeName
    refuseMigrate (s!"[{name}] must be a table, got {type} (" ++ env.repr value ++
      "); run `agent-runner migrate`")

/-- The keys of `d` outside `allowed`. -/
def unknownFields (d : Table) (allowed : List String) : List String :=
  d.keys.filter fun key => !allowed.contains key

/-- `_reject_unknown_fields`. -/
def rejectUnknownFields (d : Table) (allowed : List String) (label : String) : Checked Unit :=
  match unknownFields d allowed with
  | [] => .ok ()
  | unknown => refuseMigrate (s!"unknown [{label}] field(s): " ++
      reprNames env (sortedNames unknown) ++ "; allowed: " ++
      reprNames env (sortedNames allowed) ++ "; run `agent-runner migrate`")

/-- `text.replace(old, new)`; `skip` counts what is left of an occurrence. -/
def replaceText (old new : List Char) : Nat → List Char → List Char
  | _, [] => []
  | skip + 1, _ :: rest => replaceText old new skip rest
  | 0, c :: rest =>
    if old.isPrefixOf (c :: rest) then new ++ replaceText old new (old.length - 1) rest
    else c :: replaceText old new 0 rest

/-- `_expand_path`. -/
def expandPath (s projectName : String) : Checked String :=
  lift (env.expanduser (String.ofList
    (replaceText "\x7bproject\x7d".toList projectName.toList 0 s.toList)))

/-- `_expand_and_resolve`. -/
def expandAndResolve (s projectName workDir : String) : Checked String := do
  let p ← expandPath env s projectName
  if env.isAbsolute p then return p else lift (env.resolve (env.join workDir p))

/-- The refusal of a value of the wrong type. -/
def refuseType {α : Type} (field wanted : String) (value : Value) : Checked α :=
  let type := value.typeName
  refuse (s!"{field}: must be {wanted}, got {type} (" ++ env.repr value ++ ")")

/-- `_require_positive_int`. -/
def requirePositiveInt (value : Value) (field : String) : Checked Int :=
  match value with
  | .int n => if n ≤ 0 then refuse s!"{field}: must be positive, got {n}" else .ok n
  | value => refuseType env field "an integer" value

/-- `_require_non_negative_int`. -/
def requireNonNegativeInt (value : Value) (field : String) : Checked Int :=
  match value with
  | .int n => if n < 0 then refuse s!"{field}: must be >= 0, got {n}" else .ok n
  | value => refuseType env field "an integer" value

/-- `_require_bool`. -/
def requireBool (value : Value) (field : String) : Checked Bool :=
  match value with
  | .bool b => .ok b
  | value => refuseType env field "a bool" value

/-- `_require_str_list`. -/
def requireStrList (value : Value) (field : String) : Checked (List String) :=
  match value with
  | .str s => refuseMigrate (s!"{field}: must be a list, not a bare string " ++
      env.repr (.str s) ++ "; run `agent-runner migrate`")
  | .arr xs => .ok (xs.map (str env))
  | value =>
    let type := value.typeName
    refuseMigrate s!"{field}: must be a list, got {type}; run `agent-runner migrate`"

/-- `float(value)` of a number that is no bool. -/
def requireNumber (value : Value) (field : String) : Checked PyFloat :=
  match value with
  | .int n =>
    match env.floatOfInt n with
    | some q => .ok (.finite q)
    | none => .error (.other .overflowError)
  | .float x => .ok x
  | value => refuseType env field "a number" value

/-- `_require_pct`: a `nan` is not in the range. -/
def requirePct (value : Value) (field : String) : Checked PyFloat := do
  let v ← requireNumber env value field
  match v with
  | .finite q =>
    if 0 ≤ q ∧ q ≤ 100 then return v
    else refuse (s!"{field}: must be between 0 and 100, got " ++ env.floatText v)
  | _ => refuse (s!"{field}: must be between 0 and 100, got " ++ env.floatText v)

/-- `v > 0.0`. -/
def isPositive : PyFloat → Bool
  | .finite q => decide (0 < q)
  | .posInf => true
  | _ => false

/-- `_require_positive_pct`. -/
def requirePositivePct (value : Value) (field : String) : Checked PyFloat := do
  let v ← requirePct env value field
  if isPositive v then return v else refuse (s!"{field}: must be > 0, got " ++ env.floatText v)

/-- `_require_positive_float`. -/
def requirePositiveFloat (value : Value) (field : String) : Checked PyFloat := do
  let v ← requireNumber env value field
  if isPositive v then return v
  else refuse (s!"{field}: must be positive, got " ++ env.floatText v)

/-- The patterns of `_validate_regex_list`. -/
def validatePatterns (field : String) : List Value → Checked (List String)
  | [] => .ok []
  | .str p :: rest =>
    match env.regexError p with
    | some e => refuse (s!"{field}: invalid regex " ++ env.repr (.str p) ++ ": " ++ e)
    | none => do return p :: (← validatePatterns field rest)
  | value :: _ =>
    let type := value.typeName
    refuse (s!"{field}: each pattern must be a string, got {type}: " ++ env.repr value)

/-- `_validate_regex_list`. -/
def validateRegexList (value : Value) (field : String) : Checked (List String) :=
  match value with
  | .arr xs => validatePatterns env field xs
  | value =>
    let type := value.typeName
    refuse s!"{field}: expected a list of regex strings, got {type}"

/-! ## What a passed check tells -/

/-- A refusal under a test is passed where the test fails. -/
theorem unless_refused {α β : Type} {test : Prop} [Decidable test] {message : String}
    {hint : Bool} {next : β → Checked α} {rest : Checked α} {a : α}
    (passed : (if test then Except.error (.config ⟨message, hint⟩) >>= next else rest) = .ok a) :
    ¬ test ∧ rest = .ok a := by
  split at passed
  · cases passed
  · rename_i fails
    exact ⟨fails, passed⟩

theorem rejectUnknownFields_ok {d : Table} {allowed : List String} {label : String} :
    rejectUnknownFields env d allowed label = .ok () ↔ unknownFields d allowed = [] := by
  unfold rejectUnknownFields
  split
  · rename_i none_
    exact iff_of_true rfl none_
  · rename_i unknown some_
    exact iff_of_false nofun some_

theorem requireTable_ok {raw d : Table} {key : String} {label : Option String}
    (passed : requireTable env raw key label = .ok d) :
    raw.get? key = none ∧ d = [] ∨ raw.get? key = some (.table d) := by
  unfold requireTable at passed
  split at passed
  · rename_i missing
    cases passed
    exact .inl ⟨missing, rfl⟩
  · rename_i found
    cases passed
    exact .inr found
  · cases passed

theorem requireStrList_ok {value : Value} {field : String} {texts : List String}
    (passed : requireStrList env value field = .ok texts) :
    ∃ items, value = .arr items ∧ texts = items.map (str env) := by
  unfold requireStrList at passed
  split at passed
  · cases passed
  · cases passed
    exact ⟨_, rfl, rfl⟩
  · cases passed

theorem requireField_ok {d : Table} {field : String} {value : Value}
    (passed : requireField d field = .ok value) : d.get? field = some value := by
  unfold requireField require at passed
  split at passed
  · rename_i found
    cases passed
    exact found
  · cases passed

theorem requireInt_ok {value : Value} {field : String} {n : Int}
    (passed : requireNonNegativeInt env value field = .ok n) : value = .int n := by
  unfold requireNonNegativeInt at passed
  split at passed
  · split at passed
    · cases passed
    · cases passed
      rfl
  · cases passed

/-- A mapping returns where it does at every element. -/
theorem mapM_ok_iff {ε α β : Type} {f : α → Except ε β} {xs : List α} {ys : List β} :
    xs.mapM f = .ok ys ↔ List.Forall₂ (fun x y => f x = .ok y) xs ys := by
  induction xs generalizing ys with
  | nil =>
    rw [List.mapM_nil, List.forall₂_nil_left_iff]
    exact ⟨fun same => (Except.ok.inj same).symm, fun same => same ▸ rfl⟩
  | cons x xs ih =>
    simp only [List.mapM_cons, bind_eq_ok]
    constructor
    · rintro ⟨y, here, tail, later, built⟩
      obtain rfl := Except.ok.inj built
      exact .cons here (ih.mp later)
    · intro each
      obtain ⟨y, tail, here, later, rfl⟩ := List.forall₂_cons_left_iff.mp each
      exact ⟨y, here, tail, ih.mpr later, rfl⟩

theorem mapM_ok_length {ε α β : Type} {f : α → Except ε β} {xs : List α} {ys : List β}
    (mapped : xs.mapM f = .ok ys) : ys.length = xs.length :=
  (mapM_ok_iff.mp mapped).length_eq.symm

theorem mapM_ok_nil {ε α β : Type} {f : α → Except ε β} {xs : List α} {ys : List β}
    (mapped : xs.mapM f = .ok ys) : ys = [] ↔ xs = [] := by
  rw [← List.length_eq_zero_iff, mapM_ok_length mapped, List.length_eq_zero_iff]

/-- A key that is not allowed is not there where none is unknown. -/
theorem has_of_unknown {d : Table} {allowed : List String} (known : unknownFields d allowed = [])
    {key : String} (other : key ∉ allowed) : d.has key = false := by
  rw [← Bool.not_eq_true, Table.has_iff_mem]
  intro member
  have kept := List.filter_eq_nil_iff.mp known key member
  exact kept (by simpa using other)

end AgentRunner.Validators
