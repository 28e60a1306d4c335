import AgentRunner.PyValue

/-! Documents as `tomllib` hands them over: tables are dicts, so that no key of a table
is there twice, whatever its depth. -/
namespace AgentRunner.Toml
open PyValue

/-- A parsed TOML value; `datetime` is any of the four date and time types. -/
inductive Value where
  | str (s : String)
  | int (n : Int)
  | float (x : PyFloat)
  | bool (b : Bool)
  | datetime (text : String)
  | arr (xs : List Value)
  | table (entries : List (String × Value))

/-- A table's items, in the order they were inserted. -/
abbrev Table := List (String × Value)

mutual
/-- No key of a table is there twice. -/
def Value.Unique : Value → Prop
  | .arr xs => UniqueItems xs
  | .table entries => (entries.map Prod.fst).Nodup ∧ UniqueFields entries
  | _ => True

def UniqueItems : List Value → Prop
  | [] => True
  | x :: xs => x.Unique ∧ UniqueItems xs

def UniqueFields : List (String × Value) → Prop
  | [] => True
  | (_, v) :: rest => v.Unique ∧ UniqueFields rest
end

/-- What `tomllib.loads` returns. -/
structure Document where
  entries : Table
  unique : (Value.table entries).Unique

namespace Value

def isTable : Value → Bool
  | .table _ => true
  | _ => false

/-- `value == []`. -/
def isEmptyList : Value → Bool
  | .arr [] => true
  | _ => false

/-- `type(value).__name__`. -/
def typeName : Value → String
  | .str _ => "str"
  | .int _ => "int"
  | .float _ => "float"
  | .bool _ => "bool"
  | .datetime _ => "datetime"
  | .arr _ => "list"
  | .table _ => "dict"

end Value

namespace Table

/-- `table.get(key)`. -/
def get? (t : Table) (key : String) : Option Value := t.lookup key

/-- `key in table`. -/
def has (t : Table) (key : String) : Bool := (t.get? key).isSome

/-- `set(table)`. -/
def keys (t : Table) : List String := t.map Prod.fst

/-- `{**base, **sub}`. -/
def merge (base sub : Table) : Table :=
  base.map (fun entry => (entry.1, (sub.get? entry.1).getD entry.2)) ++
    sub.filter fun entry => !base.has entry.1

@[simp] theorem get?_nil (key : String) : Table.get? [] key = none := rfl

theorem get?_cons (name : String) (v : Value) (rest : Table) (key : String) :
    Table.get? ((name, v) :: rest) key = if key = name then some v else rest.get? key := by
  rw [Table.get?, Table.get?, List.lookup_cons]
  by_cases same : key = name
  · rw [if_pos same, beq_iff_eq.mpr same]
  · rw [if_neg same, beq_eq_false_iff_ne.mpr same]

theorem mem_of_get? {t : Table} {key : String} {v : Value} (found : t.get? key = some v) :
    (key, v) ∈ t := by
  induction t with
  | nil => cases found
  | cons entry rest ih =>
    obtain ⟨name, w⟩ := entry
    rw [get?_cons] at found
    split at found
    · rename_i same
      cases found
      exact same ▸ .head _
    · exact .tail _ (ih found)

theorem has_iff_mem (t : Table) (key : String) : t.has key = true ↔ key ∈ t.keys := by
  induction t with
  | nil => simp [has, keys]
  | cons entry rest ih =>
    obtain ⟨name, v⟩ := entry
    rw [has, keys, List.map_cons, List.mem_cons, get?_cons]
    by_cases same : key = name
    · simp [same]
    · rw [if_neg same, or_iff_right same]
      exact ih

/-- Where no key is there twice, an item is what its key is looked up as. -/
theorem get?_of_mem {t : Table} (unique : (t.map Prod.fst).Nodup) {key : String} {v : Value}
    (member : (key, v) ∈ t) : t.get? key = some v := by
  induction t with
  | nil => cases member
  | cons entry rest ih =>
    obtain ⟨name, w⟩ := entry
    rw [List.map_cons, List.nodup_cons] at unique
    rw [get?_cons]
    obtain same | later := List.mem_cons.mp member
    · cases same
      rw [if_pos rfl]
    · have other : key ≠ name := fun same =>
        unique.1 (List.mem_map.mpr ⟨(key, v), later, same⟩)
      rw [if_neg other]
      exact ih unique.2 later

theorem get?_append (first second : Table) (key : String) :
    Table.get? (first ++ second) key = (first.get? key).or (second.get? key) := by
  induction first with
  | nil => rfl
  | cons entry rest ih =>
    obtain ⟨name, v⟩ := entry
    rw [List.cons_append, get?_cons, get?_cons, ih]
    split <;> rfl

private theorem get?_replaced (base sub : Table) (key : String) :
    Table.get? (base.map fun entry => (entry.1, (sub.get? entry.1).getD entry.2)) key =
      (base.get? key).map fun v => (sub.get? key).getD v := by
  induction base with
  | nil => rfl
  | cons entry rest ih =>
    obtain ⟨name, v⟩ := entry
    rw [List.map_cons, get?_cons, get?_cons, ih]
    split
    · rename_i same
      rw [same]
      rfl
    · rfl

private theorem get?_added (base sub : Table) (key : String) :
    Table.get? (sub.filter fun entry => !base.has entry.1) key =
      if base.has key then none else sub.get? key := by
  induction sub with
  | nil => split <;> rfl
  | cons entry rest ih =>
    obtain ⟨name, v⟩ := entry
    rw [List.filter_cons, get?_cons]
    by_cases same : key = name
    · subst same
      cases known : base.has key <;> simp [known, get?_cons, ih]
    · rw [if_neg same]
      split
      · rw [get?_cons, if_neg same, ih]
      · exact ih

/-- A merged table shows the overriding one first. -/
theorem get?_merge (base sub : Table) (key : String) :
    Table.get? (base.merge sub) key = (sub.get? key).or (base.get? key) := by
  rw [merge, get?_append, get?_replaced, get?_added, has]
  cases base.get? key <;> cases sub.get? key <;> rfl

end Table

end AgentRunner.Toml
