import Mathlib.Data.List.Nodup
import Mathlib.Data.List.Perm.Subperm
import Mathlib.Data.List.Basic

/-! Insertion-ordered dictionaries over any key and value types: each key occurs
once, assignment keeps the position of a key already present and appends a new
one. Results are stated through `get?`, the lookup. -/
namespace AgentRunner

/-- A dictionary, as its entries in insertion order. -/
structure Dict (κ α : Type) where
  entries : List (κ × α)
  nodup : (entries.map Prod.fst).Nodup

namespace Dict
variable {κ α β : Type} [DecidableEq κ]

/-- The value of the first entry under `k`. -/
def find (entries : List (κ × α)) (k : κ) : Option α :=
  match entries with
  | [] => none
  | (j, v) :: rest => if j = k then some v else find rest k

/-- Overwrite the entry under `k`, or append one. -/
def put (entries : List (κ × α)) (k : κ) (v : α) : List (κ × α) :=
  match entries with
  | [] => [(k, v)]
  | (j, w) :: rest => if j = k then (j, v) :: rest else (j, w) :: put rest k v

theorem find_put (entries : List (κ × α)) (k j : κ) (v : α) :
    find (put entries k v) j = if j = k then some v else find entries j := by
  induction entries with
  | nil => simp [put, find, eq_comm]
  | cons entry rest ih =>
    obtain ⟨i, w⟩ := entry
    simp only [put]
    split
    · rename_i same
      subst same
      by_cases h : j = i <;> simp [find, h, eq_comm]
    · rename_i different
      by_cases h : j = k
      · subst h
        simp [find, different, ih]
      · simp [find, h, ih]

theorem put_absent {entries : List (κ × α)} {k : κ} (absent : k ∉ entries.map Prod.fst) (v : α) :
    put entries k v = entries ++ [(k, v)] := by
  induction entries with
  | nil => rfl
  | cons entry entries ih =>
    rw [List.map_cons, List.mem_cons, not_or] at absent
    rw [put, if_neg (Ne.symm absent.1), ih absent.2, List.cons_append]

theorem mem_keys_put (entries : List (κ × α)) (k j : κ) (v : α) :
    j ∈ (put entries k v).map Prod.fst ↔ j = k ∨ j ∈ entries.map Prod.fst := by
  induction entries with
  | nil => simp [put]
  | cons entry rest ih =>
    obtain ⟨i, w⟩ := entry
    simp only [put]
    split
    · rename_i same
      subst same
      simp
    · simp only [List.map_cons, List.mem_cons, ih]
      exact or_left_comm

theorem nodup_put {entries : List (κ × α)} (distinct : (entries.map Prod.fst).Nodup) (k : κ)
    (v : α) : ((put entries k v).map Prod.fst).Nodup := by
  induction entries with
  | nil => simp [put]
  | cons entry rest ih =>
    obtain ⟨i, w⟩ := entry
    obtain ⟨fresh, tail⟩ := List.nodup_cons.mp distinct
    simp only [put]
    split
    · exact distinct
    · rename_i different
      refine List.nodup_cons.mpr ⟨?_, ih tail⟩
      rw [mem_keys_put]
      rintro (same | member)
      · exact different same
      · exact fresh member

theorem find_absent {entries : List (κ × α)} {k : κ} (absent : k ∉ entries.map Prod.fst) :
    find entries k = none := by
  induction entries with
  | nil => rfl
  | cons entry rest ih =>
    simp only [List.map_cons, List.mem_cons, not_or] at absent
    simp only [find, if_neg (Ne.symm absent.1), ih absent.2]

theorem find_eq_some {entries : List (κ × α)} (distinct : (entries.map Prod.fst).Nodup) (k : κ)
    (v : α) : find entries k = some v ↔ (k, v) ∈ entries := by
  induction entries with
  | nil => simp [find]
  | cons entry rest ih =>
    obtain ⟨i, w⟩ := entry
    obtain ⟨fresh, tail⟩ := List.nodup_cons.mp distinct
    simp only [find]
    split
    · rename_i same
      subst same
      constructor
      · intro h
        cases h
        exact List.mem_cons_self
      · intro member
        rcases List.mem_cons.mp member with h | h
        · cases h; rfl
        · exact absurd (List.mem_map_of_mem h) fresh
    · rename_i different
      rw [ih tail, List.mem_cons]
      constructor
      · exact Or.inr
      · rintro (h | h)
        · cases h; exact absurd rfl different
        · exact h

/-- No entries. -/
def empty : Dict κ α := ⟨[], List.nodup_nil⟩

instance : Inhabited (Dict κ α) := ⟨empty⟩

/-- `d.get(k)`. -/
def get? (d : Dict κ α) (k : κ) : Option α := find d.entries k

/-- `d.get(k, default)`. -/
def getD (d : Dict κ α) (k : κ) (default : α) : α := (d.get? k).getD default

/-- `d[k] = v`. -/
def set (d : Dict κ α) (k : κ) (v : α) : Dict κ α := ⟨put d.entries k v, nodup_put d.nodup k v⟩

/-- `del d[k]`. -/
def erase (d : Dict κ α) (k : κ) : Dict κ α :=
  ⟨d.entries.filter (·.1 ≠ k), d.nodup.sublist (List.filter_sublist.map _)⟩

/-- The entries whose keys pass a test. -/
def filterKeys (d : Dict κ α) (keep : κ → Bool) : Dict κ α :=
  ⟨d.entries.filter fun entry => keep entry.1, d.nodup.sublist (List.filter_sublist.map _)⟩

/-- `d.popitem(last=False)` of an `OrderedDict`. -/
def popFirst (d : Dict κ α) : Dict κ α :=
  ⟨d.entries.tail, d.nodup.sublist ((List.tail_sublist _).map _)⟩

/-- `d.move_to_end(k)` of an `OrderedDict`, for a key it has. -/
def moveToEnd (d : Dict κ α) (k : κ) : Dict κ α :=
  match d.get? k with
  | some v => (d.erase k).set k v
  | none => d

/-- `len(d)`. -/
def size (d : Dict κ α) : ℕ := d.entries.length

/-- `k in d`. -/
def contains (d : Dict κ α) (k : κ) : Bool := (d.get? k).isSome

/-- `d.values()`, in insertion order. -/
def values (d : Dict κ α) : List α := d.entries.map Prod.snd

/-- `{k: f(v) for k, v in d.items()}`. -/
def mapValues (f : α → β) (d : Dict κ α) : Dict κ β :=
  ⟨d.entries.map fun entry => (entry.1, f entry.2), by simpa [Function.comp_def] using d.nodup⟩

@[simp] theorem get?_empty (k : κ) : (empty : Dict κ α).get? k = none := rfl

@[simp] theorem get?_set (d : Dict κ α) (k j : κ) (v : α) :
    (d.set k v).get? j = if j = k then some v else d.get? j := find_put d.entries k j v

theorem find_filter_ne (entries : List (κ × α)) (k j : κ) :
    find (entries.filter (·.1 ≠ k)) j = if j = k then none else find entries j := by
  induction entries with
  | nil => simp [find]
  | cons entry rest ih =>
    obtain ⟨i, w⟩ := entry
    by_cases removed : i = k
    · subst removed
      rw [List.filter_cons_of_neg (by simp), ih, find]
      by_cases asked : j = i
      · simp [asked]
      · simp [asked, Ne.symm asked]
    · rw [List.filter_cons_of_pos (by simpa using removed), find, find, ih]
      by_cases here : i = j
      · subst here
        simp [removed]
      · simp [here]

@[simp] theorem get?_erase (d : Dict κ α) (k j : κ) :
    (d.erase k).get? j = if j = k then none else d.get? j := find_filter_ne d.entries k j

theorem get?_eq_some (d : Dict κ α) (k : κ) (v : α) : d.get? k = some v ↔ (k, v) ∈ d.entries :=
  find_eq_some d.nodup k v

@[simp] theorem get?_mapValues (f : α → β) (d : Dict κ α) (k : κ) :
    (d.mapValues f).get? k = (d.get? k).map f := by
  simp only [get?, mapValues]
  induction d.entries with
  | nil => rfl
  | cons entry rest ih =>
    simp only [List.map_cons, find]
    split
    · rfl
    · exact ih

@[simp] theorem get?_filterKeys (d : Dict κ α) (keep : κ → Bool) (k : κ) :
    (d.filterKeys keep).get? k = if keep k then d.get? k else none := by
  simp only [get?, filterKeys]
  induction d.entries with
  | nil => simp [find]
  | cons entry rest ih =>
    obtain ⟨i, w⟩ := entry
    by_cases same : i = k
    · subst same
      by_cases kept : keep i = true
      · simp [find, kept]
      · simp [kept, ih]
    · by_cases kept : keep i = true
      · simp [find, kept, same, ih]
      · simp [find, kept, same, ih]

@[simp] theorem get?_moveToEnd (d : Dict κ α) (k j : κ) :
    (d.moveToEnd k).get? j = d.get? j := by
  unfold moveToEnd
  split
  · rename_i v held
    rw [get?_set, get?_erase]
    by_cases same : j = k
    · simp [same, held]
    · simp [same]
  · rfl

theorem put_length_le (entries : List (κ × α)) (k : κ) (v : α) :
    (put entries k v).length ≤ entries.length + 1 := by
  induction entries with
  | nil => simp [put]
  | cons entry rest ih =>
    rw [put]
    split
    · simp
    · simpa using ih

theorem size_set_le (d : Dict κ α) (k : κ) (v : α) : (d.set k v).size ≤ d.size + 1 :=
  put_length_le d.entries k v

theorem size_erase_le (d : Dict κ α) (k : κ) : (d.erase k).size ≤ d.size :=
  List.length_filter_le _ _

theorem size_moveToEnd_le (d : Dict κ α) (k : κ) : (d.moveToEnd k).size ≤ d.size := by
  unfold moveToEnd
  split
  · rename_i v held
    have member : (k, v) ∈ d.entries := (find_eq_some d.nodup k v).mp held
    have shorter : (d.erase k).size < d.size :=
      List.length_filter_lt_length_iff_exists.mpr ⟨(k, v), member, by simp⟩
    have grown := size_set_le (d.erase k) k v
    omega
  · exact Nat.le_refl _

theorem get?_ne_none (d : Dict κ α) (k : κ) : d.get? k ≠ none ↔ k ∈ d.entries.map Prod.fst := by
  rw [Option.ne_none_iff_exists']
  simp only [get?_eq_some, List.mem_map]
  constructor
  · rintro ⟨v, member⟩
    exact ⟨(k, v), member, rfl⟩
  · rintro ⟨⟨j, v⟩, member, rfl⟩
    exact ⟨v, member⟩

theorem mem_values (d : Dict κ α) (v : α) : v ∈ d.values ↔ ∃ k, d.get? k = some v := by
  simp only [values, List.mem_map, get?_eq_some]
  constructor
  · rintro ⟨⟨k, w⟩, member, rfl⟩
    exact ⟨k, member⟩
  · rintro ⟨k, member⟩
    exact ⟨(k, v), member, rfl⟩

/-- `d == e`: as many entries, and every one of `d` also in `e`. -/
def beq [DecidableEq α] (d e : Dict κ α) : Bool :=
  d.entries.length == e.entries.length &&
    d.entries.all fun entry => e.get? entry.1 == some entry.2

/-- Two dictionaries holding the same value, or none, under every key. -/
def Same (d e : Dict κ α) : Prop := ∀ k, d.get? k = e.get? k

/-- Equality of dictionaries does not see the order of their entries. -/
theorem beq_iff_same [DecidableEq α] (d e : Dict κ α) : d.beq e = true ↔ d.Same e := by
  have distinct (c : Dict κ α) : c.entries.Nodup := c.nodup.of_map _
  have included : (d.entries.all fun entry => e.get? entry.1 == some entry.2) = true ↔
      d.entries ⊆ e.entries := by
    simp only [List.all_eq_true, beq_iff_eq, get?_eq_some]
    exact Iff.rfl
  rw [beq, Bool.and_eq_true, beq_iff_eq, included]
  constructor
  · rintro ⟨sizes, subset⟩ k
    have perm := (List.subperm_of_subset (distinct d) subset).perm_of_length_le (by omega)
    cases held : d.get? k with
    | some v => exact ((get?_eq_some e k v).mpr (subset ((get?_eq_some d k v).mp held))).symm
    | none =>
      refine (Option.eq_none_iff_forall_ne_some.mpr fun v other => ?_).symm
      have := (get?_eq_some d k v).mpr (perm.mem_iff.mpr ((get?_eq_some e k v).mp other))
      rw [held] at this
      cases this
  · intro same
    have mem : ∀ entry, entry ∈ d.entries ↔ entry ∈ e.entries := by
      intro entry
      rw [← get?_eq_some d entry.1 entry.2, ← get?_eq_some e entry.1 entry.2, same entry.1]
    have perm := (List.perm_ext_iff_of_nodup (distinct d) (distinct e)).mpr mem
    exact ⟨perm.length_eq, perm.subset⟩

/-! ## Association lists -/

section
variable [BEq κ] [LawfulBEq κ]

theorem lookup_cons_if (k j : κ) (v : α) (rest : List (κ × α)) :
    ((k, v) :: rest).lookup j = if j = k then some v else rest.lookup j := by
  rw [List.lookup_cons]
  by_cases same : j = k
  · rw [if_pos same, beq_iff_eq.mpr same]
  · rw [if_neg same, beq_eq_false_iff_ne.mpr same]

theorem lookup_eq_find (entries : List (κ × α)) (k : κ) : entries.lookup k = find entries k := by
  induction entries with
  | nil => rfl
  | cons entry rest ih =>
    obtain ⟨j, v⟩ := entry
    rw [lookup_cons_if, find, ih]
    by_cases same : k = j
    · rw [if_pos same, if_pos same.symm]
    · rw [if_neg same, if_neg (Ne.symm same)]

theorem lookup_put (entries : List (κ × α)) (k j : κ) (v : α) :
    (put entries k v).lookup j = if j = k then some v else entries.lookup j := by
  rw [lookup_eq_find, lookup_eq_find, find_put]

/-- A key that occurs nowhere is not found. -/
theorem lookup_absent {entries : List (κ × α)} {k : κ} (absent : k ∉ entries.map Prod.fst) :
    entries.lookup k = none := by
  rw [lookup_eq_find, find_absent absent]

/-- Entries put one after the other: those with distinct keys are found as they are. -/
theorem lookup_foldl_put {fields : List (κ × α)} (distinct : (fields.map Prod.fst).Nodup)
    (entries : List (κ × α)) (k : κ) :
    (fields.foldl (fun entries field => put entries field.1 field.2) entries).lookup k =
      (fields.lookup k).or (entries.lookup k) := by
  induction fields generalizing entries with
  | nil => rfl
  | cons field fields ih =>
    obtain ⟨j, v⟩ := field
    rw [List.map_cons, List.nodup_cons] at distinct
    rw [List.foldl_cons, ih distinct.2, lookup_put, lookup_cons_if]
    by_cases same : k = j
    · subst same
      rw [if_pos rfl, if_pos rfl, lookup_absent distinct.1]
      rfl
    · rw [if_neg same, if_neg same]

end

end Dict
end AgentRunner
