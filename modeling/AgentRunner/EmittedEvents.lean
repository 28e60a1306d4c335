import AgentRunner.EventFile

/-! Events as `emit` writes them: stamped by the clock, filed under the stamp's month,
and with no field in the place of its stamp or kind. -/
namespace AgentRunner.EmittedEvents
open PyValue IsoTime EventFile

/-- An event as `emit` writes it: no field takes the place of its stamp or kind. -/
structure Emitted where
  reading : Datetime
  utc : reading.offset = some 0
  kind : String
  fields : List (String × Json)
  plain : ∀ field ∈ fields, field.1 ≠ "ts" ∧ field.1 ≠ "event"

def Emitted.event (e : Emitted) : Event := payload e.reading e.kind e.fields

/-- A UTC clock reading. -/
abbrev Reading := { reading : Datetime // reading.offset = some 0 }

theorem Reading.utc (at_ : Reading) : at_.1.offset = some 0 := at_.2

/-- The instant its stamp denotes, in microseconds. -/
def Emitted.stamped (e : Emitted) : Int := (truncMs e.reading).instant

/-- The file it is written to. -/
def Emitted.month (e : Emitted) : String := monthOf e.reading

private theorem lookup_put {entries : List (String × Json)} {k j : String} {v : Json}
    (other : k ≠ j) : (Dict.put entries k v).lookup j = entries.lookup j := by
  induction entries with
  | nil => simp [Dict.put, List.lookup_cons, beq_eq_false_iff_ne.mpr other.symm]
  | cons entry rest ih =>
    obtain ⟨i, w⟩ := entry
    rw [Dict.put]
    split
    · rename_i same
      subst same
      simp [List.lookup_cons, beq_eq_false_iff_ne.mpr other.symm]
    · simp only [List.lookup_cons, ih]

private theorem get_fold {fields : List (String × Json)} {j : String}
    (others : ∀ field ∈ fields, field.1 ≠ j) (event : Event) :
    get (fields.foldl (fun event field => Dict.put event field.1 field.2) event) j =
      get event j := by
  induction fields generalizing event with
  | nil => rfl
  | cons field rest ih =>
    rw [List.foldl_cons, ih fun f member => others f (.tail _ member)]
    simp only [PyValue.get, lookup_put (others field (.head _))]

theorem get_ts (e : Emitted) : get e.event "ts" = .str (isoMs e.reading) := by
  rw [Emitted.event, payload, get_fold fun field member => (e.plain field member).1]
  rfl

theorem get_kind (e : Emitted) : get e.event "event" = .str e.kind := by
  rw [Emitted.event, payload, get_fold fun field member => (e.plain field member).2]
  rfl

theorem isKind_event (e : Emitted) (kind : String) : isKind e.event kind = (e.kind == kind) := by
  rw [isKind, get_kind, Json.isText_str]

end AgentRunner.EmittedEvents
