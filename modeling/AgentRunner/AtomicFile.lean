import AgentRunner.Runs
import Mathlib.Logic.Function.Basic
import Mathlib.Data.Option.Basic
import Mathlib.Data.List.Forall2
import Mathlib.Data.Nat.Basic

/-! A file replaced only as a whole: a writer fills a file of its own, brings it to the
disk and then renames it to the path. Any number of writers and readers take their
system calls in any order, any of them may be cut short, and the power may fail. The
path is then an atomic register: whoever reads it to the end has one whole value,
the one the path held when it was opened. -/
namespace AgentRunner.AtomicFile
open Runs Function

/-! ## Files -/

section
variable (V B : Type)

/-- Files by number, and the directory entry of the path. Only what was synchronized is
sure to outlast the power; the entry may come back as any of those it had since. -/
structure Disk where
  content : ℕ → List B
  durable : ℕ → Option (List B)
  fresh : ℕ
  entry : Option ℕ
  past : List (Option ℕ)

/-- Where a writer stands: the value it was given, its own file, and what it still has
to write. -/
inductive Writer where
  | idle
  | writing (v : V) (file : ℕ) (rest : List B)
  | synced (v : V) (file : ℕ)

/-- Where a reader stands: the file it opened and what it has read, or its result, which
is `none` where there was nothing to open. -/
inductive Reader where
  | idle
  | reading (file : ℕ) (got : List B)
  | finished (result : Option (List B))

structure System where
  disk : Disk B
  writers : ℕ → Writer V B
  readers : ℕ → Reader B

/-- One system call of a writer or a reader, the end of a writer at an exception or a
signal, or a power failure: which entry comes back, and what becomes of the files that
were not synchronized. -/
inductive Action where
  | create (p : ℕ) (v : V)
  | write (p : ℕ) (n : ℕ)
  | sync (p : ℕ)
  | replace (p : ℕ)
  | abandon (p : ℕ)
  | openPath (r : ℕ)
  | read (r : ℕ) (n : ℕ)
  | powerLoss (k : ℕ) (junk : ℕ → List B)

end

variable {V B : Type}

/-- The file a writer has open. -/
def Writer.file : Writer V B → Option ℕ
  | .idle => none
  | .writing _ j _ => some j
  | .synced _ j => some j

namespace Disk

def create (d : Disk B) : Disk B :=
  { d with content := update d.content d.fresh [], durable := update d.durable d.fresh none,
           fresh := d.fresh + 1 }

def append (d : Disk B) (j : ℕ) (bytes : List B) : Disk B :=
  { d with content := update d.content j (d.content j ++ bytes) }

def sync (d : Disk B) (j : ℕ) : Disk B :=
  { d with durable := update d.durable j (some (d.content j)) }

def rename (d : Disk B) (j : ℕ) : Disk B := { d with entry := some j, past := some j :: d.past }

def recover (d : Disk B) (entry : Option ℕ) (junk : ℕ → List B) : Disk B :=
  { d with content := fun j => (d.durable j).getD (junk j), entry := entry, past := [entry] }

end Disk

namespace System

def setWriter (s : System V B) (p : ℕ) (w : Writer V B) : System V B :=
  { s with writers := update s.writers p w }

@[simp] theorem setWriter_self (s : System V B) (p : ℕ) (w : Writer V B) :
    (s.setWriter p w).writers p = w := update_self ..

def setReader (s : System V B) (r : ℕ) (reader : Reader B) : System V B :=
  { s with readers := update s.readers r reader }

variable (render : V → List B)

def step (s : System V B) : Action V B → Option (System V B)
  | .create p v =>
    match s.writers p with
    | .idle => some ({ s with disk := s.disk.create }.setWriter p
        (.writing v s.disk.fresh (render v)))
    | _ => none
  | .write p n =>
    match s.writers p with
    | .writing v j rest => some ({ s with disk := s.disk.append j (rest.take n) }.setWriter p
        (.writing v j (rest.drop n)))
    | _ => none
  | .sync p =>
    match s.writers p with
    | .writing v j [] => some ({ s with disk := s.disk.sync j }.setWriter p (.synced v j))
    | _ => none
  | .replace p =>
    match s.writers p with
    | .synced _ j => some ({ s with disk := s.disk.rename j }.setWriter p .idle)
    | _ => none
  | .abandon p => some (s.setWriter p .idle)
  | .openPath r =>
    match s.disk.entry with
    | none => some (s.setReader r (.finished none))
    | some j => some (s.setReader r (.reading j []))
  | .read r n =>
    match s.readers r with
    | .reading j got =>
      match ((s.disk.content j).drop got.length).take (n + 1) with
      | [] => some (s.setReader r (.finished (some got)))
      | more => some (s.setReader r (.reading j (got ++ more)))
    | _ => none
  | .powerLoss k junk =>
    s.disk.past[k]?.map fun entry =>
      ⟨s.disk.recover entry junk, fun _ => .idle, fun _ => .idle⟩

/-- Before the first write. -/
def empty : System V B :=
  ⟨⟨fun _ => [], fun _ => none, 0, none, [none]⟩, fun _ => .idle, fun _ => .idle⟩

end System

/-! ## The register -/

/-- What the path stands for: its value, the values it had since the power last failed,
what each writer is about to put there, and what each reader saw when it opened it. -/
structure Register (V : Type) where
  current : Option V
  past : List (Option V)
  pending : ℕ → Option V
  seen : ℕ → Option (Option V)

namespace Register

def empty : Register V := ⟨none, [none], fun _ => none, fun _ => none⟩

/-- A write takes effect at once, a read looks once, and a power failure brings back one
of the values the register had. -/
def step (reg : Register V) : Action V B → Register V
  | .create p v => { reg with pending := update reg.pending p (some v) }
  | .replace p =>
    { reg with current := reg.pending p, past := reg.pending p :: reg.past,
               pending := update reg.pending p none }
  | .abandon p => { reg with pending := update reg.pending p none }
  | .openPath r => { reg with seen := update reg.seen r (some reg.current) }
  | .powerLoss k _ =>
    let value := (reg.past[k]?).getD none
    ⟨value, [value], fun _ => none, fun _ => none⟩
  | .write .. | .sync .. | .read .. => reg

def run (reg : Register V) (actions : List (Action V B)) : Register V := actions.foldl step reg

end Register

/-! ## The path is the register -/

section
variable (render : V → List B)

/-- A file that holds a whole value for good: it is on the disk and no writer has it open. -/
structure Sealed (s : System V B) (j : ℕ) (v : V) : Prop where
  content : s.disk.content j = render v
  durable : s.disk.durable j = some (render v)
  old : j < s.disk.fresh
  closed : ∀ p, (s.writers p).file ≠ some j

/-- What a writer has written of its value, and what it has brought to the disk. -/
def WriterHolds (s : System V B) (pending : Option V) : Writer V B → Prop
  | .idle => True
  | .writing v j rest =>
    pending = some v ∧ j < s.disk.fresh ∧ s.disk.content j ++ rest = render v
  | .synced v j =>
    pending = some v ∧ j < s.disk.fresh ∧ s.disk.content j = render v ∧
      s.disk.durable j = some (render v)

/-- What a reader has read of the value it saw. -/
def ReaderHolds (s : System V B) (seen : Option (Option V)) : Reader B → Prop
  | .idle => True
  | .reading j got => ∃ v, seen = some (some v) ∧ Sealed render s j v ∧ got <+: render v
  | .finished result => ∃ value, seen = some value ∧ result = value.map render

/-- The system stands for the register. -/
structure Refines (s : System V B) (reg : Register V) : Prop where
  entry : Option.Rel (Sealed render s) s.disk.entry reg.current
  past : List.Forall₂ (Option.Rel (Sealed render s)) s.disk.past reg.past
  apart : ∀ p q j, (s.writers p).file = some j → (s.writers q).file = some j → p = q
  writers : ∀ p, WriterHolds render s (reg.pending p) (s.writers p)
  readers : ∀ r, ReaderHolds render s (reg.seen r) (s.readers r)

variable {render} {s t : System V B} {reg : Register V} {action : Action V B}

theorem refines_empty : Refines render (System.empty : System V B) Register.empty where
  entry := .none
  past := .cons .none .nil
  apart := fun _ _ _ held => by cases held
  writers := fun _ => trivial
  readers := fun _ => trivial

/-- A writer's own file was made before. -/
theorem Refines.file_old (refines : Refines render s reg) {p j : ℕ}
    (held : (s.writers p).file = some j) : j < s.disk.fresh := by
  have holds := refines.writers p
  cases writer : s.writers p with
  | idle => rw [writer] at held; cases held
  | writing v i rest => rw [writer] at held holds; cases held; exact holds.2.1
  | synced v i => rw [writer] at held holds; cases held; exact holds.2.1

/-! ## What a step leaves as it was -/

/-- Every whole file stays whole. -/
def Keeps (render : V → List B) (s t : System V B) : Prop :=
  ∀ j v, Sealed render s j v → Sealed render t j v

theorem Keeps.rel (keeps : Keeps render s t) {entry : Option ℕ} {value : Option V}
    (rel : Option.Rel (Sealed render s) entry value) : Option.Rel (Sealed render t) entry value := by
  cases rel with
  | none => exact .none
  | some whole => exact .some (keeps _ _ whole)

theorem Keeps.past (keeps : Keeps render s t) {past : List (Option ℕ)} {values : List (Option V)}
    (rel : List.Forall₂ (Option.Rel (Sealed render s)) past values) :
    List.Forall₂ (Option.Rel (Sealed render t)) past values := rel.imp fun _ _ => keeps.rel

theorem Keeps.reader (keeps : Keeps render s t) {seen : Option (Option V)} {reader : Reader B}
    (holds : ReaderHolds render s seen reader) : ReaderHolds render t seen reader := by
  cases reader with
  | idle => trivial
  | reading j got =>
    obtain ⟨v, saw, whole, read⟩ := holds
    exact ⟨v, saw, keeps _ _ whole, read⟩
  | finished result => exact holds

/-- A step of writer `p` alone: of the files made before it changes at most `p`'s own, and
`p` goes on with that one or with a new one. -/
structure Touches (s t : System V B) (p : ℕ) : Prop where
  content : ∀ j, j < s.disk.fresh → (s.writers p).file ≠ some j →
    t.disk.content j = s.disk.content j
  durable : ∀ j, j < s.disk.fresh → (s.writers p).file ≠ some j →
    t.disk.durable j = s.disk.durable j
  fresh : s.disk.fresh ≤ t.disk.fresh
  others : ∀ q, q ≠ p → t.writers q = s.writers q
  own : ∀ j, (t.writers p).file = some j → (s.writers p).file = some j ∨ j = s.disk.fresh
  readers : t.readers = s.readers

theorem Touches.keeps {p : ℕ} (touches : Touches s t p) : Keeps render s t := by
  intro j v whole
  refine ⟨(touches.content j whole.old (whole.closed p)).trans whole.content,
    (touches.durable j whole.old (whole.closed p)).trans whole.durable,
    Nat.lt_of_lt_of_le whole.old touches.fresh, fun q held => ?_⟩
  by_cases same : q = p
  · subst same
    rcases touches.own j held with before | new
    · exact whole.closed q before
    · exact absurd whole.old (new ▸ lt_irrefl _)
  · rw [touches.others q same] at held
    exact whole.closed q held

theorem Touches.writer {p q : ℕ} (touches : Touches s t p) (refines : Refines render s reg)
    (other : q ≠ p) : WriterHolds render t (reg.pending q) (t.writers q) := by
  have holds := refines.writers q
  rw [touches.others q other]
  cases writer : s.writers q with
  | idle => trivial
  | writing v j rest =>
    rw [writer] at holds
    have free : (s.writers p).file ≠ some j := fun held =>
      other (refines.apart q p j (by rw [writer]; rfl) held)
    refine ⟨holds.1, Nat.lt_of_lt_of_le holds.2.1 touches.fresh, ?_⟩
    rw [touches.content j holds.2.1 free]
    exact holds.2.2
  | synced v j =>
    rw [writer] at holds
    have free : (s.writers p).file ≠ some j := fun held =>
      other (refines.apart q p j (by rw [writer]; rfl) held)
    refine ⟨holds.1, Nat.lt_of_lt_of_le holds.2.1 touches.fresh, ?_⟩
    rw [touches.content j holds.2.1 free, touches.durable j holds.2.1 free]
    exact holds.2.2

theorem Touches.apart {p : ℕ} (touches : Touches s t p) (refines : Refines render s reg) :
    ∀ q r j, (t.writers q).file = some j → (t.writers r).file = some j → q = r := by
  have own : ∀ q j, q ≠ p → (t.writers q).file = some j → (t.writers p).file ≠ some j := by
    intro q j other held mine
    rw [touches.others q other] at held
    rcases touches.own j mine with before | new
    · exact other (refines.apart q p j held before)
    · exact absurd (refines.file_old held) (new ▸ lt_irrefl _)
  intro q r j left right
  by_cases first : q = p
  · by_cases second : r = p
    · rw [first, second]
    · exact absurd (first ▸ left) (own r j second right)
  · by_cases second : r = p
    · exact absurd (second ▸ right) (own q j first left)
    · rw [touches.others q first] at left
      rw [touches.others r second] at right
      exact refines.apart q r j left right

/-- What is left to show of a writer's step: the entry, and the writer itself. -/
theorem Touches.refines {p : ℕ} (touches : Touches s t p) (refines : Refines render s reg)
    {reg' : Register V} (pending : ∀ q, q ≠ p → reg'.pending q = reg.pending q)
    (seen : reg'.seen = reg.seen)
    (entry : Option.Rel (Sealed render t) t.disk.entry reg'.current)
    (past : List.Forall₂ (Option.Rel (Sealed render t)) t.disk.past reg'.past)
    (own : WriterHolds render t (reg'.pending p) (t.writers p)) : Refines render t reg' where
  entry := entry
  past := past
  apart := touches.apart refines
  writers q := by
    by_cases same : q = p
    · exact same ▸ own
    · rw [pending q same]
      exact touches.writer refines same
  readers r := by
    rw [touches.readers, seen]
    exact touches.keeps.reader (refines.readers r)

/-! ## Steps -/

theorem refines_create {p : ℕ} {v : V} (refines : Refines render s reg) :
    Refines render ({ s with disk := s.disk.create }.setWriter p
      (.writing v s.disk.fresh (render v))) (reg.step (.create p v : Action V B)) := by
  have touches : Touches s ({ s with disk := s.disk.create }.setWriter p
      (.writing v s.disk.fresh (render v))) p := by
    refine ⟨fun j old _ => update_of_ne (Nat.ne_of_lt old) _ _,
      fun j old _ => update_of_ne (Nat.ne_of_lt old) _ _,
      Nat.le_succ _, fun q other => update_of_ne other _ _, fun j held => ?_, rfl⟩
    rw [System.setWriter_self] at held
    exact .inr (Option.some.inj held).symm
  refine touches.refines refines (fun q other => update_of_ne other _ _) rfl
    (touches.keeps.rel refines.entry) (touches.keeps.past refines.past) ?_
  simp only [Register.step, System.setWriter, update_self]
  refine ⟨rfl, Nat.lt_succ_self _, ?_⟩
  simp [Disk.create]

theorem refines_write {p n j : ℕ} {v : V} {rest : List B} (refines : Refines render s reg)
    (at_ : s.writers p = .writing v j rest) :
    Refines render ({ s with disk := s.disk.append j (rest.take n) }.setWriter p
      (.writing v j (rest.drop n))) reg := by
  have holds := refines.writers p
  rw [at_] at holds
  have touches : Touches s ({ s with disk := s.disk.append j (rest.take n) }.setWriter p
      (.writing v j (rest.drop n))) p := by
    refine ⟨fun i _ other => ?_, fun _ _ _ => rfl, le_rfl, fun q other => update_of_ne other _ _,
      fun i held => ?_, rfl⟩
    · rw [at_] at other
      exact update_of_ne (fun same => other (by rw [same]; rfl)) _ _
    · rw [System.setWriter_self] at held
      rw [at_]
      exact .inl held
  refine touches.refines refines (fun _ _ => rfl) rfl (touches.keeps.rel refines.entry)
    (touches.keeps.past refines.past) ?_
  simp only [System.setWriter, update_self]
  refine ⟨holds.1, holds.2.1, ?_⟩
  simp only [Disk.append, update_self, List.append_assoc, List.take_append_drop]
  exact holds.2.2

theorem refines_sync {p j : ℕ} {v : V} (refines : Refines render s reg)
    (at_ : s.writers p = .writing v j []) :
    Refines render ({ s with disk := s.disk.sync j }.setWriter p (.synced v j)) reg := by
  have holds := refines.writers p
  rw [at_] at holds
  have whole : s.disk.content j = render v := by
    rw [← List.append_nil (s.disk.content j)]
    exact holds.2.2
  have touches : Touches s ({ s with disk := s.disk.sync j }.setWriter p (.synced v j)) p := by
    refine ⟨fun _ _ _ => rfl, fun i _ other => ?_, le_rfl, fun q other => update_of_ne other _ _,
      fun i held => ?_, rfl⟩
    · rw [at_] at other
      exact update_of_ne (fun same => other (by rw [same]; rfl)) _ _
    · rw [System.setWriter_self] at held
      rw [at_]
      exact .inl held
  refine touches.refines refines (fun _ _ => rfl) rfl (touches.keeps.rel refines.entry)
    (touches.keeps.past refines.past) ?_
  simp only [System.setWriter, update_self]
  exact ⟨holds.1, holds.2.1, whole, by simp [Disk.sync, whole]⟩

/-- A writer that stops leaves the path alone. -/
theorem touches_stop (d : Disk B) (p : ℕ) (same : d.content = s.disk.content)
    (kept : d.durable = s.disk.durable) (made : d.fresh = s.disk.fresh) :
    Touches s ({ s with disk := d }.setWriter p .idle) p :=
  ⟨fun j _ _ => congrFun same j, fun j _ _ => congrFun kept j, Nat.le_of_eq made.symm,
    fun _ other => update_of_ne other _ _,
    fun _ held => (by rw [System.setWriter_self] at held; cases held), rfl⟩

theorem refines_replace {p j : ℕ} {v : V} (refines : Refines render s reg)
    (at_ : s.writers p = .synced v j) :
    Refines render ({ s with disk := s.disk.rename j }.setWriter p .idle)
      (reg.step (.replace p : Action V B)) := by
  have holds := refines.writers p
  rw [at_] at holds
  have touches := touches_stop (s := s) (s.disk.rename j) p rfl rfl rfl
  have whole : Sealed render ({ s with disk := s.disk.rename j }.setWriter p .idle) j v := by
    refine ⟨holds.2.2.1, holds.2.2.2, holds.2.1, fun q held => ?_⟩
    by_cases same : q = p
    · rw [same, System.setWriter_self] at held
      cases held
    · rw [touches.others q same] at held
      exact same (refines.apart q p j held (by rw [at_]; rfl))
  have renamed : Option.Rel (Sealed render ({ s with disk := s.disk.rename j }.setWriter p .idle))
      (some j) (reg.pending p) := by
    rw [holds.1]
    exact .some whole
  refine touches.refines refines (fun q other => update_of_ne other _ _) rfl renamed
    (.cons renamed (touches.keeps.past refines.past)) ?_
  rw [System.setWriter_self]
  trivial

theorem refines_abandon {p : ℕ} (refines : Refines render s reg) :
    Refines render (s.setWriter p .idle) (reg.step (.abandon p : Action V B)) := by
  have touches := touches_stop (s := s) s.disk p rfl rfl rfl
  refine touches.refines refines (fun q other => update_of_ne other _ _) rfl
    (touches.keeps.rel refines.entry) (touches.keeps.past refines.past) ?_
  rw [System.setWriter_self]
  trivial

/-- A reader's step changes nothing but the reader. -/
theorem refines_reader {r : ℕ} {reader : Reader B} (refines : Refines render s reg)
    {reg' : Register V} (current : reg'.current = reg.current) (past : reg'.past = reg.past)
    (pending : reg'.pending = reg.pending) (seen : ∀ q, q ≠ r → reg'.seen q = reg.seen q)
    (own : ReaderHolds render s (reg'.seen r) reader) :
    Refines render (s.setReader r reader) reg' := by
  have keeps : Keeps render s (s.setReader r reader) :=
    fun j v whole => ⟨whole.content, whole.durable, whole.old, whole.closed⟩
  refine ⟨?_, ?_, refines.apart, ?_, fun q => ?_⟩
  · rw [current]
    exact keeps.rel refines.entry
  · rw [past]
    exact keeps.past refines.past
  · rw [pending]
    intro p
    have holds := refines.writers p
    change WriterHolds render _ _ (s.writers p)
    cases writer : s.writers p <;> rw [writer] at holds <;> exact holds
  · by_cases same : q = r
    · subst same
      change ReaderHolds render _ _ (update s.readers q reader q)
      rw [update_self]
      exact keeps.reader own
    · change ReaderHolds render _ _ (update s.readers r reader q)
      rw [update_of_ne same, seen q same]
      exact keeps.reader (refines.readers q)

theorem refines_open {r : ℕ} (refines : Refines render s reg)
    (stepped : s.step render (.openPath r) = some t) :
    Refines render t (reg.step (.openPath r : Action V B)) := by
  have others (q : ℕ) (other : q ≠ r) :
      (reg.step (.openPath r : Action V B)).seen q = reg.seen q := update_of_ne other _ _
  have own : (reg.step (.openPath r : Action V B)).seen r = some reg.current := update_self ..
  have held := refines.entry
  simp only [System.step] at stepped
  split at stepped
  · rename_i absent
    cases stepped
    refine refines_reader refines rfl rfl rfl others ⟨_, own, ?_⟩
    rw [absent] at held
    cases value : reg.current with
    | none => rfl
    | some v => rw [value] at held; cases held
  · rename_i j there
    cases stepped
    rw [there] at held
    cases value : reg.current with
    | none => rw [value] at held; cases held
    | some v =>
      rw [value] at held own
      cases held with
      | some whole =>
        exact refines_reader refines rfl rfl rfl others ⟨v, own, whole, List.nil_prefix⟩

/-- A reader goes on in the file it opened, which nobody writes any more. -/
theorem refines_read {r n : ℕ} (refines : Refines render s reg)
    (stepped : s.step render (.read r n) = some t) : Refines render t reg := by
  have holds := refines.readers r
  simp only [System.step] at stepped
  split at stepped
  · rename_i j got reading
    rw [reading] at holds
    obtain ⟨v, seen, whole, rest, split_⟩ := holds
    rw [whole.content, ← split_, List.drop_left] at stepped
    split at stepped
    · rename_i ended
      cases stepped
      have complete : rest = [] := by
        cases rest with
        | nil => rfl
        | cons b rest => cases ended
      refine refines_reader refines rfl rfl rfl (fun _ _ => rfl) ⟨some v, seen, ?_⟩
      rw [Option.map_some, ← split_, complete, List.append_nil]
    · cases stepped
      refine refines_reader refines rfl rfl rfl (fun _ _ => rfl) ⟨v, seen, whole, ?_⟩
      exact ⟨rest.drop (n + 1), by rw [List.append_assoc, List.take_append_drop, split_]⟩
  · cases stepped

/-- What comes back after a power failure is one of the files the path had, whole. -/
theorem refines_powerLoss {k : ℕ} {junk : ℕ → List B} (refines : Refines render s reg)
    (stepped : s.step render (.powerLoss k junk) = some t) :
    Refines render t (reg.step (.powerLoss k junk)) := by
  simp only [System.step, Option.map_eq_some_iff] at stepped
  obtain ⟨entry, known, rfl⟩ := stepped
  obtain ⟨value, same, rel⟩ : ∃ value, reg.past[k]? = some value ∧
      Option.Rel (Sealed render s) entry value := by
    obtain ⟨short, there⟩ := List.getElem?_eq_some_iff.mp known
    have lengths := refines.past.length_eq
    have paired := refines.past.get short (lengths ▸ short)
    exact ⟨_, List.getElem?_eq_getElem (lengths ▸ short), there ▸ paired⟩
  have keeps : Keeps render s ⟨s.disk.recover entry junk, fun _ => .idle, fun _ => .idle⟩ := by
    intro j v whole
    refine ⟨?_, whole.durable, whole.old, fun p held => (nomatch held)⟩
    simp only [Disk.recover, whole.durable, Option.getD_some]
  simp only [Register.step, same, Option.getD_some]
  exact ⟨keeps.rel rel, .cons (keeps.rel rel) .nil, fun _ _ _ held => (nomatch held),
    fun _ => trivial, fun _ => trivial⟩

theorem refines_step (refines : Refines render s reg) (stepped : s.step render action = some t) :
    Refines render t (reg.step action) := by
  cases action with
  | create p v =>
    simp only [System.step] at stepped
    split at stepped
    · cases stepped
      exact refines_create refines
    · cases stepped
  | write p n =>
    simp only [System.step] at stepped
    split at stepped
    · rename_i v j rest at_
      cases stepped
      exact refines_write refines at_
    · cases stepped
  | sync p =>
    simp only [System.step] at stepped
    split at stepped
    · rename_i v j at_
      cases stepped
      exact refines_sync refines at_
    · cases stepped
  | replace p =>
    simp only [System.step] at stepped
    split at stepped
    · rename_i v j at_
      cases stepped
      exact refines_replace refines at_
    · cases stepped
  | abandon p =>
    cases stepped
    exact refines_abandon refines
  | openPath r => exact refines_open refines stepped
  | read r n => exact refines_read refines stepped
  | powerLoss k junk => exact refines_powerLoss refines stepped

/-- **The path is an atomic register.**  Every run of the system calls is a run of the
register, and stands for it in the end. -/
theorem run_refines {actions : List (Action V B)} (refines : Refines render s reg)
    (ran : run (System.step render) s actions = some t) :
    Refines render t (reg.run actions) := by
  induction actions generalizing s reg with
  | nil => exact Option.some.inj ran ▸ refines
  | cons action actions ih =>
    obtain ⟨middle, first, later⟩ := run_cons.mp ran
    exact ih (refines_step refines first) later

/-- A finished read has the value the register had when the path was opened. -/
theorem finished_read {actions : List (Action V B)} {r : ℕ} {result : Option (List B)}
    (ran : run (System.step render) System.empty actions = some t)
    (done : t.readers r = .finished result) :
    ∃ value, (Register.empty.run actions).seen r = some value ∧ result = value.map render := by
  have holds := (run_refines refines_empty ran).readers r
  rwa [done] at holds

end

end AgentRunner.AtomicFile
