import Mathlib.Data.List.Induction

/-! Processes that each follow a machine of their own and share what one lock guards. A
trace is one interleaving of what they do. The lock has one holder at a time, and a process
that is no more holds none. What one process keeps of the shared past while it holds the
lock, and owes it when it lets go, is kept by them all, however they are interleaved. -/
namespace AgentRunner.Interleaving

/-- A machine some of whose actions take the lock and some of which drop it. Which readings
there can be is for the shared past to say. -/
structure Protocol (A S : Type) where
  moves : S → A → S → Prop
  start : S
  holds : S → Bool
  takes : A → Bool
  drops : A → Bool
  admits : List A → A → Prop

variable {P A S : Type} {p q : P} {trace before after : List (P × A)} {x : P × A} {a : A}
  {s t u : S} {actions more : List A} (protocol : Protocol A S)

/-! ## One process -/

/-- Where a process may stand behind its actions. -/
inductive Reaches : List A → S → Prop where
  | start : Reaches [] protocol.start
  | step {acts : List A} {u : S} {b : A} {v : S} (there : Reaches acts u)
      (moved : protocol.moves u b v) : Reaches (acts ++ [b]) v

variable {protocol}

theorem reaches_nil : Reaches protocol [] s ↔ s = protocol.start := by
  constructor
  · intro reached
    generalize same : ([] : List A) = actions at reached
    cases reached with
    | start => rfl
    | step there moved => exact absurd same.symm (by simp)
  · rintro rfl
    exact .start

theorem reaches_concat :
    Reaches protocol (actions ++ [a]) t ↔
      ∃ s, Reaches protocol actions s ∧ protocol.moves s a t := by
  constructor
  · intro reached
    generalize same : actions ++ [a] = all at reached
    cases reached with
    | start => exact absurd same (by simp)
    | step there moved =>
      obtain ⟨rfl, last⟩ := List.append_inj' same rfl
      obtain rfl : a = _ := List.head_eq_of_cons_eq last
      exact ⟨_, there, moved⟩
  · rintro ⟨s, there, moved⟩
    exact .step there moved

theorem reaches_early (reached : Reaches protocol (actions ++ more) t) :
    ∃ s, Reaches protocol actions s := by
  induction more using List.reverseRecOn generalizing t with
  | nil => exact ⟨t, by rwa [List.append_nil] at reached⟩
  | append_singleton more a ih =>
    rw [← List.append_assoc] at reached
    obtain ⟨s, there, -⟩ := reaches_concat.mp reached
    exact ih there

/-! ## A trace -/

/-- All that was done, whoever did it. -/
def past (trace : List (P × A)) : List A := trace.map Prod.snd

theorem past_append : past (before ++ after) = past before ++ past after := List.map_append

variable [DecidableEq P]

/-- What `p` did. -/
def own (p : P) (trace : List (P × A)) : List A :=
  trace.filterMap fun x => if x.1 = p then some x.2 else none

theorem own_append : own p (before ++ after) = own p before ++ own p after :=
  List.filterMap_append

@[simp] theorem own_self : own p [(p, a)] = [a] := by simp [own]

theorem own_other (other : p ≠ q) : own q [(p, a)] = [] := by simp [own, other]

@[simp] theorem own_map : own p (actions.map (Prod.mk p)) = actions := by
  induction actions with
  | nil => rfl
  | cons a actions ih =>
    rw [List.map_cons, ← List.singleton_append, own_append, own_self, ih]
    rfl

theorem own_map_other (other : p ≠ q) : own q (actions.map (Prod.mk p)) = [] := by
  induction actions with
  | nil => rfl
  | cons a actions ih =>
    rw [List.map_cons, ← List.singleton_append, own_append, own_other other, ih]
    rfl

variable (protocol)

/-- The holder of the lock behind one more action. -/
def pass (holder : Option P) (x : P × A) : Option P :=
  if protocol.takes x.2 then some x.1
  else if protocol.drops x.2 ∧ holder = some x.1 then none
  else holder

def holder (trace : List (P × A)) : Option P := trace.foldl (pass protocol) none

/-- `p` may stand in `s`. -/
abbrev Stands (p : P) (trace : List (P × A)) (s : S) : Prop := Reaches protocol (own p trace) s

/-- An interleaving that can be: the lock is taken only while it is free, readings find what
is there, and each process follows its machine. -/
structure Lawful (trace : List (P × A)) : Prop where
  free : ∀ before x after, trace = before ++ x :: after → protocol.takes x.2 = true →
    holder protocol before = none
  found : ∀ before x after, trace = before ++ x :: after → protocol.admits (past before) x.2
  followed : ∀ p, ∃ s, Stands protocol p trace s

/-- What the processes share is as `idle` says whenever the lock is free, and as `busy` says,
with the stage of its holder, while it is held. -/
structure Discipline (idle : List A → Prop) (busy : S → List A → Prop) : Prop where
  unheld : protocol.holds protocol.start = false
  fresh : idle []
  taken : ∀ s a t, protocol.moves s a t → protocol.takes a = true →
    protocol.holds s = false ∧ protocol.holds t = true
  dropped : ∀ s a t, protocol.moves s a t → protocol.drops a = true → protocol.holds t = false
  stays : ∀ s a t, protocol.moves s a t → protocol.takes a = false → protocol.drops a = false →
    protocol.holds t = protocol.holds s
  enters : ∀ s a t steps, protocol.moves s a t → protocol.takes a = true → idle steps →
    busy t (steps ++ [a])
  works : ∀ s a t steps, protocol.moves s a t → protocol.holds s = true →
    protocol.holds t = true → protocol.admits steps a → busy s steps → busy t (steps ++ [a])
  leaves : ∀ s a t steps, protocol.moves s a t → protocol.holds s = true →
    protocol.holds t = false → busy s steps → idle (steps ++ [a])
  bystands : ∀ s a t steps, protocol.moves s a t → protocol.holds s = false →
    protocol.takes a = false →
    (idle steps → idle (steps ++ [a])) ∧ ∀ u, busy u steps → busy u (steps ++ [a])

/-- What is kept: a process holds the lock in its own view exactly if it does, and what is
shared is as the discipline has it. -/
structure Kept (idle : List A → Prop) (busy : S → List A → Prop) (trace : List (P × A)) : Prop where
  knows : ∀ p s, Stands protocol p trace s →
    (protocol.holds s = true ↔ holder protocol trace = some p)
  idle : holder protocol trace = none → idle (past trace)
  busy : ∀ p s, Stands protocol p trace s → protocol.holds s = true → busy s (past trace)

variable {protocol} {idle : List A → Prop} {busy : S → List A → Prop}

theorem holder_concat :
    holder protocol (trace ++ [x]) = pass protocol (holder protocol trace) x := by
  rw [holder, List.foldl_append]
  rfl

theorem stands_concat : Stands protocol p (trace ++ [(p, a)]) t ↔
    ∃ s, Stands protocol p trace s ∧ protocol.moves s a t := by
  rw [Stands, own_append, own_self, reaches_concat]

theorem stands_concat_other (other : p ≠ q) :
    Stands protocol q (trace ++ [(p, a)]) s ↔ Stands protocol q trace s := by
  rw [Stands, own_append, own_other other, List.append_nil]

/-- What came first was an interleaving that can be. -/
theorem Lawful.early (lawful : Lawful protocol (before ++ after)) : Lawful protocol before where
  free := fun first x rest split takes =>
    lawful.free first x (rest ++ after) (by rw [split, List.append_assoc, List.cons_append]) takes
  found := fun first x rest split =>
    lawful.found first x (rest ++ after) (by rw [split, List.append_assoc, List.cons_append])
  followed := fun p => by
    obtain ⟨s, whole⟩ := lawful.followed p
    rw [Stands, own_append] at whole
    exact reaches_early whole

/-- An action of a lawful interleaving is one of the machine it belongs to. -/
theorem Lawful.moves (lawful : Lawful protocol (before ++ (p, a) :: after)) :
    ∃ s t, Stands protocol p before s ∧ protocol.moves s a t := by
  have upto : Lawful protocol (before ++ [(p, a)]) := by
    have whole : Lawful protocol (before ++ [(p, a)] ++ after) := by
      rwa [List.append_assoc, List.singleton_append]
    exact whole.early
  obtain ⟨t, reached⟩ := upto.followed p
  obtain ⟨s, there, moved⟩ := stands_concat.mp reached
  exact ⟨s, t, there, moved⟩

/-! ## What every interleaving keeps -/

section Step
variable (discipline : Discipline protocol idle busy) (kept : Kept protocol idle busy trace)
include discipline kept

/-- The lock is taken from no one. -/
theorem kept_take (free : holder protocol trace = none) (takes : protocol.takes a = true) :
    Kept protocol idle busy (trace ++ [(p, a)]) := by
  have held : holder protocol (trace ++ [(p, a)]) = some p := by
    rw [holder_concat, pass, if_pos takes]
  have others : ∀ q u, p ≠ q → Stands protocol q (trace ++ [(p, a)]) u →
      protocol.holds u = false := by
    intro q u other there
    rw [stands_concat_other other] at there
    rw [Bool.eq_false_iff]
    intro holds
    rw [(kept.knows q u there).mp holds] at free
    cases free
  refine ⟨fun q u there => ?_, fun none => ?_, fun q u there holds => ?_⟩
  · rw [held]
    by_cases same : p = q
    · subst same
      obtain ⟨s, -, moved⟩ := stands_concat.mp there
      exact iff_of_true (discipline.taken s a u moved takes).2 rfl
    · refine iff_of_false ?_ fun equal => same (Option.some.inj equal)
      rw [others q u same there]
      exact Bool.false_ne_true
  · rw [held] at none
    cases none
  · by_cases same : p = q
    · subst same
      obtain ⟨s, -, moved⟩ := stands_concat.mp there
      rw [past_append]
      exact discipline.enters s a u _ moved takes (kept.idle free)
    · rw [others q u same there] at holds
      cases holds

/-- The holder acts, and may let the lock go. -/
theorem kept_work (held : holder protocol trace = some p) (takes : protocol.takes a = false)
    (admitted : protocol.admits (past trace) a)
    (followed : ∃ s t, Stands protocol p trace s ∧ protocol.moves s a t) :
    Kept protocol idle busy (trace ++ [(p, a)]) := by
  have others : ∀ q u, p ≠ q → Stands protocol q (trace ++ [(p, a)]) u →
      protocol.holds u = false := by
    intro q u other there
    rw [stands_concat_other other] at there
    rw [Bool.eq_false_iff]
    intro both
    exact other (Option.some.inj (held.symm.trans ((kept.knows q u there).mp both)))
  have behind : holder protocol (trace ++ [(p, a)]) =
      if protocol.drops a = true then none else some p := by
    rw [holder_concat, pass, if_neg (by simp [takes]), held]
    simp
  have agrees : ∀ s t, Stands protocol p trace s → protocol.moves s a t →
      protocol.holds t = !protocol.drops a := by
    intro s t early moved
    cases drops : protocol.drops a with
    | true => exact discipline.dropped s a t moved drops
    | false =>
      rw [discipline.stays s a t moved takes drops, (kept.knows p s early).mpr held, Bool.not_false]
  refine ⟨fun q u there => ?_, fun none => ?_, fun q u there still => ?_⟩
  · rw [behind]
    by_cases same : p = q
    · subst same
      obtain ⟨s, early, moved⟩ := stands_concat.mp there
      rw [agrees s u early moved]
      cases protocol.drops a <;> simp
    · rw [others q u same there]
      refine iff_of_false Bool.false_ne_true fun equal => ?_
      split at equal
      · cases equal
      · exact same (Option.some.inj equal)
  · rw [behind] at none
    split at none
    · rename_i drops
      obtain ⟨s, t, early, moved⟩ := followed
      have holds := (kept.knows p s early).mpr held
      rw [past_append]
      exact discipline.leaves s a t _ moved holds (discipline.dropped s a t moved drops)
        (kept.busy p s early holds)
    · cases none
  · by_cases same : p = q
    · subst same
      obtain ⟨s, early, moved⟩ := stands_concat.mp there
      have holds := (kept.knows p s early).mpr held
      rw [past_append]
      exact discipline.works s a u _ moved holds still admitted (kept.busy p s early holds)
    · rw [others q u same there] at still
      cases still

/-- Who does not hold the lock changes nothing of what is shared. -/
theorem kept_bystand (apart : holder protocol trace ≠ some p) (takes : protocol.takes a = false)
    (followed : ∃ s t, Stands protocol p trace s ∧ protocol.moves s a t) :
    Kept protocol idle busy (trace ++ [(p, a)]) := by
  have behind : holder protocol (trace ++ [(p, a)]) = holder protocol trace := by
    rw [holder_concat, pass, if_neg (by simp [takes]), if_neg fun both => apart both.2]
  have unheld : ∀ s, Stands protocol p trace s → protocol.holds s = false := by
    intro s early
    rw [Bool.eq_false_iff]
    exact fun holds => apart ((kept.knows p s early).mp holds)
  have free : ∀ s t, Stands protocol p trace s → protocol.moves s a t →
      protocol.holds t = false := by
    intro s t early moved
    cases drops : protocol.drops a with
    | true => exact discipline.dropped s a t moved drops
    | false => rw [discipline.stays s a t moved takes drops, unheld s early]
  obtain ⟨s, t, early, moved⟩ := followed
  obtain ⟨idle_kept, busy_kept⟩ :=
    discipline.bystands s a t (past trace) moved (unheld s early) takes
  refine ⟨fun q u there => ?_, fun none => ?_, fun q u there still => ?_⟩
  · rw [behind]
    by_cases same : p = q
    · subst same
      obtain ⟨s, early, moved⟩ := stands_concat.mp there
      exact iff_of_false (by rw [free s u early moved]; exact Bool.false_ne_true) apart
    · exact kept.knows q u ((stands_concat_other same).mp there)
  · rw [past_append]
    exact idle_kept (kept.idle (behind ▸ none))
  · rw [past_append]
    refine busy_kept u ?_
    by_cases same : p = q
    · subst same
      obtain ⟨s, early, moved⟩ := stands_concat.mp there
      rw [free s u early moved] at still
      cases still
    · exact kept.busy q u ((stands_concat_other same).mp there) still

end Step

/-- **A discipline is kept by every interleaving.** -/
theorem Lawful.keeps (discipline : Discipline protocol idle busy)
    (lawful : Lawful protocol trace) : Kept protocol idle busy trace := by
  induction trace using List.reverseRecOn with
  | nil =>
    refine ⟨fun p s there => ?_, fun _ => discipline.fresh, fun p s there holds => ?_⟩
    · obtain rfl := reaches_nil.mp there
      rw [discipline.unheld]
      exact iff_of_false Bool.false_ne_true fun held => by cases held
    · obtain rfl := reaches_nil.mp there
      rw [discipline.unheld] at holds
      cases holds
  | append_singleton trace x ih =>
    obtain ⟨p, a⟩ := x
    have kept := ih lawful.early
    have followed : ∃ s t, Stands protocol p trace s ∧ protocol.moves s a t := lawful.moves
    cases takes : protocol.takes a with
    | true => exact kept_take discipline kept (lawful.free trace _ [] rfl takes) takes
    | false =>
      by_cases held : holder protocol trace = some p
      · exact kept_work discipline kept held takes (lawful.found trace _ [] rfl) followed
      · exact kept_bystand discipline kept held takes followed

/-- The lock goes from one process to another only by the first one's letting it go. -/
theorem Lawful.lets_go (lawful : Lawful protocol (before ++ after))
    (held : holder protocol before = some p)
    (passed : holder protocol (before ++ after) ≠ some p) :
    ∃ a, (p, a) ∈ after ∧ protocol.drops a = true := by
  induction after using List.reverseRecOn with
  | nil => exact absurd (by rwa [List.append_nil]) passed
  | append_singleton after x ih =>
    rw [← List.append_assoc] at lawful passed
    by_cases still : holder protocol (before ++ after) = some p
    · rw [holder_concat, pass, still] at passed
      split at passed
      · rename_i takes
        have free := lawful.free _ x [] rfl takes
        rw [still] at free
        cases free
      · split at passed
        · rename_i drops
          obtain ⟨drops, own_lock⟩ := drops
          obtain rfl := Option.some.inj own_lock
          exact ⟨x.2, List.mem_append_right _ List.mem_cons_self, drops⟩
        · exact absurd rfl passed
    · obtain ⟨a, member, drops⟩ := ih lawful.early still
      exact ⟨a, List.mem_append_left _ member, drops⟩

/-- At each action of the holder, what the discipline says of it holds. -/
theorem Lawful.at_work (discipline : Discipline protocol idle busy)
    (lawful : Lawful protocol (before ++ (p, a) :: after)) :
    ∃ s t, Stands protocol p before s ∧ protocol.moves s a t ∧
      (protocol.holds s = true → holder protocol before = some p ∧ busy s (past before)) := by
  obtain ⟨s, t, early, moved⟩ := lawful.moves
  have kept : Kept protocol idle busy before := Lawful.keeps discipline (Lawful.early lawful)
  exact ⟨s, t, early, moved, fun holds =>
    ⟨(kept.knows p s early).mp holds, kept.busy p s early holds⟩⟩

end AgentRunner.Interleaving
