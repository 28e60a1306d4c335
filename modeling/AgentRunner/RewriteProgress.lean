import AgentRunner.RewriteOnce

/-! No rewrite of the registry undoes another: each one that changes a text spends one of the
lines that the rewrites look for, so that a pass that gives its text back has adopted nothing,
and a run adopts no more rewrites than there are. -/
namespace AgentRunner.RewriteProgress
open PyValue Toml TextLines MigrationEdits Migrations RewriteOnce

/-! ## What is left to rewrite -/

/-- How many rewrites see in a text what they look for. -/
def stock (text : Text) : Nat := targets.countP (·.sees text)

/-- The text stays, or less is left to rewrite. -/
def Onward (t u : Text) : Prop := u = t ∨ stock u < stock t

theorem Onward.trans {t u v : Text} (first : Onward t u) (second : Onward u v) : Onward t v := by
  obtain rfl | first := first
  · exact second
  · obtain rfl | second := second
    · exact .inr first
    · exact .inr (second.trans first)

theorem countP_lt {α : Type} {p q : α → Bool} {l : List α} {a : α} (member : a ∈ l)
    (fewer : ∀ x ∈ l, p x = true → q x = true) (before : q a = true) (after : p a = false) :
    l.countP p < l.countP q := by
  obtain ⟨front, back, rfl⟩ := List.append_of_mem member
  have left := List.countP_mono_left fun x held => fewer x (List.mem_append_left _ held)
  have right := List.countP_mono_left fun x held =>
    fewer x (List.mem_append_right front (List.mem_cons_of_mem a held))
  rw [List.countP_append, List.countP_append, List.countP_cons, List.countP_cons, before, after]
  simp only [Bool.false_eq_true, if_false, if_true]
  omega

theorem spends_onward {own : Target} {apply : Text → Text} (member : own ∈ targets)
    (spends : Spends own apply) (text : Text) : Onward text (apply text) := by
  obtain same | ⟨before, after⟩ := spends.own text
  · exact .inl same
  · exact .inr (countP_lt member (spends.others text) before after)

/-! ## The registry and a pass over it -/

/-- The migration's rewrite, if it has one, leaves a text or moves it on. -/
def MovesOn (m : Migration) : Prop :=
  ∀ apply, m.apply = some apply → ∀ text, Onward text (apply text)

theorem movesOn_auto {detect : Table → Bool} {apply : Text → Text} {describe : String}
    (onward : ∀ text, Onward text (apply text)) : MovesOn (auto detect apply describe) := by
  rintro _ same
  cases same
  exact onward

theorem movesOn_none {m : Migration} (manual : m.apply = none) : MovesOn m := fun _ some_ =>
  absurd (manual.symm.trans some_) nofun

theorem relocation_movesOn {entry : String × String × String}
    (member : entry ∈ hostHealthRelocations) : MovesOn (relocation entry) :=
  movesOn_auto (spends_onward (relocationTarget_mem member) (relocateKey_spends member))

theorem renameKey_onward {old new : String} {table : TableSpec}
    (member : ⟨old, table, none⟩ ∈ targets) (name : new ∈ newNames) (text : Text) :
    Onward text (renameKey old new table text) :=
  spends_onward member (renameKey_spends member name) text

theorem dropKey_onward {key : String} {table : TableSpec} (member : ⟨key, table, none⟩ ∈ targets)
    (text : Text) : Onward text (dropKey key table text) :=
  spends_onward member (dropKey_spends member) text

theorem wrapBareStringList_onward {key : String} {table : TableSpec} {skipSpace : Bool}
    (member : ⟨key, table, some skipSpace⟩ ∈ targets) (text : Text) :
    Onward text (wrapBareStringList key table skipSpace text) :=
  spends_onward member (wrapBareStringList_spends member) text

theorem keyMigrations_moveOn : ∀ m ∈ keyMigrations, MovesOn m := by
  simp only [keyMigrations, List.forall_mem_cons]
  refine ⟨movesOn_auto (renameKey_onward ?_ ?_), movesOn_auto (renameKey_onward ?_ ?_),
    movesOn_none rfl, movesOn_auto (renameKey_onward ?_ ?_),
    movesOn_auto (renameKey_onward ?_ ?_), movesOn_auto (renameKey_onward ?_ ?_),
    movesOn_auto (dropKey_onward ?_), movesOn_auto (dropKey_onward ?_),
    movesOn_auto (dropKey_onward ?_), nofun⟩
  all_goals simp [targets, newNames]

theorem agentBareString_moveOn {key : String}
    (member : ⟨key, .literal "agent", some false⟩ ∈ targets) (example_ : String) :
    ∀ m ∈ agentBareString key example_, MovesOn m := by
  simp only [agentBareString, List.forall_mem_cons]
  exact ⟨movesOn_auto (wrapBareStringList_onward member), movesOn_none rfl, nofun⟩

theorem wrapped_movesOn {name key : String}
    (member : ⟨key, .literal name, some false⟩ ∈ targets) : MovesOn (wrapped name key) :=
  movesOn_auto (wrapBareStringList_onward member)

theorem bareStringMigrations_moveOn : ∀ m ∈ bareStringMigrations, MovesOn m := by
  simp only [bareStringMigrations, List.forall_mem_append, List.forall_mem_cons]
  refine ⟨⟨agentBareString_moveOn ?_ _, agentBareString_moveOn ?_ _⟩, wrapped_movesOn ?_,
    wrapped_movesOn ?_, wrapped_movesOn ?_, wrapped_movesOn ?_, nofun⟩
  all_goals simp [targets]

theorem phaseBareStringMigrations_moveOn : ∀ m ∈ phaseBareStringMigrations, MovesOn m := by
  simp only [phaseBareStringMigrations, List.forall_mem_cons]
  refine ⟨movesOn_auto (wrapBareStringList_onward ?_), movesOn_none rfl,
    movesOn_auto (wrapBareStringList_onward ?_),
    movesOn_auto (wrapBareStringList_onward ?_), nofun⟩
  all_goals simp [targets]

/-- Every rewrite of the registry leaves a text or moves it on. -/
theorem migrations_moveOn (env : Validators.Env) : ∀ m ∈ migrations env, MovesOn m := by
  have manuals : ∀ m ∈ pluginRemovals ++ disableRenames env ++ emptyListMigrations ++
      strictMigrations env ++ placeholderMigrations, m.apply = none := by
    simp only [pluginRemovals, disableRenames, emptyListMigrations, strictMigrations,
      placeholderMigrations, List.forall_mem_append, List.forall_mem_cons]
    exact ⟨⟨⟨⟨⟨rfl, rfl, rfl, nofun⟩, rfl, rfl, nofun⟩, rfl, rfl, rfl, nofun⟩, rfl, rfl, rfl, rfl,
      rfl, rfl, rfl, rfl, rfl, rfl, rfl, rfl, nofun⟩, rfl, rfl, nofun⟩
  simp only [List.forall_mem_append] at manuals
  obtain ⟨⟨⟨⟨plugins, renames⟩, empties⟩, stricts⟩, placeholders⟩ := manuals
  simp only [migrations, List.forall_mem_append, List.forall_mem_map]
  refine ⟨⟨⟨⟨⟨⟨⟨⟨⟨⟨keyMigrations_moveOn, ?_⟩, ?_⟩, bareStringMigrations_moveOn⟩, ?_⟩, ?_⟩,
    phaseBareStringMigrations_moveOn⟩, ?_⟩, ?_⟩, ?_⟩, ?_⟩
  · exact List.forall_mem_singleton.mpr (movesOn_none rfl)
  · exact fun m member => movesOn_none (plugins m member)
  · exact fun m member => movesOn_none (renames m member)
  · exact fun m member => movesOn_none (empties m member)
  · exact fun m member => movesOn_none (stricts m member)
  · exact fun m member => movesOn_none (placeholders m member)
  · exact fun entry member => relocation_movesOn member
  · exact List.forall_mem_singleton.mpr (movesOn_none rfl)

variable {loads : Loads} {p : Table}

/-- One turn stays or moves on, and adds to the manual reports; where it does neither, the
migration did not fire. -/
theorem runOne_onward {m : Migration} (moves : MovesOn m) {r r' : MigrationResult}
    (ran : runOne loads p r m = .ok r') :
    Onward r.newText r'.newText ∧ (∃ more, r'.manual = r.manual ++ more) ∧
      (r'.newText = r.newText → r'.manual = r.manual →
        m.advisory = true ∨ m.detect p = .ok false) := by
  have told : ∀ desc : String, r.manual ++ [desc] ≠ r.manual := fun desc same =>
    List.cons_ne_nil _ _ (List.append_right_eq_self.mp same)
  obtain ⟨fired, detected, rest⟩ := Validators.bind_eq_ok.mp ran
  cases fired with
  | false =>
    cases rest
    exact ⟨.inl rfl, ⟨[], (List.append_nil _).symm⟩, fun _ _ => .inr detected⟩
  | true =>
    simp only [Bool.not_true, Bool.false_eq_true, if_false] at rest
    split at rest
    · rename_i advisory
      cases rest
      exact ⟨.inl rfl, ⟨[], (List.append_nil _).symm⟩, fun _ _ => .inl advisory⟩
    · split at rest
      · cases rest
        exact ⟨.inl rfl, ⟨_, rfl⟩, fun _ same => absurd same (told _)⟩
      · rename_i apply rewrites
        split at rest
        · cases rest
          exact ⟨.inl rfl, ⟨_, rfl⟩, fun _ same => absurd same (told _)⟩
        · rename_i changed
          obtain ⟨document, -, rest⟩ := Validators.bind_eq_ok.mp rest
          cases document with
          | none =>
            cases rest
            exact ⟨.inl rfl, ⟨_, rfl⟩, fun _ same => absurd same (told _)⟩
          | some document =>
            cases rest
            exact ⟨moves apply rewrites _, ⟨[], (List.append_nil _).symm⟩,
              fun same => absurd same changed⟩

/-- **A pass that gives its text back and reports nothing found nothing.** -/
theorem pass_onward {ms : List Migration} (moves : ∀ m ∈ ms, MovesOn m) {r r' : MigrationResult}
    (ran : ms.foldlM (runOne loads p) r = .ok r') :
    Onward r.newText r'.newText ∧ (∃ more, r'.manual = r.manual ++ more) ∧
      (r'.newText = r.newText → r'.manual = r.manual →
        ∀ m ∈ ms, m.advisory = true ∨ m.detect p = .ok false) := by
  induction ms generalizing r with
  | nil =>
    cases ran
    exact ⟨.inl rfl, ⟨[], (List.append_nil _).symm⟩, fun _ _ => nofun⟩
  | cons m rest ih =>
    rw [List.foldlM_cons] at ran
    obtain ⟨middle, one, later⟩ := Validators.bind_eq_ok.mp ran
    obtain ⟨on, ⟨more, grown⟩, quiet⟩ := runOne_onward (moves m (.head _)) one
    obtain ⟨on', ⟨more', grown'⟩, quiet'⟩ := ih (fun m member => moves m (.tail _ member)) later
    refine ⟨on.trans on', ⟨more ++ more', by rw [grown', grown, List.append_assoc]⟩, ?_⟩
    intro text manual
    have kept : middle.newText = r.newText := by
      obtain same | moved := on
      · exact same
      · obtain same' | moved' := on'
        · rw [← same', text] at moved
          exact absurd moved (Nat.lt_irrefl _)
        · have round := moved'.trans moved
          rw [text] at round
          exact absurd round (Nat.lt_irrefl _)
    have none_ : more = [] ∧ more' = [] := by
      rw [grown', grown, List.append_assoc, List.append_right_eq_self] at manual
      exact List.append_eq_nil_iff.mp manual
    have held : middle.manual = r.manual := by rw [grown, none_.1, List.append_nil]
    rw [List.forall_mem_cons]
    refine ⟨quiet kept held, quiet' (text.trans kept.symm) ?_⟩
    rw [grown', none_.2, List.append_nil]

/-! ## What a run adopts -/

/-- The rewrites that were adopted, and those that may still be. -/
def account (r : MigrationResult) : Nat := r.applied.length + stock r.newText

theorem runOne_account {m : Migration} (moves : MovesOn m) {r r' : MigrationResult}
    (ran : runOne loads p r m = .ok r') : account r' ≤ account r := by
  obtain ⟨fired, -, rest⟩ := Validators.bind_eq_ok.mp ran
  cases fired with
  | false =>
    cases rest
    exact Nat.le_refl _
  | true =>
    simp only [Bool.not_true, Bool.false_eq_true, if_false] at rest
    split at rest
    · cases rest
      exact Nat.le_refl _
    · split at rest
      · cases rest
        exact Nat.le_refl _
      · rename_i apply rewrites
        split at rest
        · cases rest
          exact Nat.le_refl _
        · rename_i changed
          obtain ⟨document, -, rest⟩ := Validators.bind_eq_ok.mp rest
          cases document with
          | none =>
            cases rest
            exact Nat.le_refl _
          | some document =>
            cases rest
            have spent := (moves apply rewrites r.newText).resolve_left changed
            simp only [account, List.length_append, List.length_singleton]
            omega

theorem pass_account {ms : List Migration} (moves : ∀ m ∈ ms, MovesOn m) {r r' : MigrationResult}
    (ran : ms.foldlM (runOne loads p) r = .ok r') : account r' ≤ account r := by
  induction ms generalizing r with
  | nil =>
    cases ran
    exact Nat.le_refl _
  | cons m rest ih =>
    rw [List.foldlM_cons] at ran
    obtain ⟨middle, one, later⟩ := Validators.bind_eq_ok.mp ran
    exact (ih (fun m member => moves m (.tail _ member)) later).trans
      (runOne_account (moves m (.head _)) one)

theorem liftRun_ok {α : Type} {call : Except PyErr α} {a : α} (passed : liftRun call = .ok a) :
    call = .ok a := by
  cases call with
  | ok b => exact congrArg _ (Except.ok.inj passed)
  | error e => cases passed

theorem stamp_once (text : Text) (parsed : Table) :
    (stampSchemaVersion text parsed).2.toList.length ≤ 1 := by
  cases (stampSchemaVersion text parsed).2 <;> simp

theorem runPasses_account {env : Validators.Env} {left : Nat} {text : Text} {parsed : Table}
    {applied : List String} {result : MigrationResult}
    (ran : runPasses env loads left text parsed applied = .ok result) :
    result.applied.length ≤ applied.length + stock text + 1 := by
  induction left generalizing text parsed applied with
  | zero => cases ran
  | succ left ih =>
    obtain ⟨pass, passed, rest⟩ := Validators.bind_eq_ok.mp ran
    have spent := pass_account (migrations_moveOn env) (liftRun_ok passed)
    simp only [account, List.length_nil] at spent
    split at rest
    · have once := stamp_once text parsed
      generalize stampSchemaVersion text parsed = stamp at once rest
      cases rest
      simp only [List.length_append]
      omega
    · obtain ⟨document, -, rest⟩ := Validators.bind_eq_ok.mp rest
      cases document with
      | none => cases rest
      | some next =>
        have later := ih rest
        rw [List.length_append] at later
        omega

/-- **A run adopts each rewrite at most once**, and stamps the version at most once more. -/
theorem run_adopts_few {env : Validators.Env} {text : Text} {parsed : Table}
    {result : MigrationResult} (ran : runMigrations env loads text parsed = .ok result) :
    result.applied.length ≤ targets.length + 1 := by
  have spent := runPasses_account ran
  have most : stock text ≤ targets.length := List.countP_le_length
  rw [List.length_nil] at spent
  omega

end AgentRunner.RewriteProgress
