import AgentRunner.AssignedLines
import AgentRunner.Migrations
import AgentRunner.RelocatedLines

/-! What the rewrites of the registry look for in a text, and that no rewrite makes a line
that another looks for: each is adopted at most once in a run. -/
namespace AgentRunner.RewriteOnce
open PyValue Toml TextLines MigrationEdits Migrations
open MigrationLines AssignedLines RelocatedLines

/-! ## Targets -/

/-- What a rewrite looks for: an assignment of a key under a table, or one of a bare string,
which may have to be without spaces. -/
structure Target where
  key : String
  table : TableSpec
  bare : Option Bool

/-- The line is one of the kind. -/
def Target.hit (target : Target) (line : Text) : Bool :=
  match target.bare with
  | none => (assignment target.key line).isSome
  | some skipSpace =>
    match bareString target.key line with
    | some b => !(skipSpace && b.val.any isSpace)
    | none => false

/-- The text has such a line. -/
def Target.sees (target : Target) (text : Text) : Bool :=
  seen target.table target.hit none (splitLines text)

def relocationTarget (entry : String × String × String) : Target :=
  ⟨entry.1, .literal "monitor.host_health", none⟩

/-- What the rewrites of the registry look for. -/
def targets : List Target :=
  [⟨"rate_limit_action", .literal "runtime", none⟩, ⟨"orphan_action", .literal "vcs", none⟩,
    ⟨"round_timeout_s", .literal "runtime", none⟩, ⟨"round_timeout_s", .phases "", none⟩,
    ⟨"round_timeout_s", .phases ".runtime", none⟩,
    ⟨"disable_pre_round_hooks", .literal "runtime", none⟩,
    ⟨"disable_pre_round_hooks", .phases "", none⟩,
    ⟨"disable_pre_round_hooks", .phases ".runtime", none⟩,
    ⟨"command", .literal "agent", some false⟩,
    ⟨"prompt_arg_template", .literal "agent", some false⟩,
    ⟨"list", .literal "phases", some false⟩, ⟨"files", .literal "prompt", some false⟩,
    ⟨"auto_stop_on", .literal "monitor", some false⟩,
    ⟨"disable", .literal "plugins", some false⟩, ⟨"command", .phases ".agent", some true⟩,
    ⟨"prompt_arg_template", .phases ".agent", some true⟩,
    ⟨"files", .phases ".prompt", some false⟩] ++ hostHealthRelocations.map relocationTarget

/-- The names that the rewrites give. -/
def newNames : List String :=
  ["transient_error_action", "dirty_action", "round_budget_s"] ++
    hostHealthRelocations.map fun entry => entry.2.1

theorem targets_word : ∀ target ∈ targets, Word target.key := by decide +kernel

theorem newNames_word : ∀ name ∈ newNames, Word name := by decide +kernel

/-- No rewrite looks for a name that one gives. -/
theorem newNames_other : ∀ name ∈ newNames, ∀ target ∈ targets, target.key ≠ name := by decide

/-- No rewrite looks for a key both as a bare string and as any assignment. -/
theorem targets_bare : ∀ target ∈ targets, ∀ other ∈ targets, target.key = other.key →
    target.bare.isSome = other.bare.isSome := by decide

theorem Target.hit_assigns {target : Target} {line : Text} (hit : target.hit line = true) :
    ∃ a, assignment target.key line = some a := by
  unfold Target.hit at hit
  split at hit
  · exact Option.isSome_iff_exists.mp hit
  · split at hit
    · rename_i b found
      unfold bareString at found
      split at found
      · cases found
      · rename_i a assigned
        exact ⟨a, assigned⟩
    · cases hit

/-- The value that a bare string target tells by. -/
theorem Target.hit_bare {target : Target} {skipSpace : Bool} (bare : target.bare = some skipSpace)
    (line : Text) : target.hit line =
      (((assignment target.key line).bind fun a => quoted a.rest).any fun val =>
        !(skipSpace && val.any isSpace)) := by
  rw [← bareString_val, Target.hit, bare]
  cases bareString target.key line <;> rfl

/-- No target tells a line by its end. -/
theorem Target.blind {target : Target} (word : Word target.key) : EndBlind target.hit where
  ended body ending ends := by
    cases kind : target.bare with
    | none =>
      have same := congrArg Option.isSome (assignment_ended word body ends)
      simpa [Target.hit, kind] using same
    | some skipSpace =>
      rw [Target.hit_bare kind, Target.hit_bare kind]
      have same := assignment_ended word body ends
      cases own : assignment target.key body with
      | none =>
        rw [own, Option.map_none, Option.map_eq_none_iff] at same
        rw [same]
      | some a =>
        rw [own, Option.map_some, Option.map_eq_some_iff] at same
        obtain ⟨b, found, rest⟩ := same
        rw [found, Option.bind_some, Option.bind_some, rest, quoted_ended _ ends]
  blank := by
    rw [← Bool.not_eq_true]
    intro hit
    obtain ⟨a, found⟩ := Target.hit_assigns hit
    obtain ⟨indent, blanks, -, -, made⟩ := (assignment_assigns found).split
    simp at made

/-! ## Rewritten lines -/

/-- The line is no header, and no rewrite looks for it. -/
def Dead (line : Text) : Prop :=
  tableHeader line = none ∧ ∀ target ∈ targets, target.hit line = false

theorem dead_blank : Dead [] :=
  ⟨rfl, fun target member => (Target.blind (targets_word target member)).blank⟩

/-- A line that assigns a new name is dead, whatever follows it. -/
theorem dead_newName {name : String} (new : name ∈ newNames) {line back : Text}
    (assigns : Assigns name line back) : Dead line := by
  refine ⟨assigns.header (newNames_word name new), fun target member => ?_⟩
  rw [← Bool.not_eq_true]
  intro hit
  obtain ⟨a, found⟩ := Target.hit_assigns hit
  have keys := (Assigns.unique (targets_word target member) (newNames_word name new)
    (assignment_assigns found) assigns).1
  exact newNames_other name new target member (String.toList_inj.mp keys)

/-- So is one that assigns a list to the key of a bare string. -/
theorem dead_list {own : Target} (member : own ∈ targets) (bare : own.bare.isSome = true)
    {line gap back : Text} (blank : Blanks gap)
    (assigns : Assigns own.key line (gap ++ '[' :: back)) : Dead line := by
  refine ⟨assigns.header (targets_word own member), fun target held => ?_⟩
  rw [← Bool.not_eq_true]
  intro hit
  obtain ⟨a, found⟩ := Target.hit_assigns hit
  obtain ⟨keys, rest⟩ := Assigns.unique (targets_word target held) (targets_word own member)
    (assignment_assigns found) assigns
  have kind := targets_bare target held own member (String.toList_inj.mp keys)
  obtain ⟨skipSpace, some_⟩ := Option.isSome_iff_exists.mp (kind.trans bare)
  rw [Target.hit_bare some_, found, Option.bind_some, rest, quoted_list blank] at hit
  cases hit

/-- The rewrite changes a text only where it sees its target, and then sees it no more; what
other rewrites look for it does not make. -/
structure Spends (own : Target) (apply : Text → Text) : Prop where
  own : ∀ text, apply text = text ∨ own.sees text = true ∧ own.sees (apply text) = false
  others : ∀ text, ∀ target ∈ targets, target.sees (apply text) = true → target.sees text = true

/-- Where the hits are accepted there are some, and they are all. -/
theorem acceptedHits_some {table : TableSpec} {hits taken : List Nat}
    (accepted : acceptedHits table hits = some taken) : taken = hits ∧ hits ≠ [] := by
  cases hits with
  | nil => cases accepted
  | cons first rest =>
    refine ⟨?_, List.cons_ne_nil _ _⟩
    cases table with
    | phases suffix => cases rest <;> exact (Option.some.inj accepted).symm
    | literal name => cases rest <;> cases accepted; rfl

/-- A rewrite of the lines it sees that leaves them dead. -/
theorem spends_rewrite {own : Target} (member : own ∈ targets) (rewrite : Text → Text)
    (tame : ∀ line, own.hit line = true → Tame rewrite line)
    (dead : ∀ line, own.hit line = true → Dead (rewrite line)) {apply : Text → Text}
    (applied : ∀ text, apply text =
      match acceptedHits own.table (tableHits own.table own.hit 0 none (splitLines text)) with
      | none => text
      | some hits => (rewriteAt rewrite hits (splitLines text)).flatten) : Spends own apply := by
  have blind : ∀ target ∈ targets, EndBlind target.hit := fun target held =>
    Target.blind (targets_word target held)
  have pieces := fun text => @rewriteHits_pieces own.table own.hit (blind own member) rewrite tame
    (splitLines text) (splitLines_pieces text).1 none
  have rewritten : ∀ text, apply text = text ∨ own.sees text = true ∧
      apply text = (rewriteHits own.table own.hit rewrite none (splitLines text)).flatten := by
    intro text
    rw [applied]
    cases accepted : acceptedHits own.table
        (tableHits own.table own.hit 0 none (splitLines text)) with
    | none => exact .inl rfl
    | some hits =>
      obtain ⟨rfl, some_⟩ := acceptedHits_some accepted
      refine .inr ⟨?_, congrArg _ (rewriteAt_hits rewrite _)⟩
      rw [Target.sees, ← Bool.not_eq_false, seen_iff_hits 0]
      exact some_
  constructor
  · intro text
    obtain same | ⟨sees, made⟩ := rewritten text
    · exact .inl same
    · refine .inr ⟨sees, ?_⟩
      rw [made, Target.sees, seen_flatten (blind own member) (pieces text)]
      exact seen_rewritten (fun line hit _ => ⟨(dead line hit).1, (dead line hit).2 own member⟩) _ _
  · intro text target held shown
    obtain same | ⟨-, made⟩ := rewritten text
    · exact same ▸ shown
    · rw [made, Target.sees, seen_flatten (blind target held) (pieces text)] at shown
      refine seen_rewriteHits (fun line hit _ => ⟨(dead line hit).1, fun other => ?_⟩) shown
      rw [(dead line hit).2 target held] at other
      cases other

/-! ## The four rewrites -/

/-- A line up to its equals sign under a new name is a line as it was. -/
theorem tame_assignment {old new : String} (word : Word new) {line : Text} {rewrite : Text → Text}
    (renamed : ∀ a, assignment old line = some a →
      ∃ indent, Blanks indent ∧ rewrite line = indent ++ new.toList ++ a.sp ++ a.rest)
    (hit : (assignment old line).isSome = true) : Tame rewrite line := by
  obtain ⟨a, found⟩ := Option.isSome_iff_exists.mp hit
  obtain ⟨made, -, blanks, blank, sp⟩ := assignment_spec found
  obtain ⟨indent, blankI, same⟩ := renamed a found
  have front : Plain (indent ++ new.toList ++ (blanks ++ ['='])) :=
    (blankI.plain.append word.plain).append (blank.plain.append (List.forall_mem_singleton.mpr rfl))
  rw [sp, ← List.append_assoc, List.append_assoc, List.singleton_append] at made
  rw [sp] at same
  refine ⟨fun line => ?_, fun closed => .inl ?_⟩
  · rw [same]
    exact (made ▸ line : Line _).replace (c := '=') (by decide) fun _ => front
  · rw [same]
    exact (made ▸ closed : Closed _).replace (c := '=') (by decide) fun _ => front

theorem renameKey_spends {old new : String} {table : TableSpec}
    (member : ⟨old, table, none⟩ ∈ targets) (name : new ∈ newNames) :
    Spends ⟨old, table, none⟩ (renameKey old new table) := by
  refine spends_rewrite member _ ?_ ?_ fun text => rfl
  · intro line hit
    refine tame_assignment (newNames_word new name) (fun a found => ?_) hit
    simp only [found]
    exact ⟨a.indent, (assignment_spec found).2.1, rfl⟩
  · intro line hit
    obtain ⟨a, found⟩ := Option.isSome_iff_exists.mp hit
    obtain ⟨-, indent, blanks, blank, sp⟩ := assignment_spec found
    have assigns : Assigns new (a.indent ++ new.toList ++ a.sp ++ a.rest) a.rest :=
      ⟨a.indent, blanks, indent, blank, by rw [sp]; simp⟩
    simp only [found]
    exact dead_newName name assigns

theorem dropKey_spends {key : String} {table : TableSpec}
    (member : ⟨key, table, none⟩ ∈ targets) :
    Spends ⟨key, table, none⟩ (dropKey key table) :=
  spends_rewrite member (fun _ => [])
    (fun _ _ => ⟨fun _ => ⟨[], [], rfl, nofun, .missing⟩, fun _ => .inr rfl⟩)
    (fun _ _ => dead_blank) fun _ => rfl

theorem wrapBareStringList_spends {key : String} {table : TableSpec} {skipSpace : Bool}
    (member : ⟨key, table, some skipSpace⟩ ∈ targets) :
    Spends ⟨key, table, some skipSpace⟩ (wrapBareStringList key table skipSpace) := by
  have matched : ∀ line, Target.hit ⟨key, table, some skipSpace⟩ line = true →
      ∃ b, bareString key line = some b := by
    intro line hit
    rw [Target.hit] at hit
    cases found : bareString key line with
    | none =>
      simp only [found] at hit
      cases hit
    | some b => exact ⟨b, rfl⟩
  refine spends_rewrite member (fun line =>
    match bareString key line with
    | some b => b.indent ++ key.toList ++ b.sp ++ ['[', b.quote] ++ b.val ++ [b.quote, ']'] ++
        b.rest
    | none => line) ?_ ?_ fun text => rfl
  · intro line hit
    obtain ⟨b, found⟩ := matched line hit
    obtain ⟨made, quote, -⟩ := bareString_spec found
    have inside := (quote_inside quote).1
    have front : Plain (b.indent ++ key.toList ++ b.sp ++ [b.quote] ++ b.val) →
        Plain (b.indent ++ key.toList ++ b.sp ++ ['[', b.quote] ++ b.val ++ [b.quote, ']']) := by
      intro plain
      have ends : Plain [b.quote, ']'] := by
        rw [Plain, List.forall_mem_cons, List.forall_mem_singleton]
        exact ⟨inside, by decide⟩
      have opens : Plain ['[', b.quote] := by
        rw [Plain, List.forall_mem_cons, List.forall_mem_singleton]
        exact ⟨by decide, inside⟩
      exact ((plain.left.left.append opens).append plain.right).append ends
    refine ⟨fun line => ?_, fun closed => .inl ?_⟩
    · simp only [found]
      exact (made ▸ line : Line _).replace inside front
    · simp only [found]
      exact (made ▸ closed : Closed _).replace inside front
  · intro line hit
    obtain ⟨b, found⟩ := matched line hit
    obtain ⟨gap, blank, assigns⟩ := bareString_wrapped found
    simp only [found]
    exact dead_list member rfl blank assigns

/-! ## Relocations -/

/-- The sub-table that a relocated key goes to. -/
def toTableOf (entry : String × String × String) : String := s!"monitor.host_health.{entry.2.2}"

/-- No rewrite looks under a table that a key is relocated to. -/
theorem toTable_uncovered : ∀ entry ∈ hostHealthRelocations, ∀ target ∈ targets,
    target.table.covers (toTableOf entry) = false := by decide +kernel

theorem toTable_header : ∀ entry ∈ hostHealthRelocations,
    tableHeader ("[" ++ toTableOf entry ++ "]\n").toList = some (toTableOf entry) := by
  decide +kernel

theorem toTable_closed {entry : String × String × String}
    (member : entry ∈ hostHealthRelocations) :
    Closed ("[" ++ toTableOf entry ++ "]\n").toList := by
  have inside : ∀ entry ∈ hostHealthRelocations,
      (("[" ++ toTableOf entry ++ "]").toList.all fun c => !isBoundary c) = true := by
    decide +kernel
  have plain : Plain ("[" ++ toTableOf entry ++ "]").toList := fun c held =>
    Bool.not_eq_true' _ ▸ List.all_eq_true.mp (inside entry member) c held
  refine ⟨_, ['\n'], ?_, plain, .single '\n' rfl, List.cons_ne_nil _ _⟩
  rw [String.toList_append, String.toList_append, String.toList_append, String.toList_append,
    List.append_assoc _ "]".toList]
  rfl

theorem relocationTarget_mem {entry : String × String × String}
    (member : entry ∈ hostHealthRelocations) : relocationTarget entry ∈ targets :=
  List.mem_append_right _ (List.mem_map_of_mem member)

theorem newName_mem {entry : String × String × String}
    (member : entry ∈ hostHealthRelocations) : entry.2.1 ∈ newNames :=
  List.mem_append_right _ (List.mem_map_of_mem (f := fun e => e.2.1) member)

/-- What a relocation does to a text it changes: the line goes from the lines it was in, and
nothing else is seen of the lines than what was without it. -/
theorem relocateKey_sees {entry : String × String × String}
    (member : entry ∈ hostHealthRelocations) (text : Text) :
    relocateKey entry.1 entry.2.1 "monitor.host_health" (toTableOf entry) text = text ∨
      ∃ hit, tableHits (.literal "monitor.host_health")
          (fun line => (assignment entry.1 line).isSome) 0 none (splitLines text) = [hit] ∧
        ∀ target ∈ targets,
          target.sees (relocateKey entry.1 entry.2.1 "monitor.host_health" (toTableOf entry) text) =
            true → seen target.table target.hit none ((splitLines text).eraseIdx hit) = true := by
  obtain ⟨pieces, filled⟩ := splitLines_pieces text
  unfold relocateKey
  simp only
  split
  · rename_i hit one
    refine .inr ⟨hit, one, fun target held shown => ?_⟩
    obtain ⟨k, line, place, here, assigns, -⟩ :=
      tableHits_line (one ▸ List.mem_singleton_self hit)
    obtain rfl : hit = k := by omega
    obtain ⟨a, found⟩ := Option.isSome_iff_exists.mp assigns
    have whole := rest_ends found (pieces.member line (List.mem_of_getElem? here))
    rw [List.getD_eq_getElem?_getD, here, Option.getD_some, found] at shown
    simp only [List.append_assoc _ (a.rest.takeWhile _), whole] at shown
    have word := newNames_word _ (newName_mem member)
    have moves : Assigns entry.2.1 (entry.2.1.toList ++ a.sp ++ a.rest) a.rest := by
      obtain ⟨-, -, blanks, blank, sp⟩ := assignment_spec found
      exact ⟨[], blanks, nofun, blank, by rw [sp]; simp⟩
    have tame : Tame (fun _ => entry.2.1.toList ++ a.sp ++ a.rest) line :=
      tame_assignment word (fun b same => by
        cases found.symm.trans same
        exact ⟨[], nofun, by rw [List.nil_append]⟩) assigns
    have lineMoved := tame.line (pieces.member line (List.mem_of_getElem? here))
    have unseen : Unseen target.hit (entry.2.1.toList ++ a.sp ++ a.rest) := fun more =>
      have dead := dead_newName (newName_mem member) (moves.more more)
      ⟨dead.1, dead.2 target held⟩
    have blind := Target.blind (targets_word target held)
    have kept := pieces_eraseIdx pieces hit
    generalize entry.2.1.toList ++ a.sp ++ a.rest = moved at *
    split at shown
    · rename_i i place
      have start : (none : Option String) ≠ some (toTableOf entry) := fun same => by cases same
      obtain ⟨before, after, split, length, under⟩ := destination_spec (.inl ⟨rfl, start⟩) place
      rw [split] at shown kept ⊢
      rw [length, Nat.zero_add, insertIdx_append] at shown
      refine seen_moved blind (toTable_uncovered entry member target held) unseen lineMoved kept
        (fun l inside => filled l ?_) under shown
      have later : l ∈ (splitLines text).eraseIdx hit := split ▸ List.mem_append_right _ inside
      exact (List.eraseIdx_subset later)
    · exact seen_appended blind unseen lineMoved kept (toTable_closed member)
        (toTable_header entry member) shown
  · exact .inl rfl

theorem relocateKey_spends {entry : String × String × String}
    (member : entry ∈ hostHealthRelocations) :
    Spends (relocationTarget entry)
      (relocateKey entry.1 entry.2.1 "monitor.host_health" (toTableOf entry)) := by
  have own := relocationTarget_mem member
  constructor
  · intro text
    obtain same | ⟨hit, one, fewer⟩ := relocateKey_sees member text
    · exact .inl same
    · refine .inr ⟨?_, ?_⟩
      · rw [Target.sees, ← Bool.not_eq_false, seen_iff_hits 0]
        exact fun none_ => List.cons_ne_nil _ _ (one.symm.trans none_)
      · rw [← Bool.not_eq_true]
        intro shown
        have gone := @seen_eraseIdx_hit _ _ (splitLines text) 0 hit none (by rwa [Nat.zero_add])
        exact absurd (fewer _ own shown) (by rw [Bool.not_eq_true]; exact gone)
  · intro text target held shown
    obtain same | ⟨hit, one, fewer⟩ := relocateKey_sees member text
    · rwa [same] at shown
    · obtain ⟨k, line, place, here, -, header⟩ :=
        tableHits_line (one ▸ List.mem_singleton_self hit)
      obtain rfl : hit = k := by omega
      exact seen_eraseIdx here header (fewer target held shown)

end AgentRunner.RewriteOnce
