import AgentRunner.Redaction
import AgentRunner.BlankLines

/-! Substitutions that mask: what a match is replaced by is a beginning of the match, kept, and
some text of one line. No such substitution makes a blank line, so `redact_secrets` makes none. -/
namespace AgentRunner.Masking
open Backtracking TextLines BlankLines Redaction

/-- The groups an expression captures. -/
def captures : Regex → List ℕ
  | .empty | .chr _ | .edge _ | .many _ _ _ | .lazily _ | .notAhead _ => []
  | .group n r => n :: captures r
  | .seq r s | .alt r s => captures r ++ captures s

/-- A substitution keeps a beginning of every match, and puts some text of one line in place of
the rest. -/
def Masks (r : Regex) (template : List Piece) : Prop :=
  ∀ at_, ∀ m ∈ r.matches at_, ∃ kept masked cover, at_.rest = kept ++ (masked ++ m.rest) ∧
    expand template m.groups = kept ++ cover ∧ cover ≠ [] ∧ OneLine cover

variable {r s a b c : Regex} {at_ m : Cursor} {template : List Piece}

/-! ## What groups hold -/

theorem lookup_groups {n : ℕ} (other : n ∉ captures r) (matched : m ∈ r.matches at_) :
    m.groups.lookup n = at_.groups.lookup n := by
  induction r generalizing at_ m with
  | empty => rw [List.mem_singleton.mp matched]
  | chr p =>
    unfold Regex.matches at matched
    split at matched
    · split at matched
      · rw [List.mem_singleton.mp matched]
      · cases matched
    · cases matched
  | edge ok =>
    unfold Regex.matches at matched
    split at matched
    · rw [List.mem_singleton.mp matched]
    · cases matched
  | notAhead r _ =>
    unfold Regex.matches at matched
    split at matched
    · rw [List.mem_singleton.mp matched]
    · cases matched
  | group k r ih =>
    obtain ⟨inner, within, rfl⟩ := List.mem_map.mp matched
    rw [captures, List.mem_cons, not_or] at other
    rw [List.lookup_cons, beq_false_of_ne other.1]
    exact ih other.2 within
  | seq r s ihr ihs =>
    obtain ⟨between, first, second⟩ := List.mem_flatMap.mp matched
    rw [captures, List.mem_append, not_or] at other
    exact (ihs other.2 second).trans (ihr other.1 first)
  | alt r s ihr ihs =>
    rw [captures, List.mem_append, not_or] at other
    obtain left | right := List.mem_append.mp matched
    · exact ihr other.1 left
    · exact ihs other.2 right
  | many p least most =>
    obtain ⟨way, _, rfl⟩ := List.mem_map.mp matched
    rfl
  | lazily p =>
    obtain ⟨way, _, rfl⟩ := List.mem_map.mp matched
    rfl

/-- A match splits what was ahead. -/
theorem ahead_of_match (matched : m ∈ r.matches at_) :
    ∃ passed, at_.rest = passed ++ m.rest := by
  obtain ⟨passed, split⟩ := matches_rest matched
  exact ⟨passed, split.symm⟩

/-- A group holds what its match has passed. -/
theorem group_holds {n : ℕ} (matched : m ∈ (Regex.group n r).matches at_) :
    ∃ held, at_.rest = held ++ m.rest ∧ m.groups.lookup n = some held := by
  obtain ⟨inner, within, rfl⟩ := List.mem_map.mp matched
  obtain ⟨passed, split⟩ := ahead_of_match within
  refine ⟨passed, split, ?_⟩
  rw [List.lookup_cons, beq_self_eq_true]
  change some (List.take _ _) = _
  rw [split, List.length_append, Nat.add_sub_cancel, List.take_left']
  rfl

/-! ## Which substitutions mask -/

theorem expand_captured (n : ℕ) (template : List Piece) (groups : List (ℕ × Text)) :
    expand (.captured n :: template) groups =
      (groups.lookup n).getD [] ++ expand template groups := List.flatMap_cons

theorem expand_plain (text : String) (template : List Piece) (groups : List (ℕ × Text)) :
    expand (.plain text :: template) groups = text.toList ++ expand template groups :=
  List.flatMap_cons

/-- A match replaced by fixed texts. -/
theorem masks_fixed (r : Regex) {texts : List String} (filled : texts.flatMap String.toList ≠ [])
    (oneLine : OneLine (texts.flatMap String.toList)) : Masks r (texts.map .plain) := by
  intro at_ m matched
  obtain ⟨passed, split⟩ := ahead_of_match matched
  refine ⟨[], passed, texts.flatMap String.toList, split, ?_, filled, oneLine⟩
  rw [expand, List.flatMap_map, List.nil_append]

/-- A test of a position changes nothing. -/
theorem masks_edge {ok : Option Char → Option Char → Bool} (masks : Masks s template) :
    Masks (.seq (.edge ok) s) template := by
  intro at_ m matched
  obtain ⟨between, first, second⟩ := List.mem_flatMap.mp matched
  unfold Regex.matches at first
  split at first
  · rw [List.mem_singleton.mp first] at second
    exact masks at_ m second
  · cases first

/-- A group that is put back is kept. -/
theorem masks_captured {n : ℕ} (once : n ∉ captures s) (masks : Masks s template) :
    Masks (.seq (.group n r) s) (.captured n :: template) := by
  intro at_ m matched
  obtain ⟨between, first, second⟩ := List.mem_flatMap.mp matched
  obtain ⟨held, split, holds⟩ := group_holds first
  obtain ⟨kept, masked, cover, ahead, expanded, filled, oneLine⟩ := masks between m second
  refine ⟨held ++ kept, masked, cover, ?_, ?_, filled, oneLine⟩
  · rw [split, ahead, List.append_assoc]
  · rw [expand_captured, lookup_groups once second, holds, expanded, Option.getD_some,
      List.append_assoc]

/-- A text that is put back is kept. -/
theorem masks_literal {text : String} (masks : Masks s template) :
    Masks (.seq (literal text) s) (.plain text :: template) := by
  intro at_ m matched
  obtain ⟨between, first, second⟩ := List.mem_flatMap.mp matched
  obtain ⟨kept, masked, cover, ahead, expanded, filled, oneLine⟩ := masks between m second
  refine ⟨text.toList ++ kept, masked, cover, ?_, ?_, filled, oneLine⟩
  · rw [matches_literal] at first
    split at first
    · rename_i here
      obtain ⟨rest, split⟩ := List.isPrefixOf_iff_prefix.mp here
      rw [List.mem_singleton.mp first, ← split] at ahead
      rw [← split, List.append_assoc, ← ahead, List.drop_left]
    · cases first
  · rw [expand_plain, expanded, List.append_assoc]

/-! ## What masking keeps -/

theorem subFrom_unbroken (masks : Masks r template) {fuel : ℕ} {before rest : Text} {c : Char}
    (unbroken : Unbroken (c :: rest)) : Unbroken (c :: subFrom r template fuel before rest) := by
  induction fuel generalizing before rest c with
  | zero => cases rest <;> exact unbroken
  | succ fuel ih =>
    cases rest with
    | nil => exact unbroken
    | cons d rest =>
      have skipped : Unbroken (c :: d :: subFrom r template fuel (d :: before) rest) := by
        have later := @ih (d :: before) rest d (@Unbroken.right [c] _ unbroken)
        refine .cons (fun e first => ?_) (fun none => by cases none) later
        obtain rfl := Option.some.inj first
        exact (List.isChain_cons_cons.mp unbroken.joined).1
      rw [subFrom]
      split
      · rename_i m matched
        split
        · obtain ⟨kept, masked, cover, ahead, expanded, filled, oneLine⟩ :=
            masks _ m (List.mem_of_head? matched)
          change d :: rest = _ at ahead
          rw [ahead] at unbroken
          have blank : Unbroken (' ' :: m.rest) := by
            refine .cons (fun e _ => joined_of_left (by decide) e) (fun _ => by decide) ?_
            exact (@Unbroken.right (c :: kept) _ unbroken).right
          have later := @Unbroken.right [' '] _ (@ih m.before m.rest ' ' blank)
          have start : (c :: kept).IsChain Joined :=
            unbroken.joined.prefix (List.prefix_append (c :: kept) _)
          rw [expanded, List.append_assoc]
          exact unbroken_splice start oneLine filled later
        · exact skipped
      · exact skipped

/-- **Masking makes no blank line.** -/
theorem sub_unbroken (masks : Masks r template) {text : Text} (unbroken : Unbroken text) :
    Unbroken (r.sub template text) := by
  have blank : Unbroken (' ' :: text) :=
    .cons (fun e _ => joined_of_left (by decide) e) (fun _ => by decide) unbroken
  exact @Unbroken.right [' '] _ (subFrom_unbroken masks blank)

/-! ## Redaction -/

theorem masks_mask (r : Regex) : Masks r [.plain mask] :=
  @masks_fixed r [mask] (by decide) (by decide)

theorem envRe_masks : Masks envRe [.captured 1, .plain "=", .plain mask] :=
  masks_captured (by decide) (@masks_fixed _ ["=", mask] (by decide) (by decide))

theorem flagRe_masks : Masks flagRe [.captured 1, .captured 2, .plain mask] :=
  masks_captured (by decide) (masks_captured (by decide) (masks_mask _))

theorem shortUserRe_masks (word : Char → Bool) :
    Masks (shortUserRe word) [.plain "-u", .captured 1, .plain mask] :=
  masks_edge (masks_literal (masks_captured (by decide) (masks_mask _)))

theorem headerNameRe_masks (word : Char → Bool) :
    Masks (headerNameRe word) [.captured 1, .captured 2, .plain mask] :=
  masks_edge (masks_captured (by decide) (masks_captured (by decide) (masks_mask _)))

theorem schemeRe_masks (word : Char → Bool) :
    Masks (schemeRe word) [.captured 1, .captured 2, .plain mask] :=
  masks_edge (masks_captured (by decide) (masks_captured (by decide) (masks_mask _)))

theorem urlUserinfoRe_masks : Masks urlUserinfoRe [.captured 1, .plain mask, .plain "@"] :=
  masks_captured (by decide) (@masks_fixed _ [mask, "@"] (by decide) (by decide))

theorem urlQueryRe_masks : Masks urlQueryRe [.captured 1, .plain mask] :=
  masks_captured (by decide) (masks_mask _)

/-- What has no blank line has none once its secrets are masked. -/
theorem redactSecrets_unbroken (word : Char → Bool) {text : Text} (unbroken : Unbroken text) :
    Unbroken (redactSecrets word text) :=
  sub_unbroken (masks_mask _) <| sub_unbroken (masks_mask _) <| sub_unbroken urlQueryRe_masks <|
    sub_unbroken urlUserinfoRe_masks <| sub_unbroken (schemeRe_masks word) <|
    sub_unbroken (headerNameRe_masks word) <| sub_unbroken (shortUserRe_masks word) <|
    sub_unbroken flagRe_masks <| sub_unbroken envRe_masks <| sub_unbroken (masks_mask _) unbroken

end AgentRunner.Masking
