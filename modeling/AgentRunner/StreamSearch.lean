import Mathlib.Data.List.DropRight
import Mathlib.Data.List.Infix

/-! Searching a stream that arrives in pieces: what is kept of the part that was searched is one
element shorter than what is searched for, and that is enough. -/
namespace AgentRunner.StreamSearch

variable {α : Type} {needle seen chunk : List α}

theorem take_append_rtake (k : ℕ) (xs : List α) : xs.take (xs.length - k) ++ xs.rtake k = xs :=
  List.take_append_drop _ xs

/-- What would be kept of the whole is kept of what was kept before and the piece after it. -/
theorem rtake_append (k : ℕ) (seen chunk : List α) :
    (seen.rtake k ++ chunk).rtake k = (seen ++ chunk).rtake k := by
  unfold List.rtake
  rw [List.drop_append, List.drop_append, List.drop_drop, List.length_append, List.length_append,
    List.length_drop]
  congr 2
  · omega
  · omega

/-- A match that is new in the whole reaches into the piece, so it begins in what was kept. -/
theorem infix_kept {k : ℕ} (short : needle.length ≤ k + 1) (fresh : ¬ needle <:+: seen)
    (found : needle <:+: seen ++ chunk) : needle <:+: seen.rtake k ++ chunk := by
  obtain ⟨before, after, whole⟩ := found
  have reaches : seen.length < before.length + needle.length := by
    by_contra inside
    refine fresh ⟨before, (seen.drop (before.length + needle.length)), ?_⟩
    have start : before ++ needle = seen.take (before.length + needle.length) := by
      have cut := congrArg (List.take (before.length + needle.length)) whole
      rwa [← List.length_append, List.take_left' rfl,
        List.take_append_of_le_length (by rw [List.length_append]; omega),
        List.length_append] at cut
    rw [start, List.take_append_drop]
  have cut := congrArg (List.drop (seen.length - k)) whole
  rw [List.drop_append_of_le_length (Nat.sub_le _ _), List.append_assoc,
    List.drop_append_of_le_length (by omega)] at cut
  exact ⟨before.drop (seen.length - k), after, by rw [List.append_assoc]; exact cut⟩

/-- A piece completes a match exactly where the whole has one, if there was none before. -/
theorem infix_kept_iff {k : ℕ} (short : needle.length ≤ k + 1) (fresh : ¬ needle <:+: seen) :
    needle <:+: seen.rtake k ++ chunk ↔ needle <:+: seen ++ chunk := by
  refine ⟨fun found => found.trans ?_, infix_kept short fresh⟩
  exact ⟨seen.take (seen.length - k), [], by
    rw [List.append_nil, ← List.append_assoc, take_append_rtake]⟩

end AgentRunner.StreamSearch
