import Mathlib.Data.List.Basic
import Mathlib.Data.List.Induction
import Mathlib.Tactic.ByContra

/-! Consecutive-run counters over any sequence: a counter that grows on a
triggering item and falls to zero on any other equals the length of the
trailing run, so a threshold on it is a statement about the last few items. -/
namespace AgentRunner.Streak
variable {α : Type}

/-- The length of the longest run of items satisfying `p` that ends the list. -/
def trailing (p : α → Bool) (xs : List α) : Nat := (xs.reverse.takeWhile p).length

/-- The last `t` items up to position `i` exist and all satisfy `p`. -/
def Recent (t : Nat) (p : α → Bool) (xs : List α) (i : Nat) : Prop :=
  t ≤ i + 1 ∧ ∀ k < t, (xs[i - k]?).any p = true

instance (t : Nat) (p : α → Bool) (xs : List α) (i : Nat) : Decidable (Recent t p xs i) := by
  unfold Recent
  infer_instance

@[simp] theorem trailing_nil (p : α → Bool) : trailing p [] = 0 := rfl

/-- The counter's step: one more on a trigger, zero otherwise. -/
theorem trailing_concat (p : α → Bool) (xs : List α) (x : α) :
    trailing p (xs ++ [x]) = if p x then trailing p xs + 1 else 0 := by
  simp only [trailing, List.reverse_append, List.reverse_singleton, List.singleton_append,
    List.takeWhile_cons]
  split <;> rfl

/-- Items that satisfy `p`, after one that does not. -/
theorem trailing_run {p : α → Bool} {before run : List α} (all : ∀ x ∈ run, p x = true)
    (fresh : ∀ x ∈ before.getLast?, p x = false) : trailing p (before ++ run) = run.length := by
  induction run using List.reverseRecOn with
  | nil =>
    rw [List.append_nil]
    obtain rfl | ⟨front, x, rfl⟩ := List.eq_nil_or_concat before
    · rfl
    · rw [List.concat_eq_append] at fresh ⊢
      rw [trailing_concat, fresh x (by simp), if_neg Bool.false_ne_true]
      rfl
  | append_singleton run x ih =>
    rw [← List.append_assoc, trailing_concat, all x (by simp), if_pos rfl,
      ih fun y member => all y (List.mem_append_left _ member), List.length_append]
    rfl

private theorem trailing_take_succ (p : α → Bool) {xs : List α} {i : Nat} (inside : i < xs.length) :
    trailing p (xs.take (i + 1)) = if p xs[i] then trailing p (xs.take i) + 1 else 0 := by
  rw [List.take_add_one, List.getElem?_eq_getElem inside, Option.toList_some, trailing_concat]

theorem recent_zero (p : α → Bool) (xs : List α) (i : Nat) : Recent 0 p xs i :=
  ⟨Nat.zero_le _, fun _ h => absurd h (Nat.not_lt_zero _)⟩

private theorem recent_succ (t : Nat) (p : α → Bool) (xs : List α) (i : Nat) :
    Recent (t + 2) p xs (i + 1) ↔ (xs[i + 1]?).any p = true ∧ Recent (t + 1) p xs i := by
  constructor
  · rintro ⟨long, all⟩
    refine ⟨all 0 (by omega), by omega, fun k small => ?_⟩
    have := all (k + 1) (by omega)
    rwa [show i + 1 - (k + 1) = i - k by omega] at this
  · rintro ⟨last, long, all⟩
    refine ⟨by omega, fun k small => ?_⟩
    cases k with
    | zero => exact last
    | succ k =>
      rw [show i + 1 - (k + 1) = i - k by omega]
      exact all k (by omega)

/-- A threshold on the counter after item `i` says exactly that the last items
up to `i` all triggered it. -/
theorem recent_iff_trailing (t : Nat) (p : α → Bool) (xs : List α) (i : Nat)
    (inside : i < xs.length) : Recent t p xs i ↔ t ≤ trailing p (xs.take (i + 1)) := by
  induction t generalizing i with
  | zero => exact ⟨fun _ => Nat.zero_le _, fun _ => recent_zero p xs i⟩
  | succ t ih =>
    rw [trailing_take_succ p inside]
    cases t with
    | zero =>
      simp only [Recent, Nat.zero_add, Nat.lt_one_iff, forall_eq, Nat.sub_zero,
        List.getElem?_eq_getElem inside, Option.any_some]
      split <;> simp_all
    | succ t =>
      cases i with
      | zero =>
        simp only [Recent, List.take_zero, trailing_nil]
        constructor
        · rintro ⟨long, _⟩
          omega
        · split <;> omega
      | succ i =>
        rw [recent_succ, ih i (by omega), List.getElem?_eq_getElem inside, Option.any_some]
        split <;> simp_all

/-- The threshold at the end of a prefix of a longer list. -/
theorem recent_append (t : Nat) (p : α → Bool) (before after : List α) (x : α) :
    Recent t p (before ++ x :: after) before.length ↔ t ≤ trailing p (before ++ [x]) := by
  rw [recent_iff_trailing t p _ _ (by simp)]
  have front : (before ++ x :: after).take (before.length + 1) = before ++ [x] := by
    rw [List.take_append, List.take_of_length_le (by omega)]
    simp
  rw [front]

/-! A loop that stops at the first item with a reading, counting as it goes. -/

variable {β : Type}

/-- The reading at position `i` is `stop`, and no earlier position has one. -/
def FirstAt (f : Nat → Option β) (i : Nat) (stop : β) : Prop :=
  f i = some stop ∧ ∀ j < i, f j = none

theorem firstAt_here {f : Nat → Option β} {stop : β} (here : f 0 = some stop) (i : Nat)
    (other : β) :
    some (0, stop) = some (i, other) ↔ FirstAt f i other := by
  constructor
  · intro same
    cases same
    exact ⟨here, fun j h => absurd h (Nat.not_lt_zero j)⟩
  · rintro ⟨found, before⟩
    cases i with
    | zero => rw [here] at found; cases found; rfl
    | succ i => rw [before 0 (Nat.succ_pos i)] at here; cases here

theorem firstAt_later {f : Nat → Option β} {rest : Option (Nat × β)} (here : f 0 = none)
    (after : ∀ i stop, rest = some (i, stop) ↔ FirstAt (fun j => f (j + 1)) i stop) (i : Nat)
    (stop : β) : rest.map (fun r => (r.1 + 1, r.2)) = some (i, stop) ↔ FirstAt f i stop := by
  constructor
  · intro found
    obtain ⟨⟨j, s⟩, tail, same⟩ := Option.map_eq_some_iff.mp found
    cases same
    obtain ⟨reading, before⟩ := (after j _).mp tail
    refine ⟨reading, fun k small => ?_⟩
    cases k with
    | zero => exact here
    | succ k => exact before k (by omega)
  · rintro ⟨reading, before⟩
    cases i with
    | zero => rw [here] at reading; cases reading
    | succ i =>
      rw [(after i stop).mpr ⟨reading, fun j small => before (j + 1) (by omega)⟩]
      rfl

end AgentRunner.Streak
