import AgentRunner.Effects
import Mathlib.Algebra.Order.Monoid.Unbundled.Basic
import Mathlib.Algebra.Order.Monoid.Defs

/-! What a command costs: a meter read off the state, and how far a run can move it. -/
namespace AgentRunner.Metered
open Effects

variable {σ ε α β A : Type} [AddCommMonoid A]

/-! ## Runs of a given cost -/

/-- Wherever the command begins, it answers `a` and has moved the meter by `n`. -/
def Takes (meter : σ → A) (x : Command σ ε α) (a : α) (n : A) : Prop :=
  ∀ s, ∃ t, Ends x s (.ok a) t ∧ meter t = meter s + n

variable {meter : σ → A} {x y : Command σ ε α} {f : α → Command σ ε β} {m n : A} {a : α} {b : β}

theorem takes_pure : Takes meter (pure a : Command σ ε α) a (0 : A) :=
  fun s => ⟨s, ends_pure.mpr ⟨rfl, rfl⟩, (add_zero _).symm⟩

theorem takes_perform {step : σ → Except ε α × σ}
    (moves : ∀ s, (step s).1 = .ok a ∧ meter (step s).2 = meter s + n) :
    Takes meter (perform step) a n :=
  fun s => ⟨(step s).2, ends_perform.mpr (Prod.ext (moves s).1 rfl), (moves s).2⟩

theorem takes_bind (first : Takes meter x a m) (second : Takes meter (f a) b n) :
    Takes meter (x >>= f) b (m + n) := by
  intro s
  obtain ⟨u, began, early⟩ := first s
  obtain ⟨t, ended, late⟩ := second u
  exact ⟨t, ends_bind.mpr (.inl ⟨a, u, began, ended⟩), by rw [late, early, add_assoc]⟩

theorem takes_attempt {caught : ε → Bool} (taken : Takes meter x a n) :
    Takes meter (attempt caught x) (.ok a) n := by
  intro s
  obtain ⟨t, ended, cost⟩ := taken s
  exact ⟨t, ends_attempt.mpr ⟨_, ended, rfl⟩, cost⟩

/-! ## The utmost cost of any run -/

variable [PartialOrder A]

/-- However the command begins and ends, it moves the meter by `most` at the utmost. -/
def Spends (meter : σ → A) (x : Command σ ε α) (most : A) : Prop :=
  ∀ s r t, Ends x s r t → meter t ≤ meter s + most

theorem spends_pure (a : α) : Spends meter (pure a : Command σ ε α) (0 : A) := by
  intro s r t ended
  rw [(ends_pure.mp ended).2, add_zero]

theorem spends_raise (e : ε) : Spends meter (raise e : Command σ ε α) (0 : A) := by
  intro s r t ended
  rw [(ends_raise.mp ended).2, add_zero]

theorem spends_perform {step : σ → Except ε α × σ} (moves : ∀ s, meter (step s).2 ≤ meter s + n) :
    Spends meter (perform step) n := by
  intro s r t ended
  have left : (step s).2 = t := congrArg Prod.snd (ends_perform.mp ended)
  exact left ▸ moves s

theorem spends_attempt {caught : ε → Bool} (within : Spends meter x n) :
    Spends meter (attempt caught x) n := by
  intro s r t ended
  obtain ⟨r, ended, -⟩ := ends_attempt.mp ended
  exact within s r t ended

theorem spends_ite {p : Prop} [Decidable p] (yes : p → Spends meter x n)
    (no : ¬ p → Spends meter y n) : Spends meter (if p then x else y) n := by
  split
  · exact yes ‹_›
  · exact no ‹_›

variable [IsOrderedAddMonoid A]

theorem Spends.mono (within : Spends meter x m) (wider : m ≤ n) : Spends meter x n :=
  fun s r t ended => (within s r t ended).trans (add_le_add_right wider _)

/-- One after the other costs what both cost: the second for the answers the first gives, and
nothing where it is left out. -/
theorem spends_bind (first : Spends meter x m)
    (second : ∀ s a u, Ends x s (.ok a) u → Spends meter (f a) n) (free : 0 ≤ n) :
    Spends meter (x >>= f) (m + n) := by
  intro s r t ended
  obtain ⟨a, u, began, ended⟩ | ⟨e, began, -⟩ := ends_bind.mp ended
  · calc meter t ≤ meter u + n := second s a u began u r t ended
      _ ≤ meter s + m + n := add_le_add_left (first s _ u began) n
      _ = meter s + (m + n) := add_assoc ..
  · calc meter t ≤ meter s + m := first s _ t began
      _ ≤ meter s + (m + n) := add_le_add_right (le_add_of_nonneg_right free) _

end AgentRunner.Metered
