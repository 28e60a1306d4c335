import Mathlib.Logic.Basic

/-! Runs of a deterministic system that takes one chosen action after another, and the
rules by which what one step keeps is kept by a run. -/
namespace AgentRunner.Runs

variable {σ α : Type} (step : σ → α → Option σ)

/-- The state after a list of actions; `none` where one of them cannot be taken. -/
def run : σ → List α → Option σ
  | s, [] => some s
  | s, action :: rest => (step s action).bind (run · rest)

variable {step} {s t u : σ} {action : α} {actions before after : List α}

@[simp] theorem run_nil : run step s [] = some s := rfl

theorem run_cons :
    run step s (action :: actions) = some u ↔
      ∃ t, step s action = some t ∧ run step t actions = some u := by
  rw [run, Option.bind_eq_some_iff]

theorem run_append :
    run step s (before ++ after) = some u ↔
      ∃ t, run step s before = some t ∧ run step t after = some u := by
  induction before generalizing s with
  | nil => simp
  | cons action rest ih =>
    rw [List.cons_append, run_cons]
    constructor
    · rintro ⟨t, first, later⟩
      obtain ⟨v, middle, last⟩ := ih.mp later
      exact ⟨v, run_cons.mpr ⟨t, first, middle⟩, last⟩
    · rintro ⟨v, reached, last⟩
      obtain ⟨t, first, middle⟩ := run_cons.mp reached
      exact ⟨t, first, ih.mpr ⟨v, middle, last⟩⟩

/-- What every step keeps, a run keeps. -/
theorem run_preserves (invariant : σ → Prop)
    (kept : ∀ s action t, invariant s → step s action = some t → invariant t)
    (holds : invariant s) (ran : run step s actions = some u) : invariant u := by
  induction actions generalizing s with
  | nil => exact Option.some.inj ran ▸ holds
  | cons action rest ih =>
    obtain ⟨t, first, later⟩ := run_cons.mp ran
    exact ih (kept s action t holds first) later

/-- A run that makes a property true has a step that makes it true. -/
theorem run_crosses (property : σ → Prop) (not_yet : ¬ property s)
    (ran : run step s actions = some u) (holds : property u) :
    ∃ before action after v w, actions = before ++ action :: after ∧
      run step s before = some v ∧ ¬ property v ∧ step v action = some w ∧ property w ∧
      run step w after = some u := by
  induction actions generalizing s with
  | nil =>
    obtain rfl := Option.some.inj ran
    exact absurd holds not_yet
  | cons action rest ih =>
    obtain ⟨t, first, later⟩ := run_cons.mp ran
    by_cases there : property t
    · exact ⟨[], action, rest, s, t, rfl, rfl, not_yet, first, there, later⟩
    · obtain ⟨before, crossing, after, v, w, rfl, reached, still, crosses, holds, rest_ran⟩ :=
        ih there later
      exact ⟨action :: before, crossing, after, v, w, rfl, run_cons.mpr ⟨t, first, reached⟩,
        still, crosses, holds, rest_ran⟩

/-- What every step keeps of the actions taken and the state reached holds behind a run. -/
theorem run_history (invariant : List α → σ → Prop) (first : invariant [] s)
    (kept : ∀ past s action t, invariant past s → step s action = some t →
      invariant (past ++ [action]) t)
    (ran : run step s actions = some u) : invariant actions u := by
  have onward : ∀ (past : List α) (s : σ) (actions : List α), invariant past s →
      run step s actions = some u → invariant (past ++ actions) u := by
    intro past s actions
    induction actions generalizing past s with
    | nil =>
      intro holds ran
      rw [List.append_nil]
      exact Option.some.inj ran ▸ holds
    | cons action rest ih =>
      intro holds ran
      obtain ⟨t, first, later⟩ := run_cons.mp ran
      have whole := ih (past ++ [action]) t (kept past s action t holds first) later
      rwa [List.append_assoc, List.singleton_append] at whole
  exact onward [] s actions first ran

end AgentRunner.Runs
