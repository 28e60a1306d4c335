import Mathlib.Logic.Basic
import Mathlib.Tactic.Common

/-! Commands that change a state and can raise: where a run of one ends, taken apart along
its structure. -/
namespace AgentRunner.Effects

/-- A command over the states `σ` that raises exceptions `ε`; what it has done stays done. -/
abbrev Command (σ ε α : Type) := ExceptT ε (StateM σ) α

variable {σ ε α β : Type}

/-- A step that reads the state and gives an answer and the next state. -/
def perform (step : σ → Except ε α × σ) : Command σ ε α := ExceptT.mk step

/-- `raise`. -/
def raise (e : ε) : Command σ ε α := perform fun s => (.error e, s)

def outcome (x : Command σ ε α) (s : σ) : Except ε α × σ := x.run.run s

/-- The command, begun in `s`, ends in `t` with the result `r`. -/
def Ends (x : Command σ ε α) (s : σ) (r : Except ε α) (t : σ) : Prop := outcome x s = (r, t)

variable {s t u : σ} {r : Except ε β} {a : α} {e : ε} {x : Command σ ε α}
  {f : α → Command σ ε β}

theorem ends_outcome (x : Command σ ε α) (s : σ) : Ends x s (outcome x s).1 (outcome x s).2 := rfl

theorem outcome_bind_ok (first : outcome x s = (.ok a, u)) :
    outcome (x >>= f) s = outcome (f a) u := by
  change x s = (.ok a, u) at first
  change StateT.bind x (ExceptT.bindCont f) s = f a u
  simp only [StateT.bind, first]
  rfl

theorem outcome_bind_error (first : outcome x s = (.error e, u)) :
    outcome (x >>= f) s = (.error e, u) := by
  change x s = (.error e, u) at first
  change StateT.bind x (ExceptT.bindCont f) s = (.error e, u)
  simp only [StateT.bind, first]
  rfl

@[simp] theorem ends_perform {step : σ → Except ε β × σ} :
    Ends (perform step) s r t ↔ step s = (r, t) := Iff.rfl

@[simp] theorem ends_pure {b : β} : Ends (pure b) s r t ↔ r = .ok b ∧ t = s := by
  change (Except.ok b, s) = (r, t) ↔ _
  rw [Prod.mk.injEq]
  exact and_congr eq_comm eq_comm

@[simp] theorem ends_raise {e : ε} :
    Ends (raise e : Command σ ε β) s r t ↔ r = .error e ∧ t = s := by
  rw [raise, ends_perform, Prod.mk.injEq]
  exact and_congr eq_comm eq_comm

/-- What comes second begins where the first has ended well, and is left out otherwise. -/
theorem ends_bind : Ends (x >>= f) s r t ↔
    (∃ a u, Ends x s (.ok a) u ∧ Ends (f a) u r t) ∨ ∃ e, Ends x s (.error e) t ∧ r = .error e := by
  cases first : outcome x s with
  | mk answer u =>
    cases answer with
    | ok a => simp [Ends, first, outcome_bind_ok first]
    | error e =>
      simp only [Ends, first, outcome_bind_error first, Prod.mk.injEq, reduceCtorEq, false_and,
        exists_false, false_or, Except.error.injEq]
      constructor
      · rintro ⟨rfl, rfl⟩
        exact ⟨e, ⟨rfl, rfl⟩, rfl⟩
      · rintro ⟨_, ⟨rfl, rfl⟩, rfl⟩
        exact ⟨rfl, rfl⟩

/-! ## Exceptions caught -/

/-- What is left of an answer where the exceptions of a kind are caught. -/
def caughtBy (caught : ε → Bool) : Except ε α → Except ε (Except ε α)
  | .ok a => .ok (.ok a)
  | .error e => if caught e then .ok (.error e) else .error e

/-- `try: … except`: the exceptions of a kind are returned, the others raised on. -/
def attempt (caught : ε → Bool) (x : Command σ ε α) : Command σ ε (Except ε α) :=
  perform fun s => (caughtBy caught (outcome x s).1, (outcome x s).2)

variable {caught : ε → Bool}

theorem ends_attempt {answer : Except ε (Except ε α)} :
    Ends (attempt caught x) s answer t ↔ ∃ r, Ends x s r t ∧ answer = caughtBy caught r := by
  rw [attempt, ends_perform, Prod.mk.injEq]
  constructor
  · rintro ⟨rfl, rfl⟩
    exact ⟨_, ends_outcome x s, rfl⟩
  · rintro ⟨r, ended, rfl⟩
    rw [ended]
    exact ⟨rfl, rfl⟩

theorem caughtBy_eq_ok {r answer : Except ε α} :
    caughtBy caught r = .ok answer ↔ answer = r ∧ ∀ e, r = .error e → caught e = true := by
  cases r with
  | ok a =>
    rw [caughtBy, Except.ok.injEq]
    exact ⟨fun same => ⟨same.symm, fun _ other => by cases other⟩, fun both => both.1.symm⟩
  | error e =>
    rw [caughtBy]
    split
    · rename_i known
      rw [Except.ok.injEq]
      exact ⟨fun same => ⟨same.symm, fun _ own => Except.error.inj own ▸ known⟩,
        fun both => both.1.symm⟩
    · rename_i unknown
      exact iff_of_false (by simp) fun both => unknown (both.2 e rfl)

theorem caughtBy_eq_error {r : Except ε α} :
    caughtBy caught r = .error e ↔ r = .error e ∧ caught e = false := by
  cases r with
  | ok a => simp [caughtBy]
  | error raised =>
    by_cases known : caught raised = true
    · simp only [caughtBy, known, if_true, reduceCtorEq, Except.error.injEq, false_iff, not_and]
      rintro rfl
      simp [known]
    · simp only [caughtBy, known, if_false, Except.error.injEq, Bool.false_eq_true]
      refine ⟨fun same => ⟨same, ?_⟩, And.left⟩
      exact same ▸ Bool.not_eq_true _ ▸ known

end AgentRunner.Effects
