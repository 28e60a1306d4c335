import AgentRunner.Effects

/-! Pre- and postconditions of commands that can raise: a triple speaks of the state a
command returns in and of the state it raises in. A finalizer runs behind either, and a
loop is turned until it answers, its invariant being what every turn keeps. -/
namespace AgentRunner.Triples
open Effects

variable {σ ε α β γ : Type}

/-- The ways a command may end. -/
def Allowed (post : α → σ → Prop) (exc : ε → σ → Prop) : Except ε α → σ → Prop
  | .ok a, t => post a t
  | .error e, t => exc e t

/-- What holds however the command ends. -/
theorem Allowed.always {p : σ → Prop} {r : Except ε α} {t : σ}
    (allowed : Allowed (fun _ => p) (fun _ => p) r t) : p t := by
  cases r with
  | ok a => exact allowed
  | error e => exact allowed

/-- Begun where `pre` holds, the command returns where `post` does or raises where `exc`
does. -/
def Triple (pre : σ → Prop) (x : Command σ ε α) (post : α → σ → Prop) (exc : ε → σ → Prop) :
    Prop :=
  ∀ s r t, pre s → Ends x s r t → Allowed post exc r t

/-! ## Two more forms of command -/

/-- `try: … finally: …`, but an exception that `passes` runs no finalizer. -/
def ensure (passes : ε → Bool) (x : Command σ ε α) (final : Command σ ε Unit) :
    Command σ ε α := do
  let answer ← attempt (fun e => !passes e) x
  final
  match answer with
  | .ok a => return a
  | .error e => raise e

/-- Turn `body` until it answers, but no more than `fuel` times: then `cut` is raised. -/
def loop (cut : ε) (body : β → Command σ ε (β ⊕ α)) : ℕ → β → Command σ ε α
  | 0, _ => raise cut
  | fuel + 1, b => do
    match ← body b with
    | .inl b' => loop cut body fuel b'
    | .inr a => return a

/-! ## Rules -/

variable {pre pre' : σ → Prop} {post post' : α → σ → Prop} {exc exc' : ε → σ → Prop}
  {x y : Command σ ε α} {f : α → Command σ ε β} {after : β → σ → Prop}

theorem triple_pure {a : α} (holds : ∀ s, pre s → post a s) :
    Triple pre (pure a : Command σ ε α) post exc := by
  intro s r t begun ended
  obtain ⟨rfl, rfl⟩ := ends_pure.mp ended
  exact holds t begun

theorem triple_raise {e : ε} (holds : ∀ s, pre s → exc e s) :
    Triple pre (raise e : Command σ ε α) post exc := by
  intro s r t begun ended
  obtain ⟨rfl, rfl⟩ := ends_raise.mp ended
  exact holds t begun

theorem triple_perform {step : σ → Except ε α × σ}
    (holds : ∀ s, pre s → Allowed post exc (step s).1 (step s).2) :
    Triple pre (perform step) post exc := by
  intro s r t begun ended
  obtain ⟨rfl, rfl⟩ := Prod.ext_iff.mp (ends_perform.mp ended)
  exact holds s begun

theorem triple_bind (first : Triple pre x post exc)
    (second : ∀ a, Triple (post a) (f a) after exc) : Triple pre (x >>= f) after exc := by
  intro s r t begun ended
  obtain ⟨a, u, early, late⟩ | ⟨e, early, rfl⟩ := ends_bind.mp ended
  · exact second a u r t (first s _ u begun early) late
  · exact first s _ t begun early

theorem triple_conseq (holds : Triple pre x post exc) (weaker : ∀ s, pre' s → pre s)
    (returns : ∀ a s, post a s → post' a s) (raises : ∀ e s, exc e s → exc' e s) :
    Triple pre' x post' exc' := by
  intro s r t begun ended
  have allowed := holds s r t (weaker s begun) ended
  cases r with
  | ok a => exact returns a t allowed
  | error e => exact raises e t allowed

theorem triple_pre (holds : Triple pre x post exc) (weaker : ∀ s, pre' s → pre s) :
    Triple pre' x post exc :=
  triple_conseq holds weaker (fun _ _ => id) fun _ _ => id

theorem triple_post (holds : Triple pre x post exc) (returns : ∀ a s, post a s → post' a s) :
    Triple pre x post' exc :=
  triple_conseq holds (fun _ => id) returns fun _ _ => id

theorem triple_and {pre₂ : σ → Prop} {post₂ : α → σ → Prop} {exc₂ : ε → σ → Prop}
    (one : Triple pre x post exc) (two : Triple pre₂ x post₂ exc₂) :
    Triple (fun s => pre s ∧ pre₂ s) x (fun a s => post a s ∧ post₂ a s)
      (fun e s => exc e s ∧ exc₂ e s) := by
  intro s r t begun ended
  have first := one s r t begun.1 ended
  have second := two s r t begun.2 ended
  cases r with
  | ok a => exact ⟨first, second⟩
  | error e => exact ⟨first, second⟩

/-- One command behind another, where the first raises less than both may. -/
theorem triple_seq (raises : ∀ e s, exc e s → exc' e s) (first : Triple pre x post exc)
    (second : ∀ a, Triple (post a) (f a) after exc') : Triple pre (x >>= f) after exc' :=
  triple_bind (triple_conseq first (fun _ => id) (fun _ _ => id) raises) second

theorem triple_ite {p : Prop} [Decidable p] (yes : p → Triple pre x post exc)
    (no : ¬ p → Triple pre y post exc) : Triple pre (if p then x else y) post exc := by
  split
  · exact yes ‹_›
  · exact no ‹_›

/-- A fact of the state at the start, drawn out of the precondition. -/
theorem triple_fact {p : Prop} (known : ∀ s, pre s → p) (holds : p → Triple pre x post exc) :
    Triple pre x post exc :=
  fun s r t begun ended => holds (known s begun) s r t begun ended

theorem triple_exists {δ : Type} {pres : δ → σ → Prop}
    (holds : ∀ d, Triple (pres d) x post exc) : Triple (fun s => ∃ d, pres d s) x post exc :=
  fun s r t begun ended => begun.elim fun d known => holds d s r t known ended

/-- A triple may be proved for each state the command begins in. -/
theorem triple_from (holds : ∀ s, pre s → Triple (· = s) x post exc) : Triple pre x post exc :=
  fun s r t begun ended => holds s begun s r t rfl ended

theorem triple_attempt {caught : ε → Bool} (holds : Triple pre x post exc) :
    Triple pre (attempt caught x)
      (fun answer t => Allowed post (fun e u => exc e u ∧ caught e = true) answer t)
      (fun e t => exc e t ∧ caught e = false) := by
  intro s answer t begun ended
  obtain ⟨r, inner, rfl⟩ := ends_attempt.mp ended
  have allowed := holds s r t begun inner
  cases r with
  | ok a => exact allowed
  | error e =>
    cases known : caught e <;> simp only [caughtBy, known] <;> exact ⟨allowed, known⟩

/-- The finalizer begins wherever the command may end, and its own exceptions replace
those of the command. -/
theorem triple_ensure {passes : ε → Bool} {final : Command σ ε Unit} {done : α → σ → Prop}
    {failed : ε → σ → Prop} (holds : Triple pre x post exc)
    (passed : ∀ e s, exc e s → passes e = true → failed e s)
    (returned : ∀ a, Triple (post a) final (fun _ => done a) failed)
    (raised : ∀ e, passes e = false → Triple (exc e) final (fun _ => failed e) failed) :
    Triple pre (ensure passes x final) done failed := by
  refine triple_bind (?_ : Triple _ _ (fun answer t => Allowed post (fun e u => exc e u ∧
    (!passes e) = true) answer t) _) fun answer => ?_
  · refine triple_conseq (triple_attempt holds) (fun _ => id) (fun _ _ => id) ?_
    exact fun e s ended => passed e s ended.1 (by simpa using ended.2)
  · cases answer with
    | ok a => exact triple_bind (returned a) fun _ => triple_pure fun _ => id
    | error e =>
      refine triple_fact (fun s ended => ended.2) fun caught => ?_
      exact triple_bind (triple_pre (raised e (by simpa using caught)) fun _ => And.left)
        fun _ => triple_raise fun _ => id

/-- What every turn keeps holds whenever the loop is left. -/
theorem triple_loop {cut : ε} {body : β → Command σ ε (β ⊕ α)} (invariant : β → σ → Prop)
    (turn : ∀ b, Triple (invariant b) (body b)
      (fun answer t => answer.elim (invariant · t) (post · t)) exc)
    (cut_off : ∀ b s, invariant b s → exc cut s) (fuel : ℕ) (b : β) :
    Triple (invariant b) (loop cut body fuel b) post exc := by
  induction fuel generalizing b with
  | zero => exact triple_raise (cut_off b)
  | succ fuel ih =>
    refine triple_bind (turn b) fun answer => ?_
    cases answer with
    | inl b' => exact ih b'
    | inr a => exact triple_pure fun _ => id

end AgentRunner.Triples
