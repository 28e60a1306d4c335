import Mathlib.Data.List.Basic

/-! Isolation of an observer from part of a stream that a fold reads. The
observer sees the accumulator through a view and hears some of the inputs. Two
local conditions suffice: an input it does not hear leaves the view alone, and
what an input it hears makes of the view depends on the view alone. Two streams
that agree on what is heard then end in one view, however the rest is chosen
and interleaved. -/
namespace AgentRunner.Unwinding
variable {σ ε ω : Type}

/-- The unwinding conditions of a step, for an observer. -/
structure Isolated (step : σ → ε → σ) (view : σ → ω) (heard : ε → Bool) : Prop where
  ignores : ∀ s e, heard e = false → view (step s e) = view s
  determined : ∀ s t e, heard e = true → view s = view t → view (step s e) = view (step t e)

/-- A step that does nothing on what is not heard isolates the whole state. -/
theorem isolated_of_ignores {step : σ → ε → σ} {heard : ε → Bool}
    (ignores : ∀ s e, heard e = false → step s e = s) : Isolated step id heard :=
  ⟨ignores, fun _ _ e _ same => congrArg (step · e) same⟩

/-- Hearing more does not break a state that is isolated as a whole. -/
theorem Isolated.mono {step : σ → ε → σ} {heard more : ε → Bool}
    (isolated : Isolated step id heard) (included : ∀ e, heard e = true → more e = true) :
    Isolated step id more := by
  refine isolated_of_ignores fun s e unheard => isolated.ignores s e ?_
  by_contra heard
  rw [included e (by simpa using heard)] at unheard
  cases unheard

/-- Erasing what is not heard changes no view, from any two states that look alike. -/
theorem view_purged {step : σ → ε → σ} {view : σ → ω} {heard : ε → Bool}
    (isolated : Isolated step view heard) (events : List ε) {s t : σ} (alike : view s = view t) :
    view (events.foldl step s) = view ((events.filter heard).foldl step t) := by
  induction events generalizing s t with
  | nil => exact alike
  | cons e rest ih =>
    rw [List.foldl_cons]
    cases sounds : heard e with
    | true =>
      rw [List.filter_cons_of_pos sounds, List.foldl_cons]
      exact ih (isolated.determined s t e sounds alike)
    | false =>
      rw [List.filter_cons_of_neg (by simp [sounds])]
      exact ih ((isolated.ignores s e sounds).trans alike)

/-- **Noninterference.**  Streams that agree on what is heard end in one view. -/
theorem view_agrees {step : σ → ε → σ} {view : σ → ω} {heard : ε → Bool}
    (isolated : Isolated step view heard) {events others : List ε}
    (agree : events.filter heard = others.filter heard) (s : σ) :
    view (events.foldl step s) = view (others.foldl step s) := by
  rw [view_purged isolated events (rfl : view s = view s), agree]
  exact (view_purged isolated others rfl).symm

/-- Whether some event passes a test is settled by the events that are heard, when
every event that passes is. -/
theorem any_agrees {test heard : ε → Bool} (included : ∀ e, test e = true → heard e = true)
    {events others : List ε} (agree : events.filter heard = others.filter heard) :
    events.any test = others.any test := by
  have purged : ∀ stream : List ε, stream.any test = (stream.filter heard).any test := by
    intro stream
    rw [List.any_filter]
    refine congrArg stream.any (funext fun e => ?_)
    cases passes : test e with
    | true => rw [included e passes, Bool.and_self]
    | false => rw [Bool.and_false]
  rw [purged events, agree, ← purged others]

end AgentRunner.Unwinding
