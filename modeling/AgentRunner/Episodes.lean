import Mathlib.Data.Nat.Find
import Mathlib.Order.Basic

/-! Runs of equal labels in a sequence, and an edge-triggered alarm over them:
it rings when the last `k` labels agree and it has not rung since the run they
belong to began. Positions without a label belong to no run. -/
namespace AgentRunner.Episodes
variable {σ : Type} {label : Nat → Option σ}

/-- Positions `s` to `e` carry one label. -/
def Run (label : Nat → Option σ) (s e : Nat) : Prop :=
  s ≤ e ∧ label s ≠ none ∧ ∀ i, s ≤ i → i ≤ e → label i = label s

/-- A run that neither neighbour continues. -/
structure Maximal (label : Nat → Option σ) (s e : Nat) : Prop where
  run : Run label s e
  left : ∀ i < s, ¬ Run label i e
  right : ∀ i, e < i → ¬ Run label s i

theorem Run.sub {s e i j : Nat} (run : Run label s e) (first : s ≤ i) (order : i ≤ j)
    (last : j ≤ e) : Run label i j := by
  obtain ⟨_, labelled, same⟩ := run
  have here := same i first (by omega)
  refine ⟨order, by rwa [here], fun m low high => ?_⟩
  rw [here]
  exact same m (by omega) (by omega)

/-- Overlapping runs are one run. -/
theorem Run.join {s e a b : Nat} (run : Run label s e) (other : Run label a b) (start : s ≤ a)
    (overlap : a ≤ e) : Run label s (max b e) := by
  obtain ⟨_, labelled, same⟩ := run
  have shared := same a start overlap
  refine ⟨by omega, labelled, fun i low high => ?_⟩
  by_cases inside : i ≤ e
  · exact same i low inside
  · rw [other.2.2 i (by omega) (by omega), shared]

/-- The runs that end where this one does are those starting at or after one position. -/
theorem Run.exists_start {a b : Nat} (run : Run label a b) :
    ∃ s ≤ a, ∀ i, i ≤ b ∧ Run label i b ↔ s ≤ i ∧ i ≤ b := by
  classical
  have some_ : ∃ s, Run label s b := ⟨a, run⟩
  refine ⟨Nat.find some_, Nat.find_min' some_ run, fun i => ?_⟩
  constructor
  · exact fun ⟨last, run⟩ => ⟨Nat.find_min' some_ run, last⟩
  · exact fun ⟨first, last⟩ => ⟨last, (Nat.find_spec some_).sub first last (le_refl b)⟩

/-- A run that meets a maximal run lies inside it. -/
theorem Maximal.absorbs {s e a b : Nat} (maximal : Maximal label s e) (run : Run label a b)
    (meets : a ≤ e) (reaches : s ≤ b) : s ≤ a ∧ b ≤ e := by
  have starts : s ≤ a := by
    by_contra before
    have joined := run.join maximal.run (by omega) reaches
    exact maximal.left a (by omega) (joined.sub (le_refl _) (by omega) (by omega))
  refine ⟨starts, ?_⟩
  by_contra beyond
  have joined := maximal.run.join run starts meets
  exact maximal.right b (by omega) (joined.sub (le_refl _) (by omega) (by omega))

/-- Where the labels end, every run extends to a maximal one. -/
theorem Run.exists_maximal {n a b : Nat} (finite : ∀ i, n ≤ i → label i = none)
    (run : Run label a b) : ∃ s e, Maximal label s e ∧ s ≤ a ∧ b ≤ e := by
  classical
  have bounded : ∀ i, Run label a i → i < n := by
    intro i long
    by_contra outside
    have last := long.2.2 i long.1 (le_refl i)
    rw [finite i (by omega)] at last
    exact long.2.1 last.symm
  have ends : Run label a (Nat.findGreatest (Run label a) n) :=
    Nat.findGreatest_spec (bounded b run).le run
  generalize same : Nat.findGreatest (Run label a) n = e at ends
  have reach : b ≤ e := same ▸ Nat.le_findGreatest (bounded b run).le run
  have last : ∀ i, e < i → ¬ Run label a i := by
    intro i beyond long
    have := Nat.le_findGreatest (bounded i long).le long
    omega
  have exists_start : ∃ s, Run label s e := ⟨a, ends⟩
  have starts := Nat.find_spec exists_start
  have first : Nat.find exists_start ≤ a := Nat.find_min' exists_start ends
  refine ⟨_, e, ⟨starts, fun i earlier => Nat.find_min exists_start earlier, ?_⟩, first, reach⟩
  intro i beyond long
  exact last i beyond (long.sub first (by have := ends.1; omega) (le_refl i))

/-! ## The alarm -/

/-- The alarm over the first `n` positions: at `j` it looks back over `k` labels
and over its own rings since their run began. -/
structure Alarm (label : Nat → Option σ) (k n : Nat) (rings : Nat → Prop) : Prop where
  window : 0 < k
  finite : ∀ i, n ≤ i → label i = none
  law : ∀ j < n, rings j ↔
    k ≤ j ∧ Run label (j - k) (j - 1) ∧ ∀ i < j, Run label i (j - 1) → ¬ rings i

/-- One ring for each maximal run of at least `k`, right after its first `k`
positions, and no ring elsewhere. -/
structure OncePerEpisode (label : Nat → Option σ) (k n : Nat) (rings : Nat → Prop) : Prop where
  once : ∀ s e, Maximal label s e → s + k ≤ e + 1 → ∀ j, s + k ≤ j → j ≤ e + 1 → j < n →
    (rings j ↔ j = s + k)
  nowhereElse : ∀ j < n, rings j → ∃ s e, Maximal label s e ∧ s + k ≤ j ∧ j ≤ e + 1

/-- A maximal run of exactly `k` positions with another run of at least `k` right
behind it. -/
def BackToBack (label : Nat → Option σ) (k n : Nat) : Prop :=
  ∃ r e, Maximal label r (r + k - 1) ∧ Maximal label (r + k) e ∧ r + k + k ≤ e + 1 ∧ r + k + k < n

namespace Alarm
variable {k n : Nat} {rings : Nat → Prop}

theorem within (alarm : Alarm label k n rings) {j : Nat} (inside : j < n) (rang : rings j) :
    ∃ s e, Maximal label s e ∧ s + k ≤ j ∧ j ≤ e + 1 := by
  obtain ⟨enough, run, -⟩ := (alarm.law j inside).mp rang
  obtain ⟨s, e, maximal, first, last⟩ := run.exists_maximal alarm.finite
  exact ⟨s, e, maximal, by omega, by omega⟩

/-- Between the first position of a run and its `k`-th the window straddles the
start of the run. -/
theorem silent_inside (alarm : Alarm label k n rings) {s e i : Nat}
    (maximal : Maximal label s e) (after : s < i) (before : i < s + k) (inside : i < n) :
    ¬ rings i := by
  intro rang
  obtain ⟨enough, run, -⟩ := (alarm.law i inside).mp rang
  have := maximal.run.1
  have := maximal.absorbs run (by omega) (by omega)
  omega

/-- The first full window of a run rings unless the alarm rang at its start. -/
theorem first_iff (alarm : Alarm label k n rings) {s e : Nat} (maximal : Maximal label s e)
    (long : s + k ≤ e + 1) (inside : s + k < n) : rings (s + k) ↔ ¬ rings s := by
  have window := alarm.window
  rw [alarm.law (s + k) inside]
  constructor
  · rintro ⟨-, -, quiet⟩
    exact quiet s (by omega) (maximal.run.sub (le_refl s) (by omega) (by omega))
  · intro quiet
    refine ⟨by omega, maximal.run.sub (by omega) (by omega) (by omega), fun i earlier run => ?_⟩
    have := (maximal.absorbs run (by omega) (by omega)).1
    rcases Nat.eq_or_lt_of_le this with same | after
    · exact same ▸ quiet
    · exact alarm.silent_inside maximal after earlier (by omega)

/-- Later windows of the run stay silent. -/
theorem silent_later (alarm : Alarm label k n rings) {s e j : Nat} (maximal : Maximal label s e)
    (after : s + k < j) (last : j ≤ e + 1) (inside : j < n) : ¬ rings j := by
  intro rang
  have window := alarm.window
  obtain ⟨-, -, quiet⟩ := (alarm.law j inside).mp rang
  have start := quiet s (by omega) (maximal.run.sub (le_refl s) (by omega) (by omega))
  have first := quiet (s + k) after (maximal.run.sub (by omega) (by omega) (by omega))
  exact first ((alarm.first_iff maximal (by omega) (by omega)).mpr start)

/-- A ring at the start of a run is the late ring of a run of exactly `k` before it. -/
theorem ring_at_start (alarm : Alarm label k n rings) {s e : Nat} (maximal : Maximal label s e)
    (inside : s < n) (rang : rings s) : ∃ r, Maximal label r (s - 1) ∧ r + k = s := by
  have window := alarm.window
  obtain ⟨r, e', before, first, last⟩ := alarm.within inside rang
  have adjacent : e' + 1 = s := by
    by_contra apart
    have := maximal.run.1
    have := maximal.absorbs before.run (by omega) (by omega)
    omega
  have exact_ : r + k = s := by
    by_contra longer
    exact alarm.silent_later before (by omega) last inside rang
  exact ⟨r, by rwa [show s - 1 = e' by omega], exact_⟩

/-- The alarm rings once per episode exactly when no two episodes stand back to
back with the first of them just `k` long: its ring falls on the start of the
second and silences it. -/
theorem once_iff (alarm : Alarm label k n rings) :
    OncePerEpisode label k n rings ↔ ¬ BackToBack label k n := by
  have window := alarm.window
  constructor
  · rintro ⟨once, -⟩ ⟨r, e, first, second, long, inside⟩
    have rang := (once r _ first (by omega) (r + k) (le_refl _) (by omega) (by omega)).mpr rfl
    have again := (once _ e second long (r + k + k) (le_refl _) (by omega) inside).mpr rfl
    exact (alarm.first_iff second long inside).mp again rang
  · intro apart
    refine ⟨fun s e maximal long j low high inside => ⟨fun rang => ?_, ?_⟩, fun j => alarm.within⟩
    · by_contra other
      exact alarm.silent_later maximal (by omega) high inside rang
    · rintro rfl
      rw [alarm.first_iff maximal long inside]
      intro rang
      obtain ⟨r, before, rfl⟩ := alarm.ring_at_start maximal (by omega) rang
      exact apart ⟨r, e, before, maximal, long, inside⟩

end Alarm
end AgentRunner.Episodes
