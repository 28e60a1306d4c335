import AgentRunner.RoundFold
import Mathlib.Tactic.NormNum

/-! The throttle map `_round_scan` computes from a round's outcome against the
map `_active_throttles` computes for itself. The two back-off exponents agree
for every agent an event names; they part only where an agent-less event is
counted, for `"unknown"` by the one and for `""` by the other. -/
namespace AgentRunner.MemoThrottle
open PyValue Events IsoTime Throttle RoundVerdicts ThrottleViews RoundFold

/-- The memoized and the plain call both return, with the same map. -/
def MemoAgrees (host : Host) (logDir : LogDir) (now : ℚ) (ranAgent : Option String) : Prop :=
  ∃ memo plain, roundScanThrottles host logDir now ranAgent = .ok memo ∧
    activeThrottles host logDir now none none = .ok (plain, none) ∧ memo.Same plain

/-- The exponent `round_outcome` leaves for an agent. -/
def memoExponent (host : Host) (logDir : LogDir) (agent : String) : Nat :=
  labelCount host agent (tailEvents logDir) - 1

/-- The two exponents put a detection's reset on the same rung of the ladder: the
classification has none, the exponents agree up to the cap, or both resets are past. -/
def SameRung (host : Host) (now : ℚ) (detected : Event) (e e' : Nat) : Prop :=
  backOffDefaults (classificationOf host detected) = none ∨ min e expCap = min e' expCap ∨
    (resetFor host now detected e : ℚ) ≤ now ∧ (resetFor host now detected e' : ℚ) ≤ now

/-- Counting agent-less events, or not, makes no difference to this label's open
detection, if it has one. -/
def LabelHarmless (host : Host) (logDir : LogDir) (now : ℚ) (agent : String) : Prop :=
  ∀ detected, (latestTransientPerAgent host logDir).get? agent = some (some detected) →
    SameRung host now detected (memoExponent host logDir agent)
      (backoffExponent host logDir agent)

/-! ## Exponents and the ladder -/

private theorem backOffDefaults_cases {classification : String} {base : Nat}
    (h : backOffDefaults classification = some base) :
    (base = 60 ∨ base = 30) ∧ classification ≠ "rate_limit_account" := by
  unfold backOffDefaults at h
  split_ifs at h with model server timeout <;> cases h <;> subst_vars <;> decide

/-- The rungs of one ladder are distinct up to the exponent cap. -/
private theorem rung_injective {base e e' : Nat} (known : base = 60 ∨ base = 30)
    (same : min (base * (2 ^ min e expCap - 1)) absoluteCapS =
      min (base * (2 ^ min e' expCap - 1)) absoluteCapS) : min e expCap = min e' expCap := by
  have rungs : ∀ i < 6, ∀ j < 6, ∀ b ∈ [60, 30],
      min (b * (2 ^ i - 1)) absoluteCapS = min (b * (2 ^ j - 1)) absoluteCapS → i = j := by
    decide
  have low : min e expCap < 6 := by simp only [expCap]; omega
  have low' : min e' expCap < 6 := by simp only [expCap]; omega
  exact rungs _ low _ low' base (by simpa using known) same

/-- An exponent of zero extends by nothing, like every rung computed at zero. -/
private theorem extendReset_eq {classification : String} {base : Nat}
    (h : backOffDefaults classification = some base) (reset : Int) (e : Nat) :
    extendReset classification reset e =
      reset + (min (base * (2 ^ min e expCap - 1)) absoluteCapS : Nat) := by
  have account := (backOffDefaults_cases h).2
  simp only [extendReset, h, account, false_or]
  split
  · rename_i zero
    simp [zero]
  · rfl

theorem resetFor_eq_iff (host : Host) (now : ℚ) (detected : Event) (e e' : Nat) :
    resetFor host now detected e = resetFor host now detected e' ↔
      backOffDefaults (classificationOf host detected) = none ∨ min e expCap = min e' expCap := by
  cases ladder : backOffDefaults (classificationOf host detected) with
  | none => simp [resetFor, extendReset, ladder]
  | some base =>
    simp only [resetFor, extendReset_eq ladder, reduceCtorEq, false_or]
    constructor
    · intro same
      exact rung_injective (backOffDefaults_cases ladder).1 (by omega)
    · intro same
      rw [same]

/-- Two exponents give a detection the same state exactly on the same rung. -/
theorem stateAt_eq_iff (host : Host) (now : ℚ) (agent : String) (detected : Event) (e e' : Nat) :
    stateAt host now agent detected e = stateAt host now agent detected e' ↔
      SameRung host now detected e e' := by
  rw [SameRung, ← or_assoc, ← resetFor_eq_iff]
  simp only [stateAt]
  by_cases past : (resetFor host now detected e : ℚ) ≤ now <;>
    by_cases past' : (resetFor host now detected e' : ℚ) ≤ now
  · simp [past, past']
  · simp only [past, past', if_true, if_false, reduceCtorEq, false_iff, and_false, or_false]
    intro same
    exact past' (same ▸ past)
  · simp only [past, past', if_true, if_false, reduceCtorEq, false_iff, false_and, or_false]
    intro same
    exact past (same ▸ past')
  · simp [past, past']

/-! ## The two counts -/

/-- For an agent that neither default can stand for, both counts see the same events. -/
theorem memoExponent_named (host : Host) (logDir : LogDir) {agent : String}
    (known : agent ≠ "unknown") (named : agent ≠ "") :
    memoExponent host logDir agent = backoffExponent host logDir agent := by
  have step : labelCountStep host agent = countStep host agent := by
    funext count ev
    have label : agentLabel host ev = agent ↔ str host (getOr ev "agent" (.str "")) = agent := by
      simp only [agentLabel, getOr]
      cases ev.lookup "agent" with
      | none => simp [known.symm, named.symm]
      | some value => rfl
    simp only [labelCountStep, countStep, ne_eq, label]
  simp only [memoExponent, labelCount, backoffExponent, step]

/-- The cache `_round_scan` hands over holds the scan's exponent of every agent
with an open detection. -/
theorem exponentOf_outcome (host : Host) (logDir : LogDir) {agent : String} {detected : Event}
    (opened : (latestTransientPerAgent host logDir).get? agent = some (some detected)) :
    exponentOf host logDir (some ((Fold.run host (tailEvents logDir)).detectedCount.mapValues
      fun count => count - 1)) agent = memoExponent host logDir agent := by
  have held : (Fold.run host (tailEvents logDir)).transient.get? agent = some (some detected) := by
    rw [run_transient]
    exact opened
  obtain ⟨count, counted⟩ := Option.isSome_iff_exists.mp (run_counted host _ held)
  have total := run_detectedCount host (tailEvents logDir) agent
  simp only [Dict.getD, counted, Option.getD_some] at total
  simp [exponentOf, counted, memoExponent, total]

/-- Where the outcome can be computed, the memoized call maps each agent with an
open detection to its state at the scan's own exponent. -/
theorem roundScanThrottles_spec (host : Host) (logDir : LogDir) (now : ℚ)
    (ranAgent : Option String) (comparable : StampsComparable (tailEvents logDir)) :
    ∃ memo, roundScanThrottles host logDir now ranAgent = .ok memo ∧
      ∀ agent, memo.get? agent = ((latestTransientPerAgent host logDir).get? agent).join.bind
        fun detected => stateAt host now agent detected (memoExponent host logDir agent) := by
  obtain ⟨outcome, computed⟩ := (roundOutcome_returns host logDir ranAgent).mpr comparable
  obtain ⟨-, -, -, scanned, carried⟩ := roundOutcome_fields computed
  obtain ⟨memo, after, ran, -, lookup⟩ := activeThrottles_spec host logDir now
    (some outcome.backoffExponentByAgent) (some outcome.latestTransientPerAgent)
  refine ⟨memo, by simp [roundScanThrottles, computed, ran, bind, Except.bind, pure, Except.pure],
    fun agent => ?_⟩
  rw [lookup, Option.getD_some, scanned]
  cases latest : (latestTransientPerAgent host logDir).get? agent with
  | none => rfl
  | some opened =>
    cases opened with
    | none => rfl
    | some detected =>
      have exponent := exponentOf_outcome host logDir latest
      rw [carried]
      simp only [Option.join_some, Option.bind_some, exponent]

/-- An outcome was computed wherever the two calls agree. -/
theorem MemoAgrees.comparable {host : Host} {logDir : LogDir} {now : ℚ}
    {ranAgent : Option String} (agrees : MemoAgrees host logDir now ranAgent) :
    StampsComparable (tailEvents logDir) := by
  obtain ⟨memo, plain, memoRan, -⟩ := agrees
  obtain ⟨outcome, computed, -⟩ := (returns_bind _ _).mp ⟨memo, memoRan⟩
  exact (roundOutcome_returns host logDir ranAgent).mp ⟨outcome, computed⟩

/-- Where the two calls agree, every label's open detection is on one rung. -/
theorem MemoAgrees.harmless {host : Host} {logDir : LogDir} {now : ℚ}
    {ranAgent : Option String} (agrees : MemoAgrees host logDir now ranAgent) (agent : String) :
    LabelHarmless host logDir now agent := by
  obtain ⟨memo, memoRan, memoLookup⟩ :=
    roundScanThrottles_spec host logDir now ranAgent agrees.comparable
  obtain ⟨plain, _, ran, -, plainLookup⟩ := activeThrottles_spec host logDir now none none
  obtain ⟨memo', plain', memoRan', ran', same⟩ := agrees
  cases memoRan.symm.trans memoRan'
  cases ran.symm.trans ran'
  intro detected opened
  have states := same agent
  rw [memoLookup, plainLookup, Option.getD_none, opened] at states
  exact (stateAt_eq_iff host now agent detected _ _).mp states

/-- A timeout detected without an agent name. -/
def agentlessTimeout : Event :=
  [("event", .str transientErrorDetected), ("classification", .str "api_timeout"),
    ("reset_at_epoch", .int 1000), ("round_num", .int 1)]

end AgentRunner.MemoThrottle
