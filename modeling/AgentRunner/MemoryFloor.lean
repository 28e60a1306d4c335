import AgentRunner.MidRound
import AgentRunner.Streak
import Mathlib.Algebra.BigOperators.Group.Finset.Basic

/-! The hard floor of one round, read off its verdicts alone. What a check does depends
on the verdicts before it only through the length of the critical run it continues and
on whether any came before; the brake beside it changes nothing. -/
namespace AgentRunner.MemoryFloor
open MidRound Streak

abbrev Verdict := Option Pressure

def critical (v : Verdict) : Bool := v.any fun p => p.severity = .critical

section Action
variable {cfg : PressureConfig} {deferToCgroup nudged : Bool} {streak : Nat}

theorem midRoundAction_terminate :
    midRoundAction cfg deferToCgroup streak nudged = .terminate ↔ cfg.inRoundTerminate = true ∧
      deferToCgroup = false ∧ cfg.criticalConsecutiveSamples ≤ streak := by
  unfold midRoundAction
  split
  · rename_i sustained
    cases deferToCgroup <;> simp [sustained.1, sustained.2]
  · rename_i brief
    refine iff_of_false ?_ fun all => brief ⟨all.1, all.2.2⟩
    split <;> exact nofun

theorem midRoundAction_defer :
    midRoundAction cfg deferToCgroup streak nudged = .defer ↔ cfg.inRoundTerminate = true ∧
      deferToCgroup = true ∧ cfg.criticalConsecutiveSamples ≤ streak := by
  unfold midRoundAction
  split
  · rename_i sustained
    cases deferToCgroup <;> simp [sustained.1, sustained.2]
  · rename_i brief
    refine iff_of_false ?_ fun all => brief ⟨all.1, all.2.2⟩
    split <;> exact nofun

theorem midRoundAction_nudge : midRoundAction cfg deferToCgroup streak nudged = .nudge ↔
    (cfg.inRoundNudge = true ∧ cfg.inRoundTerminate = true ∧ deferToCgroup = false ∧ streak = 1) ∧
      nudged = false ∧ streak < cfg.criticalConsecutiveSamples := by
  unfold midRoundAction
  split
  · rename_i sustained
    refine iff_of_false ?_ fun all => absurd sustained.2 (Nat.not_le.mpr all.2.2)
    split <;> exact nofun
  · rename_i brief
    split
    · rename_i first
      obtain ⟨nudge, fresh, one, on, keep⟩ := first
      refine iff_of_true rfl ⟨⟨nudge, on, keep, one⟩, fresh, ?_⟩
      exact Nat.not_le.mp fun reached => brief ⟨on, reached⟩
    · rename_i other
      refine iff_of_false nofun fun all => other ?_
      exact ⟨all.1.1, all.2.1, all.1.2.2.2, all.1.2.1, all.1.2.2.1⟩

end Action

/-- Where a nudge can be sent at all. -/
def nudges (cfg : PressureConfig) (deferToCgroup : Bool) : Bool :=
  cfg.inRoundNudge && cfg.inRoundTerminate && !deferToCgroup &&
    decide (1 < cfg.criticalConsecutiveSamples)

/-- The action a check takes after the verdicts `past`. -/
def actionAfter (cfg : PressureConfig) (deferToCgroup : Bool) (past : List Verdict) (v : Verdict) :
    Action :=
  midRoundAction cfg deferToCgroup (trailing critical (past ++ [v]))
    (nudges cfg deferToCgroup && past.any critical)

/-- Whether the run at the end of `past` has already been reported as deferred. -/
def notified (cfg : PressureConfig) (deferToCgroup : Bool) (past : List Verdict) : Bool :=
  cfg.inRoundTerminate && deferToCgroup &&
    decide (cfg.criticalConsecutiveSamples ≤ trailing critical past)

/-- The signals and events of an action. -/
def actionActs (p : Pressure) (streak : Nat) (told : Bool) : Action → List FloorAct
  | .nudge => [.sigterm, memTerminated p streak "nudge"]
  | .terminate => [.terminateRound, memTerminated p streak "terminate"]
  | .defer => if told then [] else [.memPressureDeferredToCgroup p.signal p.message]
  | .countOnly => []

/-- What the floor does with a verdict after the verdicts `past`. -/
def verdictActs (cfg : PressureConfig) (deferToCgroup : Bool) (past : List Verdict) :
    Verdict → List FloorAct
  | none => []
  | some p =>
    if p.severity = .critical then
      let streak := trailing critical (past ++ [some p])
      (if streak ≤ 2 * cfg.criticalConsecutiveSamples then
        [.roundMemCriticalSample streak p.context] else []) ++
        actionActs p streak (notified cfg deferToCgroup past)
          (actionAfter cfg deferToCgroup past (some p))
    else []

/-- The floor's locals after the verdicts `past`. -/
structure After (cfg : PressureConfig) (deferToCgroup : Bool) (past : List Verdict) (f : Floor) :
    Prop where
  streak : f.criticalStreak = trailing critical past
  nudged : f.nudged = (nudges cfg deferToCgroup && past.any critical)
  told : f.cgroupDeferNotified = notified cfg deferToCgroup past

theorem after_start (cfg : PressureConfig) (deferToCgroup : Bool) :
    After cfg deferToCgroup [] .start := by
  refine ⟨rfl, (Bool.and_false _).symm, ?_⟩
  rw [notified, trailing_nil, decide_eq_false (Nat.not_le.mpr cfg.samples_pos), Bool.and_false]
  rfl

section Step
variable {cfg : PressureConfig} {deferToCgroup : Bool} {past : List Verdict} {v : Verdict}

theorem trailing_calm (calm : critical v = false) : trailing critical (past ++ [v]) = 0 := by
  rw [trailing_concat, if_neg (Bool.eq_false_iff.mp calm)]

theorem trailing_critical (hot : critical v = true) :
    trailing critical (past ++ [v]) = trailing critical past + 1 := by
  rw [trailing_concat, if_pos hot]

theorem trailing_quiet (quiet : past.any critical = false) : trailing critical past = 0 := by
  obtain rfl | ⟨front, last, rfl⟩ := List.eq_nil_or_concat past
  · rfl
  · rw [List.any_eq_false] at quiet
    rw [List.concat_eq_append]
    exact trailing_calm (Bool.eq_false_iff.mpr (quiet last (by simp)))

theorem verdictActs_calm (calm : critical v = false) :
    verdictActs cfg deferToCgroup past v = [] := by
  cases v with
  | none => rfl
  | some p =>
    have other : p.severity ≠ .critical := of_decide_eq_false calm
    rw [verdictActs, if_neg other]

theorem action_nudge (v : Verdict) : actionAfter cfg deferToCgroup past v = .nudge ↔
    nudges cfg deferToCgroup = true ∧ past.any critical = false ∧
      trailing critical (past ++ [v]) = 1 := by
  rw [actionAfter, midRoundAction_nudge]
  simp only [nudges, Bool.and_eq_true, Bool.not_eq_true', decide_eq_true_eq]
  constructor
  · rintro ⟨⟨nudge, on, keep, first⟩, quiet, small⟩
    rw [first] at small
    refine ⟨⟨⟨⟨nudge, on⟩, keep⟩, small⟩, ?_, first⟩
    simpa [nudge, on, keep, small] using quiet
  · rintro ⟨⟨⟨⟨nudge, on⟩, keep⟩, small⟩, quiet, first⟩
    exact ⟨⟨nudge, on, keep, first⟩, by rw [quiet, Bool.and_false], by rw [first]; exact small⟩

/-- How far a check gets with what it has `todo`: it ends with that done and the locals
kept up, it ends the round with that done, or it is cut short. -/
def Gets (cfg : PressureConfig) (deferToCgroup : Bool) (past : List Verdict) (v : Verdict)
    (acts todo : List FloorAct) : Except (Left × Floor) Floor → Prop
  | .ok f => f.acts = acts ++ todo ∧ After cfg deferToCgroup (past ++ [v]) f ∧
      ¬ (critical v = true ∧ actionAfter cfg deferToCgroup past v = .terminate)
  | .error (.terminated, f) => f.acts = acts ++ todo ∧
      critical v = true ∧ actionAfter cfg deferToCgroup past v = .terminate
  | .error (.raised, f) => f.acts <+: acts ++ todo

private theorem any_concat : (past ++ [v]).any critical = (past.any critical || critical v) := by
  rw [List.any_append, List.any_cons, List.any_nil, Bool.or_false]

private theorem notified_succ (hot : critical v = true) :
    notified cfg deferToCgroup (past ++ [v]) =
      (notified cfg deferToCgroup past ||
        decide (actionAfter cfg deferToCgroup past v = .defer)) := by
  have next : trailing critical (past ++ [v]) = trailing critical past + 1 := trailing_critical hot
  rw [Bool.eq_iff_iff, Bool.or_eq_true, decide_eq_true_eq, actionAfter, midRoundAction_defer]
  simp only [notified, Bool.and_eq_true, decide_eq_true_eq, next]
  constructor
  · exact fun all => .inr ⟨all.1.1, all.1.2, all.2⟩
  · rintro (all | all)
    · exact ⟨all.1, Nat.le_succ_of_le all.2⟩
    · exact ⟨⟨all.1, all.2.1⟩, all.2.2⟩

theorem Gets.after_act {acts todo : List FloorAct} {act : FloorAct}
    {result : Except (Left × Floor) Floor}
    (gets : Gets cfg deferToCgroup past v (acts ++ [act]) todo result) :
    Gets cfg deferToCgroup past v acts (act :: todo) result := by
  have shift : acts ++ [act] ++ todo = acts ++ act :: todo := by
    rw [List.append_assoc, List.singleton_append]
  match result with
  | .ok f => exact ⟨gets.1.trans shift, gets.2⟩
  | .error (.terminated, f) => exact ⟨gets.1.trans shift, gets.2⟩
  | .error (.raised, f) =>
    have cut : f.acts <+: acts ++ [act] ++ todo := gets
    rw [shift] at cut
    exact cut

/-- A call that may raise, before the rest of what there is to do. -/
theorem Gets.act {f : Floor} {raises : Bool} {act : FloorAct} {todo : List FloorAct}
    {rest : Floor → Except (Left × Floor) Floor}
    (gets : Gets cfg deferToCgroup past v (f.acts ++ [act]) todo
      (rest { f with acts := f.acts ++ [act] })) :
    Gets cfg deferToCgroup past v f.acts (act :: todo) (f.act raises act >>= rest) := by
  cases raises with
  | true => exact List.prefix_append ..
  | false => exact gets.after_act

/-- The last call a check makes. -/
theorem Gets.last_act {f : Floor} {raises : Bool} {act : FloorAct}
    (state : After cfg deferToCgroup (past ++ [v]) { f with acts := f.acts ++ [act] })
    (goes : ¬ (critical v = true ∧ actionAfter cfg deferToCgroup past v = .terminate)) :
    Gets cfg deferToCgroup past v f.acts [act] (f.act raises act) := by
  rw [← bind_pure (f.act raises act)]
  exact Gets.act ⟨(List.append_nil _).symm, state, goes⟩

/-- The action is carried out as far as no call raises. -/
theorem carryOut_gets {p : Pressure} {f : Floor} {raises : Call → Bool}
    (hot : p.severity = .critical)
    (streak : f.criticalStreak = trailing critical (past ++ [some p]))
    (nudged : f.nudged = (nudges cfg deferToCgroup && past.any critical))
    (told : f.cgroupDeferNotified = notified cfg deferToCgroup past) :
    Gets cfg deferToCgroup past (some p) f.acts
      (actionActs p f.criticalStreak (notified cfg deferToCgroup past)
        (actionAfter cfg deferToCgroup past (some p)))
      (carryOut cfg deferToCgroup raises p f.criticalStreak f) := by
  have hot' : critical (some p) = true := decide_eq_true hot
  have action : midRoundAction cfg deferToCgroup f.criticalStreak f.nudged =
      actionAfter cfg deferToCgroup past (some p) := by
    rw [actionAfter, streak, nudged]
  have any : (past ++ [some p]).any critical = true := by rw [any_concat, hot', Bool.or_true]
  have tell : notified cfg deferToCgroup (past ++ [some p]) =
      (notified cfg deferToCgroup past ||
        decide (actionAfter cfg deferToCgroup past (some p) = .defer)) := notified_succ hot'
  rw [carryOut, action]
  cases taken : actionAfter cfg deferToCgroup past (some p) with
  | nudge =>
    obtain ⟨can, -, -⟩ := (action_nudge _).mp taken
    rw [taken] at tell
    refine Gets.act (f := { f with nudged := true }) (Gets.last_act ⟨streak, ?_, ?_⟩ ?_)
    · rw [can, any]
      rfl
    · rw [tell]
      exact told.trans (Bool.or_false _).symm
    · exact fun ended => absurd (taken.symm.trans ended.2) nofun
  | terminate =>
    refine Gets.act (Gets.act ?_)
    exact ⟨(List.append_nil _).symm, hot', taken⟩
  | defer =>
    obtain ⟨-, keep, -⟩ := midRoundAction_defer.mp taken
    have off : nudges cfg deferToCgroup = false := by
      rw [nudges, keep, Bool.not_true, Bool.and_false, Bool.false_and]
    have goes : ¬ (critical (some p) = true ∧
        actionAfter cfg deferToCgroup past (some p) = .terminate) :=
      fun ended => absurd (taken.symm.trans ended.2) nofun
    rw [taken, decide_eq_true rfl, Bool.or_true] at tell
    rw [off, Bool.false_and] at nudged
    have nudged' : f.nudged = (nudges cfg deferToCgroup && (past ++ [some p]).any critical) := by
      rw [off, Bool.false_and, nudged]
    simp only [actionActs, ← told]
    cases already : f.cgroupDeferNotified with
    | true => exact ⟨(List.append_nil _).symm, ⟨streak, nudged', already.trans tell.symm⟩, goes⟩
    | false => exact Gets.act ⟨(List.append_nil _).symm, ⟨streak, nudged', tell.symm⟩, goes⟩
  | countOnly =>
    rw [taken] at tell
    refine ⟨(List.append_nil _).symm, ⟨streak, ?_, ?_⟩, ?_⟩
    · rw [nudged]
      cases can : nudges cfg deferToCgroup with
      | false => rfl
      | true =>
        rw [any, Bool.true_and, Bool.true_and]
        by_contra quiet
        have first : trailing critical (past ++ [some p]) = trailing critical past + 1 :=
          trailing_critical hot'
        rw [trailing_quiet (Bool.eq_false_iff.mpr quiet)] at first
        have nudge := (action_nudge (some p)).mpr ⟨can, Bool.eq_false_iff.mpr quiet, first⟩
        exact absurd (taken.symm.trans nudge) nofun
    · rw [tell]
      exact told.trans (Bool.or_false _).symm
    · exact fun ended => absurd (taken.symm.trans ended.2) nofun

/-- One check of the floor. -/
theorem floorTick_gets {t : Tick} {f : Floor} (state : After cfg deferToCgroup past f) :
    Gets cfg deferToCgroup past t.pressure f.acts
      (verdictActs cfg deferToCgroup past t.pressure) (floorTick cfg deferToCgroup t f) := by
  have calm : critical t.pressure = false → Gets cfg deferToCgroup past t.pressure f.acts
      (verdictActs cfg deferToCgroup past t.pressure)
      (.ok { f with criticalStreak := 0, cgroupDeferNotified := false }) := by
    intro calm
    rw [verdictActs_calm calm]
    refine ⟨(List.append_nil _).symm, ⟨(trailing_calm calm).symm, ?_, ?_⟩, fun ended => ?_⟩
    · rw [any_concat, calm, Bool.or_false]
      exact state.nudged
    · rw [notified, trailing_calm calm, decide_eq_false (Nat.not_le.mpr cfg.samples_pos),
        Bool.and_false]
    · exact absurd ended.1 (Bool.eq_false_iff.mp calm)
  rw [floorTick]
  cases verdict : t.pressure with
  | none =>
    rw [verdict] at calm
    exact calm rfl
  | some p =>
    rw [verdict] at calm
    by_cases hot : p.severity = .critical
    · have hot' : critical (some p) = true := decide_eq_true hot
      have next : f.criticalStreak + 1 = trailing critical (past ++ [some p]) := by
        rw [state.streak, trailing_critical hot']
      simp only [if_pos hot, verdictActs, ← next]
      split
      · refine Gets.act (f := { f with criticalStreak := f.criticalStreak + 1 }) ?_
        exact carryOut_gets (f := { f with criticalStreak := _, acts := _ }) hot next
          state.nudged state.told
      · exact carryOut_gets (f := { f with criticalStreak := _ }) hot next state.nudged state.told
    · simp only [if_neg hot]
      exact calm (decide_eq_false hot)

end Step

/-! ## A round -/

/-- The floor's share of what a check came to. -/
def floorPart : Except (Left × Brake × Floor) (Brake × Floor) → Except (Left × Floor) Floor
  | .ok (_, f) => .ok f
  | .error (left, _, f) => .error (left, f)

def verdicts (begun : List Ticked) : List Verdict := begun.map fun t => t.tick.pressure

theorem tick_gets (scale : Int → Int → Int) (r : Round) (t : Tick) (b : Brake) {past : List Verdict}
    {f : Floor} (state : After r.cfg.pressure r.deferToCgroup past f) :
    Gets r.cfg.pressure r.deferToCgroup past t.pressure f.acts
      (verdictActs r.cfg.pressure r.deferToCgroup past t.pressure)
      (floorPart (tick scale r t b f)) := by
  rw [tick]
  split
  · exact List.prefix_append ..
  split
  · exact List.prefix_append ..
  · have gets := floorTick_gets (t := t) state
    split <;> (rename_i result; rw [result] at gets; exact gets)

/-- Check `i` does what the verdicts up to it say, or as much of it as no call raises;
and the check that ends the round is its last. -/
def Follows (r : Round) (past : List Verdict) (ran : Ran) : Prop :=
  ∀ i t, ran.begun[i]? = some t →
    t.floor <+: verdictActs r.cfg.pressure r.deferToCgroup
      (past ++ (verdicts ran.begun).take i) t.tick.pressure ∧
    (i < ran.done.length → t.floor = verdictActs r.cfg.pressure r.deferToCgroup
        (past ++ (verdicts ran.begun).take i) t.tick.pressure ∧
      (critical t.tick.pressure = true → actionAfter r.cfg.pressure r.deferToCgroup
        (past ++ (verdicts ran.begun).take i) t.tick.pressure = .terminate →
          i + 1 = ran.begun.length))

theorem checks_follow (scale : Int → Int → Int) (r : Round) (ts : List Tick) (b : Brake)
    {past : List Verdict} {f : Floor} (state : After r.cfg.pressure r.deferToCgroup past f) :
    Follows r past (checks scale r ts b f) := by
  induction ts generalizing b past f with
  | nil => exact fun i t found => (by cases found)
  | cons t rest ih =>
    have gets := tick_gets scale r t { b with acts := [] } (f := { f with acts := [] })
      ⟨state.streak, state.nudged, state.told⟩
    rw [checks]
    split
    · rename_i b' f' result
      rw [result] at gets
      obtain ⟨acts, state', goes⟩ := gets
      intro i u found
      cases i with
      | zero =>
        cases found
        simp only [List.take_zero, List.append_nil]
        exact ⟨acts ▸ List.prefix_rfl, fun _ => ⟨acts, fun hot ends => absurd ⟨hot, ends⟩ goes⟩⟩
      | succ i =>
        have later := ih b' state' i u found
        simp only [List.append_assoc, List.singleton_append] at later
        simpa only [Ran.begun, verdicts, List.cons_append, List.map_cons, List.take_succ_cons,
          List.length_cons, Nat.add_lt_add_iff_right, Nat.add_right_cancel_iff] using later
    · rename_i b' f' result
      rw [result] at gets
      obtain ⟨acts, -, -⟩ := gets
      intro i u found
      cases i with
      | zero =>
        cases found
        simp only [List.take_zero, List.append_nil]
        exact ⟨acts ▸ List.prefix_rfl, fun _ => ⟨acts, fun _ _ => rfl⟩⟩
      | succ i => cases found
    · rename_i b' f' result
      rw [result] at gets
      intro i u found
      cases i with
      | zero =>
        cases found
        simp only [List.take_zero, List.append_nil]
        exact ⟨gets, fun inside => absurd inside (Nat.not_lt_zero _)⟩
      | succ i => cases found

/-! ## Counting -/

inductive Kind where
  | sigterm
  | terminateRound
  | sample
  | terminated
  | deferred
  deriving DecidableEq

def kind : FloorAct → Kind
  | .sigterm => .sigterm
  | .terminateRound => .terminateRound
  | .roundMemCriticalSample .. => .sample
  | .roundMemTerminated .. => .terminated
  | .memPressureDeferredToCgroup .. => .deferred

def times (k : Kind) (acts : List FloorAct) : Nat := acts.countP fun act => kind act = k

theorem times_append (k : Kind) (first second : List FloorAct) :
    times k (first ++ second) = times k first + times k second := List.countP_append ..

section Count
variable {cfg : PressureConfig} {deferToCgroup : Bool} {past : List Verdict} {v : Verdict}

theorem critical_iff : critical v = true ↔ ∃ p, v = some p ∧ p.severity = .critical := by
  rw [critical, Option.any_eq_true]
  simp only [decide_eq_true_eq]

/-- A count over one check, from its count over the action. -/
theorem times_verdictActs (k : Kind) {p : Pressure} (hot : p.severity = .critical) :
    times k (verdictActs cfg deferToCgroup past (some p)) =
      (if k = .sample ∧
        trailing critical (past ++ [some p]) ≤ 2 * cfg.criticalConsecutiveSamples then 1 else 0) +
      times k (actionActs p (trailing critical (past ++ [some p]))
        (notified cfg deferToCgroup past) (actionAfter cfg deferToCgroup past (some p))) := by
  simp only [verdictActs, if_pos hot, times_append]
  congr 1
  split
  · rename_i small
    simp only [small, and_true]
    cases k <;> rfl
  · rename_i large
    rw [if_neg fun both => large both.2]
    rfl

theorem times_calm (k : Kind) (calm : critical v = false) :
    times k (verdictActs cfg deferToCgroup past v) = 0 := by
  rw [verdictActs_calm calm]
  rfl

/-- A kind other than the sample is counted by the action alone. -/
theorem times_of_action {k : Kind} (other : k ≠ .sample) {c : Prop} [Decidable c]
    (counts : ∀ p streak told, told = notified cfg deferToCgroup past → critical v = true →
      times k (actionActs p streak told (actionAfter cfg deferToCgroup past v)) =
        if c then 1 else 0) :
    times k (verdictActs cfg deferToCgroup past v) = if critical v = true ∧ c then 1 else 0 := by
  cases hot : critical v with
  | false => rw [times_calm k hot, if_neg fun both => Bool.false_ne_true both.1]
  | true =>
    obtain ⟨p, rfl, severe⟩ := critical_iff.mp hot
    rw [times_verdictActs k severe, if_neg fun both => other both.1, Nat.zero_add,
      counts _ _ _ rfl hot]
    simp only [true_and]

theorem times_sample : times .sample (verdictActs cfg deferToCgroup past v) =
    if critical v = true ∧
      trailing critical (past ++ [v]) ≤ 2 * cfg.criticalConsecutiveSamples then 1 else 0 := by
  cases hot : critical v with
  | false => rw [times_calm .sample hot, if_neg fun both => Bool.false_ne_true both.1]
  | true =>
    obtain ⟨p, rfl, severe⟩ := critical_iff.mp hot
    have none_ : ∀ streak told action, times .sample (actionActs p streak told action) = 0 := by
      intro streak told action
      cases action <;> cases told <;> rfl
    rw [times_verdictActs .sample severe, none_, Nat.add_zero]
    exact if_congr (and_congr_left' (iff_of_true rfl rfl)) rfl rfl

theorem times_sigterm : times .sigterm (verdictActs cfg deferToCgroup past v) =
    if critical v = true ∧ actionAfter cfg deferToCgroup past v = .nudge then 1 else 0 := by
  refine times_of_action (k := .sigterm) nofun fun p streak told _ _ => ?_
  cases actionAfter cfg deferToCgroup past v <;> cases told <;> rfl

theorem times_terminateRound : times .terminateRound (verdictActs cfg deferToCgroup past v) =
    if critical v = true ∧ actionAfter cfg deferToCgroup past v = .terminate then 1 else 0 := by
  refine times_of_action (k := .terminateRound) nofun fun p streak told _ _ => ?_
  cases actionAfter cfg deferToCgroup past v <;> cases told <;> rfl

/-- A run is reported as deferred at the check that makes it long enough. -/
theorem times_deferred : times .deferred (verdictActs cfg deferToCgroup past v) =
    if critical v = true ∧ cfg.inRoundTerminate = true ∧ deferToCgroup = true ∧
      trailing critical (past ++ [v]) = cfg.criticalConsecutiveSamples then 1 else 0 := by
  refine times_of_action (k := .deferred) nofun fun p streak told same hot => ?_
  have next : trailing critical (past ++ [v]) = trailing critical past + 1 := trailing_critical hot
  have first : actionAfter cfg deferToCgroup past v = .defer ∧ told = false ↔
      cfg.inRoundTerminate = true ∧ deferToCgroup = true ∧
        trailing critical (past ++ [v]) = cfg.criticalConsecutiveSamples := by
    rw [actionAfter, midRoundAction_defer, same, notified]
    constructor
    · rintro ⟨⟨on, keep, long⟩, fresh⟩
      refine ⟨on, keep, ?_⟩
      rw [on, keep, Bool.true_and, Bool.true_and, decide_eq_false_iff_not] at fresh
      omega
    · rintro ⟨on, keep, exact_⟩
      refine ⟨⟨on, keep, by omega⟩, ?_⟩
      rw [on, keep, Bool.true_and, Bool.true_and, decide_eq_false_iff_not]
      omega
  rw [← if_congr first rfl rfl]
  cases actionAfter cfg deferToCgroup past v <;> cases told <;> rfl

end Count

/-! ## The law of a round -/

/-- Verdict `i` is the first to complete a sustained critical run, and such a run ends
the round. -/
def Floored (r : Round) (vs : List Verdict) (i : Nat) : Prop :=
  r.cfg.pressure.inRoundTerminate = true ∧ r.deferToCgroup = false ∧
    Recent r.cfg.pressure.criticalConsecutiveSamples critical vs i ∧
    ∀ j < i, ¬ Recent r.cfg.pressure.criticalConsecutiveSamples critical vs j

/-- Critical checks in a row, from the first of them on. -/
def CriticalRun (done run : List Ticked) : Prop :=
  ∃ before after, done = before ++ run ++ after ∧
    (∀ t ∈ run, critical t.tick.pressure = true) ∧
    ∀ t ∈ before.getLast?, critical t.tick.pressure = false

section Law
variable {r : Round} {ran : Ran}

/-- The length of the critical run that check `i` continues. -/
def streakAt (ran : Ran) (i : Nat) : Nat := trailing critical ((verdicts ran.begun).take (i + 1))

theorem verdicts_here {begun : List Ticked} {i : Nat} {t : Ticked} (found : begun[i]? = some t) :
    (verdicts begun).take (i + 1) = (verdicts begun).take i ++ [t.tick.pressure] := by
  rw [List.take_add_one, verdicts, List.getElem?_map, found]
  rfl

theorem streakAt_here {i : Nat} {t : Ticked} (found : ran.begun[i]? = some t) :
    trailing critical ((verdicts ran.begun).take i ++ [t.tick.pressure]) = streakAt ran i := by
  rw [streakAt, verdicts_here found]

theorem critical_of_streak {i : Nat} {t : Ticked} (found : ran.begun[i]? = some t)
    (positive : 0 < streakAt ran i) : critical t.tick.pressure = true := by
  by_contra calm
  rw [← streakAt_here found, trailing_calm (Bool.eq_false_iff.mpr calm)] at positive
  exact Nat.lt_irrefl _ positive

theorem recent_iff {i : Nat} {t : Ticked} (found : ran.begun[i]? = some t) (n : Nat) :
    Recent n critical (verdicts ran.begun) i ↔ n ≤ streakAt ran i := by
  obtain ⟨inside, -⟩ := List.getElem?_eq_some_iff.mp found
  exact recent_iff_trailing n critical _ i (by rw [verdicts, List.length_map]; exact inside)

/-- What a check does at most, and does if no call raises. -/
theorem times_here (follows : Follows r [] ran) (k : Kind) {i : Nat} {t : Ticked}
    (found : ran.begun[i]? = some t) :
    times k t.floor ≤ times k (verdictActs r.cfg.pressure r.deferToCgroup
        ((verdicts ran.begun).take i) t.tick.pressure) ∧
      (i < ran.done.length → times k t.floor = times k (verdictActs r.cfg.pressure r.deferToCgroup
        ((verdicts ran.begun).take i) t.tick.pressure)) := by
  obtain ⟨cut, done⟩ := follows i t found
  exact ⟨cut.sublist.countP_le, fun inside => congrArg (times k) (done inside).1⟩

/-- A check before another one has run to its end. -/
theorem done_before {i j : Nat} {t : Ticked} (found : ran.begun[i]? = some t) (before : j < i) :
    j < ran.done.length ∧ ∃ u, ran.begun[j]? = some u := by
  obtain ⟨inside, -⟩ := List.getElem?_eq_some_iff.mp found
  have length : ran.begun.length = ran.done.length + ran.cut.toList.length := List.length_append
  have few : ran.cut.toList.length ≤ 1 := by cases ran.cut <;> simp
  exact ⟨by omega, _, List.getElem?_eq_getElem (by omega)⟩

private theorem of_counted {n : Nat} {c : Prop} [Decidable c] (some_ : 0 < n)
    (most : n ≤ if c then 1 else 0) : c := by
  by_contra other
  rw [if_neg other] at most
  exact Nat.not_lt.mpr most some_

/-- **(a)** The round is ended by the check that first completes a sustained run. -/
theorem terminated_at (follows : Follows r [] ran) {i : Nat} {t : Ticked}
    (found : ran.begun[i]? = some t) :
    (0 < times .terminateRound t.floor → Floored r (verdicts ran.begun) i) ∧
      (i < ran.done.length → Floored r (verdicts ran.begun) i →
        times .terminateRound t.floor = 1 ∧ i + 1 = ran.begun.length) := by
  have positive := r.cfg.pressure.samples_pos
  have ends : ∀ {j u}, ran.begun[j]? = some u → r.cfg.pressure.inRoundTerminate = true →
      r.deferToCgroup = false →
      Recent r.cfg.pressure.criticalConsecutiveSamples critical (verdicts ran.begun) j →
      critical u.tick.pressure = true ∧ actionAfter r.cfg.pressure r.deferToCgroup
        ((verdicts ran.begun).take j) u.tick.pressure = .terminate := by
    intro j u there on keep recent
    have long := (recent_iff there _).mp recent
    refine ⟨critical_of_streak there (by omega), midRoundAction_terminate.mpr ⟨on, keep, ?_⟩⟩
    rw [streakAt_here there]
    exact long
  obtain ⟨most, exact_⟩ := times_here follows .terminateRound found
  rw [times_terminateRound] at most exact_
  constructor
  · intro acted
    obtain ⟨on, keep, long⟩ := midRoundAction_terminate.mp (of_counted acted most).2
    rw [streakAt_here found] at long
    refine ⟨on, keep, (recent_iff found _).mpr long, fun j before recent => ?_⟩
    obtain ⟨done, u, there⟩ := done_before found before
    obtain ⟨hot, ended⟩ := ends there on keep recent
    have last := ((follows j u there).2 done).2 hot ended
    obtain ⟨inside, -⟩ := List.getElem?_eq_some_iff.mp found
    omega
  · rintro inside ⟨on, keep, recent, -⟩
    obtain ⟨hot, ended⟩ := ends found on keep recent
    exact ⟨(exact_ inside).trans (if_pos ⟨hot, ended⟩), ((follows i t found).2 inside).2 hot ended⟩

/-- **(b)** A nudge opens a critical run, where nudges are sent at all. -/
theorem nudged_at (follows : Follows r [] ran) {i : Nat} {t : Ticked}
    (found : ran.begun[i]? = some t) (acted : 0 < times .sigterm t.floor) :
    nudges r.cfg.pressure r.deferToCgroup = true ∧
      ((verdicts ran.begun).take i).any critical = false ∧ streakAt ran i = 1 := by
  obtain ⟨most, -⟩ := times_here follows .sigterm found
  rw [times_sigterm] at most
  obtain ⟨-, nudge⟩ := of_counted acted most
  rw [← streakAt_here found]
  exact (action_nudge _).mp nudge

/-- What only comes with the first critical check comes at most once. -/
private theorem at_most_once (k : Kind) (begun : List Ticked)
    (one : ∀ t ∈ begun, times k t.floor ≤ 1)
    (first : ∀ (i : Nat) (t : Ticked), begun[i]? = some t → 0 < times k t.floor →
      critical t.tick.pressure = true ∧ ((verdicts begun).take i).any critical = false) :
    times k (begun.flatMap Ticked.floor) ≤ 1 := by
  induction begun using List.reverseRecOn with
  | nil => exact Nat.zero_le _
  | append_singleton begun t ih =>
    have earlier : ∀ (i : Nat) (u : Ticked), begun[i]? = some u → 0 < times k u.floor →
        critical u.tick.pressure = true ∧ ((verdicts begun).take i).any critical = false := by
      intro i u found acted
      obtain ⟨inside, -⟩ := List.getElem?_eq_some_iff.mp found
      have here := first i u (by rw [List.getElem?_append_left inside, found]) acted
      rwa [verdicts, List.map_append,
        List.take_append_of_le_length (by rw [List.length_map]; omega)] at here
    have total := ih (fun u member => one u (List.mem_append_left _ member)) earlier
    rw [List.flatMap_append, List.flatMap_singleton, times_append]
    by_cases acted : 0 < times k t.floor
    · obtain ⟨-, quiet⟩ := first begun.length t List.getElem?_concat_length acted
      rw [verdicts, List.map_append, List.take_left' (List.length_map ..)] at quiet
      have none_ : times k (begun.flatMap Ticked.floor) = 0 := by
        rw [times, List.countP_eq_zero]
        intro act member same
        obtain ⟨u, held, inside⟩ := List.mem_flatMap.mp member
        obtain ⟨i, within, here⟩ := List.getElem_of_mem held
        obtain ⟨hot, -⟩ := earlier i u (List.getElem?_eq_some_iff.mpr ⟨within, here⟩)
          (List.countP_pos_iff.mpr ⟨act, inside, same⟩)
        rw [List.any_eq_false] at quiet
        exact quiet _ (List.mem_map_of_mem held) hot
      rw [none_, Nat.zero_add]
      exact one t (by simp)
    · omega

/-- What a critical run leaves, from what its checks leave by their place in it. -/
private theorem times_run (follows : Follows r [] ran) {run : List Ticked}
    (critical_ : CriticalRun ran.done run) (k : Kind) (g : Nat → Nat)
    (counts : ∀ i t, ran.begun[i]? = some t → critical t.tick.pressure = true →
      times k (verdictActs r.cfg.pressure r.deferToCgroup ((verdicts ran.begun).take i)
        t.tick.pressure) = g (streakAt ran i)) :
    times k (run.flatMap Ticked.floor) = ∑ j ∈ Finset.range run.length, g (j + 1) := by
  obtain ⟨before, after, split_, all, fresh⟩ := critical_
  induction run using List.reverseRecOn generalizing after with
  | nil => rfl
  | append_singleton run t ih =>
    have inner := ih (t :: after) (by rw [split_]; simp)
      fun u member => all u (List.mem_append_left _ member)
    have shape : ran.begun = (before ++ run) ++ t :: (after ++ ran.cut.toList) := by
      rw [Ran.begun, split_]
      simp
    have found : ran.begun[(before ++ run).length]? = some t := by
      rw [shape, List.getElem?_append_right (le_refl _), Nat.sub_self]
      rfl
    have done : (before ++ run).length < ran.done.length := by
      rw [split_]
      simp only [List.length_append, List.length_singleton]
      omega
    have streak : streakAt ran (before ++ run).length = run.length + 1 := by
      have upTo : (verdicts ran.begun).take ((before ++ run).length + 1) =
          verdicts before ++ verdicts (run ++ [t]) := by
        have front : (verdicts ran.begun).take (before ++ run).length =
            verdicts (before ++ run) := by
          rw [shape, verdicts, List.map_append]
          exact List.take_left' (List.length_map _)
        rw [verdicts_here found, front, verdicts, verdicts, verdicts, List.map_append,
          List.map_append, List.append_assoc]
        rfl
      rw [streakAt, upTo, trailing_run, verdicts, List.length_map, List.length_append]
      · rfl
      · intro v member
        obtain ⟨u, held, rfl⟩ := List.mem_map.mp member
        exact all u held
      · intro v last
        rw [verdicts, List.getLast?_map] at last
        obtain ⟨u, held, rfl⟩ := Option.mem_map.mp last
        exact fresh u held
    rw [List.flatMap_append, List.flatMap_singleton, times_append, inner, List.length_append,
      List.length_singleton, Finset.sum_range_succ, (times_here follows k found).2 done,
      counts _ t found (all t (by simp)), streak]

end Law

private theorem sum_upTo (m n : Nat) :
    (∑ j ∈ Finset.range n, if j + 1 ≤ m then 1 else 0) = min n m := by
  induction n with
  | zero => simp
  | succ n ih =>
    rw [Finset.sum_range_succ, ih]
    split <;> omega

private theorem sum_at (m n : Nat) (c : Prop) [Decidable c] (positive : 0 < m) :
    (∑ j ∈ Finset.range n, if c ∧ j + 1 = m then 1 else 0) = if c ∧ m ≤ n then 1 else 0 := by
  induction n with
  | zero =>
    rw [if_neg fun both => absurd both.2 (Nat.not_le.mpr positive)]
    rfl
  | succ n ih =>
    rw [Finset.sum_range_succ, ih]
    by_cases held : c
    · simp only [held, true_and]
      repeat' split
      all_goals omega
    · simp only [held, false_and, if_false]

end AgentRunner.MemoryFloor
