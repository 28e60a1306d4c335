import AgentRunner.BackOff
import AgentRunner.ThrottleViews
import Mathlib.Tactic.Linarith

/-! When `_apply_back_off` announces a recovery. The wait ends at the adjusted
reset plus jitter, or after the eight-hour cap; whether that is late enough for
the ladder-extended reset of the skip path depends on two anchors, the emitter's
reset for the one and the clock at the call for the other. -/
namespace AgentRunner.RecoveryTiming
open PyValue Events Throttle ThrottleViews BackOff

/-! ## The clock and the chunked sleep -/

/-- The clock moves only while the call sleeps, and nobody asks it to stop. -/
def Steady (s : Surroundings) : Prop := (∀ i, s.drift i = 0) ∧ ∀ i, s.stop i = false

@[simp] theorem epoch_fst (s : Surroundings) (w : World) :
    (w.epoch s).1 = (w.epoch s).2.time := rfl

@[simp] theorem epoch_emitted (s : Surroundings) (w : World) :
    (w.epoch s).2.emitted = w.emitted := rfl

@[simp] theorem sleep_emitted (s : Surroundings) (n : ℚ) (w : World) :
    (w.sleep s n).emitted = w.emitted := rfl

@[simp] theorem emit_time (e : Emission) (w : World) : (w.emit e).time = w.time := rfl

theorem epoch_forward (s : Surroundings) (w : World) : w.time ≤ (w.epoch s).2.time := by
  have := s.forward w.ops
  simp only [World.epoch]
  linarith

theorem epoch_steady {s : Surroundings} (steady : Steady s) (w : World) :
    (w.epoch s).2.time = w.time := by
  simp [World.epoch, steady.1]

theorem sleep_forward (s : Surroundings) (n : ℚ) (w : World) :
    w.time + n ≤ (w.sleep s n).time := by
  have := s.forward w.ops
  simp only [World.sleep]
  linarith

theorem sleep_steady {s : Surroundings} (steady : Steady s) (n : ℚ) (w : World) :
    (w.sleep s n).time = w.time + n := by
  simp [World.sleep, steady.1]

/-- What a chunk boundary can do: it appends nothing, the clock moves on, and a
completed sleep has reached its deadline. -/
theorem boundary_spec (s : Surroundings) (deadlineEpoch : Option ℚ) (w : World) :
    (boundary s deadlineEpoch w).2.emitted = w.emitted ∧
      w.time ≤ (boundary s deadlineEpoch w).2.time ∧
      ((boundary s deadlineEpoch w).1 = some false →
        ∃ deadline, deadlineEpoch = some deadline ∧
          deadline ≤ (boundary s deadlineEpoch w).2.time) := by
  by_cases stopped : s.stop w.checks = true
  · simp [boundary, World.stopped, stopped]
  · cases deadlineEpoch with
    | none => simp [boundary, World.stopped, stopped]
    | some deadline =>
      have forward := epoch_forward s { w with checks := w.checks + 1 }
      by_cases reached : deadline ≤ (World.epoch s { w with checks := w.checks + 1 }).1
      · simp only [boundary, World.stopped, stopped, reached, if_true, Bool.false_eq_true, if_false]
        exact ⟨rfl, forward, fun _ => ⟨deadline, rfl, reached⟩⟩
      · simp only [boundary, World.stopped, stopped, reached, Bool.false_eq_true, if_false]
        exact ⟨rfl, forward, by simp⟩

theorem boundary_steady {s : Surroundings} (steady : Steady s) (deadlineEpoch : Option ℚ)
    (w : World) : (boundary s deadlineEpoch w).2.time = w.time ∧
      (boundary s deadlineEpoch w).1 ≠ some true := by
  simp only [boundary, World.stopped, steady.2, Bool.false_eq_true, if_false]
  cases deadlineEpoch with
  | none => simp
  | some deadline =>
    dsimp only
    split <;> exact ⟨epoch_steady steady _, by simp⟩

/-- A sleep appends nothing and the clock moves on; one that completes has slept
its duration out or reached its deadline. -/
theorem interruptibleSleep_spec (s : Surroundings) (chunkS : ℕ+) (deadlineEpoch : Option ℚ)
    (remaining : ℚ) (w : World) :
    (interruptibleSleep s chunkS deadlineEpoch remaining w).2.emitted = w.emitted ∧
      w.time ≤ (interruptibleSleep s chunkS deadlineEpoch remaining w).2.time ∧
      ((interruptibleSleep s chunkS deadlineEpoch remaining w).1 = false →
        w.time + remaining ≤ (interruptibleSleep s chunkS deadlineEpoch remaining w).2.time ∨
          ∃ deadline, deadlineEpoch = some deadline ∧
            deadline ≤ (interruptibleSleep s chunkS deadlineEpoch remaining w).2.time) := by
  induction remaining, w using interruptibleSleep.induct s chunkS deadlineEpoch with
  | case1 remaining w positive result after ended =>
    have spec := boundary_spec s deadlineEpoch w
    rw [interruptibleSleep, if_pos positive, ended]
    rw [ended] at spec
    exact ⟨spec.1, spec.2.1, fun completed => .inr (spec.2.2 (by simpa using completed))⟩
  | case2 remaining w positive after passed nap ih =>
    have spec := boundary_spec s deadlineEpoch w
    rw [interruptibleSleep, if_pos positive, passed]
    rw [passed] at spec
    obtain ⟨silent, forward, ends⟩ := ih
    have slept := sleep_forward s nap after
    have napped : 0 ≤ nap := le_min (by exact_mod_cast chunkS.pos.le) positive.le
    refine ⟨silent.trans spec.1, by linarith [spec.2.1], fun completed => ?_⟩
    rcases ends completed with slept' | reached
    · exact .inl (by linarith [spec.2.1])
    · exact .inr reached
  | case3 remaining w spent =>
    rw [interruptibleSleep, if_neg spent]
    exact ⟨rfl, le_refl _, fun _ => .inl (by linarith [not_lt.mp spent])⟩

/-- On a steady clock a sleep completes, and takes no longer than its duration. -/
theorem interruptibleSleep_steady {s : Surroundings} (steady : Steady s) (chunkS : ℕ+)
    (deadlineEpoch : Option ℚ) (remaining : ℚ) (w : World) :
    (interruptibleSleep s chunkS deadlineEpoch remaining w).1 = false ∧
      (interruptibleSleep s chunkS deadlineEpoch remaining w).2.time ≤
        w.time + max remaining 0 := by
  induction remaining, w using interruptibleSleep.induct s chunkS deadlineEpoch with
  | case1 remaining w positive result after ended =>
    have still := boundary_steady steady deadlineEpoch w
    rw [interruptibleSleep, if_pos positive, ended]
    rw [ended] at still
    refine ⟨by simpa using still.2, ?_⟩
    linarith [still.1, le_max_right remaining 0]
  | case2 remaining w positive after passed nap ih =>
    have still := boundary_steady steady deadlineEpoch w
    rw [interruptibleSleep, if_pos positive, passed]
    rw [passed] at still
    refine ⟨ih.1, ih.2.trans ?_⟩
    have left : 0 ≤ remaining - nap := sub_nonneg.mpr (min_le_right _ _)
    rw [sleep_steady steady, max_eq_left left, max_eq_left positive.le]
    linarith [still.1]
  | case3 remaining w spent =>
    rw [interruptibleSleep, if_neg spent]
    exact ⟨rfl, by linarith [le_max_right remaining 0]⟩

/-! ## One call -/

/-- The recoveries announced so far. -/
def recoveries (w : World) : List Recovered :=
  w.emitted.filterMap fun
    | .recovered payload => some payload
    | .backoffCapped _ => none

@[simp] theorem recoveries_start (time : ℚ) : recoveries (World.start time) = [] := rfl

@[simp] theorem recoveries_capped (payload : BackoffCapped) (w : World) :
    recoveries (w.emit (.backoffCapped payload)) = recoveries w := by
  simp [recoveries, World.emit]

@[simp] theorem recoveries_recovered (payload : Recovered) (w : World) :
    recoveries (w.emit (.recovered payload)) = recoveries w ++ [payload] := by
  simp [recoveries, World.emit]

/-- The raw reset a call re-reads when the clock shows `now`. -/
def rereadReset (host : Host) (logDir : LogDir) (throttle : TransientErrorState) (now : ℚ) : Int :=
  match latestUnrecoveredDetected logDir with
  | none => throttle.resetAtEpoch
  | some detected =>
    if agentLabel host detected = throttle.agent then
      coercedEpoch host (get detected "reset_at_epoch") throttle.resetAtEpoch now
    else throttle.resetAtEpoch

/-- The wait the supervisor applies at an exponent, cap included. -/
def appliedDuration (base n : Nat) : Nat := min (base * 2 ^ min n expCap) absoluteCapS

/-- The reset a call adjusts to when the clock shows `now`. -/
def adjustedReset (host : Host) (logDir : LogDir) (classification agent : String) (raw : Int)
    (now : ℚ) : Int :=
  match backOffDefaults classification with
  | none => raw
  | some base => trunc now + appliedDuration base (backoffExponent host logDir agent)

theorem rawResetAt_spec (host : Host) (s : Surroundings) (logDir : LogDir)
    (throttle : TransientErrorState) (w : World) :
    ∃ after, rawResetAt host s logDir throttle w =
        .ok (rereadReset host logDir throttle after.time, after) ∧
      recoveries after = recoveries w ∧ w.time ≤ after.time ∧
        (Steady s → after.time = w.time) := by
  unfold rawResetAt rereadReset
  cases latestUnrecoveredDetected logDir with
  | none => exact ⟨w, rfl, rfl, le_refl _, fun _ => rfl⟩
  | some detected =>
    dsimp only
    split
    · refine ⟨(w.epoch s).2, ?_, rfl, epoch_forward s w, fun steady => epoch_steady steady w⟩
      simp only [epoch_fst, coerceEpochInt_returns, bind, Except.bind, pure, Except.pure]
    · exact ⟨w, rfl, rfl, le_refl _, fun _ => rfl⟩

/-- A classification with a ladder is not the account limit. -/
theorem ladder_not_account {classification : String} {base : Nat}
    (ladder : backOffDefaults classification = some base) :
    classification ≠ "rate_limit_account" := by
  rintro rfl
  simp [backOffDefaults] at ladder

theorem computeAdjustedResetAt_spec (host : Host) (s : Surroundings) (classification : String)
    (raw : Int) (agent : String) (logDir : LogDir) (w : World) :
    ∃ count capped after, computeAdjustedResetAt host s classification raw agent logDir w =
        ((adjustedReset host logDir classification agent raw after.time, count, capped), after) ∧
      recoveries after = recoveries w ∧ w.time ≤ after.time ∧
        (Steady s → after.time = w.time) := by
  unfold computeAdjustedResetAt adjustedReset
  cases ladder : backOffDefaults classification with
  | none => exact ⟨0, false, w, rfl, rfl, le_refl _, fun _ => rfl⟩
  | some base =>
    simp only [if_neg (ladder_not_account ladder), epoch_fst, appliedDuration]
    split
    · exact ⟨_, _, World.emit _ (w.epoch s).2, rfl, recoveries_capped .., epoch_forward s w,
        fun steady => epoch_steady steady w⟩
    · exact ⟨_, _, (w.epoch s).2, rfl, rfl, epoch_forward s w, fun steady => epoch_steady steady w⟩

/-- The instant a call aims at, from the clock readings its two anchors took. -/
def deadlineAt (host : Host) (logDir : LogDir) (throttle : TransientErrorState) (jitter : Jitter)
    (reread anchored : ℚ) : ℚ :=
  adjustedReset host logDir throttle.classification throttle.agent
    (rereadReset host logDir throttle reread) anchored + jitter.seconds

/-- How long a call sleeps whose deadline is `requested` ahead. -/
def sleepFor (requested : ℚ) : ℚ :=
  if (backOffCapS : ℚ) < requested then backOffCapS else max requested 0

theorem sleepFor_nonneg (requested : ℚ) : 0 ≤ sleepFor requested := by
  unfold sleepFor
  split
  · exact Nat.cast_nonneg _
  · exact le_max_right _ _

theorem settledSleep_spec (throttle : TransientErrorState) (requested : ℚ) (w : World) :
    ∃ after, settledSleep throttle requested w = (sleepFor requested, after) ∧
      recoveries after = recoveries w ∧ after.time = w.time := by
  unfold settledSleep sleepFor
  split
  · exact ⟨_, rfl, recoveries_capped .., rfl⟩
  · exact ⟨w, rfl, rfl, rfl⟩

/-- The sleep and the announcement after it: a completed sleep of a nonnegative
duration ends in one recovery, written once the duration or the deadline is past. -/
theorem sleepThenAnnounce_spec (s : Surroundings) (throttle : TransientErrorState) (chunkS : ℕ+)
    (deadlineEpoch sleepS : ℚ) (w : World) (duration : 0 ≤ sleepS) :
    ∃ interrupted after, sleepThenAnnounce s throttle chunkS deadlineEpoch sleepS w =
        (interrupted, after) ∧
      (Steady s → interrupted = false) ∧
      (interrupted = true → recoveries after = recoveries w) ∧
      (interrupted = false → ∃ e, recoveries after = recoveries w ++ [e] ∧
        e.agent = throttle.agent ∧ e.classification = throttle.classification ∧
        w.time ≤ e.writtenAt ∧ (w.time + sleepS ≤ e.writtenAt ∨ deadlineEpoch ≤ e.writtenAt) ∧
        (Steady s → e.writtenAt ≤ w.time + sleepS)) := by
  have begins := epoch_forward s w
  have spec := interruptibleSleep_spec s chunkS (some deadlineEpoch) sleepS (w.epoch s).2
  have steady := fun still : Steady s =>
    interruptibleSleep_steady still chunkS (some deadlineEpoch) sleepS (w.epoch s).2
  unfold sleepThenAnnounce
  simp only
  cases slept : interruptibleSleep s chunkS (some deadlineEpoch) sleepS (w.epoch s).2 with
  | mk interrupted after =>
    rw [slept] at spec steady
    obtain ⟨silent, forward, ends⟩ := spec
    simp only at silent forward ends steady
    cases interrupted with
    | true =>
      refine ⟨true, after, rfl, fun still => (steady still).1, fun _ => ?_, by simp⟩
      rw [recoveries, silent]
      rfl
    | false =>
      have closes := epoch_forward s after
      refine ⟨false, _, rfl, fun _ => rfl, by simp, fun _ =>
        ⟨⟨throttle.classification, throttle.agent, elapsedS (w.epoch s).1 (after.epoch s).1,
          (after.epoch s).2.time⟩, ?_, rfl, rfl, ?_, ?_, ?_⟩⟩
      · rw [recoveries_recovered, recoveries, epoch_emitted, silent]
        rfl
      · exact begins.trans (forward.trans closes)
      · rcases ends rfl with spent | ⟨deadline, same, reached⟩
        · exact .inl (by linarith)
        · cases same
          exact .inr (reached.trans closes)
      · intro still
        have took := (steady still).2
        rw [max_eq_left duration, epoch_steady still] at took
        exact (epoch_steady still after).le.trans took

/-- What one call does. It always returns. Interrupted, it announces nothing;
otherwise it announces one recovery, of its own throttle, once its deadline is
reached or its capped sleep is over. On a steady clock it is not interrupted and
announces no later than its sleep takes. -/
theorem applyBackOff_spec (host : Host) (s : Surroundings) (logDir : LogDir)
    (throttle : TransientErrorState) (jitter : Jitter) (chunkS : ℕ+) (w : World) :
    ∃ interrupted after reread anchored asked,
      applyBackOff host s logDir throttle jitter chunkS w = .ok (interrupted, after) ∧
      w.time ≤ reread ∧ reread ≤ anchored ∧ anchored ≤ asked ∧
      (Steady s → interrupted = false ∧ reread = w.time ∧ anchored = w.time ∧ asked = w.time) ∧
      (interrupted = true → recoveries after = recoveries w) ∧
      (interrupted = false → ∃ e, recoveries after = recoveries w ++ [e] ∧
        e.agent = throttle.agent ∧ e.classification = throttle.classification ∧
        asked ≤ e.writtenAt ∧
        (deadlineAt host logDir throttle jitter reread anchored ≤ e.writtenAt ∨
          asked + backOffCapS ≤ e.writtenAt) ∧
        (Steady s → e.writtenAt ≤ asked +
          sleepFor (deadlineAt host logDir throttle jitter reread anchored - asked))) := by
  obtain ⟨w₁, rereads, silent₁, forward₁, steady₁⟩ := rawResetAt_spec host s logDir throttle w
  obtain ⟨count, capped, w₂, adjusts, silent₂, forward₂, steady₂⟩ :=
    computeAdjustedResetAt_spec host s throttle.classification
      (rereadReset host logDir throttle w₁.time) throttle.agent logDir w₁
  have forward₃ := epoch_forward s w₂
  obtain ⟨deadline, aimed⟩ : ∃ deadline,
      deadlineAt host logDir throttle jitter w₁.time w₂.time = deadline := ⟨_, rfl⟩
  have target : (adjustedReset host logDir throttle.classification throttle.agent
      (rereadReset host logDir throttle w₁.time) w₂.time : ℚ) + jitter.seconds = deadline := aimed
  obtain ⟨w₃, settles, silent₃, same₃⟩ :=
    settledSleep_spec throttle (deadline - (w₂.epoch s).2.time) (w₂.epoch s).2
  obtain ⟨interrupted, after, ends, completes, silent, announces⟩ :=
    sleepThenAnnounce_spec s throttle chunkS deadline
      (sleepFor (deadline - (w₂.epoch s).2.time)) w₃ (sleepFor_nonneg _)
  have ran : applyBackOff host s logDir throttle jitter chunkS w = .ok (interrupted, after) := by
    simp only [applyBackOff, rereads, bind, Except.bind, adjusts, epoch_fst, target, settles, ends]
    rfl
  refine ⟨interrupted, after, w₁.time, w₂.time, (w₂.epoch s).2.time, ran, forward₁, forward₂,
    forward₃, ?_, ?_, ?_⟩
  · intro still
    have first := steady₁ still
    have second := steady₂ still
    exact ⟨completes still, first, by rw [second, first], by rw [epoch_steady still, second, first]⟩
  · intro stopped
    rw [silent stopped, silent₃, ← silent₁, ← silent₂]
    rfl
  · intro completed
    obtain ⟨e, announced, agent, classification, begun, late, early⟩ := announces completed
    rw [same₃] at begun late early
    rw [aimed]
    refine ⟨e, ?_, agent, classification, begun, ?_, early⟩
    · rw [announced, silent₃, ← silent₁, ← silent₂]
      rfl
    · rcases late with slept | reached
      · unfold sleepFor at slept
        split at slept
        · exact .inr slept
        · exact .inl (by linarith [le_max_left (deadline - (w₂.epoch s).2.time) 0])
      · exact .inl reached

end AgentRunner.RecoveryTiming
