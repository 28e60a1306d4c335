import AgentRunner.RecoveryTiming
import Mathlib.Data.List.Induction

/-! Whether the wait path announces a recovery the skip path would still deny.
Both derive the reset from one detection and one exponent; the ladder-extended
reset adds the rungs below the exponent to the emitter's reset, the adjusted one
adds the rung itself to the clock. -/
namespace AgentRunner.EarlyRecovery
open PyValue Events Throttle ThrottleViews BackOff RecoveryTiming

/-! ## The reset as the clock moves -/

private theorem trunc_eq (q : ℚ) : trunc q = if 0 ≤ q then ⌊q⌋ else ⌈q⌉ := by
  unfold trunc
  split
  · rename_i nonneg
    rw [Int.tdiv_eq_ediv_of_nonneg (Rat.num_nonneg.mpr nonneg), Rat.floor_def']
  · rename_i negative
    have below : 0 ≤ -q.num := by
      have := Rat.num_neg.mpr (not_le.mp negative)
      omega
    rw [Rat.ceil_def', ← Int.tdiv_eq_ediv_of_nonneg below, Int.neg_tdiv, neg_neg]

theorem trunc_mono {a b : ℚ} (h : a ≤ b) : trunc a ≤ trunc b := by
  rw [trunc_eq, trunc_eq]
  split_ifs with first second second
  · exact Int.floor_mono h
  · exact absurd (first.trans h) second
  · have low : ⌈a⌉ ≤ 0 := by
      rw [Int.ceil_le]
      exact_mod_cast (not_le.mp first).le
    have high : 0 ≤ ⌊b⌋ := Int.floor_nonneg.mpr second
    omega
  · exact Int.ceil_mono h

theorem extendReset_ge (classification : String) (reset : Int) (exponent : Nat) :
    reset ≤ extendReset classification reset exponent := by
  unfold extendReset
  split
  · exact le_refl _
  · split
    · exact le_refl _
    · omega

theorem coercedEpoch_nonneg (host : Host) (value : Json) (now : ℚ) :
    0 ≤ coercedEpoch host value 0 now := by
  unfold coercedEpoch
  split
  · exact le_refl _
  · rename_i within
    exact not_lt.mp fun h => within (.inl h)

/-- An epoch inside the sanity window stays inside it as the clock moves on. -/
theorem coercedEpoch_stable {host : Host} {value : Json} {default : Int} {now later : ℚ}
    (sane : (coercedInt host value default : ℚ) ≤ now + epochSanityWindowS) (h : now ≤ later) :
    coercedEpoch host value default later = coercedEpoch host value default now := by
  have first : ¬ now + epochSanityWindowS < coercedInt host value default := not_lt.mpr sane
  have second : ¬ later + epochSanityWindowS < coercedInt host value default :=
    not_lt.mpr (by linarith)
  simp only [coercedEpoch, first, second]

/-- A field either reads as one int or falls back on whatever default it is given. -/
theorem coercedInt_default (host : Host) (value : Json) :
    (∀ default, coercedInt host value default = default) ∨
      ∃ n, ∀ default, coercedInt host value default = n := by
  cases value with
  | bool b => exact .inr ⟨_, fun _ => rfl⟩
  | int n => exact .inr ⟨n, fun _ => rfl⟩
  | float x =>
    cases x with
    | finite q => exact .inr ⟨trunc q, fun _ => rfl⟩
    | _ => exact .inl fun _ => rfl
  | str s =>
    cases parsed : host.intOfText s with
    | none => exact .inl fun d => by simp [coercedInt, coerceInt, intOfStr, parsed]
    | some n => exact .inr ⟨n, fun d => by simp [coercedInt, coerceInt, intOfStr, parsed]⟩
  | _ => exact .inl fun _ => rfl

/-- Read again later with the extended reset as its default, an emitter's reset
comes out no earlier than the raw reset the extension started from. -/
theorem coercedEpoch_reread {host : Host} {value : Json} {now later : ℚ} (reset : Int)
    (sane : (coercedInt host value 0 : ℚ) ≤ now + epochSanityWindowS)
    (reset_ge : coercedEpoch host value 0 now ≤ reset) (h : now ≤ later) :
    coercedEpoch host value 0 now ≤ coercedEpoch host value reset later := by
  rcases coercedInt_default host value with unread | ⟨n, read⟩
  · have : coercedEpoch host value reset later = reset := by
      unfold coercedEpoch
      rw [unread]
      split <;> rfl
    omega
  · rw [read] at sane
    have kept : ¬ later + epochSanityWindowS < n := not_lt.mpr (by linarith)
    have kept' : ¬ now + epochSanityWindowS < n := not_lt.mpr sane
    simp only [coercedEpoch, read, kept, kept', or_false] at reset_ge ⊢
    split_ifs at reset_ge ⊢
    · exact reset_ge
    · exact le_refl _

/-! ## What the claim of one ladder asks for -/

/-- At this clock the skip path lets the agent run. -/
def SkipPathOpen (host : Host) (logDir : LogDir) (now : ℚ) (agent : String) : Prop :=
  ∃ active, activeThrottles host logDir now none none = .ok (active, none) ∧
    active.get? agent = none

/-- An interrupted call announces nothing; a completed one announces exactly one
recovery, of the throttled agent, no earlier than the throttle's reset and when
the skip path lets the agent run. -/
def AnnouncesInTime (host : Host) (logDir : LogDir) (throttle : TransientErrorState) :
    Bool × World → Prop
  | (true, after) => recoveries after = []
  | (false, after) => ∃ e, recoveries after = [e] ∧ e.agent = throttle.agent ∧
      (throttle.resetAtEpoch : ℚ) ≤ e.writtenAt ∧
      SkipPathOpen host logDir e.writtenAt throttle.agent

/-- Every call on a throttle reported at `now`, up to eight hours ahead, returns
and announces in time, however the clock moves on and whenever a stop arrives. -/
def NeverEarly (host : Host) (logDir : LogDir) (now : ℚ) (jitter : Jitter) (chunkS : ℕ+) : Prop :=
  ∀ throttle cache, checkThrottleState host logDir now none = .ok (some throttle, cache) →
    (throttle.resetAtEpoch : ℚ) ≤ now + backOffCapS →
      ∀ s start, now ≤ start → ∃ result,
        applyBackOff host s logDir throttle jitter chunkS (.start start) = .ok result ∧
          AnnouncesInTime host logDir throttle result

/-- The reset `_check_throttle_state` extends a detection's raw reset to. -/
def extendedReset (host : Host) (logDir : LogDir) (now : ℚ) (detected : Event) : Int :=
  resetFor host now detected (backoffExponent host logDir (agentLabel host detected))

/-- The emitter's reset is at most a year ahead, and for a classification with a
ladder the extended reset is no later than the whole rung from now, plus jitter. -/
def WaitReachesReset (host : Host) (logDir : LogDir) (now : ℚ) (jitter : Jitter)
    (detected : Event) : Prop :=
  (coercedInt host (get detected "reset_at_epoch") 0 : ℚ) ≤ now + epochSanityWindowS ∧
    ∀ base, backOffDefaults (classificationOf host detected) = some base →
      (extendedReset host logDir now detected : ℚ) ≤ trunc now +
        appliedDuration base (backoffExponent host logDir (agentLabel host detected)) +
          jitter.seconds

/-- A throttle is reported exactly for a newest open detection whose extended
reset is still ahead. -/
theorem reported_iff {host : Host} {logDir : LogDir} {now : ℚ} {throttle : TransientErrorState} :
    (∃ cache, checkThrottleState host logDir now none = .ok (some throttle, cache)) ↔
      ∃ detected, latestUnrecoveredDetected logDir = some detected ∧
        now < extendedReset host logDir now detected ∧ throttle = {
          resetAtEpoch := extendedReset host logDir now detected
          classification := classificationOf host detected
          agent := agentLabel host detected
          sinceRound := coercedInt host (get detected "round_num") 0
          phase := str host (getOr detected "phase" (.str "")) } := by
  obtain ⟨after, checked⟩ := checkThrottleState_eq host logDir now none
  rw [checked]
  cases latestUnrecoveredDetected logDir with
  | none => simp
  | some detected =>
    simp only [Option.bind_some, exponentOf_none, stateAt, Except.ok.injEq, Prod.mk.injEq,
      exists_and_left, exists_eq', and_true, Option.some.injEq, exists_eq_left']
    change (if (extendedReset host logDir now detected : ℚ) ≤ now then none else some _) = _ ↔ _
    split
    · rename_i past
      simp [not_lt.mpr past]
    · rename_i ahead
      simp only [not_le.mp ahead, true_and, Option.some.injEq]
      exact eq_comm

/-- The skip path lets the agent of the newest open detection run exactly when
its reset, as extended at that clock, is past. -/
theorem skipPathOpen_iff {host : Host} {logDir : LogDir} {now : ℚ} {detected : Event}
    (newest : latestUnrecoveredDetected logDir = some detected) :
    SkipPathOpen host logDir now (agentLabel host detected) ↔
      (extendedReset host logDir now detected : ℚ) ≤ now := by
  obtain ⟨active, after, ran, uncached, lookup⟩ := activeThrottles_spec host logDir now none none
  cases uncached rfl
  have state : active.get? (agentLabel host detected) = stateAt host now (agentLabel host detected)
      detected (backoffExponent host logDir (agentLabel host detected)) := by
    rw [lookup, Option.getD_none, latest_of_unrecovered host newest]
    rfl
  have open_iff : SkipPathOpen host logDir now (agentLabel host detected) ↔
      active.get? (agentLabel host detected) = none := by
    constructor
    · rintro ⟨active', ran', absent⟩
      cases ran.symm.trans ran'
      exact absent
    · exact fun absent => ⟨active, ran, absent⟩
  rw [open_iff, state, stateAt]
  change (if (extendedReset host logDir now detected : ℚ) ≤ now then none else some _) = none ↔ _
  split
  · rename_i past
    simp [past]
  · rename_i ahead
    simp [ahead]

/-! ## The condition is enough -/

theorem extendedReset_stable {host : Host} {logDir : LogDir} {now later : ℚ} {detected : Event}
    (sane : (coercedInt host (get detected "reset_at_epoch") 0 : ℚ) ≤ now + epochSanityWindowS)
    (h : now ≤ later) :
    extendedReset host logDir later detected = extendedReset host logDir now detected := by
  simp only [extendedReset, resetFor, rawReset, coercedEpoch_stable sane h]

/-- A deadline aimed at from later clock readings is not before the reset. -/
theorem deadlineAt_reaches {host : Host} {logDir : LogDir} {now reread anchored : ℚ}
    {jitter : Jitter} {detected : Event} {throttle : TransientErrorState}
    (newest : latestUnrecoveredDetected logDir = some detected)
    (agent : throttle.agent = agentLabel host detected)
    (classification : throttle.classification = classificationOf host detected)
    (reset : throttle.resetAtEpoch = extendedReset host logDir now detected)
    (reaches : WaitReachesReset host logDir now jitter detected)
    (later : now ≤ reread) (after : reread ≤ anchored) :
    (extendedReset host logDir now detected : ℚ) ≤
      deadlineAt host logDir throttle jitter reread anchored := by
  obtain ⟨sane, ladder⟩ := reaches
  simp only [deadlineAt, adjustedReset, classification, agent]
  cases known : backOffDefaults (classificationOf host detected) with
  | some base =>
    have anchor : (trunc now : ℚ) ≤ trunc anchored := by
      exact_mod_cast trunc_mono (later.trans after)
    have rung := ladder base known
    push_cast
    linarith
  | none =>
    have verbatim : extendedReset host logDir now detected = rawReset host now detected := by
      simp [extendedReset, resetFor, extendReset, known]
    have kept := coercedEpoch_reread throttle.resetAtEpoch sane
      (by rw [reset, verbatim]; rfl) later
    have same : rereadReset host logDir throttle reread =
        coercedEpoch host (get detected "reset_at_epoch") throttle.resetAtEpoch reread := by
      simp [rereadReset, newest, agent]
    have bound : (rawReset host now detected : ℚ) ≤ rereadReset host logDir throttle reread := by
      rw [same]
      exact_mod_cast kept
    rw [verbatim]
    linarith [jitter.low]

/-- Where the wait reaches the reset, every call announces in time. -/
theorem announces_of_reaches {host : Host} {logDir : LogDir} {now : ℚ} {jitter : Jitter}
    {chunkS : ℕ+} (reaches : ∀ detected, latestUnrecoveredDetected logDir = some detected →
      now < extendedReset host logDir now detected →
        (extendedReset host logDir now detected : ℚ) ≤ now + backOffCapS →
          WaitReachesReset host logDir now jitter detected) :
    NeverEarly host logDir now jitter chunkS := by
  intro throttle cache checked soon s start later
  obtain ⟨detected, newest, ahead, shape⟩ := reported_iff.mp ⟨cache, checked⟩
  have reset : throttle.resetAtEpoch = extendedReset host logDir now detected := by rw [shape]
  have agent : throttle.agent = agentLabel host detected := by rw [shape]
  have condition := reaches detected newest ahead (reset ▸ soon)
  obtain ⟨interrupted, after, reread, anchored, asked, ran, first, second, third, -, silent,
    announces⟩ := applyBackOff_spec host s logDir throttle jitter chunkS (.start start)
  have begun : now ≤ reread := later.trans first
  refine ⟨(interrupted, after), ran, ?_⟩
  cases interrupted with
  | true => exact silent rfl
  | false =>
    obtain ⟨e, announced, who, -, written, late, -⟩ := announces rfl
    have inTime : (throttle.resetAtEpoch : ℚ) ≤ e.writtenAt := by
      rcases late with reached | slept
      · rw [reset]
        exact (deadlineAt_reaches newest agent (by rw [shape]) reset condition begun second).trans
          reached
      · linarith
    refine ⟨e, announced, who, inTime, ?_⟩
    rw [agent, skipPathOpen_iff newest, extendedReset_stable condition.1 (by linarith), ← reset]
    exact inTime

/-! ## The condition is needed -/

/-- Nothing moves the clock but the sleeps, and no stop arrives. -/
def steadySurroundings : Surroundings := ⟨fun _ => 0, fun _ => false, fun _ => le_refl _⟩

theorem steadySurroundings_steady : Steady steadySurroundings := ⟨fun _ => rfl, fun _ => rfl⟩

/-- On a steady clock from `start`, a call that announces in time does so after
its sleep at the latest. -/
theorem NeverEarly.steady {host : Host} {logDir : LogDir} {now : ℚ} {jitter : Jitter} {chunkS : ℕ+}
    (never : NeverEarly host logDir now jitter chunkS) {detected : Event}
    (newest : latestUnrecoveredDetected logDir = some detected)
    (ahead : now < extendedReset host logDir now detected)
    (soon : (extendedReset host logDir now detected : ℚ) ≤ now + backOffCapS)
    (start : ℚ) (later : now ≤ start) :
    ∃ throttle writtenAt, throttle.agent = agentLabel host detected ∧
      throttle.classification = classificationOf host detected ∧ start ≤ writtenAt ∧
      writtenAt ≤ start + sleepFor (deadlineAt host logDir throttle jitter start start - start) ∧
      (extendedReset host logDir now detected : ℚ) ≤ writtenAt ∧
      (extendedReset host logDir writtenAt detected : ℚ) ≤ writtenAt := by
  obtain ⟨cache, checked⟩ := reported_iff.mpr ⟨detected, newest, ahead, rfl⟩
  obtain ⟨⟨interrupted, after⟩, called, announces⟩ :=
    never _ cache checked soon steadySurroundings start later
  obtain ⟨interrupted', after', reread, anchored, asked, ran, -, -, -, steady, -, completes⟩ :=
    applyBackOff_spec host steadySurroundings logDir _ jitter chunkS (.start start)
  cases called.symm.trans ran
  obtain ⟨rfl, rfl, rfl, rfl⟩ := steady steadySurroundings_steady
  obtain ⟨e, announced, who, inTime, runs⟩ := announces
  obtain ⟨e', announced', -, -, written, -, soonest⟩ := completes rfl
  rw [announced, recoveries_start, List.nil_append] at announced'
  cases announced'
  exact ⟨_, e.writtenAt, rfl, rfl, written, soonest steadySurroundings_steady, inTime,
    (skipPathOpen_iff newest).mp runs⟩

theorem sleepFor_le (requested : ℚ) :
    sleepFor requested ≤ backOffCapS ∧ sleepFor requested ≤ max requested 0 := by
  have cap : (0 : ℚ) ≤ backOffCapS := Nat.cast_nonneg _
  unfold sleepFor
  split
  · rename_i spent
    exact ⟨le_refl _, spent.le.trans (le_max_left _ _)⟩
  · rename_i within
    exact ⟨max_le (not_lt.mp within) cap, le_refl _⟩

/-- A call on a steady clock right away meets the reset only if its deadline does. -/
theorem NeverEarly.ladder {host : Host} {logDir : LogDir} {now : ℚ} {jitter : Jitter} {chunkS : ℕ+}
    (never : NeverEarly host logDir now jitter chunkS) {detected : Event}
    (newest : latestUnrecoveredDetected logDir = some detected)
    (ahead : now < extendedReset host logDir now detected)
    (soon : (extendedReset host logDir now detected : ℚ) ≤ now + backOffCapS) {base : Nat}
    (known : backOffDefaults (classificationOf host detected) = some base) :
    (extendedReset host logDir now detected : ℚ) ≤ trunc now +
      appliedDuration base (backoffExponent host logDir (agentLabel host detected)) +
        jitter.seconds := by
  obtain ⟨throttle, writtenAt, agent, classification, -, soonest, inTime, -⟩ :=
    never.steady newest ahead soon now (le_refl now)
  have deadline : deadlineAt host logDir throttle jitter now now = trunc now +
      appliedDuration base (backoffExponent host logDir (agentLabel host detected)) +
        jitter.seconds := by
    simp [deadlineAt, adjustedReset, agent, classification, known]
  rw [← deadline]
  have slept := (sleepFor_le (deadlineAt host logDir throttle jitter now now - now)).2
  rcases max_cases (deadlineAt host logDir throttle jitter now now - now) 0 with
    ⟨same, -⟩ | ⟨same, -⟩
  · linarith
  · linarith

/-- A reset refused as too far ahead when the throttle was reported is taken at
its word once the clock has moved on, so the skip path still gates the agent
after the longest sleep there is. -/
theorem NeverEarly.sane {host : Host} {logDir : LogDir} {now : ℚ} {jitter : Jitter} {chunkS : ℕ+}
    (never : NeverEarly host logDir now jitter chunkS) {detected : Event}
    (newest : latestUnrecoveredDetected logDir = some detected)
    (ahead : now < extendedReset host logDir now detected)
    (soon : (extendedReset host logDir now detected : ℚ) ≤ now + backOffCapS) :
    (coercedInt host (get detected "reset_at_epoch") 0 : ℚ) ≤ now + epochSanityWindowS := by
  by_contra far
  rw [not_le] at far
  have year : (epochSanityWindowS : ℚ) = 31622400 := by norm_num [epochSanityWindowS]
  have cap : (backOffCapS : ℚ) = 28800 := by norm_num [backOffCapS]
  have extends_ (t : ℚ) :
      (rawReset host t detected : ℚ) ≤ extendedReset host logDir t detected := by
    exact_mod_cast extendReset_ge _ _ _
  have nonneg : (0 : ℚ) ≤ extendedReset host logDir now detected := by
    have := coercedEpoch_nonneg host (get detected "reset_at_epoch") now
    have : (0 : ℚ) ≤ rawReset host now detected := by exact_mod_cast this
    linarith [extends_ now]
  obtain ⟨throttle, writtenAt, -, -, begun, soonest, -, past⟩ := never.steady newest ahead soon
    (coercedInt host (get detected "reset_at_epoch") 0 - epochSanityWindowS)
    (by linarith)
  have slept := (sleepFor_le (deadlineAt host logDir throttle jitter
    (coercedInt host (get detected "reset_at_epoch") 0 - epochSanityWindowS)
    (coercedInt host (get detected "reset_at_epoch") 0 - epochSanityWindowS) -
    (coercedInt host (get detected "reset_at_epoch") 0 - epochSanityWindowS))).1
  have positive : ¬ coercedInt host (get detected "reset_at_epoch") 0 < 0 := by
    have : (0 : ℚ) ≤ coercedInt host (get detected "reset_at_epoch") 0 := by linarith
    exact not_lt.mpr (by exact_mod_cast this)
  have near :
      ¬ writtenAt + epochSanityWindowS < coercedInt host (get detected "reset_at_epoch") 0 :=
    not_lt.mpr (by linarith)
  have raw :
      rawReset host writtenAt detected = coercedInt host (get detected "reset_at_epoch") 0 := by
    simp only [rawReset, coercedEpoch, positive, near, or_self, if_false]
  have held := extends_ writtenAt
  rw [raw] at held
  linarith

/-- **When the wait path keeps the ladder's promise.**  Every call on the
throttle reported at `now`, under every clock that never steps backward and every
stop, announces in time, if and only if the wait reaches the reset of the newest
open detection. For a classification without a ladder it always does. -/
theorem never_early_iff (host : Host) (logDir : LogDir) (now : ℚ) (jitter : Jitter) (chunkS : ℕ+) :
    NeverEarly host logDir now jitter chunkS ↔
      ∀ detected, latestUnrecoveredDetected logDir = some detected →
        now < extendedReset host logDir now detected →
          (extendedReset host logDir now detected : ℚ) ≤ now + backOffCapS →
            WaitReachesReset host logDir now jitter detected :=
  ⟨fun never _ newest ahead soon =>
    ⟨never.sane newest ahead soon, fun _ => never.ladder newest ahead soon⟩,
    announces_of_reaches⟩

/-- A server error a plugin has just detected, its own reset a minute ahead. -/
def freshServerError : Event :=
  [("event", .str transientErrorDetected), ("agent", .str "claude"),
    ("classification", .str "api_transient_5xx"), ("reset_at_epoch", .int 1060)]

/-- The sixth failure in a row: the extended reset is 1860 s ahead, the wait ends
after 1800 s and the jitter. -/
theorem sixth_failure_recovers_early :
    ∃ logDir now jitter, ∀ host chunkS, ¬ NeverEarly host logDir now jitter chunkS := by
  refine ⟨.single (List.replicate 6 freshServerError), 1000, ⟨5, by norm_num, by norm_num⟩,
    fun host chunkS never => ?_⟩
  have newest : latestUnrecoveredDetected (.single (List.replicate 6 freshServerError)) =
      some freshServerError := rfl
  have exponent : backoffExponent host (.single (List.replicate 6 freshServerError))
      (agentLabel host freshServerError) = 5 := rfl
  have classification : classificationOf host freshServerError = "api_transient_5xx" := rfl
  have read : coercedInt host (get freshServerError "reset_at_epoch") 0 = 1060 := rfl
  have raw : rawReset host 1000 freshServerError = 1060 := by
    norm_num [rawReset, coercedEpoch, read, epochSanityWindowS]
  have reset : extendedReset host (.single (List.replicate 6 freshServerError)) 1000
      freshServerError = 2860 := by
    rw [extendedReset, resetFor, raw, exponent, classification]
    decide
  have met := never.ladder newest (by rw [reset]; norm_num) (by rw [reset]; norm_num [backOffCapS])
    (rfl : backOffDefaults _ = some 60)
  have applied : appliedDuration 60 5 = 1800 := by decide
  have now : trunc 1000 = 1000 := by decide +kernel
  rw [reset, exponent, applied, now] at met
  norm_num at met

end AgentRunner.EarlyRecovery
