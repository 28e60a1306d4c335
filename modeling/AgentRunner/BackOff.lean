import AgentRunner.Throttle
import Mathlib.Algebra.Order.Floor.Semiring
import Mathlib.Data.Rat.Floor
import Mathlib.Data.PNat.Defs

/-! The back-off gate of `_throttle.py`: `compute_adjusted_reset_at`, the chunked
sleep and `_apply_back_off`. The wall clock never steps backward but may move on
its own before every operation on it; a sleep of `n` advances it by `n`. -/
namespace AgentRunner.BackOff
open PyValue Events Throttle

/-! ## The world a back-off runs in -/

/-- What happens around one call: how far the clock moves before its `i`-th use,
and whether the `i`-th stop check finds a stop requested. -/
structure Surroundings where
  drift : Nat → ℚ
  stop : Nat → Bool
  forward : ∀ i, 0 ≤ drift i

/-- Payload of `transient_error_backoff_capped`; fields left out when `None`. -/
structure BackoffCapped where
  classification : String
  agent : String
  requestedSleepS : Int
  appliedSleepS : Int
  originalResetAtEpoch : Option Int
  appliedResetAtEpoch : Option Int
  consecutiveCount : Option Nat
  cappedByAbsoluteMax : Option Bool
  deriving DecidableEq

/-- Payload of `transient_error_recovered`, with the wall clock it was written at. -/
structure Recovered where
  classification : String
  agent : String
  throttledForS : Int
  writtenAt : ℚ
  deriving DecidableEq

inductive Emission where
  | backoffCapped (payload : BackoffCapped)
  | recovered (payload : Recovered)
  deriving DecidableEq

/-- The clock, how often it and the stop flag have been consulted, and the
events appended so far. -/
structure World where
  time : ℚ
  ops : Nat
  checks : Nat
  emitted : List Emission

def World.start (time : ℚ) : World := ⟨time, 0, 0, []⟩

/-- `clock.epoch()`. -/
def World.epoch (s : Surroundings) (w : World) : ℚ × World :=
  let time := w.time + s.drift w.ops
  (time, { w with time, ops := w.ops + 1 })

/-- `clock.sleep(n)`. -/
def World.sleep (s : Surroundings) (n : ℚ) (w : World) : World :=
  { w with time := w.time + s.drift w.ops + n, ops := w.ops + 1 }

/-- `stop["requested"] or (should_stop is not None and should_stop())`. -/
def World.stopped (s : Surroundings) (w : World) : Bool × World :=
  (s.stop w.checks, { w with checks := w.checks + 1 })

def World.emit (e : Emission) (w : World) : World := { w with emitted := w.emitted ++ [e] }

/-! ## The adjusted reset -/

/-- `compute_adjusted_reset_at`. -/
def computeAdjustedResetAt (host : Host) (s : Surroundings) (classification : String)
    (originalResetAtEpoch : Int) (agent : String) (logDir : LogDir) (w : World) :
    (Int × Nat × Bool) × World :=
  match backOffDefaults classification with
  | none => ((originalResetAtEpoch, 0, false), w)
  | some base =>
    if classification = "rate_limit_account" then ((originalResetAtEpoch, 0, false), w)
    else
      let n := backoffExponent host logDir agent
      let multiplier := 2 ^ min n expCap
      let extendedDuration := base * multiplier
      let capped : Bool := absoluteCapS < extendedDuration
      let appliedDuration := min extendedDuration absoluteCapS
      let (now, w) := w.epoch s
      let appliedResetAt := trunc now + appliedDuration
      let w :=
        if 1 < multiplier ∨ capped then
          w.emit (.backoffCapped {
            classification, agent
            requestedSleepS := base
            appliedSleepS := appliedDuration
            originalResetAtEpoch := some originalResetAtEpoch
            appliedResetAtEpoch := some appliedResetAt
            consecutiveCount := some (n + 1)
            cappedByAbsoluteMax := some capped })
        else w
      ((appliedResetAt, n + 1, capped), w)

/-! ## The chunked sleep -/

/-- The checks at a chunk boundary: `some` result ends the sleep. -/
def boundary (s : Surroundings) (deadlineEpoch : Option ℚ) (w : World) : Option Bool × World :=
  let (stopped, w) := w.stopped s
  if stopped then (some true, w)
  else
    match deadlineEpoch with
    | none => (none, w)
    | some deadline =>
      let (now, w) := w.epoch s
      if deadline ≤ now then (some false, w) else (none, w)

/-- `_interruptible_sleep` with its default listener, which naps on the clock. -/
def interruptibleSleep (s : Surroundings) (chunkS : ℕ+) (deadlineEpoch : Option ℚ)
    (remaining : ℚ) (w : World) : Bool × World :=
  if 0 < remaining then
    match boundary s deadlineEpoch w with
    | (some result, w) => (result, w)
    | (none, w) =>
      let nap := min (chunkS : ℚ) remaining
      interruptibleSleep s chunkS deadlineEpoch (remaining - nap) (w.sleep s nap)
  else (false, w)
termination_by ⌈remaining / chunkS⌉₊
decreasing_by
  have chunk : (0 : ℚ) < chunkS := by exact_mod_cast chunkS.pos
  have here : 0 < ⌈remaining / chunkS⌉₊ := Nat.ceil_pos.mpr (div_pos ‹_› chunk)
  rcases le_total remaining chunkS with last | more
  · simpa [min_eq_right last] using here
  · rw [min_eq_left more, sub_div, div_self chunk.ne', Nat.ceil_sub_one]
    omega

/-! ## The gate -/

def backOffCapS : Nat := 28800

/-- `random.uniform(_BACK_OFF_JITTER_MIN_S, _BACK_OFF_JITTER_MAX_S)`. -/
structure Jitter where
  seconds : ℚ
  low : 5 ≤ seconds
  high : seconds ≤ 30

/-- The raw detector reset `_apply_back_off` re-reads for the adjusted reset. -/
def rawResetAt (host : Host) (s : Surroundings) (logDir : LogDir) (throttle : TransientErrorState)
    (w : World) : Except PyErr (Int × World) :=
  match latestUnrecoveredDetected logDir with
  | none => .ok (throttle.resetAtEpoch, w)
  | some detected =>
    if agentLabel host detected = throttle.agent then do
      let (now, w) := w.epoch s
      let raw ← coerceEpochInt host (get detected "reset_at_epoch") throttle.resetAtEpoch now
      return (raw, w)
    else .ok (throttle.resetAtEpoch, w)

/-- The sleep `_apply_back_off` settles for: at most eight hours, with an event
that says so where the cap bites. -/
def settledSleep (throttle : TransientErrorState) (requested : ℚ) (w : World) : ℚ × World :=
  if (backOffCapS : ℚ) < requested then
    (backOffCapS, w.emit (.backoffCapped {
      classification := throttle.classification
      agent := throttle.agent
      requestedSleepS := trunc requested
      appliedSleepS := backOffCapS
      originalResetAtEpoch := none
      appliedResetAtEpoch := none
      consecutiveCount := none
      cappedByAbsoluteMax := none }))
  else (max requested 0, w)

/-- The rest of `_apply_back_off`: sleep, and announce the recovery unless the
sleep was cut short. -/
def sleepThenAnnounce (s : Surroundings) (throttle : TransientErrorState) (chunkS : ℕ+)
    (deadlineEpoch sleepS : ℚ) (w : World) : Bool × World :=
  let (sleepStart, w) := w.epoch s
  match interruptibleSleep s chunkS (some deadlineEpoch) sleepS w with
  | (true, w) => (true, w)
  | (false, w) =>
    let (now, w) := w.epoch s
    (false, w.emit (.recovered {
      classification := throttle.classification
      agent := throttle.agent
      throttledForS := elapsedS sleepStart now
      writtenAt := w.time }))

/-- `_apply_back_off`: whether it was interrupted, and the world afterwards. -/
def applyBackOff (host : Host) (s : Surroundings) (logDir : LogDir)
    (throttle : TransientErrorState) (jitter : Jitter) (chunkS : ℕ+) (w : World) :
    Except PyErr (Bool × World) := do
  let (rawResetAtEpoch, w) ← rawResetAt host s logDir throttle w
  let ((adjustedResetAt, _, _), w) :=
    computeAdjustedResetAt host s throttle.classification rawResetAtEpoch throttle.agent logDir w
  let deadlineEpoch := adjustedResetAt + jitter.seconds
  let (now, w) := w.epoch s
  let (sleepS, w) := settledSleep throttle (deadlineEpoch - now) w
  return sleepThenAnnounce s throttle chunkS deadlineEpoch sleepS w

end AgentRunner.BackOff
