import AgentRunner.ConfigModels
import AgentRunner.MidRound
import Mathlib.Data.Option.Basic
import Mathlib.Order.Basic

/-! `host_health.py`: the ladder of memory signals, read off two samples, and that it only
climbs as its readings get worse. -/
namespace AgentRunner.HostHealth
open PyValue ConfigModels MidRound

/-! ## The ladder -/

/-- `x >= y` of two floats. -/
def ge : PyFloat → PyFloat → Bool
  | .nan, _ | _, .nan => false
  | .posInf, _ | _, .negInf => true
  | .finite x, .finite y => decide (y ≤ x)
  | _, _ => false

/-- The readings of `metrics.sample()` the ladder looks at; a missing one is `none`, and the
empty sample has none of them. -/
structure Sample where
  psiSomeAvg10 : Option PyFloat
  psiFullAvg10 : Option PyFloat
  swapSout : Option Int
  memFreeMb : Option Int
  memAvailableMb : Option Int

/-- `_swap_sout_delta`. -/
def swapSoutDelta (sample prevSample : Sample) : Option Int :=
  match sample.swapSout, prevSample.swapSout with
  | some cur, some prev => some (cur - prev)
  | _, _ => none

/-- `signal_available`. -/
def signalAvailable (sample prevSample : Sample) : Bool :=
  sample.psiSomeAvg10.isSome || (swapSoutDelta sample prevSample).isSome ||
    (sample.memFreeMb.isSome && sample.memAvailableMb.isSome)

section Ladder
variable (host : Host) (cfg : MonitorHostHealthConfig)

/-- The first tier of `memory_pressure`, which is trusted where it can be read. -/
def psiPressure (psiSome : PyFloat) (sample : Sample) : Option Pressure :=
  let psiFull := sample.psiFullAvg10.getD (.finite 0)
  let context := [("psi_some_avg10", .float psiSome), ("psi_full_avg10", .float psiFull)]
  if ge psiFull cfg.pressure.fullAvg10Critical then
    some ⟨.critical, "psi", "PSI memory full avg10=" ++ str host (.float psiFull) ++
      " (every task stalled on reclaim)", context⟩
  else if ge psiSome cfg.pressure.someAvg10Warning then
    some ⟨.warning, "psi", "PSI memory some avg10=" ++ str host (.float psiSome) ++
      " (reclaim is slowing progress)", context⟩
  else none

/-- What a swap-out above the noise floor says. -/
def swapOutPressure (delta : Int) (sample : Sample) : Pressure :=
  let noisy : Pressure := ⟨.warning, "swap_out_rate",
    s!"swap sout +{delta}B since last sample (above the noise floor)",
    [("swap_sout_delta", .int delta)]⟩
  match sample.memFreeMb with
  | none => noisy
  | some memFree =>
    if memFree < cfg.memory.freeLowMb then
      let freeLowMb := cfg.memory.freeLowMb
      ⟨.critical, "swap_out_rate",
        s!"swap sout +{delta}B since last sample while mem_free_mb {memFree} " ++
          s!"< {freeLowMb} (actively dying, independent of swap-device speed)",
        [("swap_sout_delta", .int delta), ("mem_free_mb", .int memFree)]⟩
    else noisy

/-- The last tier: free and available memory both low. -/
def combinedLow (sample : Sample) : Option Pressure :=
  match sample.memFreeMb, sample.memAvailableMb with
  | some memFree, some memAvail =>
    if memFree < cfg.memory.freeLowMb ∧ memAvail < cfg.memory.availMinMb then
      let freeLowMb := cfg.memory.freeLowMb
      let availMinMb := cfg.memory.availMinMb
      some ⟨.warning, "combined_low",
        s!"mem_free_mb {memFree} < {freeLowMb} and mem_available_mb {memAvail} < {availMinMb}",
        [("mem_free_mb", .int memFree), ("mem_available_mb", .int memAvail)]⟩
    else none
  | _, _ => none

/-- The delta that is pressure: above the noise floor. -/
def swapping (sample prevSample : Sample) : Option Int :=
  (swapSoutDelta sample prevSample).filter fun delta =>
    cfg.memory.swapOutNoiseFloorMb * 1024 * 1024 < delta

/-- `memory_pressure`. -/
def memoryPressure (sample prevSample : Sample) : Option Pressure :=
  match sample.psiSomeAvg10 with
  | some psiSome => psiPressure host cfg psiSome sample
  | none =>
    match swapping cfg sample prevSample with
    | some delta => some (swapOutPressure cfg delta sample)
    -- no swap history, or nothing above the floor, is not the same as healthy
    | none => combinedLow cfg sample

/-- `configured_gate_inert`. -/
def configuredGateInert (sample prevSample : Sample) : Bool :=
  match sample.memAvailableMb with
  | none => false
  | some memAvail =>
    if memAvail < cfg.memory.availMinMb then false
    else (memoryPressure host cfg sample prevSample).any fun pressure =>
      pressure.signal = "psi" ∨ pressure.signal = "swap_out_rate"

end Ladder

/-! ## Worse readings -/

theorem ge_trans {x y z : PyFloat} (first : ge x y = true) (second : ge y z = true) :
    ge x z = true := by
  cases x <;> cases y <;> cases z <;> simp_all [ge]
  exact second.trans first

/-- A worse sample pair with the same readings: none of them is better. -/
structure Worsens (sample prevSample worse worsePrev : Sample) : Prop where
  psiSome : Option.Rel (fun x y => ge y x = true) sample.psiSomeAvg10 worse.psiSomeAvg10
  psiFull : Option.Rel (fun x y => ge y x = true) sample.psiFullAvg10 worse.psiFullAvg10
  swapOut : Option.Rel (· ≤ ·) (swapSoutDelta sample prevSample) (swapSoutDelta worse worsePrev)
  memFree : Option.Rel (· ≥ ·) sample.memFreeMb worse.memFreeMb
  memAvailable : Option.Rel (· ≥ ·) sample.memAvailableMb worse.memAvailableMb

/-- How severe a verdict is, in the order none, warning, critical. -/
def level : Option Pressure → ℕ
  | none => 0
  | some pressure => match pressure.severity with
    | .warning => 1
    | .critical => 2

section Monotone
variable {host : Host} {cfg : MonitorHostHealthConfig} {sample prevSample worse worsePrev : Sample}

theorem psiPressure_climbs {psiSome worseSome : PyFloat} (some_ : ge worseSome psiSome = true)
    (full : Option.Rel (fun x y => ge y x = true) sample.psiFullAvg10 worse.psiFullAvg10) :
    level (psiPressure host cfg psiSome sample) ≤
      level (psiPressure host cfg worseSome worse) := by
  have climbs : ge (worse.psiFullAvg10.getD (.finite 0))
      (sample.psiFullAvg10.getD (.finite 0)) = true := by
    generalize sample.psiFullAvg10 = psiFull, worse.psiFullAvg10 = worseFull at full
    cases full with
    | some worsens => exact worsens
    | none => rfl
  unfold psiPressure
  dsimp only
  split
  · rename_i stalled
    rw [if_pos (ge_trans climbs stalled)]
    exact le_refl _
  · split
    · rename_i slowed
      rw [if_pos (ge_trans some_ slowed)]
      split <;> simp [level]
    · exact Nat.zero_le _

theorem swapOutPressure_climbs (delta worseDelta : Int)
    (free : Option.Rel (· ≥ ·) sample.memFreeMb worse.memFreeMb) :
    level (some (swapOutPressure cfg delta sample)) ≤
      level (some (swapOutPressure cfg worseDelta worse)) := by
  unfold swapOutPressure
  generalize sample.memFreeMb = memFree, worse.memFreeMb = worseFree at free ⊢
  cases free with
  | none => exact le_refl _
  | @some _ _ lower =>
    dsimp only
    split
    · rename_i dying
      rw [if_pos (lt_of_le_of_lt lower dying)]
      exact le_refl _
    · split <;> simp [level]

theorem combinedLow_climbs (free : Option.Rel (· ≥ ·) sample.memFreeMb worse.memFreeMb)
    (available : Option.Rel (· ≥ ·) sample.memAvailableMb worse.memAvailableMb) :
    level (combinedLow cfg sample) ≤ level (combinedLow cfg worse) := by
  unfold combinedLow
  generalize sample.memFreeMb = memFree, worse.memFreeMb = worseFree at free ⊢
  generalize sample.memAvailableMb = memAvail, worse.memAvailableMb = worseAvail at available ⊢
  cases free with
  | none => exact le_refl _
  | @some _ _ lower =>
    cases available with
    | none => exact le_refl _
    | @some _ _ less =>
      dsimp only
      split
      · rename_i low
        rw [if_pos ⟨lt_of_le_of_lt lower low.1, lt_of_le_of_lt less low.2⟩]
        exact le_refl _
      · exact Nat.zero_le _

theorem swapping_climbs {delta : Int} (noisy : swapping cfg sample prevSample = some delta)
    (swapOut : Option.Rel (· ≤ ·) (swapSoutDelta sample prevSample)
      (swapSoutDelta worse worsePrev)) :
    ∃ worseDelta, swapping cfg worse worsePrev = some worseDelta := by
  unfold swapping at noisy ⊢
  obtain ⟨known, above⟩ := Option.filter_eq_some_iff.mp noisy
  rw [known] at swapOut
  generalize swapSoutDelta worse worsePrev = worseDelta at swapOut ⊢
  cases swapOut with
  | @some _ worseDelta higher =>
    refine ⟨worseDelta, Option.filter_eq_some_iff.mpr ⟨rfl, ?_⟩⟩
    have floor := of_decide_eq_true above
    exact decide_eq_true (lt_of_lt_of_le floor higher)

theorem combinedLow_warns {pressure : Pressure} (low : combinedLow cfg sample = some pressure) :
    pressure.severity = .warning ∧ pressure.signal = "combined_low" := by
  unfold combinedLow at low
  split at low
  · dsimp only at low
    split at low
    · cases low
      exact ⟨rfl, rfl⟩
    · cases low
  · cases low

theorem swapOutPressure_signals (delta : Int) :
    1 ≤ level (some (swapOutPressure cfg delta sample)) := by
  unfold swapOutPressure
  split
  · simp [level]
  · dsimp only
    split <;> simp [level]

/-- A worse pair of samples is judged no milder: a tier that is left for the one above it is
left for a warning at least. -/
theorem memoryPressure_climbs (worsens : Worsens sample prevSample worse worsePrev) :
    level (memoryPressure host cfg sample prevSample) ≤
      level (memoryPressure host cfg worse worsePrev) := by
  obtain ⟨psiSome, psiFull, swapOut, memFree, memAvailable⟩ := worsens
  unfold memoryPressure
  generalize sample.psiSomeAvg10 = first, worse.psiSomeAvg10 = second at psiSome ⊢
  cases psiSome with
  | some stalls => exact psiPressure_climbs stalls psiFull
  | none =>
    dsimp only
    cases noisy : swapping cfg sample prevSample with
    | some delta =>
      obtain ⟨worseDelta, louder⟩ := swapping_climbs noisy swapOut
      rw [louder]
      exact swapOutPressure_climbs delta worseDelta memFree
    | none =>
      cases swapping cfg worse worsePrev with
      | none => exact combinedLow_climbs memFree memAvailable
      | some worseDelta =>
        refine le_trans ?_ (swapOutPressure_signals worseDelta)
        cases low : combinedLow cfg sample with
        | none => exact Nat.zero_le _
        | some pressure => simp [level, (combinedLow_warns low).1]

/-- A ladder without a usable reading says nothing. -/
theorem memoryPressure_silent (blind : signalAvailable sample prevSample = false) :
    memoryPressure host cfg sample prevSample = none := by
  simp only [signalAvailable, Bool.or_eq_false_iff, Option.isSome_eq_false_iff,
    Option.isNone_iff_eq_none, Bool.and_eq_false_iff] at blind
  obtain ⟨⟨psi, swap⟩, memory⟩ := blind
  simp only [memoryPressure, psi, swapping, swap, Option.filter_none, combinedLow]
  split
  · rename_i free available
    simp [free, available] at memory
  · rfl

/-- Where free and available memory are low together, the gate on the latter is open. -/
theorem combined_low_not_inert {pressure : Pressure}
    (verdict : memoryPressure host cfg sample prevSample = some pressure)
    (low : pressure.signal = "combined_low") :
    configuredGateInert host cfg sample prevSample = false := by
  unfold configuredGateInert
  split
  · rfl
  · split
    · rfl
    · rw [verdict, Option.any_some, low]
      decide

end Monotone

/-- **The memory ladder is monotone.**  For every configuration: of two sample pairs with the
same readings, of which none is better in the second, the second is judged no milder; without
a usable reading nothing is said; and a gate that cannot fire is not reported together with
free and available memory being low. -/
theorem memory_ladder_monotone (host : Host) (cfg : MonitorHostHealthConfig) :
    (∀ sample prevSample worse worsePrev, Worsens sample prevSample worse worsePrev →
      level (memoryPressure host cfg sample prevSample) ≤
        level (memoryPressure host cfg worse worsePrev)) ∧
    ∀ sample prevSample,
      (signalAvailable sample prevSample = false →
        memoryPressure host cfg sample prevSample = none) ∧
      ¬ (configuredGateInert host cfg sample prevSample = true ∧
        ∃ pressure, memoryPressure host cfg sample prevSample = some pressure ∧
          pressure.signal = "combined_low") := by
  refine ⟨fun _ _ _ _ => memoryPressure_climbs, fun sample prevSample =>
    ⟨memoryPressure_silent, ?_⟩⟩
  rintro ⟨inert, pressure, verdict, low⟩
  rw [combined_low_not_inert verdict low] at inert
  cases inert

/-- The defaults of `[monitor.host_health]`. -/
def defaultHealth : MonitorHostHealthConfig where
  disk := ⟨.finite 90, .finite 95, 1800, .finite 5, .finite 5⟩
  memory := ⟨200, 16, 32⟩
  pressure := ⟨.finite 60, .finite 5, 3, true, .finite 512, false⟩
  brake := ⟨false, 0, 3⟩

/-- A host without PSI, at its last megabytes, that has swapped out so much since it was up. -/
def drained (swapSout : Int) : Sample := ⟨none, none, some swapSout, some 8, some 60⟩

/-- A host that prints nothing. -/
def terseHost : Host :=
  ⟨fun _ => "", fun _ => none, fun _ => none, fun _ => none, fun _ => .error .valueError⟩

/-- Low on memory it is warned of; once it swaps as well, that is critical. -/
theorem drained_host_climbs :
    level (memoryPressure terseHost defaultHealth (drained 0) (drained 0)) = 1 ∧
      level (memoryPressure terseHost defaultHealth (drained 40000000) (drained 0)) = 2 ∧
      level (memoryPressure terseHost defaultHealth (drained 0) (drained 0)) ≤
        level (memoryPressure terseHost defaultHealth (drained 40000000) (drained 0)) :=
  ⟨rfl, rfl, (memory_ladder_monotone terseHost defaultHealth).1 _ _ _ _
    ⟨.none, .none, .some (by decide), .some (le_refl _), .some (le_refl _)⟩⟩

end AgentRunner.HostHealth
