import AgentRunner.ConfigLimits
import AgentRunner.ServePolicy
import Mathlib.Tactic.Linarith
import Mathlib.Tactic.Ring

/-! The delays of a run of crashes, as `post_round_decision` answers them: how far they go up,
and where the cap on them falls below the delay of a clean round. -/
namespace AgentRunner.CrashDelay
open ServePolicy ConfigModels LoadConfig ConfigLimits

/-! ## A run of crashes -/

/-- A round that counts as an unknown short crash. -/
structure Crash where
  returncode : Int
  durationS : ℚ
  throttleActive : Bool
  judged : returncode ≠ permanentConfigExit
  unknown : unknownShortCrash returncode durationS throttleActive = true

/-- The answers to one crash after another, up to the one that ends the run. -/
def answers (restartDelayS : Int) : ℕ → List Crash → List (Action × Int)
  | _, [] => []
  | consecutive, crash :: rest =>
    let (action, delayS, consecutive) := postRoundDecision crash.returncode crash.durationS
      crash.throttleActive consecutive restartDelayS
    (action, delayS) :: if action = .go then answers restartDelayS consecutive rest else []

/-- The delay after the `k`th crash of a run. -/
def crashDelayS (restartDelayS : Int) (k : ℕ) : Int :=
  min (restartDelayS * 2 ^ k) crashLoopMaxDelayS

/-- The answer to the `k`th crash of a run. -/
def answerTo (restartDelayS : Int) (k : ℕ) : Action × Int :=
  if crashLoopThreshold ≤ k then (.crashLoop, 0) else (.go, crashDelayS restartDelayS k)

theorem postRoundDecision_crash (crash : Crash) (consecutive : ℕ) (restartDelayS : Int) :
    postRoundDecision crash.returncode crash.durationS crash.throttleActive consecutive
        restartDelayS =
      ((answerTo restartDelayS (consecutive + 1)).1, (answerTo restartDelayS (consecutive + 1)).2,
        consecutive + 1) := by
  unfold postRoundDecision answerTo crashDelayS
  rw [if_neg crash.judged, if_pos crash.unknown]
  split <;> rfl

theorem answerTo_go {restartDelayS : Int} {k : ℕ} :
    (answerTo restartDelayS k).1 = .go ↔ k < crashLoopThreshold := by
  unfold answerTo
  split <;> simp <;> omega

theorem answers_cons (restartDelayS : Int) (consecutive : ℕ) (crash : Crash) (rest : List Crash) :
    answers restartDelayS consecutive (crash :: rest) =
      answerTo restartDelayS (consecutive + 1) ::
        if consecutive + 1 < crashLoopThreshold then answers restartDelayS (consecutive + 1) rest
        else [] := by
  rw [answers, postRoundDecision_crash]
  dsimp only
  simp only [answerTo_go]

/-- However the crashes look, the `k`th of a run has its answer, and the fifth is the last that
has one. -/
theorem answers_eq (restartDelayS : Int) (crashes : List Crash) (consecutive : ℕ)
    (running : consecutive < crashLoopThreshold) (i : ℕ) :
    (answers restartDelayS consecutive crashes)[i]? =
      if i < crashes.length ∧ consecutive + i < crashLoopThreshold then
        some (answerTo restartDelayS (consecutive + i + 1)) else none := by
  induction crashes generalizing consecutive i with
  | nil => simp [answers]
  | cons crash rest ih =>
    rw [answers_cons]
    cases i with
    | zero => simp [running]
    | succ i =>
      rw [List.getElem?_cons_succ]
      split
      · rename_i more
        rw [ih (consecutive + 1) more i]
        simp only [List.length_cons, Nat.add_lt_add_iff_right,
          show consecutive + 1 + i = consecutive + (i + 1) by omega]
      · rw [if_neg (by omega)]
        rfl

theorem answers_length (restartDelayS : Int) (crashes : List Crash) (consecutive : ℕ)
    (running : consecutive < crashLoopThreshold) :
    (answers restartDelayS consecutive crashes).length =
      min crashes.length (crashLoopThreshold - consecutive) := by
  induction crashes generalizing consecutive with
  | nil => simp [answers]
  | cons crash rest ih =>
    rw [answers_cons, List.length_cons, List.length_cons]
    split
    · rename_i more
      rw [ih (consecutive + 1) more]
      omega
    · rw [List.length_nil]
      omega

/-! ## Escalation -/

/-- The delays of a run of crashes only go up, none of them is shorter than the delay of a clean
round, and the run ends in a crash loop with its fifth crash and with no other. -/
structure Escalates (restartDelayS : Int) (crashes : List Crash) : Prop where
  rising : ∀ (i j : ℕ) (earlier later : Int), i ≤ j →
    (answers restartDelayS 0 crashes)[i]? = some (Action.go, earlier) →
    (answers restartDelayS 0 crashes)[j]? = some (Action.go, later) → earlier ≤ later
  noSooner : ∀ (i : ℕ) (delayS : Int),
    (answers restartDelayS 0 crashes)[i]? = some (Action.go, delayS) →
    ∀ durationS throttleActive consecutive,
      (postRoundDecision 0 durationS throttleActive consecutive restartDelayS).2.1 ≤ delayS
  answered : (answers restartDelayS 0 crashes).length = min crashes.length 5
  ends : ∀ (i : ℕ) (answer : Action × Int),
    (answers restartDelayS 0 crashes)[i]? = some answer → (answer.1 = .crashLoop ↔ i + 1 = 5)

theorem crashDelayS_rises {restartDelayS : Int} (positive : 0 < restartDelayS) {i j : ℕ}
    (le : i ≤ j) : crashDelayS restartDelayS i ≤ crashDelayS restartDelayS j := by
  have powers : (2 : Int) ^ i ≤ 2 ^ j := pow_le_pow_right₀ (by omega) le
  exact min_le_min_right _ (mul_le_mul_of_nonneg_left powers positive.le)

theorem le_crashDelayS {restartDelayS : Int} (positive : 0 < restartDelayS)
    (capped : restartDelayS ≤ crashLoopMaxDelayS) (k : ℕ) :
    restartDelayS ≤ crashDelayS restartDelayS k := by
  have power : (1 : Int) ≤ 2 ^ k := one_le_pow₀ (by omega)
  exact le_min (le_mul_of_one_le_right positive.le power) capped

theorem postRoundDecision_clean (durationS : ℚ) (throttleActive : Bool) (consecutive : ℕ)
    (restartDelayS : Int) :
    postRoundDecision 0 durationS throttleActive consecutive restartDelayS =
      (.go, restartDelayS, 0) := by
  simp [postRoundDecision, permanentConfigExit, unknownShortCrash]

theorem answers_zero {restartDelayS : Int} {crashes : List Crash} {i : ℕ} {answer : Action × Int}
    (given : (answers restartDelayS 0 crashes)[i]? = some answer) :
    i < 5 ∧ answer = answerTo restartDelayS (i + 1) := by
  rw [answers_eq _ _ _ (by decide)] at given
  split at given
  · rename_i inside
    cases given
    rw [Nat.zero_add] at inside ⊢
    exact ⟨inside.2, rfl⟩
  · cases given

theorem answered_go {restartDelayS delayS : Int} {crashes : List Crash} {i : ℕ}
    (given : (answers restartDelayS 0 crashes)[i]? = some (Action.go, delayS)) :
    delayS = crashDelayS restartDelayS (i + 1) := by
  obtain ⟨-, same⟩ := answers_zero given
  unfold answerTo at same
  split at same
  · cases same
  · cases same
    rfl

theorem escalates_of_capped {restartDelayS : Int} (positive : 0 < restartDelayS)
    (capped : restartDelayS ≤ crashLoopMaxDelayS) (crashes : List Crash) :
    Escalates restartDelayS crashes where
  rising i j earlier later le first second := by
    rw [answered_go first, answered_go second]
    exact crashDelayS_rises positive (by omega)
  noSooner i delayS given durationS throttleActive consecutive := by
    rw [answered_go given, postRoundDecision_clean]
    exact le_crashDelayS positive capped _
  answered := answers_length restartDelayS crashes 0 (by decide)
  ends i answer given := by
    obtain ⟨few, rfl⟩ := answers_zero given
    unfold answerTo crashLoopThreshold
    split <;> simp <;> omega

/-- A round that falls over at once. -/
def suddenCrash : Crash := ⟨1, 0, false, by decide, by decide⟩

theorem capped_of_escalates {restartDelayS : Int}
    (escalates : Escalates restartDelayS [suddenCrash]) : restartDelayS ≤ crashLoopMaxDelayS := by
  have first : (answers restartDelayS 0 [suddenCrash])[0]? =
      some (Action.go, crashDelayS restartDelayS 1) := by
    rw [answers_eq _ _ _ (by decide)]
    rfl
  have sooner := escalates.noSooner 0 _ first 0 false 0
  rw [postRoundDecision_clean] at sooner
  exact sooner.trans (min_le_right _ _)

/-- **Crash delays escalate up to the cap.**  For every delay the loader accepts: the delays of
every run of crashes go up, from no less than the delay of a clean round and until the fifth
crash ends the run, exactly where that delay is no longer than the cap on the others. -/
theorem crash_delays_escalate_iff {env : Validators.Env} {registry : Registry} {configDir : String}
    {raw : Toml.Table} {cfg : Config} (loaded : loadConfig env registry configDir raw = .ok cfg) :
    (∀ crashes, Escalates cfg.runtime.restartDelayS crashes) ↔
      cfg.runtime.restartDelayS ≤ crashLoopMaxDelayS := by
  have positive := (loadConfig_runtime loaded).2
  exact ⟨fun escalates => capped_of_escalates (escalates _),
    fun capped => escalates_of_capped positive capped⟩

/-- The smallest document, with a delay. -/
def delayedDocument (restartDelayS : Int) : Toml.Table :=
  [("schema_version", .int 1), ("agent", .table argvAgent),
    ("runtime", .table [("work_dir", .str "/repo"), ("log_dir", .str "/log"),
      ("restart_delay_s", .int restartDelayS)]),
    ("prompt", .table [("file", .str "/prompt.md")])]

theorem minute_delays_escalate :
    ∃ cfg, loadConfig plainEnv plainRegistry "/repo" (delayedDocument 60) = .ok cfg ∧
      ∀ crashes, Escalates cfg.runtime.restartDelayS crashes :=
  ⟨_, rfl, (@crash_delays_escalate_iff plainEnv plainRegistry "/repo" (delayedDocument 60) _
    rfl).mpr (by decide)⟩

/-- A service that waits an hour behind a clean round waits half of that behind a crash. -/
theorem hour_delays_shrink :
    ∃ cfg, loadConfig plainEnv plainRegistry "/repo" (delayedDocument 3600) = .ok cfg ∧
      answers cfg.runtime.restartDelayS 0 [suddenCrash] = [(.go, 1800)] ∧
      postRoundDecision 0 0 false 0 cfg.runtime.restartDelayS = (.go, 3600, 0) ∧
      ¬ ∀ crashes, Escalates cfg.runtime.restartDelayS crashes := by
  refine ⟨_, rfl, rfl, rfl, fun escalates => ?_⟩
  have capped := capped_of_escalates (escalates _)
  revert capped
  decide

end AgentRunner.CrashDelay
