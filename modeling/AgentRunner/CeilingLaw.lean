import AgentRunner.ConfigLimits
import AgentRunner.RoundCeiling
import Mathlib.Tactic.IntervalCases

/-! Whether the ceiling covers what comes after the budget: the longest aftermath of a round,
and the one configuration in which it outlasts the margin. -/
namespace AgentRunner.CeilingLaw
open ConfigModels ConfigLimits AgentRun ContainerRun DirtyTree Effects Metered RoundEnv
open RoundCeiling

/-! ## The longest aftermath -/

/-- All that is waited for ends within its timeout; a goal check may also be cut off. -/
structure Within (world : World) : Prop where
  agent : world.agent.Within
  repo : world.repo.Within
  unspawned : ∀ spent check, (world.check spent check).1 = none → (world.check spent check).2 = 0
  check : ∀ spent check result, 0 < check.timeoutS → (world.check spent check).1 = some result →
    Bounded check.timeoutS (result, (world.check spent check).2)

/-- The seconds one goal check can take. -/
def checkAllowanceS (check : GoalCheckConfig) : ℤ := check.timeoutS + 2 * killGraceS

theorem check_le {world : World} (within : Within world) {check : GoalCheckConfig}
    (timed : 0 < check.timeoutS) (spent : List Spent) :
    (world.check spent check).2 ≤ checkAllowanceS check := by
  have wide : check.timeoutS ≤ checkAllowanceS check := by
    rw [checkAllowanceS, killGraceS]
    omega
  cases answer : (world.check spent check).1 with
  | none =>
    rw [within.unspawned spent check answer]
    exact Int.cast_nonneg (timed.trans_le wide).le
  | some result =>
    refine (within.check spent check result timed answer).2.trans ?_
    split
    · exact le_refl _
    · exact_mod_cast wide

/-- The seconds the goal checks can take. -/
def checksSpanS (cfg : Config) : List GoalCheckConfig → ℤ
  | [] => 0
  | check :: rest =>
    (if cfg.runtime.dryRun then 0 else checkAllowanceS check) + checksSpanS cfg rest

theorem checksSpanS_nonneg {cfg : Config} {checks : List GoalCheckConfig}
    (timed : ∀ check ∈ checks, 0 < check.timeoutS) : 0 ≤ checksSpanS cfg checks := by
  induction checks with
  | nil => exact le_refl 0
  | cons check rest ih =>
    obtain ⟨first, others⟩ := List.forall_mem_cons.mp timed
    have rest := ih others
    rw [checksSpanS, checkAllowanceS, killGraceS]
    split <;> omega

theorem spends_runGoalCheck {world : World} (within : Within world) (cfg : Config)
    {check : GoalCheckConfig} (timed : 0 < check.timeoutS) :
    Spends total (runGoalCheck world cfg check)
      ((if cfg.runtime.dryRun then 0 else checkAllowanceS check : ℤ) : ℚ) := by
  unfold runGoalCheck
  split
  · rw [Int.cast_zero]
    exact spends_pure _
  · refine spends_perform fun spent => ?_
    rw [total_snoc]
    exact add_le_add_right (check_le within timed spent) _

theorem spends_runGoalChecks {world : World} (within : Within world) {cfg : Config}
    {checks : List GoalCheckConfig} (timed : ∀ check ∈ checks, 0 < check.timeoutS) :
    Spends total (runGoalChecks world cfg checks) (checksSpanS cfg checks : ℚ) := by
  induction checks with
  | nil =>
    rw [checksSpanS, Int.cast_zero]
    exact spends_pure _
  | cons check rest ih =>
    obtain ⟨first, others⟩ := List.forall_mem_cons.mp timed
    rw [runGoalChecks, checksSpanS, Int.cast_add]
    exact spends_bind (spends_runGoalCheck within cfg first) (fun _ _ _ _ => ih others)
      (Int.cast_nonneg (checksSpanS_nonneg others))

/-- The goal checks of a configuration. -/
def checksOf (cfg : Config) : List GoalCheckConfig := (cfg.goal.map (·.checks)).getD []

theorem checksOf_timed {cfg : Config} (admitted : Admitted cfg) :
    ∀ check ∈ checksOf cfg, 0 < check.timeoutS := by
  unfold checksOf
  cases goal : cfg.goal with
  | none => exact List.forall_mem_nil _
  | some config => exact admitted.checks config goal

/-- The allowance is what the checks can take, where they are run. -/
theorem goalChecksAllowanceS_eq (cfg : Config) : goalChecksAllowanceS cfg =
    (checksOf cfg).foldr (fun check sum => checkAllowanceS check + sum) 0 := by
  have sums : ∀ checks : List GoalCheckConfig,
      checks.foldr (fun check allowance => check.timeoutS + allowance) 0 +
        checks.length * 2 * killGraceS =
      checks.foldr (fun check sum => checkAllowanceS check + sum) 0 := by
    intro checks
    induction checks with
    | nil => rfl
    | cons check rest ih =>
      rw [List.foldr_cons, List.foldr_cons, List.length_cons, ← ih, checkAllowanceS]
      push_cast
      ring
  rw [goalChecksAllowanceS, checksOf]
  cases cfg.goal with
  | none => rfl
  | some goal => exact sums goal.checks

theorem checksSpanS_eq (cfg : Config) : checksSpanS cfg (checksOf cfg) =
    if cfg.runtime.dryRun then 0 else goalChecksAllowanceS cfg := by
  rw [goalChecksAllowanceS_eq]
  generalize checksOf cfg = checks
  induction checks with
  | nil => simp [checksSpanS]
  | cons check rest ih =>
    rw [checksSpanS, ih, List.foldr_cons]
    split <;> simp

/-! ## The whole aftermath -/

/-- The seconds the end of a round can take for its tree, resolved or only looked at. -/
def treeSpanS (repo : Repo) (cfg : Config) (resolved : Bool) : ℚ :=
  10 + if resolved then
    resolveAllowanceS cfg.runtime.workDir cfg.runtime.logDir repo cfg.vcs.dirtyAction else 0

theorem resolveAllowanceS_nonneg (repo : Repo) (workDir logDir dirtyAction : String) :
    0 ≤ resolveAllowanceS workDir logDir repo dirtyAction := by
  have room : 0 ≤ excludeAllowanceS repo workDir logDir := (excludeAllowanceS_bounds ..).1
  unfold resolveAllowanceS
  split
  · exact le_refl 0
  · split <;> linarith

theorem treeSpanS_nonneg (repo : Repo) (cfg : Config) (resolved : Bool) :
    0 ≤ treeSpanS repo cfg resolved := by
  have room := resolveAllowanceS_nonneg repo cfg.runtime.workDir cfg.runtime.logDir
    cfg.vcs.dirtyAction
  unfold treeSpanS
  split <;> linarith

section Aftermath
variable {world : World} (within : Within world) {cfg : Config} (admitted : Admitted cfg)
  (roundNum : ℤ) (phase : Option String)
include within admitted

theorem spends_settle (result : RunResult) :
    Spends total (settle world cfg roundNum phase result)
      (checksSpanS cfg (checksOf cfg) +
        treeSpanS world.repo cfg (result.ok || result.killedForGrace)) := by
  refine spends_bind (spends_runGoalChecks within (checksOf_timed admitted)) (fun _ _ _ _ => ?_)
    (treeSpanS_nonneg ..)
  unfold treeSpanS
  have room := resolveAllowanceS_nonneg world.repo cfg.runtime.workDir cfg.runtime.logDir
    cfg.vcs.dirtyAction
  refine spends_bind (spends_attempt (spends_detectDirtyFiles within.repo)) (fun _ answer _ _ => ?_)
    (by split <;> [exact room; exact le_refl 0])
  cases answer with
  | error e => exact (spends_pure _).mono (by split <;> [exact room; exact le_refl 0])
  | ok dirty =>
    refine spends_ite (fun resolves => ?_) fun _ =>
      (spends_pure _).mono (by split <;> [exact room; exact le_refl 0])
    rw [if_pos resolves.2]
    exact (spends_bind (spends_resolveDirtyTree _ _ roundNum phase within.repo _ _)
      (fun _ _ _ _ => spends_pure _) (le_refl 0)).mono (add_zero _).le

omit admitted within in
/-- What `run` says of an agent it has terminated. -/
theorem conclude_result {agent : Agent} {container : Container} {reapGraceS : ℤ} {ending : Ending}
    {before after : List Spent} {result : RunResult}
    (ended : Ends (conclude agent container reapGraceS ending : Git RunResult) before
      (.ok result) after) :
    (∀ now, ending = .wall now → (result.ok || result.killedForGrace) = false) := by
  rintro now rfl
  obtain ⟨gone, middle, -, left⟩ | ⟨e, -, same⟩ := ends_bind.mp ended
  · cases (ends_pure.mp left).1
    simp [RunResult.ok]
  · cases same

/-- The seconds that can be waited for once the loop of `run` is left. -/
def aftermathSpanS (world : World) (cfg : Config) (reapGraceS : ℤ) (phase : Option String) :
    Ending → ℚ
  | .exited _ _ => checksSpanS cfg (checksOf cfg) + treeSpanS world.repo cfg true
  | .wall _ => reapGraceS + finalWaitS + stopAllowanceS (container world cfg phase) +
      (checksSpanS cfg (checksOf cfg) + treeSpanS world.repo cfg false)
  | .grace _ => reapGraceS + finalWaitS + stopAllowanceS (container world cfg phase) +
      (checksSpanS cfg (checksOf cfg) + treeSpanS world.repo cfg true)

theorem spends_aftermath (reapGraceS : ℤ) (ending : Ending) :
    Spends total (aftermath world cfg reapGraceS roundNum phase ending)
      (aftermathSpanS world cfg reapGraceS phase ending) := by
  have checks : (0 : ℚ) ≤ checksSpanS cfg (checksOf cfg) :=
    Int.cast_nonneg (checksSpanS_nonneg (checksOf_timed admitted))
  have whole : ∀ result : RunResult, Spends total (settle world cfg roundNum phase result)
      (checksSpanS cfg (checksOf cfg) + treeSpanS world.repo cfg true) := by
    intro result
    refine (spends_settle within admitted roundNum phase result).mono ?_
    have room := resolveAllowanceS_nonneg world.repo cfg.runtime.workDir cfg.runtime.logDir
      cfg.vcs.dirtyAction
    unfold treeSpanS
    split <;> simp [room]
  have free : ∀ resolved, (0 : ℚ) ≤ checksSpanS cfg (checksOf cfg) +
      treeSpanS world.repo cfg resolved :=
    fun resolved => add_nonneg checks (treeSpanS_nonneg ..)
  have killed : ∀ make : Bool → RunResult,
      Spends total (do
        let gone ← terminateAgent world.agent (container world cfg phase) reapGraceS
        return make gone : Git RunResult)
        (reapGraceS + finalWaitS + stopAllowanceS (container world cfg phase)) :=
    fun make => (spends_bind (spends_terminateAgent within.agent _ _)
      (fun _ _ _ _ => spends_pure _) (le_refl 0)).mono (add_zero _).le
  cases ending with
  | exited now ret =>
    exact (spends_bind (spends_pure _) (fun _ result _ _ => whole result) (free true)).mono
      (zero_add _).le
  | wall now =>
    refine spends_bind (killed _) (fun _ result _ ended => ?_) (free false)
    rw [← conclude_result ended now rfl]
    exact spends_settle within admitted roundNum phase result
  | grace now => exact spends_bind (killed _) (fun _ result _ _ => whole result) (free true)

end Aftermath

/-! ## The margin -/

theorem outerRoundCeilingS_eq (cfg : Config) (phaseArg : Option String) :
    outerRoundCeilingS cfg phaseArg =
      innerBudgetS cfg phaseArg + 195 + goalChecksAllowanceS cfg := by
  rw [outerRoundCeilingS, timeoutBudget]
  norm_num [reapMarginS, roundTermGraceS, gitCommitMarginS, hookAllowanceS, add_assoc]

theorem foldl_max_bounds (rest : List ℤ) (first : ℤ) :
    first ≤ rest.foldl max first ∧ ∀ n ∈ rest, n ≤ rest.foldl max first := by
  induction rest generalizing first with
  | nil => exact ⟨le_refl _, List.forall_mem_nil _⟩
  | cons n rest ih =>
    obtain ⟨low, all⟩ := ih (max first n)
    rw [List.foldl_cons, List.forall_mem_cons]
    exact ⟨(le_max_left ..).trans low, (le_max_right ..).trans low, all⟩

theorem le_maxOr {default n : ℤ} {values : List ℤ} (member : n ∈ values) :
    n ≤ maxOr default values := by
  cases values with
  | nil => cases member
  | cons first rest =>
    obtain rfl | later := List.mem_cons.mp member
    · exact (foldl_max_bounds rest n).1
    · exact (foldl_max_bounds rest first).2 n later

/-- The child runs its agent no longer than the ceiling thinks. -/
theorem budgetFor_le_inner {cfg : Config} {roundNum : ℤ} {phaseArg phase : Option String} {idx : ℕ}
    (runs : phaseFor roundNum cfg.phases.list phaseArg = some (phase, idx)) :
    budgetFor cfg phase ≤ innerBudgetS cfg phaseArg := by
  unfold phaseFor at runs
  unfold innerBudgetS
  split at runs
  · cases runs
  · split at runs
    · cases runs
      exact le_refl _
    · cases runs
  · rename_i empty
    cases runs
    rw [empty]
    exact le_refl _
  · rename_i names filled
    have inside : PhaseSelect.rotationIndex roundNum (cfg.phases.list.getD []).length <
        (cfg.phases.list.getD []).length :=
      PhaseSelect.rotationIndex_lt _ (List.length_pos_of_ne_nil filled)
    dsimp only at runs
    rw [List.getElem?_eq_getElem inside] at runs
    cases runs
    exact le_maxOr (List.mem_map_of_mem (List.getElem_mem inside))

/-! ## The grace that is published -/

theorem resolveReapGraceS_published {cfg : Config} (admitted : Admitted cfg)
    (manifests : List PluginManifest) (env : Env) (phaseArg : Option String) :
    resolveReapGraceS (applyReapGraceEnv cfg manifests env phaseArg) =
      resolveSigtermGraceS manifests (cfg.profileFor phaseArg).agent ∧
    0 < resolveSigtermGraceS manifests (cfg.profileFor phaseArg).agent ∧
    resolveSigtermGraceS manifests (cfg.profileFor phaseArg).agent ≤ 12 := by
  obtain ⟨positive, most⟩ := admitted.grace phaseArg
  have bounds : 0 < resolveSigtermGraceS manifests (cfg.profileFor phaseArg).agent ∧
      resolveSigtermGraceS manifests (cfg.profileFor phaseArg).agent ≤ 12 := by
    unfold resolveSigtermGraceS
    split
    · exact ⟨positive, most⟩
    · decide
  refine ⟨?_, bounds⟩
  rw [resolveReapGraceS, applyReapGraceEnv, Dict.get?_set, if_pos rfl, Option.bind_some]
  generalize resolveSigtermGraceS manifests (cfg.profileFor phaseArg).agent = grace at bounds
  have written : IntText.strOf grace = some (toString grace) := by
    obtain ⟨low, high⟩ := bounds
    interval_cases grace <;> rfl
  rw [IntText.intOf_strOf written]
  exact if_pos bounds.1

/-! ## Where the margin is too short -/

/-- The round that outlasts its ceiling: it can be killed for lingering, in a container whose
id is known, with an agent that is given more than the common grace; and the tree it leaves is
committed, with a log directory inside it. Checks that are only skipped leave their allowance
to the rest. -/
structure Overruns (cfg : Config) (manifests : List PluginManifest)
    (relativeTo : String → String → Option String) (phaseArg phase : Option String) : Prop where
  lingers : 0 < cfg.runtime.maxGraceAfterResultS ∧
    (cfg.profileFor phase).agent.terminalMarker ≠ "" ∧
    1 + cfg.runtime.maxGraceAfterResultS < budgetFor cfg phase
  contained : Stoppable (spawnCommand (cfg.profileFor phase).agent cfg.runtime.workDir)
  grace : reapGraceS < resolveSigtermGraceS manifests (cfg.profileFor phaseArg).agent
  commits : cfg.vcs.dirtyAction = "auto_commit"
  inside : ∃ rel, relativeTo cfg.runtime.workDir cfg.runtime.logDir = some rel
  checked : cfg.runtime.dryRun = true → checksOf cfg = []

theorem encode_ne_nil {text : String} : Utf8.encode text.toList ≠ [] ↔ text ≠ "" := by
  rw [not_iff_not, Utf8.encode, List.flatMap_eq_nil_iff]
  constructor
  · intro empty
    rw [← String.toList_eq_nil_iff]
    refine List.eq_nil_iff_forall_not_mem.mpr fun c member => ?_
    have := empty c member
    unfold Utf8.encodeChar at this
    dsimp only at this
    split_ifs at this
  · rintro rfl
    exact List.forall_mem_nil _

/-- Skipped checks leave the rest seven seconds each. -/
theorem goalChecksAllowanceS_ge {cfg : Config} (admitted : Admitted cfg)
    (given : checksOf cfg ≠ []) : 7 ≤ goalChecksAllowanceS cfg := by
  have timed := checksOf_timed admitted
  rw [goalChecksAllowanceS_eq]
  obtain ⟨check, rest, shape⟩ := List.exists_cons_of_ne_nil given
  rw [shape] at timed ⊢
  obtain ⟨first, others⟩ := List.forall_mem_cons.mp timed
  have later : 0 ≤ rest.foldr (fun check sum => checkAllowanceS check + sum) 0 := by
    clear shape timed
    induction rest with
    | nil => exact le_refl 0
    | cons check rest ih =>
      obtain ⟨second, others⟩ := List.forall_mem_cons.mp others
      have := ih others
      rw [List.foldr_cons, checkAllowanceS, killGraceS]
      omega
  rw [List.foldr_cons, checkAllowanceS, killGraceS]
  omega

theorem goalChecksAllowanceS_nonneg {cfg : Config} (admitted : Admitted cfg) :
    0 ≤ goalChecksAllowanceS cfg := by
  by_cases given : checksOf cfg = []
  · rw [goalChecksAllowanceS_eq, given]
    exact le_refl 0
  · have := goalChecksAllowanceS_ge admitted given
    omega

theorem checksSpanS_le {cfg : Config} (admitted : Admitted cfg) :
    checksSpanS cfg (checksOf cfg) ≤ goalChecksAllowanceS cfg := by
  rw [checksSpanS_eq]
  split
  · exact goalChecksAllowanceS_nonneg admitted
  · exact le_refl _

theorem stopAllowanceS_le (container : Container) : stopAllowanceS container ≤ 10 := by
  unfold stopAllowanceS
  split <;> norm_num [containerStopTimeoutS, reapGraceS]

theorem stopAllowanceS_uncontained {world : World} {cfg : Config} {phase : Option String}
    (bare : ¬ Stoppable (spawnCommand (cfg.profileFor phase).agent cfg.runtime.workDir)) :
    stopAllowanceS (container world cfg phase) = 0 := by
  refine if_neg fun found => bare ((cidfile_shape world.ownCidfile _).1.mp ?_)
  exact Option.isSome_iff_exists.mp found

theorem treeSpanS_bounds (repo : Repo) (cfg : Config) :
    treeSpanS repo cfg true ≤ 170 ∧
      (cfg.vcs.dirtyAction ≠ "auto_commit" → treeSpanS repo cfg true ≤ 80) ∧
      (repo.relativeTo cfg.runtime.workDir cfg.runtime.logDir = none →
        treeSpanS repo cfg true ≤ 150) := by
  have room := @excludeAllowanceS_bounds cfg.runtime.workDir cfg.runtime.logDir repo
  unfold treeSpanS resolveAllowanceS
  simp only [if_true]
  refine ⟨?_, fun other => ?_, fun outside => ?_⟩
  · split_ifs <;> linarith
  · split_ifs
    · linarith
    · norm_num
  · have none_ : excludeAllowanceS repo cfg.runtime.workDir cfg.runtime.logDir = 0 := by
      rw [excludeAllowanceS, outside]
      rfl
    split_ifs <;> linarith

/-- Outside that round the margin covers the aftermath, and a second more where the agent was
not killed for lingering. -/
theorem aftermathSpanS_le {world : World} {cfg : Config} (admitted : Admitted cfg)
    (manifests : List PluginManifest) {phaseArg phase : Option String}
    (orderly : ¬ Overruns cfg manifests world.repo.relativeTo phaseArg phase)
    {ticks : List Tick} {ending : Ending} (left : watchAgent cfg phase ticks = some ending) :
    let span := aftermathSpanS world cfg
      (resolveSigtermGraceS manifests (cfg.profileFor phaseArg).agent) phase ending
    span ≤ 195 + goalChecksAllowanceS cfg ∧
      (ending.now ≤ budgetFor cfg phase ∨ span + 1 ≤ 195 + goalChecksAllowanceS cfg) := by
  have grace : (resolveSigtermGraceS manifests (cfg.profileFor phaseArg).agent : ℚ) ≤ 12 := by
    exact_mod_cast (resolveReapGraceS_published admitted manifests Dict.empty phaseArg).2.2
  have checks : (checksSpanS cfg (checksOf cfg) : ℚ) ≤ goalChecksAllowanceS cfg :=
    Int.cast_le.mpr (checksSpanS_le admitted)
  have stop := stopAllowanceS_le (container world cfg phase)
  obtain ⟨tree, otherTree, outsideTree⟩ := treeSpanS_bounds world.repo cfg
  cases ending with
  | exited now ret =>
    simp only [aftermathSpanS]
    exact ⟨by linarith, .inr (by linarith)⟩
  | wall now =>
    simp only [aftermathSpanS, finalWaitS, treeSpanS, Bool.false_eq_true, if_false]
    exact ⟨by linarith, .inr (by linarith)⟩
  | grace now =>
    have unseen : Late noScan := ⟨le_refl 0, fun _ none_ => by cases none_⟩
    obtain ⟨armed, marked, late, inTime⟩ := watch_grace unseen left
    refine ⟨?_, .inl inTime⟩
    simp only [aftermathSpanS, finalWaitS]
    by_cases commits : cfg.vcs.dirtyAction = "auto_commit"
    swap
    · have := otherTree commits
      linarith
    cases inside : world.repo.relativeTo cfg.runtime.workDir cfg.runtime.logDir with
    | none =>
      have := outsideTree inside
      linarith
    | some rel =>
      by_cases contained : Stoppable (spawnCommand (cfg.profileFor phase).agent cfg.runtime.workDir)
      swap
      · rw [stopAllowanceS_uncontained contained]
        linarith
      by_cases short : resolveSigtermGraceS manifests (cfg.profileFor phaseArg).agent ≤ reapGraceS
      · have : (resolveSigtermGraceS manifests (cfg.profileFor phaseArg).agent : ℚ) ≤ 5 := by
          exact_mod_cast short
        linarith
      -- all is as in the round that overruns, but its checks are only skipped
      have lingers : 1 + cfg.runtime.maxGraceAfterResultS < budgetFor cfg phase := by
        have := late.trans_le inTime
        rw [resultScanIntervalS] at this
        exact_mod_cast this
      have skipped : cfg.runtime.dryRun = true ∧ checksOf cfg ≠ [] := by
        by_contra run
        rw [not_and_or, not_not, ← imp_iff_not_or.trans Iff.rfl] at run
        exact orderly ⟨⟨armed, encode_ne_nil.mp marked, lingers⟩, contained, not_le.mp short,
          commits, ⟨rel, inside⟩, run⟩
      have allowance : (7 : ℚ) ≤ goalChecksAllowanceS cfg := by
        exact_mod_cast goalChecksAllowanceS_ge admitted skipped.2
      have unspent : (checksSpanS cfg (checksOf cfg) : ℚ) = 0 := by
        rw [checksSpanS_eq, if_pos skipped.1, Int.cast_zero]
      linarith

/-! ## The round that overruns -/

/-- The log directory is not ignored, and something was added. -/
def slowRc (argv : List String) : ℤ :=
  if (argv.drop 1).head? = some "check-ignore" ∨ (argv.drop 1).head? = some "diff" then 1 else 0

/-- All takes as long as it may: the agent goes with the final wait, every goal check is cut
off, and git has something to commit. -/
def slowWorld (relativeTo : String → String → Option String) : World where
  agent := ⟨none, some finalWaitS, 0, fun _ => some (List.replicate 12 0x61),
    fun _ _ => (some (0, ""), containerStopTimeoutS)⟩
  repo := ⟨fun _ argv timeoutS => (⟨slowRc argv, " M x", "", false⟩, timeoutS), fun _ => 0,
    fun _ => "", relativeTo⟩
  ownCidfile := "round.cid"
  check := fun _ check =>
    if 0 < check.timeoutS then (some ⟨0, "", "", true⟩, checkAllowanceS check) else (none, 0)

section Slow
variable (relativeTo : String → String → Option String)

theorem slowWorld_within : Within (slowWorld relativeTo) where
  agent := {
    signal := fun _ none_ => by cases none_
    kill := by
      rintro _ ⟨⟩
      norm_num [finalWaitS]
    stop := fun _ _ => by norm_num [slowWorld, containerStopTimeoutS, reapGraceS] }
  repo := fun _ _ _ positive => ⟨rfl, Int.cast_nonneg positive.le, le_refl _⟩
  unspawned := by
    intro _ check
    simp only [slowWorld]
    split
    · intro none_
      cases none_
    · exact fun _ => rfl
  check := by
    intro _ check result positive answer
    simp only [slowWorld, if_pos positive] at answer ⊢
    cases answer
    refine ⟨?_, le_refl _⟩
    rw [checkAllowanceS, killGraceS]
    exact Int.cast_nonneg (by omega)

theorem takes_git (preFlags args : List String) (timeoutS : ℤ) :
    Takes total (git (slowWorld relativeTo).repo preFlags args timeoutS)
      ⟨slowRc ("git" :: preFlags ++ args), " M x", "", false⟩ (timeoutS : ℚ) :=
  takes_perform fun _ => ⟨rfl, total_snoc ..⟩

theorem takes_gitOr (wrap : String → GitError) (fallback : String) {preFlags args : List String}
    (timeoutS : ℤ) (answers : slowRc ("git" :: preFlags ++ args) = 0) :
    Takes total (gitOr (slowWorld relativeTo).repo wrap fallback preFlags args timeoutS) ()
      (timeoutS : ℚ) := by
  have called := takes_git relativeTo preFlags args timeoutS
  rw [answers] at called
  rw [← add_zero (timeoutS : ℚ)]
  exact takes_bind (takes_attempt called) takes_pure

theorem takes_detectDirtyFiles :
    Takes total (detectDirtyFiles (slowWorld relativeTo).repo) ["x"] 10 := by
  rw [show (10 : ℚ) = (gitTimeoutS : ℚ) + 0 by norm_num [gitTimeoutS]]
  exact takes_bind (takes_git relativeTo [] _ _) takes_pure

theorem takes_tryAutoCommit {workDir logDir rel : String}
    (inside : relativeTo workDir logDir = some rel) (roundNum : ℤ) (phase : Option String) :
    Takes total (tryAutoCommit (slowWorld relativeTo).repo workDir logDir roundNum phase)
      "M x" 160 := by
  have exclude : Takes total (combinedExcludePathspec (slowWorld relativeTo).repo workDir logDir)
      ["--", ":(exclude)" ++ rel] 10 := by
    rw [combinedExcludePathspec, show (slowWorld relativeTo).repo.relativeTo workDir logDir = _ from
      inside, show (10 : ℚ) = (gitTimeoutS : ℚ) + 0 by norm_num [gitTimeoutS]]
    exact takes_bind (takes_git relativeTo [] _ _) takes_pure
  have staged : Takes total (nothingStaged (slowWorld relativeTo).repo
      ["--", ":(exclude)" ++ rel]) false 10 := by
    rw [nothingStaged, if_pos (List.cons_ne_nil _ _),
      show (10 : ℚ) = (gitTimeoutS : ℚ) + 0 by norm_num [gitTimeoutS]]
    exact takes_bind (takes_git relativeTo [] _ _) takes_pure
  have sum : (160 : ℚ) = 10 + (gitTimeoutS + (10 + (gitCommitTimeoutS + (gitTimeoutS + 0)))) := by
    norm_num [gitTimeoutS, gitCommitTimeoutS]
  rw [sum]
  refine takes_bind exclude (takes_bind (takes_gitOr relativeTo _ _ _ rfl) (takes_bind staged ?_))
  exact takes_bind (takes_gitOr relativeTo _ _ _ rfl)
    (takes_bind (takes_git relativeTo [] _ _) takes_pure)

theorem takes_runGoalChecks {cfg : Config} {checks : List GoalCheckConfig}
    (timed : ∀ check ∈ checks, 0 < check.timeoutS) :
    Takes total (runGoalChecks (slowWorld relativeTo) cfg checks) ()
      (checksSpanS cfg checks : ℚ) := by
  induction checks with
  | nil =>
    rw [checksSpanS, Int.cast_zero]
    exact takes_pure
  | cons check rest ih =>
    obtain ⟨first, others⟩ := List.forall_mem_cons.mp timed
    rw [runGoalChecks, checksSpanS, Int.cast_add]
    refine takes_bind (a := ()) ?_ (ih others)
    unfold runGoalCheck
    split
    · rw [Int.cast_zero]
      exact takes_pure
    · refine takes_perform fun spent => ⟨rfl, ?_⟩
      rw [total_snoc]
      simp only [slowWorld, if_pos first]

theorem takes_containerStop (runtime : String) {container : Container} {file : String}
    (held : container.cidfile = some file) :
    Takes total (bestEffortContainerStop (slowWorld relativeTo).agent runtime container.cidfile :
      Git (Option String × Option Bool)) (some "aaaaaaaaaaaa", some true) 10 := by
  have id : readCid (List.replicate 12 0x61) = some "aaaaaaaaaaaa" := by decide
  rw [bestEffortContainerStop, held]
  simp only [slowWorld, Option.bind_some, id]
  refine takes_perform fun spent => ⟨rfl, ?_⟩
  rw [total_snoc]
  norm_num [containerStopTimeoutS, reapGraceS]

theorem takes_terminateAgent {container : Container} {file runtime : String}
    (held : container.cidfile = some file) (known : container.runtime = some runtime) (graceS : ℤ) :
    Takes total (terminateAgent (slowWorld relativeTo).agent container graceS : Git Bool) true
      (graceS + 20 : ℚ) := by
  have sum : (graceS + 20 : ℚ) = (graceS + finalWaitS) + ((10 + 0) + 0) := by
    rw [finalWaitS]
    ring
  rw [sum]
  refine takes_bind (a := ()) (takes_perform fun spent => ⟨rfl, ?_⟩)
    (takes_bind (a := ()) ?_ takes_pure)
  · rw [total_snoc]
    simp [killPgroup, waitExit, slowWorld]
  · rw [stopContainer, known]
    exact takes_bind (takes_containerStop relativeTo runtime held) takes_pure

theorem takes_settle {cfg : Config} (admitted : Admitted cfg) (roundNum : ℤ) (phase : Option String)
    {rel : String} (inside : relativeTo cfg.runtime.workDir cfg.runtime.logDir = some rel)
    (commits : cfg.vcs.dirtyAction = "auto_commit") {result : RunResult}
    (lingered : result.killedForGrace = true) :
    Takes total (settle (slowWorld relativeTo) cfg roundNum phase result)
      (some (.committed "M x")) (checksSpanS cfg (checksOf cfg) + 170 : ℚ) := by
  rw [show (170 : ℚ) = 10 + ((160 + 0) + 0) by norm_num]
  refine takes_bind (a := ()) (takes_runGoalChecks relativeTo (checksOf_timed admitted))
    (takes_bind (takes_attempt (takes_detectDirtyFiles relativeTo)) ?_)
  simp only [lingered, Bool.or_true, and_true]
  rw [if_pos (List.cons_ne_nil _ _)]
  refine takes_bind (a := .committed "M x") ?_ takes_pure
  rw [resolveDirtyTree, commits]
  exact takes_bind (takes_attempt (takes_tryAutoCommit relativeTo inside roundNum phase)) takes_pure

/-- The slow round takes more than the margin, from the wall on. -/
theorem slow_round_overruns {cfg : Config} (admitted : Admitted cfg)
    {manifests : List PluginManifest} {phaseArg phase : Option String} (roundNum : ℤ)
    (overruns : Overruns cfg manifests relativeTo phaseArg phase) :
    ∃ ticks result spent, watchAgent cfg phase ticks = some (.grace (budgetFor cfg phase)) ∧
      Ends (aftermath (slowWorld relativeTo) cfg
        (resolveSigtermGraceS manifests (cfg.profileFor phaseArg).agent) roundNum phase
        (.grace (budgetFor cfg phase))) [] (.ok result) spent ∧
      195 + goalChecksAllowanceS cfg < total spent := by
  obtain ⟨⟨armed, marked, room⟩, contained, grace, commits, ⟨rel, inside⟩, checked⟩ := overruns
  obtain ⟨file, held⟩ := (cidfile_shape (slowWorld relativeTo).ownCidfile _).1.mpr contained
  obtain ⟨runtime, known⟩ := (cidfile_shape (slowWorld relativeTo).ownCidfile _).2 contained
  have killed : Takes total (conclude (slowWorld relativeTo).agent
      (container (slowWorld relativeTo) cfg phase)
      (resolveSigtermGraceS manifests (cfg.profileFor phaseArg).agent)
      (.grace (budgetFor cfg phase)) : Git RunResult) ⟨0, true, true⟩ _ :=
    takes_bind (takes_terminateAgent relativeTo held known _) takes_pure
  have settled := @takes_settle relativeTo cfg admitted roundNum phase rel inside commits
    ⟨0, true, true⟩ rfl
  obtain ⟨spent, ended, seconds⟩ := takes_bind killed settled []
  refine ⟨_, _, spent, watch_lingering armed (encode_ne_nil.mpr marked) ?_, ended, ?_⟩
  · rw [resultScanIntervalS]
    exact_mod_cast room
  · have spans : checksSpanS cfg (checksOf cfg) = goalChecksAllowanceS cfg := by
      rw [checksSpanS_eq]
      split
      · rename_i dry
        rw [goalChecksAllowanceS_eq, checked dry]
        rfl
      · rfl
    have more : (5 : ℚ) < resolveSigtermGraceS manifests (cfg.profileFor phaseArg).agent := by
      exact_mod_cast grace
    rw [seconds, spans, total]
    linarith

end Slow

/-! ## Which ceilings cover their rounds -/

/-- However a round ends, and however long what comes then takes within its timeouts: the
ceiling leaves that long behind the budget, and a round whose agent was left with its budget,
or at the poll behind it, is not taken for wedged. -/
def Covers (cfg : Config) (reapGraceS : ℤ) (relativeTo : String → String → Option String)
    (roundNum : ℤ) (phaseArg phase : Option String) : Prop :=
  ∀ world, Within world → world.repo.relativeTo = relativeTo →
    ∀ ticks ending, watchAgent cfg phase ticks = some ending →
      ∀ result spent, Ends (aftermath world cfg reapGraceS roundNum phase ending) [] result spent →
        total spent ≤ outerRoundCeilingS cfg phaseArg - innerBudgetS cfg phaseArg ∧
        (ending.now ≤ budgetFor cfg phase + pollS →
          supervisorWedged (outerRoundCeilingS cfg phaseArg) (ending.now + total spent) = false)

theorem outerRoundCeilingS_cast (cfg : Config) (phaseArg : Option String) :
    (outerRoundCeilingS cfg phaseArg : ℚ) =
      innerBudgetS cfg phaseArg + 195 + goalChecksAllowanceS cfg := by
  rw [outerRoundCeilingS_eq]
  push_cast
  rfl

theorem Overruns.not_covers {cfg : Config} (admitted : Admitted cfg)
    {manifests : List PluginManifest} {relativeTo : String → String → Option String}
    {phaseArg phase : Option String}
    (overruns : Overruns cfg manifests relativeTo phaseArg phase) (env : Env) (roundNum : ℤ) :
    ¬ Covers cfg (resolveReapGraceS (applyReapGraceEnv cfg manifests env phaseArg)) relativeTo
      roundNum phaseArg phase := by
  rw [(resolveReapGraceS_published admitted manifests env phaseArg).1]
  intro covers
  obtain ⟨ticks, result, spent, left, ended, more⟩ :=
    slow_round_overruns relativeTo admitted roundNum overruns
  have fits := (covers _ (slowWorld_within relativeTo) rfl ticks _ left _ spent ended).1
  rw [outerRoundCeilingS_cast] at fits
  linarith

/-- **The ceiling covers every round but one kind.**  For every configuration the loader
accepts and every round of it that serve spawns, with the grace serve publishes: what the
child still waits for once its agent's loop is left, in any of its ways and with every wait
within its timeout, fits between the budget and the outer ceiling, unless the round is of the
kind that overruns. -/
theorem ceiling_covers_iff {host : Validators.Env} {registry : LoadConfig.Registry}
    {configDir : String} {raw : Toml.Table} {cfg : Config}
    (loaded : LoadConfig.loadConfig host registry configDir raw = .ok cfg)
    (manifests : List PluginManifest) (env : Env) {roundNum : ℤ} {phaseArg phase : Option String}
    {idx : ℕ} (runs : phaseFor roundNum cfg.phases.list phaseArg = some (phase, idx))
    (relativeTo : String → String → Option String) :
    Covers cfg (resolveReapGraceS (applyReapGraceEnv cfg manifests env phaseArg)) relativeTo
        roundNum phaseArg phase ↔
      ¬ Overruns cfg manifests relativeTo phaseArg phase := by
  have admitted := loadConfig_admitted loaded
  refine ⟨fun covers overruns => overruns.not_covers admitted env roundNum covers, ?_⟩
  rw [(resolveReapGraceS_published admitted manifests env phaseArg).1]
  rintro orderly world within rfl ticks ending left result spent ended
  have margin := outerRoundCeilingS_cast cfg phaseArg
  have budget : (budgetFor cfg phase : ℚ) ≤ innerBudgetS cfg phaseArg :=
    Int.cast_le.mpr (budgetFor_le_inner runs)
  have most := spends_aftermath within admitted roundNum phase _ ending [] result spent ended
  obtain ⟨fits, slack⟩ := aftermathSpanS_le admitted manifests orderly left
  rw [show total ([] : List Spent) = 0 from rfl, zero_add] at most
  refine ⟨by linarith, fun onTime => decide_eq_false (not_lt.mpr ?_)⟩
  rw [pollS] at onTime
  obtain inTime | room := slack <;> linarith

/-- The smallest configuration, whose dirty trees are stashed, has its rounds covered. -/
theorem stashing_rounds_covered :
    ∃ cfg, LoadConfig.loadConfig LoadConfig.plainEnv LoadConfig.plainRegistry "/repo"
        (LoadConfig.smallDocument LoadConfig.argvAgent []) = .ok cfg ∧
      Covers cfg (resolveReapGraceS (applyReapGraceEnv cfg [] Dict.empty none))
        (fun _ _ => some "log") 1 none none :=
  ⟨_, rfl, (@ceiling_covers_iff LoadConfig.plainEnv LoadConfig.plainRegistry "/repo"
    (LoadConfig.smallDocument LoadConfig.argvAgent []) _ rfl [] Dict.empty 1 none none 0 rfl
    (fun _ _ => some "log")).mpr fun overruns => absurd overruns.commits (by decide)⟩

/-- An agent in a container, whose work is committed, with a log directory in its tree. -/
def containedDocument : Toml.Table :=
  [("schema_version", .int 1),
    ("agent", .table (LoadConfig.argvAgent ++
      [("exec_prefix", .arr [.str "docker", .str "run", .str "img"])])),
    ("runtime", .table [("work_dir", .str "/repo"), ("log_dir", .str "/repo/log"),
      ("max_grace_after_result_s", .int 60)]),
    ("prompt", .table [("file", .str "/prompt.md")]),
    ("vcs", .table [("dirty_action", .str "auto_commit")])]

/-- `relative_to` of plain paths. -/
def plainRelativeTo (root path : String) : Option String :=
  if (root ++ "/").toList.isPrefixOf path.toList then
    some (String.ofList (path.toList.drop (root.toList.length + 1)))
  else none

/-- An agent that drains on an interrupt. -/
def drainingManifest : PluginManifest :=
  ⟨"claude", some .sigint, none, (Option.some_ne_none "").symm⟩

/-- Its lingering agent is given ten seconds of grace, and the commit of its work may end
five seconds behind the ceiling: the round is taken for wedged. -/
theorem contained_round_not_covered :
    ∃ cfg, LoadConfig.loadConfig LoadConfig.plainEnv LoadConfig.plainRegistry "/repo"
        containedDocument = .ok cfg ∧
      phaseFor 1 cfg.phases.list none = some (none, 0) ∧
      ¬ Covers cfg (resolveReapGraceS (applyReapGraceEnv cfg [drainingManifest] Dict.empty none))
        plainRelativeTo 1 none none := by
  refine ⟨_, rfl, rfl, Overruns.not_covers (@loadConfig_admitted LoadConfig.plainEnv
    LoadConfig.plainRegistry "/repo" containedDocument _ rfl)
    ⟨⟨?_, ?_, ?_⟩, ?_, ?_, rfl, ⟨"log", ?_⟩, ?_⟩ Dict.empty 1⟩
  · decide
  · decide
  · decide
  · decide
  · decide
  · decide
  · decide

end AgentRunner.CeilingLaw
