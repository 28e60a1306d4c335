import AgentRunner.PromptAssembly
import AgentRunner.RoundLogs
import AgentRunner.SessionRounds
import Mathlib.Logic.Relation
import Mathlib.Order.Bounds.Basic

/-! Round numbers over serve lifetimes. The counter is read off two sources that lose
what they held: a status file of which nothing is assumed, and logs that are pruned at
each start. What carries it is that some log in the directory always has a number at
least that of every round spawned. -/
namespace AgentRunner.RoundNumbers
open ConfigModels IntText JsonText PyValue Relation RoundEnv RoundLogs SessionRounds

/-! ## Lifetimes and what befalls them -/

/-- A log is older than any log with a higher number; one without a number counts lowest. -/
def MtimesFollowRounds (mtime : String → ℚ) (dir : LogFiles) : Prop :=
  ∀ older newer n, dir.get? older = some .regular → dir.get? newer = some .regular →
    isRoundLog older = true → isRoundLog newer = true → logNumber newer = some n →
      (∀ m, logNumber older = some m → m < n) → mtime older < mtime newer

/-- The log directory, the running lifetime, and the rounds of those before it. -/
structure Serve where
  logs : LogFiles
  status : Option (List Char)
  lifetime : Lifetime
  earlier : List Spawned

def Serve.spawned (s : Serve) : List Spawned := s.earlier ++ s.lifetime.rounds

/-- Before the first round: the directory may hold anything. -/
def Serve.first (logs : LogFiles) (status : Option (List Char)) (env : Env) : Serve :=
  ⟨logs, status, boot env, []⟩

/-- One thing that happens. A lifetime may end at any point, so `starts` is always
possible; a child that crashes early is one after which `status` is not written. -/
inductive Turn (i : Interpreter) : Serve → Serve → Prop
  /-- A serve starts and prunes. An error or a kill may stop it after some of the unlinks. -/
  | starts (s : Serve) (env : Env) (mtime : String → ℚ) (retention unlinks : ℕ)
      (follows : MtimesFollowRounds mtime s.logs) :
      Turn i s { s with
        logs := unlink s.logs ((prunePlan mtime s.logs retention).2.take unlinks)
        lifetime := boot env
        earlier := s.spawned }
  /-- The status file is written by a round, lost, or corrupted. -/
  | status (s : Serve) (text : Option (List Char)) : Turn i s { s with status := text }
  /-- A round is numbered and its log opened, and serve dies before the child is there. -/
  | opens (s : Serve) (n : ℤ) (name : String) (next : nextRoundNum i s.status s.logs = .ok n)
      (named : roundLogName n = some name) : Turn i s { s with logs := openLog s.logs name }
  /-- A round is numbered, its log opened, and its child spawned. -/
  | spawns (s : Serve) (cfg : Config) (manifests : List PluginManifest) (uuids : Uuids)
      (phase : Option String) (freshEyes : Bool) (n : ℤ) (name : String) (life : Lifetime)
      (next : nextRoundNum i s.status s.logs = .ok n) (named : roundLogName n = some name)
      (stepped : s.lifetime.step cfg manifests uuids ⟨n, phase, freshEyes⟩ = some life) :
      Turn i s { s with logs := openLog s.logs name, lifetime := life }
  /-- A round has ended, and the link to the current log is replaced. -/
  | relinks (s : Serve) : Turn i s { s with logs := relinkCurrent s.logs }

/-! ## Numbers survive -/

/-- The numbers the counter finds in the directory. -/
def numbers (dir : LogFiles) : Set ℤ := {n | n ∈ fileNums dir}

theorem numbers_openLog (dir : LogFiles) (name : String) :
    numbers dir ⊆ numbers (openLog dir name) := by
  intro n member
  obtain ⟨log, kind, held, own, numbered⟩ := mem_fileNums.mp member
  unfold openLog
  split
  · exact member
  · rename_i absent
    have other : log ≠ name := by
      rintro rfl
      rw [Dict.contains, held] at absent
      exact absent rfl
    exact mem_fileNums.mpr ⟨log, kind, by rw [Dict.get?_set, if_neg other, held], own, numbered⟩

theorem number_opened {dir : LogFiles} {n : ℤ} {name : String}
    (named : roundLogName n = some name) : n ∈ numbers (openLog dir name) := by
  have there : ∃ kind, (openLog dir name).get? name = some kind := by
    unfold openLog
    split
    · rename_i held
      exact Option.isSome_iff_exists.mp held
    · exact ⟨.regular, by rw [Dict.get?_set, if_pos rfl]⟩
  obtain ⟨kind, held⟩ := there
  exact mem_fileNums.mpr
    ⟨name, kind, held, isRoundLog_roundLogName named, logNumber_roundLogName named⟩

/-- The link to the current log is no round log. -/
theorem numbers_relinkCurrent (dir : LogFiles) : numbers dir ⊆ numbers (relinkCurrent dir) := by
  intro n member
  obtain ⟨log, kind, held, own, numbered⟩ := mem_fileNums.mp member
  have other : log ≠ roundCurrentLink := by
    rintro rfl
    exact absurd own (by decide +kernel)
  exact mem_fileNums.mpr
    ⟨log, kind, by rw [relinkCurrent, Dict.get?_set, if_neg other, held], own, numbered⟩

/-- A pass unlinks nothing, or all logs beyond those it keeps, at least one. -/
theorem prunePlan_eq (mtime : String → ℚ) (dir : LogFiles) (retention : ℕ) :
    (prunePlan mtime dir retention).2 = [] ∨
      0 < retention ∧
        (prunePlan mtime dir retention).2 = (newestFirst mtime dir).drop retention := by
  cases retention with
  | zero => exact .inl rfl
  | succ kept =>
    have enabled : pruningDisabled (kept + 1) = false := rfl
    by_cases bulk : isBulk ((newestFirst mtime dir).drop (kept + 1)).length (kept + 1) = true
    · left
      simp only [prunePlan, enabled, bulk, if_true, Bool.false_eq_true, if_false]
    · right
      refine ⟨kept.succ_pos, ?_⟩
      simp only [prunePlan, enabled, bulk, Bool.false_eq_true, if_false]

/-- A pass unlinks only logs that stand behind a newer one it keeps. -/
theorem prunePlan_behind {mtime : String → ℚ} {dir : LogFiles} {retention : ℕ} {name : String}
    (stale : name ∈ (prunePlan mtime dir retention).2) :
    ∃ newest ∈ newestFirst mtime dir, newest ∉ (prunePlan mtime dir retention).2 ∧
      name ∈ newestFirst mtime dir ∧ mtime name ≤ mtime newest := by
  obtain ⟨kept, plan⟩ : 0 < retention ∧ (prunePlan mtime dir retention).2 =
      (newestFirst mtime dir).drop retention := by
    refine (prunePlan_eq mtime dir retention).resolve_left fun nothing => ?_
    rw [nothing] at stale
    cases stale
  have sorted := newestFirst_sorted mtime dir
  have distinct := newestFirst_nodup mtime dir
  rw [plan] at stale ⊢
  cases logs : newestFirst mtime dir with
  | nil =>
    rw [logs, List.drop_nil] at stale
    cases stale
  | cons newest rest =>
    obtain ⟨fewer, rfl⟩ := Nat.exists_eq_add_one_of_ne_zero kept.ne'
    rw [logs, List.drop_succ_cons] at stale
    rw [logs] at sorted distinct
    have later : name ∈ rest := List.mem_of_mem_drop stale
    refine ⟨newest, .head _, ?_, .tail _ later, (List.pairwise_cons.mp sorted).1 name later⟩
    rw [List.drop_succ_cons]
    exact fun behind => (List.nodup_cons.mp distinct).1 (List.mem_of_mem_drop behind)

/-- However far a pass comes, some log left has a number at least as high. -/
theorem numbers_pruned {mtime : String → ℚ} {dir : LogFiles}
    (follows : MtimesFollowRounds mtime dir) (retention unlinks : ℕ) :
    IsCofinalFor (numbers dir)
      (numbers (unlink dir ((prunePlan mtime dir retention).2.take unlinks))) := by
  intro n member
  obtain ⟨log, kind, held, own, numbered⟩ := mem_fileNums.mp member
  by_cases gone : log ∈ (prunePlan mtime dir retention).2.take unlinks
  · obtain ⟨newest, among, safe, listed, no_newer⟩ := prunePlan_behind (List.mem_of_mem_take gone)
    obtain ⟨regular, isLog⟩ := mem_newestFirst.mp among
    obtain ⟨m, number, le⟩ : ∃ m, logNumber newest = some m ∧ n ≤ m := by
      by_contra lower
      push Not at lower
      have older := follows newest log n regular (mem_newestFirst.mp listed).1 isLog own numbered
        lower
      exact absurd no_newer (not_le.mpr older)
    have stays : newest ∉ (prunePlan mtime dir retention).2.take unlinks :=
      fun unlinked => safe (List.mem_of_mem_take unlinked)
    refine ⟨m, mem_fileNums.mpr ⟨newest, .regular, ?_, isLog, number⟩, le⟩
    rw [get?_unlink, if_neg stays, regular]
  · refine ⟨n, mem_fileNums.mpr ⟨log, kind, ?_, own, numbered⟩, le_refl n⟩
    rw [get?_unlink, if_neg gone, held]

/-- The next number is above every number in the directory, whatever the status says. -/
theorem number_lt_next {i : Interpreter} {status : Option (List Char)} {dir : LogFiles} {n m : ℤ}
    (next : nextRoundNum i status dir = .ok n) (member : m ∈ numbers dir) : m < n := by
  cases read : readRoundNum i status with
  | error e =>
    rw [nextRoundNum, read] at next
    cases next
  | ok statusNum =>
    rw [nextRoundNum, read] at next
    cases next
    cases top : (fileNums dir).max? with
    | none =>
      rw [List.max?_eq_none_iff] at top
      rw [numbers, Set.mem_ofPred_eq, top] at member
      cases member
    | some highest =>
      have below : m ≤ highest := (List.max?_eq_some_iff.mp top).2 m member
      exact Int.lt_add_one_of_le (below.trans (le_max_right _ _))

/-! ## What a round is told -/

/-- Serve publishes the number it chose; the variables set after it are others. -/
theorem step_publishes {cfg : Config} {manifests : List PluginManifest} {uuids : Uuids}
    {s life : Lifetime} {round : Round} (stepped : s.step cfg manifests uuids round = some life) :
    ∃ r, life.rounds = s.rounds ++ [r] ∧ r.round = round ∧
      r.env.get? roundNumKey = some (toString round.num) := by
  obtain rfl := Option.some.inj stepped
  refine ⟨_, rfl, rfl, ?_⟩
  have others : roundNumKey ≠ reapGraceKey ∧ roundNumKey ≠ stopSignalKey ∧
      roundNumKey ≠ resumeFlagKey ∧ roundNumKey ≠ sessionIdKey := by decide
  obtain ⟨grace, signal, flag, session⟩ := others
  simp only [applyResumeEnv]
  split
  · simp [applyCooperativeSignalEnv, applyReapGraceEnv, applyRoundNumEnv, grace, signal, flag,
      session]
  · split
    · simp [applyCooperativeSignalEnv, applyReapGraceEnv, applyRoundNumEnv, grace, signal, flag,
        session]
    · split <;> simp [applyCooperativeSignalEnv, applyReapGraceEnv, applyRoundNumEnv, grace,
        signal, flag, session]

/-- The child reads the number back, whatever the directory and the status are by then. -/
theorem child_resolves (i : Interpreter) {env : Env} {n : ℤ} {name : String}
    (named : roundLogName n = some name) (published : env.get? roundNumKey = some (toString n))
    (status : Option (List Char)) (dir : LogFiles) :
    resolveRoundNum i env status dir = .ok n := by
  obtain ⟨text, written, -⟩ := Option.map_eq_some_iff.mp named
  have spelled : toString n = text := by
    rw [strOf] at written
    split at written
    · exact Option.some.inj written
    · cases written
  rw [resolveRoundNum, published, Option.bind_some, spelled, intOf_strOf written]

/-! ## Over every run -/

/-- What every turn keeps: the rounds are numbered upwards, some log in the directory has
a number at least that of each, and their children go by these numbers. -/
structure Kept (i : Interpreter) (s : Serve) : Prop where
  upwards : s.spawned.Pairwise fun r later => r.round.num < later.round.num
  covered : IsCofinalFor {n | ∃ r ∈ s.spawned, r.round.num = n} (numbers s.logs)
  resolved : ∀ r ∈ s.spawned, ∀ status dir, resolveRoundNum i r.env status dir = .ok r.round.num

variable {i : Interpreter} {s t : Serve}

theorem kept_first (logs : LogFiles) (status : Option (List Char)) (env : Env) :
    Kept i (Serve.first logs status env) where
  upwards := .nil
  covered := by
    rintro n ⟨r, member, -⟩
    cases member
  resolved r member := by cases member

/-- A turn that spawns nothing keeps the law if the numbers survive it. -/
theorem Kept.silent (kept : Kept i s) (same : t.spawned = s.spawned)
    (survive : IsCofinalFor (numbers s.logs) (numbers t.logs)) : Kept i t where
  upwards := same ▸ kept.upwards
  covered := by
    rw [same]
    exact kept.covered.trans survive
  resolved := same ▸ kept.resolved

theorem Kept.spawns (kept : Kept i s) {cfg : Config} {manifests : List PluginManifest}
    {uuids : Uuids} {phase : Option String} {freshEyes : Bool} {n : ℤ} {name : String}
    {life : Lifetime} (next : nextRoundNum i s.status s.logs = .ok n)
    (named : roundLogName n = some name)
    (stepped : s.lifetime.step cfg manifests uuids ⟨n, phase, freshEyes⟩ = some life) :
    Kept i { s with logs := openLog s.logs name, lifetime := life } := by
  obtain ⟨r, grown, own, published⟩ := step_publishes stepped
  have number : r.round.num = n := congrArg Round.num own
  have all : ∀ u : Serve, u.earlier = s.earlier → u.lifetime = life →
      u.spawned = s.spawned ++ [r] := by
    intro u past present
    rw [Serve.spawned, past, present, grown, ← List.append_assoc, Serve.spawned]
  have spawned := all { s with logs := openLog s.logs name, lifetime := life } rfl rfl
  have highest : ∀ q ∈ s.spawned, q.round.num < n := by
    intro q member
    obtain ⟨m, there, le⟩ := kept.covered ⟨q, member, rfl⟩
    exact le.trans_lt (number_lt_next next there)
  refine ⟨?_, ?_, ?_⟩
  · rw [spawned, List.pairwise_append]
    refine ⟨kept.upwards, List.pairwise_singleton _ _, fun q member last here => ?_⟩
    rw [List.mem_singleton.mp here, number]
    exact highest q member
  · rintro m ⟨q, member, rfl⟩
    rw [spawned, List.mem_append, List.mem_singleton] at member
    refine ⟨n, number_opened named, ?_⟩
    obtain member | rfl := member
    · exact (highest q member).le
    · exact number.le
  · intro q member status dir
    rw [spawned, List.mem_append, List.mem_singleton] at member
    obtain member | rfl := member
    · exact kept.resolved q member status dir
    · rw [number]
      exact child_resolves i named published status dir

theorem kept_turn (kept : Kept i s) (turn : Turn i s t) : Kept i t := by
  cases turn with
  | starts env mtime retention unlinks follows =>
    exact kept.silent (List.append_nil _) (numbers_pruned follows retention unlinks)
  | status text => exact kept.silent rfl .rfl
  | opens n name next named => exact kept.silent rfl (.of_subset (numbers_openLog _ _))
  | spawns cfg manifests uuids phase freshEyes n name life next named stepped =>
    exact kept.spawns next named stepped
  | relinks => exact kept.silent rfl (.of_subset (numbers_relinkCurrent _))

end AgentRunner.RoundNumbers
