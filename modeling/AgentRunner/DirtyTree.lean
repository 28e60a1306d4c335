import AgentRunner.AgentRun
import AgentRunner.IntText
import AgentRunner.Metered

/-! `vcs_state.py`: what a round child asks git about the tree its agent leaves, and what it
does with a dirty one. What git answers and how long it takes is left open; the events, the
orphan state and the lock file it clears are left out. -/
namespace AgentRunner.DirtyTree
open AgentRun Effects Metered

/-! ## Calling git -/

/-- `BoundedResult`. -/
structure BoundedResult where
  rc : ℤ
  stdout : String
  stderr : String
  timedOut : Bool

/-- `_KILL_GRACE_S`. -/
def killGraceS : ℤ := 3

/-- What `run_bounded` takes: up to its timeout, or on a breach up to two graces more. -/
def Bounded (timeoutS : ℤ) (answer : BoundedResult × ℚ) : Prop :=
  0 ≤ answer.2 ∧
    answer.2 ≤ if answer.1.timedOut then ((timeoutS + 2 * killGraceS : ℤ) : ℚ) else timeoutS

/-- The repository a round child works in: what git answers under a timeout, the clock, and
`log_dir.resolve().relative_to(root.resolve())`, which is `none` outside the root. -/
structure Repo where
  git : List Spent → List String → ℤ → BoundedResult × ℚ
  epoch : List Spent → ℚ
  timestamp : List Spent → String
  relativeTo : String → String → Option String

inductive GitError where
  | gitTimeout (text : String)
  | stashError (text : String)
  | autoCommitError (text : String)

def GitError.text : GitError → String
  | .gitTimeout text | .stashError text | .autoCommitError text => text

def GitError.isGitTimeout : GitError → Bool
  | .gitTimeout _ => true
  | _ => false

def GitError.isStashError : GitError → Bool
  | .stashError _ => true
  | _ => false

def GitError.isAutoCommitError : GitError → Bool
  | .autoCommitError _ => true
  | _ => false

/-- `text[:n]`. -/
def cut (n : ℕ) (text : String) : String := String.ofList (text.toList.take n)

abbrev Git := Command (List Spent) GitError

variable (repo : Repo) (workDir logDir : String) (roundNum : ℤ) (phase : Option String)

/-- `_git`. -/
def git (preFlags args : List String) (timeoutS : ℤ) : Git BoundedResult :=
  perform fun spent =>
    let argv := "git" :: preFlags ++ args
    let answer := repo.git spent argv timeoutS
    let command := cut 100 (" ".intercalate (argv.drop 1))
    (if answer.1.timedOut then .error (.gitTimeout s!"git {command} exceeded {timeoutS}s")
      else .ok answer.1, spent ++ [⟨.git argv, answer.2⟩])

/-- The default timeout of `_git`. -/
def gitTimeoutS : ℤ := 10

def gitCommitTimeoutS : ℤ := 120

def stashPushTimeoutS : ℤ := 30

/-- The reason of an error, capped. -/
def reasonOr (text fallback : String) : String := cut 200 (if text = "" then fallback else text)

/-- A git call that changes the tree: its timeout and its failure are both raised as `wrap`. -/
def gitOr (wrap : String → GitError) (fallback : String) (preFlags args : List String)
    (timeoutS : ℤ) : Git Unit := do
  match ← attempt GitError.isGitTimeout (git repo preFlags args timeoutS) with
  | .error e => raise (wrap (cut 200 e.text))
  | .ok result =>
    if result.rc ≠ 0 then raise (wrap (reasonOr result.stderr fallback)) else pure ()

/-- A part of a text that names the phase, where there is one. -/
def phasePart (lead : String) : String :=
  if phase.getD "" = "" then "" else lead ++ phase.getD ""

/-! ## Detection -/

/-- The paths among the records of `git status --porcelain -z`; the record behind a rename
is its old path. -/
def recordPaths : List (List Char) → List (List Char)
  | [] => []
  | [status] => if status.length < 3 then [] else [status.drop 3]
  | status :: next :: rest =>
    if status.length < 3 then recordPaths (next :: rest)
    else if (status.take 2).contains 'R' then status.drop 3 :: recordPaths rest
    else status.drop 3 :: recordPaths (next :: rest)

/-- `_porcelain_paths`, which is `detect_dirty_files`. -/
def detectDirtyFiles : Git (List String) := do
  let r ← git repo [] ["status", "--porcelain", "-z"] gitTimeoutS
  if r.rc ≠ 0 then return []
  else return (recordPaths (r.stdout.toList.splitOn '\x00')).map String.ofList

/-- `_combined_exclude_pathspec`. -/
def combinedExcludePathspec : Git (List String) :=
  match repo.relativeTo workDir logDir with
  | none => pure []
  | some rel => do
    let ignored ← git repo [] ["check-ignore", "-q", "--", rel] gitTimeoutS
    if ignored.rc = 0 then return [] else return ["--", ":(exclude)" ++ rel]

/-! ## Stashing -/

structure StashRef where
  sha : String
  message : String
  reused : Bool

/-- The ends of a line of `str.splitlines`. -/
def isLineBreak (c : Char) : Bool :=
  "\n\r\x0b\x0c\x1c\x1d\x1e".toList.contains c || c.toNat == 0x85 || c.toNat == 0x2028 ||
    c.toNat == 0x2029

def firstLine (text : List Char) : List Char := text.takeWhile fun c => !isLineBreak c

/-- `text.split(sep, 1)`, where `sep` is in the text. -/
def splitOnce (sep : List Char) : List Char → Option (List Char × List Char)
  | [] => none
  | c :: rest =>
    if sep.isPrefixOf (c :: rest) then some ([], (c :: rest).drop sep.length)
    else (splitOnce sep rest).map fun parts => (c :: parts.1, parts.2)

/-- `_parse_stash_line`: the commit, its time, and the message it was stashed under. -/
def parseStashLine (line : List Char) : Option (String × ℤ × List Char) :=
  (splitOnce [' '] line).bind fun first =>
    (splitOnce [' '] first.2).bind fun second =>
      (IntText.intOf second.1).map fun ct =>
        (String.ofList first.1, ct,
          ((splitOnce [':', ' '] second.2).map Prod.snd).getD second.2)

/-- `_recent_orphan_for_round`. -/
def recentOrphanForRound (windowS : ℤ) : Git (Option StashRef) := do
  let r ← git repo [] ["stash", "list", "-1", "--format=%H %ct %s"] gitTimeoutS
  let now ← perform fun spent => (.ok (repo.epoch spent), spent)
  let listed := TextLines.strip r.stdout.toList
  if r.rc ≠ 0 ∨ listed = [] then return none
  else
    match parseStashLine (firstLine listed) with
    | none => return none
    | some (sha, ct, msg) =>
      if (s!"ORPHAN R{roundNum}").toList.isPrefixOf msg ∧ now - ct ≤ windowS then
        return some ⟨sha, String.ofList msg, false⟩
      else return none

/-- `stash_orphan`. -/
def stashOrphan (idempotencyS : ℤ) : Git (Option StashRef) := do
  let dirty ← detectDirtyFiles repo
  if dirty = [] then return none
  else
    match ← recentOrphanForRound repo roundNum idempotencyS with
    | some existing => return some { existing with reused := true }
    | none => do
      let ts ← perform fun spent => (.ok (repo.timestamp spent), spent)
      let msg := s!"ORPHAN R{roundNum}" ++ phasePart phase " phase=" ++ s!" ts={ts}"
      let exclude ← combinedExcludePathspec repo workDir logDir
      gitOr repo .stashError "git stash push failed" []
        (["stash", "push", "-u", "-m", msg] ++ exclude) stashPushTimeoutS
      let listing ← git repo [] ["stash", "list", "-1", "--format=%H %s"] gitTimeoutS
      let listed := TextLines.strip listing.stdout.toList
      let rest := ((splitOnce [' '] listed).map Prod.snd).getD []
      if listing.rc ≠ 0 ∨ listed = [] ∨ ConfigParsers.hasText msg.toList rest = false then
        return none
      else return some ⟨String.ofList (listed.takeWhile (· ≠ ' ')), msg, false⟩

/-! ## Committing -/

/-- `exclude and _git(…, "diff", "--cached", "--quiet").returncode == 0`. -/
def nothingStaged (exclude : List String) : Git Bool :=
  if exclude ≠ [] then do
    let staged ← git repo [] ["diff", "--cached", "--quiet"] gitTimeoutS
    return staged.rc == 0
  else return false

/-- `try_auto_commit`; an empty text means that nothing was left to commit. -/
def tryAutoCommit : Git String := do
  let subject := s!"agent-runner auto-commit: R{roundNum}" ++ phasePart phase " "
  let exclude ← combinedExcludePathspec repo workDir logDir
  gitOr repo .autoCommitError "git add failed" [] (["add", "-A"] ++ exclude) gitTimeoutS
  let unchanged ← nothingStaged repo exclude
  if unchanged then return ""
  else do
    gitOr repo .autoCommitError "git commit failed" ["-c", "commit.gpgsign=false"]
      ["commit", "-m", subject] gitCommitTimeoutS
    let head ← git repo [] ["rev-parse", "HEAD"] gitTimeoutS
    return String.ofList (TextLines.strip head.stdout.toList)

/-! ## Resolving -/

/-- What a dirty tree resolved to: with the commit of the stash or of the auto-commit. -/
inductive DirtyOutcome where
  | stashed (ref : String)
  | committed (ref : String)
  | ignored

/-- `resolve_dirty_tree`. -/
def resolveDirtyTree (dirtyAction : String) (stashIdempotencyS : ℤ) : Git DirtyOutcome :=
  if dirtyAction = "ignore" then pure .ignored
  else if dirtyAction = "auto_commit" then do
    match ← attempt GitError.isAutoCommitError
        (tryAutoCommit repo workDir logDir roundNum phase) with
    | .error _ => return .ignored
    | .ok sha => return if sha = "" then .ignored else .committed sha
  else do
    match ← attempt GitError.isStashError
        (stashOrphan repo workDir logDir roundNum phase stashIdempotencyS) with
    | .error _ => return .ignored
    | .ok none => return .ignored
    | .ok (some ref) => return .stashed ref.sha

/-! ## How long it takes -/

/-- Every git call finishes within its timeout. -/
def Repo.Within (repo : Repo) : Prop :=
  ∀ spent argv timeoutS, 0 < timeoutS → (repo.git spent argv timeoutS).1.timedOut = false ∧
    Bounded timeoutS (repo.git spent argv timeoutS)

section Bounds
variable {repo : Repo} (within : repo.Within)
include within

theorem spends_git (preFlags args : List String) {timeoutS : ℤ} (positive : 0 < timeoutS) :
    Spends total (git repo preFlags args timeoutS) (timeoutS : ℚ) := by
  refine spends_perform fun spent => ?_
  obtain ⟨finished, -, most⟩ := within spent ("git" :: preFlags ++ args) timeoutS positive
  rw [finished] at most
  rw [total_snoc]
  exact add_le_add_right most _

theorem spends_gitOr (wrap : String → GitError) (fallback : String) (preFlags args : List String)
    {timeoutS : ℤ} (positive : 0 < timeoutS) :
    Spends total (gitOr repo wrap fallback preFlags args timeoutS) (timeoutS : ℚ) := by
  refine (spends_bind (spends_attempt (spends_git within preFlags args positive))
    (fun _ answer _ _ => ?_) (le_refl 0)).mono (add_zero _).le
  cases answer with
  | error e => exact spends_raise _
  | ok result => exact spends_ite (fun _ => spends_raise _) fun _ => spends_pure _

theorem spends_detectDirtyFiles : Spends total (detectDirtyFiles repo) 10 := by
  refine (spends_bind (spends_git within _ _ (by decide)) (fun _ r _ _ => ?_) (le_refl 0)).mono
    (by norm_num [gitTimeoutS])
  exact spends_ite (fun _ => spends_pure _) fun _ => spends_pure _

/-- The seconds the exclusion of the log directory can take. -/
def excludeAllowanceS (repo : Repo) (workDir logDir : String) : ℚ :=
  if (repo.relativeTo workDir logDir).isSome then 10 else 0

omit within in
theorem excludeAllowanceS_bounds : 0 ≤ excludeAllowanceS repo workDir logDir ∧
    excludeAllowanceS repo workDir logDir ≤ 10 := by
  unfold excludeAllowanceS
  split <;> norm_num

theorem spends_combinedExcludePathspec :
    Spends total (combinedExcludePathspec repo workDir logDir)
      (excludeAllowanceS repo workDir logDir) := by
  unfold combinedExcludePathspec excludeAllowanceS
  cases repo.relativeTo workDir logDir with
  | none => exact spends_pure _
  | some rel =>
    refine (spends_bind (spends_git within _ _ (by decide)) (fun _ r _ _ => ?_) (le_refl 0)).mono
      (by norm_num [gitTimeoutS])
    exact spends_ite (fun _ => spends_pure _) fun _ => spends_pure _

omit within in
/-- Outside the work tree there is nothing to exclude. -/
theorem combinedExcludePathspec_outside (outside : repo.relativeTo workDir logDir = none)
    {before after : List Spent} {exclude : List String}
    (answered : Ends (combinedExcludePathspec repo workDir logDir) before (.ok exclude) after) :
    exclude = [] := by
  rw [combinedExcludePathspec, outside] at answered
  exact Except.ok.inj (ends_pure.mp answered).1

theorem spends_recentOrphanForRound (windowS : ℤ) :
    Spends total (recentOrphanForRound repo roundNum windowS) 10 := by
  refine (spends_bind (spends_git within _ _ (by decide)) (fun _ r _ _ => ?_) (le_refl 0)).mono
    (by norm_num [gitTimeoutS])
  refine (spends_bind (spends_perform (n := 0) fun spent => (add_zero _).ge) (fun _ now _ _ => ?_)
    (le_refl 0)).mono (add_zero _).le
  refine spends_ite (fun _ => spends_pure _) fun _ => ?_
  split
  · exact spends_pure _
  · exact spends_ite (fun _ => spends_pure _) fun _ => spends_pure _

theorem spends_stashOrphan (idempotencyS : ℤ) :
    Spends total (stashOrphan repo workDir logDir roundNum phase idempotencyS) 70 := by
  refine (spends_bind (spends_detectDirtyFiles within) (fun _ dirty _ _ => ?_)
    (n := 60) (by norm_num)).mono (by norm_num)
  refine spends_ite (fun _ => (spends_pure _).mono (by norm_num)) fun _ => ?_
  refine (spends_bind (spends_recentOrphanForRound roundNum within idempotencyS)
    (fun _ recent _ _ => ?_) (n := 50) (by norm_num)).mono (by norm_num)
  split
  · exact (spends_pure _).mono (by norm_num)
  · refine (spends_bind (spends_perform (n := 0) fun spent => (add_zero _).ge)
      (fun _ ts _ _ => ?_) (n := 50) (by norm_num)).mono (by norm_num)
    refine (spends_bind ((spends_combinedExcludePathspec workDir logDir within).mono
      (excludeAllowanceS_bounds workDir logDir).2) (fun _ exclude _ _ => ?_) (n := 40)
      (by norm_num)).mono (by norm_num)
    refine (spends_bind (spends_gitOr within _ _ _ _ (by decide)) (fun _ _ _ _ => ?_) (n := 10)
      (by norm_num)).mono (by norm_num [stashPushTimeoutS])
    refine (spends_bind (spends_git within _ _ (by decide)) (fun _ listing _ _ => ?_)
      (le_refl 0)).mono (by norm_num [gitTimeoutS])
    exact spends_ite (fun _ => spends_pure _) fun _ => spends_pure _

/-- An auto-commit excludes the log directory twice: from what is added, and by asking
whether anything was. -/
theorem spends_tryAutoCommit :
    Spends total (tryAutoCommit repo workDir logDir roundNum phase)
      (2 * excludeAllowanceS repo workDir logDir + 140) := by
  have room : 0 ≤ excludeAllowanceS repo workDir logDir := (excludeAllowanceS_bounds ..).1
  refine (spends_bind (spends_combinedExcludePathspec workDir logDir within)
    (fun _ exclude _ excluded => ?_) (n := excludeAllowanceS repo workDir logDir + 140)
    (by linarith)).mono (by linarith)
  refine (spends_bind (spends_gitOr within _ _ _ _ (by decide)) (fun _ _ _ _ => ?_)
    (n := excludeAllowanceS repo workDir logDir + 130) (by linarith)).mono
    (by norm_num [gitTimeoutS]; linarith)
  refine (spends_bind (m := excludeAllowanceS repo workDir logDir) ?_ (fun _ unchanged _ _ => ?_)
    (n := 130) (by norm_num)).mono (le_refl _)
  · refine spends_ite (fun filled => ?_) fun _ => (spends_pure _).mono room
    have inside : (repo.relativeTo workDir logDir).isSome = true := by
      cases place : repo.relativeTo workDir logDir with
      | none => exact absurd (combinedExcludePathspec_outside workDir logDir place excluded) filled
      | some _ => rfl
    refine (spends_bind (spends_git within _ _ (by decide)) (fun _ _ _ _ => spends_pure _)
      (le_refl 0)).mono ?_
    norm_num [excludeAllowanceS, inside, gitTimeoutS]
  · refine spends_ite (fun _ => (spends_pure _).mono (by norm_num)) fun _ => ?_
    refine (spends_bind (spends_gitOr within _ _ _ _ (by decide)) (fun _ _ _ _ => ?_) (n := 10)
      (by norm_num)).mono (by norm_num [gitCommitTimeoutS])
    exact (spends_bind (spends_git within _ _ (by decide)) (fun _ _ _ _ => spends_pure _)
      (le_refl 0)).mono (by norm_num [gitTimeoutS])

/-- The seconds a dirty tree can take to resolve. -/
def resolveAllowanceS (repo : Repo) (dirtyAction : String) : ℚ :=
  if dirtyAction = "ignore" then 0
  else if dirtyAction = "auto_commit" then 2 * excludeAllowanceS repo workDir logDir + 140
  else 70

theorem spends_resolveDirtyTree (dirtyAction : String) (stashIdempotencyS : ℤ) :
    Spends total (resolveDirtyTree repo workDir logDir roundNum phase dirtyAction stashIdempotencyS)
      (resolveAllowanceS workDir logDir repo dirtyAction) := by
  unfold resolveDirtyTree resolveAllowanceS
  split
  · exact spends_pure _
  · split
    · refine (spends_bind (spends_attempt
        (spends_tryAutoCommit workDir logDir roundNum phase within)) (fun _ answer _ _ => ?_)
        (le_refl 0)).mono (add_zero _).le
      cases answer <;> exact spends_pure _
    · refine (spends_bind (spends_attempt
        (spends_stashOrphan workDir logDir roundNum phase within _)) (fun _ answer _ _ => ?_)
        (le_refl 0)).mono (add_zero _).le
      obtain e | stashed := answer
      · exact spends_pure _
      · cases stashed <;> exact spends_pure _

end Bounds

end AgentRunner.DirtyTree
