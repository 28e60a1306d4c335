import AgentRunner.GitOutput
import AgentRunner.DirtyTree

/-! When `stash_orphan` takes the newest stash for its own: what it reads of the stash in the
listing, and for which round the stash was made. -/
namespace AgentRunner.StashReuse
open AgentRun DirtyTree Effects GitOutput TextLines

/-! ## Stashes -/

/-- The message `stash_orphan` mints. -/
def orphanMessage (roundNum : ℤ) (phase : Option String) (ts : String) : String :=
  s!"ORPHAN R{roundNum}" ++ phasePart phase " phase=" ++ s!" ts={ts}"

/-- What git prints for `%s`, as far as the listing rests on it: one line, which is the message
itself if that is one, and else begins as its first line does. -/
structure Subject (message printed : List Char) : Prop where
  oneLine : '\n' ∉ printed
  whole : '\n' ∉ message → printed = message
  begins : ∀ lead c, lead ++ [c] <+: message → '\n' ∉ lead ++ [c] → isSpace c = false →
    lead ++ [c] <+: printed

/-- What the subject says in front of the message. -/
def onBranch (branch : List Char) : List Char := "On ".toList ++ branch ++ ": ".toList

/-- A stash made by `stash_orphan` for a round and a phase, and its subject in the listing. git
has no colons or control characters in the name of a branch. -/
structure Minted where
  roundNum : ℤ
  phase : Option String
  ts : String
  branch : List Char
  printed : List Char
  name : ':' ∉ branch ∧ '\n' ∉ branch ∧ '\r' ∉ branch
  stamp : '\n' ∉ ts.toList
  subject : Subject (onBranch branch ++ (orphanMessage roundNum phase ts).toList) printed

inductive Origin where
  | minted (stash : Minted)
  | unrelated (subject : List Char)

def Origin.printed : Origin → List Char
  | .minted stash => stash.printed
  | .unrelated subject => subject

/-- The newest stash: its commit, the time of that, and where it comes from. -/
structure Stash where
  sha : List Char
  ct : ℕ
  origin : Origin
  hex : sha ≠ [] ∧ ∀ c ∈ sha, isHex c = true
  dated : ct < 2 ^ 64

/-- Its line in `git stash list -1 --format=%H %ct %s`. -/
def Stash.line (stash : Stash) : List Char :=
  stash.sha ++ ' ' :: (Nat.toDigits 10 stash.ct ++ ' ' :: stash.origin.printed)

def listing : Option Stash → List Char
  | none => []
  | some stash => stash.line ++ ['\n']

/-- The stash was made for the round. -/
def MintedFor (roundNum : ℤ) (stash : Stash) : Prop :=
  ∃ minted, stash.origin = .minted minted ∧ minted.roundNum = roundNum

/-! ## A call on a dirty tree -/

def listArgv : List String := ["git", "stash", "list", "-1", "--format=%H %ct %s"]

/-- Where `stash_orphan` is called with a dirty tree, and git lists the newest stash; `now` is
the time that is read after that. -/
structure Called (repo : Repo) (before : List Spent) (top : Option Stash) (now : ℚ) : Prop where
  dirty : ∃ files, (outcome (detectDirtyFiles repo) before).1 = .ok files ∧ files ≠ []
  listed : ∃ stderr seconds,
    repo.git (outcome (detectDirtyFiles repo) before).2 listArgv gitTimeoutS =
      (⟨0, received (Utf8.encode (listing top)), stderr, false⟩, seconds) ∧
    now = repo.epoch ((outcome (detectDirtyFiles repo) before).2 ++ [⟨.git listArgv, seconds⟩])

/-- `git stash push` was called on the way. -/
def Pushed (before after : List Spent) : Prop :=
  ∃ more argv seconds, after = before ++ more ∧
    (⟨.git ("git" :: "stash" :: "push" :: argv), seconds⟩ : Spent) ∈ more

/-- The call gives a stash that was there before. -/
def Reuses (answer : Except GitError (Option StashRef)) : Prop :=
  ∃ ref, answer = .ok (some ref) ∧ ref.reused = true

/-- The decimal digits of a round. -/
def roundText (roundNum : ℤ) : List Char := (toString roundNum).toList

/-- The message, as it is read of the subject that was received. -/
def readMessage (subject : List Char) : List Char :=
  let line := firstLine (subject.rdropWhile isSpace)
  ((splitOnce [':', ' '] line).map Prod.snd).getD line

/-! ## Lines -/

theorem splitOnce_lead {c : Char} {lead : List Char} (absent : c ∉ lead) (sep rest : List Char) :
    splitOnce (c :: sep) (lead ++ (c :: sep ++ rest)) = some (lead, rest) := by
  induction lead with
  | nil =>
    have here : (c :: sep).isPrefixOf (c :: (sep ++ rest)) = true :=
      List.isPrefixOf_iff_prefix.mpr (List.prefix_append _ _)
    rw [List.nil_append, List.cons_append, splitOnce, if_pos here, ← List.cons_append,
      List.drop_left]
  | cons d lead ih =>
    rw [List.mem_cons, not_or] at absent
    have later : ¬ (c :: sep).isPrefixOf (d :: (lead ++ (c :: sep ++ rest))) = true := by
      intro here
      exact absent.1 (List.cons_prefix_cons.mp (List.isPrefixOf_iff_prefix.mp here)).1
    rw [List.cons_append, splitOnce, if_neg later, ih absent.2]
    rfl

theorem splitOnce_absent {c : Char} {text : List Char} (absent : c ∉ text) (sep : List Char) :
    splitOnce (c :: sep) text = none := by
  induction text with
  | nil => rfl
  | cons d text ih =>
    rw [List.mem_cons, not_or] at absent
    have later : ¬ (c :: sep).isPrefixOf (d :: text) = true := by
      intro here
      exact absent.1 (List.cons_prefix_cons.mp (List.isPrefixOf_iff_prefix.mp here)).1
    rw [splitOnce, if_neg later, ih absent.2]
    rfl

/-- What ends a line is white space. -/
theorem lineBreak_space {c : Char} (ends : isLineBreak c = true) : isSpace c = true := by
  unfold isLineBreak at ends
  rw [Bool.or_eq_true, Bool.or_eq_true, Bool.or_eq_true, beq_iff_eq, beq_iff_eq, beq_iff_eq] at ends
  rcases ends with ((control | next) | line) | paragraph
  · have within : "\n\r\x0b\x0c\x1c\x1d\x1e".toList.all isSpace = true := by decide
    exact List.all_eq_true.mp within c (List.contains_iff_mem.mp control)
  · simp [isSpace, next]
  · simp [isSpace, line]
  · simp [isSpace, paragraph]

theorem hex_solid {c : Char} (hex : isHex c = true) : isSpace c = false := by
  have range : 48 ≤ c.toNat ∧ c.toNat ≤ 102 := by
    simp only [isHex, Bool.or_eq_true, Bool.and_eq_true, decide_eq_true_eq, Char.le_def,
      UInt32.le_iff_toNat_le] at hex
    change 48 ≤ c.val.toNat ∧ c.val.toNat ≤ 102
    have zero : '0'.val.toNat = 48 := rfl
    have nine : '9'.val.toNat = 57 := rfl
    have a : 'a'.val.toNat = 97 := rfl
    have f : 'f'.val.toNat = 102 := rfl
    have bigA : 'A'.val.toNat = 65 := rfl
    have bigF : 'F'.val.toNat = 70 := rfl
    omega
  simp only [isSpace, Bool.or_eq_false_iff, Bool.and_eq_false_iff, decide_eq_false_iff_not,
    beq_eq_false_iff_ne, ne_eq]
  omega

theorem sha_solid (stash : Stash) : ∀ c ∈ stash.sha, isSpace c = false :=
  fun c member => hex_solid (stash.hex.2 c member)

theorem sha_spaceless (stash : Stash) : ' ' ∉ stash.sha :=
  fun member => absurd (sha_solid stash _ member) (by decide)

theorem digits_spaceless (n : ℕ) : ' ' ∉ Nat.toDigits 10 n :=
  fun member => absurd (IntText.toDigits_spaceless n _ member) (by decide)

theorem digits_short (stash : Stash) :
    (Nat.toDigits 10 stash.ct).length ≤ IntText.maxStrDigits := by
  have small : stash.ct < 10 ^ 20 := stash.dated.trans (by norm_num)
  have length := (Nat.length_toDigits_le_iff (by decide) (by decide)).mpr small
  exact length.trans (by decide)

/-- A line is read as its commit, its time, and what follows the first colon of the rest. -/
theorem parseStashLine_line (stash : Stash) (rest : List Char) :
    parseStashLine (stash.sha ++ ' ' :: (Nat.toDigits 10 stash.ct ++ ' ' :: rest)) =
      some (String.ofList stash.sha, (stash.ct : ℤ),
        ((splitOnce [':', ' '] rest).map Prod.snd).getD rest) := by
  have first := splitOnce_lead (sha_spaceless stash) []
    (Nat.toDigits 10 stash.ct ++ ' ' :: rest)
  have second := splitOnce_lead (digits_spaceless stash.ct) [] rest
  rw [List.singleton_append] at first second
  rw [parseStashLine, first, Option.bind_some, second, Option.bind_some,
    IntText.intOf_toDigits (digits_short stash), Option.map_some]

theorem parseStashLine_bare (stash : Stash) :
    parseStashLine (stash.sha ++ ' ' :: Nat.toDigits 10 stash.ct) = none := by
  have first := splitOnce_lead (sha_spaceless stash) []
    (Nat.toDigits 10 stash.ct)
  rw [List.singleton_append] at first
  rw [parseStashLine, first, Option.bind_some,
    splitOnce_absent (digits_spaceless stash.ct), Option.bind_none]

/-! ## The newest stash -/

/-- The subject as it is received, with the end of its line. -/
def receivedSubject (stash : Stash) : List Char :=
  translateNewlines (stash.origin.printed ++ ['\n'])

def orphanLead (roundNum : ℤ) : List Char := "ORPHAN R".toList ++ roundText roundNum

/-- The stash that is recalled for the round, without regard to where it comes from. -/
def recalled (roundNum windowS : ℤ) (now : ℚ) : Option Stash → Option StashRef
  | none => none
  | some stash =>
    if orphanLead roundNum <+: readMessage (receivedSubject stash) ∧ now - stash.ct ≤ windowS then
      some ⟨String.ofList stash.sha, String.ofList (readMessage (receivedSubject stash)), false⟩
    else none

theorem front_solid {c : Char} {stash : Stash}
    (member : c ∈ stash.sha ++ ' ' :: (Nat.toDigits 10 stash.ct ++ [' '])) :
    isLineBreak c = false ∧ c ≠ '\r' := by
  have plain : isSpace c = false ∨ c = ' ' := by
    simp only [List.mem_append, List.mem_cons, List.not_mem_nil, or_false] at member
    rcases member with member | rfl | member | rfl
    · exact .inl (sha_solid stash c member)
    · exact .inr rfl
    · exact .inl (IntText.toDigits_spaceless stash.ct c member)
    · exact .inr rfl
  rcases plain with solid | rfl
  · refine ⟨Bool.eq_false_iff.mpr fun ends => ?_, ?_⟩
    · rw [lineBreak_space ends] at solid
      exact absurd solid (by simp)
    · rintro rfl
      exact absurd solid (by decide)
  · decide

theorem received_line (stash : Stash) : translateNewlines (stash.line ++ ['\n']) =
    (stash.sha ++ ' ' :: (Nat.toDigits 10 stash.ct ++ [' '])) ++ receivedSubject stash := by
  have lead : '\r' ∉ stash.sha ++ ' ' :: (Nat.toDigits 10 stash.ct ++ [' ']) :=
    fun member => (front_solid member).2 rfl
  have whole := translateNewlines_lead lead (stash.origin.printed ++ ['\n'])
  rw [receivedSubject, ← whole]
  simp only [Stash.line, List.append_assoc, List.cons_append, List.nil_append]

theorem rdropWhile_append (p : Char → Bool) (a b : List Char) : (a ++ b).rdropWhile p =
    if b.rdropWhile p = [] then a.rdropWhile p else a ++ b.rdropWhile p := by
  unfold List.rdropWhile
  rw [List.reverse_append, List.dropWhile_append]
  by_cases blank : b.reverse.dropWhile p = []
  · rw [blank, if_pos List.isEmpty_nil, if_pos List.reverse_nil]
  · rw [if_neg (by rwa [List.isEmpty_iff]), if_neg (by rwa [List.reverse_eq_nil_iff]),
      List.reverse_append, List.reverse_reverse]

/-- What is left of the listing: its first line, where the subject is not blank. -/
theorem firstLine_listing (stash : Stash) :
    parseStashLine (firstLine (strip (translateNewlines (stash.line ++ ['\n'])))) =
      if (receivedSubject stash).rdropWhile isSpace = [] then none
      else some (String.ofList stash.sha, (stash.ct : ℤ), readMessage (receivedSubject stash)) := by
  obtain ⟨c, rest, begins⟩ := List.exists_cons_of_ne_nil stash.hex.1
  have solid : isSpace c = false := sha_solid stash c (by rw [begins]; exact List.mem_cons_self)
  have left : lstrip (translateNewlines (stash.line ++ ['\n'])) =
      translateNewlines (stash.line ++ ['\n']) := by
    rw [received_line, begins]
    exact List.dropWhile_cons_of_neg (by rw [solid]; exact Bool.false_ne_true)
  have lead : ∀ c ∈ stash.sha ++ ' ' :: (Nat.toDigits 10 stash.ct ++ [' ']),
      (!isLineBreak c) = true := fun c member => by rw [(front_solid member).1]; rfl
  rw [strip, left, received_line, rdropWhile_append]
  by_cases blank : (receivedSubject stash).rdropWhile isSpace = []
  · rw [if_pos blank, if_pos blank]
    have digits := List.dropLast_concat_getLast (Nat.toDigits_ne_nil (n := stash.ct) (b := 10))
    have ends := IntText.toDigits_spaceless stash.ct _ (List.getLast_mem Nat.toDigits_ne_nil)
    have bare : (stash.sha ++ ' ' :: (Nat.toDigits 10 stash.ct ++ [' '])).rdropWhile isSpace =
        stash.sha ++ ' ' :: Nat.toDigits 10 stash.ct := by
      rw [← List.cons_append, ← List.append_assoc, List.rdropWhile_concat_pos _ _ _ (by decide),
        ← digits, ← List.cons_append, ← List.append_assoc]
      exact rstrip_solid ends
    have kept : firstLine (stash.sha ++ ' ' :: Nat.toDigits 10 stash.ct) =
        stash.sha ++ ' ' :: Nat.toDigits 10 stash.ct := by
      refine List.takeWhile_eq_self_iff.mpr fun c member => lead c ?_
      rw [← List.cons_append, ← List.append_assoc]
      exact List.mem_append_left _ member
    rw [bare, kept, parseStashLine_bare]
  · rw [if_neg blank, if_neg blank]
    rw [firstLine, List.takeWhile_append_of_pos lead]
    simp only [List.append_assoc, List.cons_append, List.nil_append]
    exact parseStashLine_line stash _

/-! ## What a call adds to the log of git calls -/

/-- The command forgets nothing that was spent. -/
def Grows {α : Type} (x : Git α) : Prop := ∀ s r u, Ends x s r u → s <+: u

theorem grows_pure {α : Type} (a : α) : Grows (pure a : Git α) := by
  intro s r u ended
  rw [(ends_pure.mp ended).2]

theorem grows_bind {α β : Type} {x : Git α} {f : α → Git β} (first : Grows x)
    (second : ∀ a, Grows (f a)) : Grows (x >>= f) := by
  intro s r u ended
  rcases ends_bind.mp ended with ⟨a, t, here, later⟩ | ⟨e, here, -⟩
  · exact (first s _ t here).trans (second a t r u later)
  · exact first s _ u here

theorem grows_ite {α : Type} {p : Prop} [Decidable p] {x y : Git α} (first : Grows x)
    (second : Grows y) : Grows (if p then x else y) := by
  split
  · exact first
  · exact second

variable {repo : Repo}

/-- A git call is spent, and raises a timeout at most. -/
theorem ends_git {preFlags args : List String} {timeoutS : ℤ} {s u : List Spent}
    {r : Except GitError BoundedResult} (ended : Ends (git repo preFlags args timeoutS) s r u) :
    (∃ seconds, u = s ++ [⟨.git ("git" :: preFlags ++ args), seconds⟩]) ∧
      ∀ e, r = .error e → ∃ text, e = .gitTimeout text := by
  obtain ⟨answered, rfl⟩ := Prod.mk.inj (ends_perform.mp ended)
  refine ⟨⟨_, rfl⟩, fun e failed => ?_⟩
  rw [failed] at answered
  split at answered
  · exact ⟨_, (Except.error.inj answered).symm⟩
  · exact absurd answered (by simp)

theorem grows_git (preFlags args : List String) (timeoutS : ℤ) :
    Grows (git repo preFlags args timeoutS) := by
  intro s r u ended
  obtain ⟨seconds, rfl⟩ := (ends_git ended).1
  exact List.prefix_append _ _

theorem grows_detectDirtyFiles : Grows (detectDirtyFiles repo) :=
  grows_bind (grows_git _ _ _) fun _ => grows_ite (grows_pure _) (grows_pure _)

theorem grows_combinedExcludePathspec (workDir logDir : String) :
    Grows (combinedExcludePathspec repo workDir logDir) := by
  unfold combinedExcludePathspec
  split
  · exact grows_pure _
  · exact grows_bind (grows_git _ _ _) fun _ => grows_ite (grows_pure _) (grows_pure _)

/-- Asking what to exclude raises a timeout at most. -/
theorem combinedExcludePathspec_timeout {workDir logDir : String} {s u : List Spent} {e : GitError}
    (ended : Ends (combinedExcludePathspec repo workDir logDir) s (.error e) u) :
    ∃ text, e = .gitTimeout text := by
  unfold combinedExcludePathspec at ended
  split at ended
  · exact absurd (ends_pure.mp ended).1 (by simp)
  · rcases ends_bind.mp ended with ⟨a, t, -, later⟩ | ⟨e', here, same⟩
    · split at later
      · exact absurd (ends_pure.mp later).1 (by simp)
      · exact absurd (ends_pure.mp later).1 (by simp)
    · rw [Except.error.inj same]
      exact (ends_git here).2 e' rfl

/-- A call that changes the tree is made, however it ends. -/
theorem ends_gitOr {wrap : String → GitError} {fallback : String} {preFlags args : List String}
    {timeoutS : ℤ} {s u : List Spent} {r : Except GitError Unit}
    (ended : Ends (gitOr repo wrap fallback preFlags args timeoutS) s r u) :
    ∃ seconds, u = s ++ [⟨.git ("git" :: preFlags ++ args), seconds⟩] := by
  unfold gitOr at ended
  rcases ends_bind.mp ended with ⟨answer, t, here, later⟩ | ⟨e, here, -⟩
  · obtain ⟨r', called, -⟩ := ends_attempt.mp here
    have same : u = t := by
      cases answer with
      | error e => exact (ends_raise.mp later).2
      | ok result =>
        dsimp only at later
        split at later
        · exact (ends_raise.mp later).2
        · exact (ends_pure.mp later).2
    rw [same]
    exact (ends_git called).1
  · obtain ⟨r', called, -⟩ := ends_attempt.mp here
    exact (ends_git called).1

/-! ## Recalling -/

variable {before : List Spent} {top : Option Stash} {now : ℚ} {roundNum windowS : ℤ}

theorem readMessage_blank {subject : List Char} (blank : subject.rdropWhile isSpace = []) :
    readMessage subject = [] := by
  rw [readMessage, blank]
  rfl

theorem orphanLead_filled (roundNum : ℤ) : orphanLead roundNum ≠ [] :=
  List.append_ne_nil_of_left_ne_nil (by decide) _

theorem recalled_blank {stash : Stash}
    (blank : (receivedSubject stash).rdropWhile isSpace = []) :
    recalled roundNum windowS now (some stash) = none := by
  rw [recalled]
  refine if_neg ?_
  rintro ⟨begins, -⟩
  rw [readMessage_blank blank] at begins
  exact orphanLead_filled roundNum (List.prefix_nil.mp begins)

theorem orphanLead_eq (roundNum : ℤ) :
    (s!"ORPHAN R{roundNum}").toList = orphanLead roundNum := String.toList_append

/-- Where the newest stash is listed, it is recalled by its message and its time. -/
theorem ends_recent (called : Called repo before top now) :
    ∃ u, (outcome (detectDirtyFiles repo) before).2 <+: u ∧
      Ends (recentOrphanForRound repo roundNum windowS) (outcome (detectDirtyFiles repo) before).2
        (.ok (recalled roundNum windowS now top)) u := by
  obtain ⟨stderr, seconds, answered, rfl⟩ := called.listed
  generalize (outcome (detectDirtyFiles repo) before).2 = s at answered ⊢
  refine ⟨s ++ [⟨.git listArgv, seconds⟩], List.prefix_append _ _, ?_⟩
  have asked : Ends (git repo [] ["stash", "list", "-1", "--format=%H %ct %s"] gitTimeoutS) s
      (.ok ⟨0, received (Utf8.encode (listing top)), stderr, false⟩)
      (s ++ [⟨.git listArgv, seconds⟩]) := by
    refine ends_perform.mpr ?_
    have answered :
        repo.git s ("git" :: [] ++ ["stash", "list", "-1", "--format=%H %ct %s"]) gitTimeoutS =
          (⟨0, received (Utf8.encode (listing top)), stderr, false⟩, seconds) := answered
    dsimp only
    rw [answered]
    rfl
  refine ends_bind.mpr (.inl ⟨_, _, asked, ends_bind.mpr (.inl ⟨_, _, ends_perform.mpr rfl, ?_⟩)⟩)
  dsimp only
  rw [received_encode]
  cases top with
  | none => exact ends_pure.mpr ⟨rfl, rfl⟩
  | some stash =>
    have parsed := firstLine_listing stash
    rw [listing]
    by_cases blank : (receivedSubject stash).rdropWhile isSpace = []
    · rw [if_pos blank] at parsed
      rw [parsed, recalled_blank blank, ite_self]
      exact ends_pure.mpr ⟨rfl, rfl⟩
    · rw [if_neg blank] at parsed
      have listed : strip (translateNewlines (stash.line ++ ['\n'])) ≠ [] := by
        intro empty
        rw [empty] at parsed
        exact absurd parsed (by simp [parseStashLine, firstLine, splitOnce])
      rw [if_neg (by simp [listed]), parsed]
      dsimp only
      rw [recalled]
      by_cases fits : orphanLead roundNum <+: readMessage (receivedSubject stash) ∧
          repo.epoch (s ++ [⟨.git listArgv, seconds⟩]) - stash.ct ≤ windowS
      · rw [if_pos (by rwa [List.isPrefixOf_iff_prefix, orphanLead_eq]), if_pos fits]
        exact ends_pure.mpr ⟨rfl, rfl⟩
      · rw [if_neg (by rwa [List.isPrefixOf_iff_prefix, orphanLead_eq]), if_neg fits]
        exact ends_pure.mpr ⟨rfl, rfl⟩

/-! ## Reusing and pushing -/

section
variable {workDir logDir : String} {phase : Option String} {u : List Spent}
  {answer : Except GitError (Option StashRef)}

/-- What is left of a call on a dirty tree once the newest stash was looked at. -/
theorem ends_stashOrphan (called : Called repo before top now) :
    ∃ s, before <+: s ∧ ∀ answer u,
      Ends (stashOrphan repo workDir logDir roundNum phase windowS) before answer u ↔
        Ends (match recalled roundNum windowS now top with
          | some existing => pure (some { existing with reused := true })
          | none => do
            let ts ← perform fun spent => (.ok (repo.timestamp spent), spent)
            let msg := orphanMessage roundNum phase ts
            let exclude ← combinedExcludePathspec repo workDir logDir
            gitOr repo .stashError "git stash push failed" []
              (["stash", "push", "-u", "-m", msg] ++ exclude) stashPushTimeoutS
            let listing ← git repo [] ["stash", "list", "-1", "--format=%H %s"] gitTimeoutS
            let listed := TextLines.strip listing.stdout.toList
            let rest := ((splitOnce [' '] listed).map Prod.snd).getD []
            if listing.rc ≠ 0 ∨ listed = [] ∨ ConfigParsers.hasText msg.toList rest = false then
              return none
            else return some ⟨String.ofList (listed.takeWhile (· ≠ ' ')), msg, false⟩ :
              Git (Option StashRef)) s answer u := by
  obtain ⟨files, given, dirty⟩ := called.dirty
  obtain ⟨s, later, recent⟩ := @ends_recent repo before top now roundNum windowS called
  have status : outcome (detectDirtyFiles repo) before =
      (.ok files, (outcome (detectDirtyFiles repo) before).2) := Prod.ext given rfl
  refine ⟨s, (grows_detectDirtyFiles _ _ _ (ends_outcome _ _)).trans later, fun answer u => ?_⟩
  unfold stashOrphan
  rw [Ends, outcome_bind_ok status, if_neg dirty, outcome_bind_ok recent]
  cases recalled roundNum windowS now top <;> rfl

theorem stash_reused {ref : StashRef} (called : Called repo before top now)
    (found : recalled roundNum windowS now top = some ref) :
    ∃ u, Ends (stashOrphan repo workDir logDir roundNum phase windowS) before
      (.ok (some { ref with reused := true })) u := by
  obtain ⟨s, -, ends⟩ := @ends_stashOrphan repo before top now roundNum windowS
    workDir logDir phase called
  rw [found] at ends
  exact ⟨s, (ends _ _).mpr (ends_pure.mpr ⟨rfl, rfl⟩)⟩

theorem error_reuses_none (e : GitError) : ¬ Reuses (.error e) := by
  rintro ⟨_, same, -⟩
  exact absurd same (by simp)

/-- The push is on record from there on. -/
theorem pushed_of_gitOr {wrap : String → GitError} {fallback : String} {argv : List String}
    {timeoutS : ℤ} {s t : List Spent} {r : Except GitError Unit} (earlier : before <+: s)
    (ended : Ends (gitOr repo wrap fallback [] ("stash" :: "push" :: argv) timeoutS) s r t)
    (later : t <+: u) : Pushed before u := by
  obtain ⟨seconds, rfl⟩ := ends_gitOr ended
  obtain ⟨more, rfl⟩ := earlier
  obtain ⟨rest, rfl⟩ := later
  refine ⟨more ++ ⟨.git ("git" :: "stash" :: "push" :: argv), seconds⟩ :: rest, argv, seconds,
    by simp, List.mem_append_right _ List.mem_cons_self⟩

/-- Where no stash is recalled, git is called to push one, unless it times out before that. -/
theorem stash_pushes (called : Called repo before top now)
    (found : recalled roundNum windowS now top = none)
    (ended : Ends (stashOrphan repo workDir logDir roundNum phase windowS) before answer u) :
    ¬ Reuses answer ∧ (Pushed before u ∨ ∃ text, answer = .error (.gitTimeout text)) := by
  obtain ⟨s, ⟨more, rfl⟩, ends⟩ := @ends_stashOrphan repo before top now roundNum windowS
    workDir logDir phase called
  rw [found] at ends
  have ended := (ends _ _).mp ended
  rcases ends_bind.mp ended with ⟨ts, a, stamped, ended⟩ | ⟨e, failed, -⟩
  · obtain ⟨-, rfl⟩ := Prod.mk.inj (ends_perform.mp stamped)
    dsimp only at ended
    rcases ends_bind.mp ended with ⟨exclude, b, asked, ended⟩ | ⟨e, failed, rfl⟩
    · have earlier := (List.prefix_append before more).trans
        (grows_combinedExcludePathspec _ _ _ _ _ asked)
      rcases ends_bind.mp ended with ⟨_, c, pushed, ended⟩ | ⟨e, pushed, rfl⟩
      · rcases ends_bind.mp ended with ⟨listing, d, listed, ended⟩ | ⟨e, failed, rfl⟩
        · have later := grows_git _ _ _ _ _ _ listed
          split at ended
          · obtain ⟨rfl, rfl⟩ := ends_pure.mp ended
            exact ⟨by rintro ⟨_, same, -⟩; exact absurd same (by simp),
              .inl (pushed_of_gitOr earlier pushed later)⟩
          · obtain ⟨rfl, rfl⟩ := ends_pure.mp ended
            refine ⟨?_, .inl (pushed_of_gitOr earlier pushed later)⟩
            rintro ⟨ref, same, reused⟩
            obtain rfl := Option.some.inj (Except.ok.inj same)
            exact absurd reused (by simp)
        · exact ⟨error_reuses_none e,
            .inl (pushed_of_gitOr earlier pushed (grows_git _ _ _ _ _ _ failed))⟩
      · exact ⟨error_reuses_none e, .inl (pushed_of_gitOr earlier pushed List.prefix_rfl)⟩
    · obtain ⟨text, rfl⟩ := combinedExcludePathspec_timeout failed
      exact ⟨error_reuses_none _, .inr ⟨text, rfl⟩⟩
  · exact absurd (Prod.mk.inj (ends_perform.mp failed)).1 (by simp)

end

/-! ## Messages -/

theorem roundText_plain (n : ℤ) : ∀ c ∈ roundText n, c.isDigit = true ∨ c = '-' := by
  intro c member
  rw [roundText, Int.toString_eq_repr, Int.repr_eq_if] at member
  split at member
  · rw [Nat.toList_repr] at member
    exact .inl (IntText.toDigits_isDigit _ c member)
  · rw [String.toList_append, Nat.toList_repr, List.mem_append] at member
    rcases member with sign | digit
    · exact .inr (List.mem_singleton.mp sign)
    · exact .inl (IntText.toDigits_isDigit _ c digit)

theorem roundText_absent (n : ℤ) {c : Char} (digitless : c.isDigit = false) (unsigned : c ≠ '-') :
    c ∉ roundText n := by
  intro member
  rcases roundText_plain n c member with digit | sign
  · rw [digit] at digitless
    exact absurd digitless (by simp)
  · exact unsigned sign

/-- Digits are the beginning of what they stand before only if they begin the digits there. -/
theorem prefix_before_mark {part whole rest : List Char} {mark : Char} (absent : mark ∉ part) :
    part <+: whole ++ mark :: rest ↔ part <+: whole := by
  constructor
  · intro begins
    have marked : whole ++ [mark] <+: whole ++ mark :: rest :=
      ⟨rest, by rw [List.append_assoc, List.singleton_append]⟩
    rcases List.prefix_or_prefix_of_prefix begins marked with short | long
    · rcases List.prefix_concat_iff.mp short with rfl | shorter
      · exact absurd (List.mem_append_right _ List.mem_cons_self) absent
      · exact shorter
    · exact absurd (long.subset (List.mem_append_right _ List.mem_cons_self)) absent
  · exact fun begins => begins.trans (List.prefix_append _ _)

/-- What stands behind the round in a message, up to an equals sign. -/
def phaseGap (phase : Option String) : List Char :=
  if phase.getD "" = "" then " ts".toList else " phase".toList

theorem orphanMessage_toList (roundNum : ℤ) (phase : Option String) (ts : String) :
    (orphanMessage roundNum phase ts).toList = orphanLead roundNum ++
      (phasePart phase " phase=").toList ++ (" ts=".toList ++ ts.toList) := by
  rw [orphanMessage, String.toList_append, String.toList_append, orphanLead_eq]
  exact congrArg _ String.toList_append

theorem orphanMessage_shape (roundNum : ℤ) (phase : Option String) (ts : String) :
    ∃ rest, (orphanMessage roundNum phase ts).toList =
      orphanLead roundNum ++ (phaseGap phase ++ '=' :: rest) := by
  rw [orphanMessage_toList, phasePart, phaseGap]
  by_cases none_ : phase.getD "" = ""
  · rw [if_pos none_, if_pos none_]
    refine ⟨ts.toList, ?_⟩
    rw [String.toList_empty, List.append_nil]
    rfl
  · rw [if_neg none_, if_neg none_]
    refine ⟨(phase.getD "").toList ++ (" ts=".toList ++ ts.toList), ?_⟩
    rw [String.toList_append, List.append_assoc, List.append_assoc]
    rfl

variable {minted : Minted} {stash : Stash}

/-- No character of the branch ends a line. -/
def BreakFree (branch : List Char) : Prop := ∀ c ∈ branch, isLineBreak c = false

/-- The start of the subject, up to the equals sign behind the round. -/
def Minted.lead (minted : Minted) : List Char :=
  onBranch minted.branch ++ (orphanLead minted.roundNum ++ phaseGap minted.phase)

theorem phaseGap_cases (phase : Option String) :
    phaseGap phase = ' ' :: "ts".toList ∨ phaseGap phase = ' ' :: "phase".toList := by
  unfold phaseGap
  split
  · exact .inl rfl
  · exact .inr rfl

theorem phaseGap_plain (phase : Option String) : ∀ c ∈ phaseGap phase ++ ['='],
    c ≠ '\n' ∧ c ≠ '\r' ∧ isLineBreak c = false := by
  have plain : ∀ gap ∈ [' ' :: "ts".toList, ' ' :: "phase".toList],
      (gap ++ ['=']).all (fun c => c != '\n' && c != '\r' && !isLineBreak c) = true := by decide
  have gap := plain (phaseGap phase) (by simpa using phaseGap_cases phase)
  intro c member
  simpa [and_assoc] using List.all_eq_true.mp gap c member

theorem orphanLead_plain (roundNum : ℤ) : ∀ c ∈ orphanLead roundNum,
    c ≠ '\n' ∧ c ≠ '\r' ∧ isLineBreak c = false := by
  intro c member
  rcases List.mem_append.mp member with fixed | digit
  · have plain : "ORPHAN R".toList.all
        (fun c => c != '\n' && c != '\r' && !isLineBreak c) = true := by decide
    simpa [and_assoc] using List.all_eq_true.mp plain c fixed
  · rcases roundText_plain roundNum c digit with digit | rfl
    · have solid := IntText.isDigit_not_space digit
      refine ⟨?_, ?_, Bool.eq_false_iff.mpr fun ends => ?_⟩
      · rintro rfl
        exact absurd digit (by decide)
      · rintro rfl
        exact absurd digit (by decide)
      · rw [lineBreak_space ends] at solid
        exact absurd solid (by simp)
    · decide

theorem lead_split (minted : Minted) : minted.lead ++ ['='] =
    onBranch minted.branch ++ (orphanLead minted.roundNum ++ (phaseGap minted.phase ++ ['='])) := by
  rw [Minted.lead, List.append_assoc, List.append_assoc]

theorem lead_oneLine (minted : Minted) {c : Char} (member : c ∈ minted.lead ++ ['=']) :
    c ≠ '\n' ∧ c ≠ '\r' := by
  rw [lead_split, List.mem_append, List.mem_append] at member
  rcases member with branch | round | gap
  · rw [onBranch, List.mem_append, List.mem_append] at branch
    have fixed : ("On ".toList ++ ": ".toList).all (fun c => c != '\n' && c != '\r') = true := by
      decide
    rcases branch with (on | name) | colon
    · simpa using List.all_eq_true.mp fixed c (List.mem_append_left _ on)
    · exact ⟨fun same => minted.name.2.1 (same ▸ name), fun same => minted.name.2.2 (same ▸ name)⟩
    · simpa using List.all_eq_true.mp fixed c (List.mem_append_right _ colon)
  · exact ⟨(orphanLead_plain _ c round).1, (orphanLead_plain _ c round).2.1⟩
  · exact ⟨(phaseGap_plain _ c gap).1, (phaseGap_plain _ c gap).2.1⟩

theorem lead_breakFree (free : BreakFree minted.branch) {c : Char}
    (member : c ∈ minted.lead ++ ['=']) : isLineBreak c = false := by
  rw [lead_split, List.mem_append, List.mem_append] at member
  rcases member with branch | round | gap
  · rw [onBranch, List.mem_append, List.mem_append] at branch
    have fixed : ("On ".toList ++ ": ".toList).all (fun c => !isLineBreak c) = true := by decide
    rcases branch with (on | name) | colon
    · simpa using List.all_eq_true.mp fixed c (List.mem_append_left _ on)
    · exact free c name
    · simpa using List.all_eq_true.mp fixed c (List.mem_append_right _ colon)
  · exact (orphanLead_plain _ c round).2.2
  · exact (phaseGap_plain _ c gap).2.2

/-- The subject begins with the branch and the round, whatever git does to the phase. -/
theorem printed_begins (minted : Minted) :
    ∃ more, minted.printed = minted.lead ++ '=' :: more := by
  obtain ⟨rest, shape⟩ := orphanMessage_shape minted.roundNum minted.phase minted.ts
  have begins := minted.subject.begins minted.lead '='
  rw [shape] at begins
  obtain ⟨more, whole⟩ := begins ⟨rest, by simp [Minted.lead]⟩
    (fun newline => (lead_oneLine minted newline).1 rfl) (by decide)
  exact ⟨more, by rw [← whole, List.append_assoc, List.singleton_append]⟩

theorem orphanLead_not_on (n : ℤ) (rest : List Char) :
    ¬ orphanLead n <+: "On ".toList ++ rest := by
  have round : orphanLead n = 'O' :: 'R' :: ("PHAN R".toList ++ roundText n) := rfl
  have on : "On ".toList ++ rest = 'O' :: 'n' :: ' ' :: rest := rfl
  rw [round, on]
  intro begins
  exact absurd (List.cons_prefix_cons.mp (List.cons_prefix_cons.mp begins).2).1 (by decide)

/-- A branch that is broken off leaves nothing of the message on the first line. -/
theorem firstLine_broken (broken : ¬ BreakFree minted.branch) (more : List Char) :
    firstLine (minted.lead ++ '=' :: more) = "On ".toList ++ firstLine minted.branch := by
  have on : ∀ c ∈ "On ".toList, (!isLineBreak c) = true := List.all_eq_true.mp (by decide)
  have part : (minted.branch.takeWhile fun c => !isLineBreak c).length ≠ minted.branch.length := by
    intro whole
    refine broken fun c member => ?_
    have all := (List.takeWhile_prefix fun c => !isLineBreak c).eq_of_length whole
    simpa using List.takeWhile_eq_self_iff.mp all c member
  rw [firstLine, Minted.lead, onBranch, List.append_assoc, List.append_assoc, List.append_assoc,
    List.takeWhile_append_of_pos on, List.takeWhile_append, if_neg part]
  rfl

theorem onBranch_colonless (minted : Minted) : ':' ∉ "On ".toList ++ firstLine minted.branch := by
  rw [List.mem_append, not_or]
  exact ⟨by decide, fun member => minted.name.1 ((List.takeWhile_prefix _).subset member)⟩

theorem orphanLead_prefix_iff {n m : ℤ} {rest : List Char} :
    orphanLead n <+: orphanLead m ++ rest ↔ roundText n <+: roundText m ++ rest := by
  unfold orphanLead
  rw [List.append_assoc]
  exact List.prefix_append_right_inj _

/-- Of a received subject, white space is dropped behind the equals sign only. -/
theorem received_minted (of : stash.origin = .minted minted) :
    ∃ more, (receivedSubject stash).rdropWhile isSpace = minted.lead ++ '=' :: more := by
  obtain ⟨rest, whole⟩ := printed_begins minted
  have received : receivedSubject stash =
      (minted.lead ++ ['=']) ++ translateNewlines (rest ++ ['\n']) := by
    have returnless : '\r' ∉ minted.lead ++ ['='] :=
      fun member => (lead_oneLine minted member).2 rfl
    rw [receivedSubject, of, Origin.printed, whole, ← translateNewlines_lead returnless,
      List.append_assoc, List.append_assoc]
    rfl
  rw [received, rdropWhile_append]
  split
  · exact ⟨[], rstrip_solid (by decide)⟩
  · exact ⟨_, by rw [List.append_assoc, List.singleton_append]⟩

/-- The message of a minted stash is taken for one of the round where the decimal digits of the
round begin those of its own, if the branch leaves it on the first line. -/
theorem reads_minted (of : stash.origin = .minted minted) {roundNum : ℤ} :
    orphanLead roundNum <+: readMessage (receivedSubject stash) ↔
      BreakFree minted.branch ∧ roundText roundNum <+: roundText minted.roundNum := by
  obtain ⟨more, stripped⟩ := received_minted of
  rw [readMessage, stripped]
  by_cases free : BreakFree minted.branch
  · have line : firstLine (minted.lead ++ '=' :: more) =
        "On ".toList ++ minted.branch ++ (':' :: [' '] ++ (orphanLead minted.roundNum ++
          (phaseGap minted.phase ++ '=' :: firstLine more))) := by
      have kept : ∀ c ∈ minted.lead ++ ['='], (!isLineBreak c) = true := fun c member => by
        rw [lead_breakFree free member]
        rfl
      have taken := @List.takeWhile_append_of_pos _ _ _ more kept
      rw [List.append_assoc, List.singleton_append] at taken
      rw [firstLine, taken, lead_split, onBranch]
      simp only [List.append_assoc, List.cons_append, List.nil_append]
      rfl
    have colonless : ':' ∉ "On ".toList ++ minted.branch := by
      rw [List.mem_append, not_or]
      exact ⟨by decide, minted.name.1⟩
    rw [line, splitOnce_lead colonless, Option.map_some, Option.getD_some]
    rw [and_iff_right free, orphanLead_prefix_iff]
    have unspaced : ' ' ∉ roundText roundNum := roundText_absent _ (by decide) (by decide)
    rcases phaseGap_cases minted.phase with gap | gap
    · rw [gap]
      exact prefix_before_mark unspaced
    · rw [gap]
      exact prefix_before_mark unspaced
  · rw [firstLine_broken free more, splitOnce_absent (onBranch_colonless minted), Option.map_none,
      Option.getD_none]
    refine iff_of_false (fun begins => ?_) fun both => free both.1
    exact orphanLead_not_on roundNum _ begins

/-- A message is on one line where the phase is. -/
theorem message_oneLine (minted : Minted) :
    '\n' ∉ (orphanMessage minted.roundNum minted.phase minted.ts).toList ↔
      '\n' ∉ (minted.phase.getD "").toList := by
  have round : '\n' ∉ orphanLead minted.roundNum :=
    fun member => (orphanLead_plain _ _ member).1 rfl
  have stamp : '\n' ∉ " ts=".toList ++ minted.ts.toList := by
    rw [List.mem_append, not_or]
    exact ⟨by decide, minted.stamp⟩
  have part : '\n' ∈ (phasePart minted.phase " phase=").toList ↔
      '\n' ∈ (minted.phase.getD "").toList := by
    unfold phasePart
    split
    · rename_i none_
      rw [none_]
    · rw [String.toList_append, List.mem_append]
      exact or_iff_right (by decide)
  rw [orphanMessage_toList, List.mem_append, List.mem_append, part]
  simp only [round, stamp, or_false, false_or]

/-- The line gives the message back that was minted, exactly if the phase is on one line. -/
theorem recovers_iff (of : stash.origin = .minted minted) :
    parseStashLine stash.line = some (String.ofList stash.sha, (stash.ct : ℤ),
        (orphanMessage minted.roundNum minted.phase minted.ts).toList) ↔
      '\n' ∉ (minted.phase.getD "").toList := by
  obtain ⟨more, begins⟩ := printed_begins minted
  have whole : minted.printed = onBranch minted.branch ++
      (orphanLead minted.roundNum ++ (phaseGap minted.phase ++ '=' :: more)) := by
    rw [begins, Minted.lead, List.append_assoc, List.append_assoc]
  have colonless : ':' ∉ "On ".toList ++ minted.branch := by
    rw [List.mem_append, not_or]
    exact ⟨by decide, minted.name.1⟩
  have cut := splitOnce_lead colonless [' ']
    (orphanLead minted.roundNum ++ (phaseGap minted.phase ++ '=' :: more))
  rw [← List.append_assoc] at cut
  change splitOnce [':', ' '] (onBranch minted.branch ++ _) = _ at cut
  rw [Stash.line, parseStashLine_line, of, Origin.printed, whole, cut, Option.map_some,
    Option.getD_some, Option.some_inj, Prod.mk.injEq, Prod.mk.injEq, ← message_oneLine]
  constructor
  · rintro ⟨-, -, same⟩ newline
    rw [← same] at newline
    refine minted.subject.oneLine ?_
    rw [whole]
    exact List.mem_append_right _ newline
  · intro oneLine
    have branch : '\n' ∉ onBranch minted.branch := fun member =>
      (lead_oneLine minted (List.mem_append_left _ (List.mem_append_left _ member))).1 rfl
    have same := minted.subject.whole (by
      rw [List.mem_append, not_or]
      exact ⟨branch, oneLine⟩)
    rw [whole] at same
    exact ⟨rfl, rfl, List.append_cancel_left same⟩

/-! ## Its own round -/

/-- A call reuses the newest stash only if that was minted for its round within the window, and
else pushes, where git does not time out before that; and the line of a minted stash is read as
its message. -/
structure OwnStash (repo : Repo) (workDir logDir : String) (roundNum windowS : ℤ)
    (phase : Option String) (before : List Spent) (top : Option Stash) (now : ℚ) : Prop where
  reuses : ∀ answer u,
    Ends (stashOrphan repo workDir logDir roundNum phase windowS) before answer u →
    Reuses answer → ∃ stash, top = some stash ∧ MintedFor roundNum stash ∧ now - stash.ct ≤ windowS
  pushes : ∀ answer u,
    Ends (stashOrphan repo workDir logDir roundNum phase windowS) before answer u →
    ¬ Reuses answer → Pushed before u ∨ ∃ text, answer = .error (.gitTimeout text)
  recovers : ∀ stash minted, top = some stash → stash.origin = .minted minted →
    parseStashLine stash.line = some (String.ofList stash.sha, (stash.ct : ℤ),
      (orphanMessage minted.roundNum minted.phase minted.ts).toList)

/-- The newest stash, if it is as recent as the window, is not taken for one of the round by the
beginning of its message; and where it was minted, its phase is on one line. -/
def Unmistaken (roundNum windowS : ℤ) (now : ℚ) : Option Stash → Prop
  | none => True
  | some stash =>
    match stash.origin with
    | .minted minted => '\n' ∉ (minted.phase.getD "").toList ∧
        (now - stash.ct ≤ windowS → BreakFree minted.branch →
          roundText roundNum <+: roundText minted.roundNum → minted.roundNum = roundNum)
    | .unrelated _ =>
        ¬ (now - stash.ct ≤ windowS ∧ orphanLead roundNum <+: readMessage (receivedSubject stash))

theorem unmistaken_minted (of : stash.origin = .minted minted) :
    Unmistaken roundNum windowS now (some stash) ↔ '\n' ∉ (minted.phase.getD "").toList ∧
      (now - stash.ct ≤ windowS → BreakFree minted.branch →
        roundText roundNum <+: roundText minted.roundNum → minted.roundNum = roundNum) := by
  simp only [Unmistaken, of]

theorem unmistaken_unrelated {subject : List Char} (of : stash.origin = .unrelated subject) :
    Unmistaken roundNum windowS now (some stash) ↔
      ¬ (now - stash.ct ≤ windowS ∧
        orphanLead roundNum <+: readMessage (receivedSubject stash)) := by
  simp only [Unmistaken, of]

theorem recalled_some {ref : StashRef} :
    recalled roundNum windowS now top = some ref → ∃ stash, top = some stash ∧
      orphanLead roundNum <+: readMessage (receivedSubject stash) ∧ now - stash.ct ≤ windowS := by
  intro found
  cases top with
  | none => exact absurd found (by simp [recalled])
  | some stash =>
    rw [recalled] at found
    split at found
    · rename_i fits
      exact ⟨stash, rfl, fits⟩
    · exact absurd found (by simp)

theorem recalled_of {stash : Stash}
    (begins : orphanLead roundNum <+: readMessage (receivedSubject stash))
    (recent : now - stash.ct ≤ windowS) :
    ∃ ref, recalled roundNum windowS now (some stash) = some ref :=
  ⟨_, if_pos ⟨begins, recent⟩⟩

variable (workDir logDir : String) (phase : Option String)

/-- What is reused is what is recalled. -/
theorem reuses_recalled (called : Called repo before top now) :
    (∃ answer u, Ends (stashOrphan repo workDir logDir roundNum phase windowS) before answer u ∧
      Reuses answer) ↔ ∃ ref, recalled roundNum windowS now top = some ref := by
  constructor
  · rintro ⟨answer, u, ended, reuses⟩
    cases found : recalled roundNum windowS now top with
    | none => exact absurd reuses (stash_pushes called found ended).1
    | some ref => exact ⟨ref, rfl⟩
  · rintro ⟨ref, found⟩
    obtain ⟨u, ended⟩ := @stash_reused repo before top now roundNum windowS workDir logDir phase
      ref called found
    exact ⟨_, u, ended, _, rfl, rfl⟩

/-- Where nothing is reused, nothing is recalled. -/
theorem recalled_none {answer : Except GitError (Option StashRef)} {u : List Spent}
    (called : Called repo before top now)
    (ended : Ends (stashOrphan repo workDir logDir roundNum phase windowS) before answer u)
    (fresh : ¬ Reuses answer) : recalled roundNum windowS now top = none := by
  cases found : recalled roundNum windowS now top with
  | none => rfl
  | some ref =>
    obtain ⟨t, reused⟩ := @stash_reused repo before top now roundNum windowS workDir logDir phase
      ref called found
    obtain ⟨rfl, -⟩ := Prod.mk.inj (ended.symm.trans reused)
    exact absurd ⟨_, rfl, rfl⟩ fresh

/-- One line is its own subject. -/
theorem subject_self {message : List Char} (oneLine : '\n' ∉ message) : Subject message message :=
  ⟨oneLine, fun _ => rfl, fun _ _ begins _ _ => begins⟩

/-- A stash of the twelfth round. -/
def twelfth : Stash where
  sha := ['a', 'b']
  ct := 0
  origin := .minted ⟨12, none, "2026-01-01T00:00:00", "main".toList, _, by decide, by decide,
    subject_self (by decide)⟩
  hex := ⟨by simp, List.all_eq_true.mp (by decide)⟩
  dated := by decide

/-- A repository with one dirty file and this newest stash, at the time it was made. -/
def answering (top : Option Stash) : Repo where
  git _ argv _ :=
    (⟨0, if argv = listArgv then received (Utf8.encode (listing top)) else " M a\x00", "",
      false⟩, 0)
  epoch _ := 0
  timestamp _ := "2026-01-01T00:00:00"
  relativeTo _ _ := none

theorem called_answering (top : Option Stash) : Called (answering top) [] top 0 := by
  have other : "git" :: [] ++ ["status", "--porcelain", "-z"] ≠ listArgv := by decide
  have status : outcome (git (answering top) [] ["status", "--porcelain", "-z"] gitTimeoutS) [] =
      (.ok ⟨0, " M a\x00", "", false⟩,
        [⟨.git ("git" :: [] ++ ["status", "--porcelain", "-z"]), 0⟩]) := by
    change (Except.ok (BoundedResult.mk 0 (if _ then _ else _) "" false), _) = _
    rw [if_neg other]
    rfl
  refine ⟨⟨["a"], ?_, by decide⟩, "", 0, ?_, rfl⟩
  · rw [detectDirtyFiles, outcome_bind_ok status]
    rfl
  · change (_, _) = _
    rw [if_pos rfl]

theorem main_breakFree : BreakFree "main".toList := by
  have plain : "main".toList.all (fun c => !isLineBreak c) = true := by decide
  intro c member
  simpa using List.all_eq_true.mp plain c member

end AgentRunner.StashReuse
