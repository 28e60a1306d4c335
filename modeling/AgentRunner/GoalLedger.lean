import AgentRunner.Masking
import AgentRunner.TreadmillRun
import AgentRunner.IsoTime

/-! `write_ledger_advisory` of `goal.py`: the lessons ledger, a file of blocks with the newest
first, cut to a cap of bytes and written to a temporary file that then replaces it. -/
namespace AgentRunner.GoalLedger
open Backtracking TextLines BlankLines GitOutput IsoTime PyValue Treadmill TreadmillRun
open Redaction (redactSecrets)

def ledgerMaxBytes : ℕ := 8192

def ledgerBlockSep : Text := ['\n', '\n']

def formatAdvisoryBlock (observation question confidence ts : Text) : Text :=
  "### Goal assessment -- ".toList ++ ts ++ '\n' ::
    ("- Observation: ".toList ++ observation) ++ '\n' ::
    ("- Question: ".toList ++ question) ++ '\n' ::
    ("- Confidence: ".toList ++ confidence)

/-- `len(text.encode("utf-8"))`. -/
def byteLength (text : Text) : ℕ := (Utf8.encode text).length

/-- `[b for b in existing.split(_LEDGER_BLOCK_SEP) if b.strip()]`. -/
def priorBlocks (existing : Text) : List Text :=
  (splitBlank existing).filter fun block => !(strip block).isEmpty

/-- The loop over the new block and the prior ones, from the blocks kept so far. -/
def keepBlocks (kept : List Text) (total : ℕ) : List Text → List Text
  | [] => kept
  | block :: rest =>
    let addition := byteLength block + if kept.isEmpty then 0 else byteLength ledgerBlockSep
    if kept.isEmpty = false ∧ ledgerMaxBytes < total + addition then kept
    else keepBlocks (kept ++ [block]) (total + addition) rest

/-! ## The files -/

/-- The ledger, its temporary file, and the events that have been emitted. -/
structure Files where
  ledger : Option (List UInt8)
  tmp : Option (List UInt8)
  events : List Event

/-- What can fail before the ledger is replaced, and the replacement itself. -/
inductive Step where
  | readText | encode | mkdir | openTmp | write | flush | fsync | replace
  deriving DecidableEq

/-- The steps inside the `try`, after which the temporary file is unlinked. -/
def Step.guarded : Step → Bool
  | .readText | .encode | .mkdir => false
  | .openTmp | .write | .flush | .fsync | .replace => true

/-- The step of a call that fails, and how many bytes had landed in the temporary file. -/
structure Fault where
  step : Step
  landed : ℕ

structure Call where
  advisory : Advisory
  now : Datetime
  fault : Option Fault

/-- A step that fails where the call's fault says so, and leaves what it had done. -/
def attempt (fault : Option Fault) (step : Step) (broken done : Files) :
    Except (Step × Files) Files :=
  if fault.any (·.step = step) then .error (step, broken) else .ok done

/-- `ledger_path.read_text(encoding="utf-8", errors="replace")`, or nothing. -/
def readLedger (files : Files) : Text :=
  match files.ledger with
  | none => []
  | some bytes => translateNewlines (Utf8.decode bytes)

/-- The body of the `try`. -/
def replaceLedger (fault : Option Fault) (content : List UInt8) (files : Files) :
    Except (Step × Files) Files := do
  let partly := { files with tmp := some (content.take (fault.elim 0 Fault.landed)) }
  let whole := { files with tmp := some content }
  let _ ← attempt fault .openTmp files { files with tmp := some [] }
  let _ ← attempt fault .write partly whole
  let _ ← attempt fault .flush partly whole
  let _ ← attempt fault .fsync whole whole
  attempt fault .replace whole { files with ledger := some content, tmp := none }

section
variable (word : Char → Bool)

/-- `redact_secrets` of a field. -/
def redact (field : String) : String := String.ofList (redactSecrets word field.toList)

/-- The block of a call. -/
def newBlock (call : Call) : Text :=
  formatAdvisoryBlock (redact word call.advisory.observation).toList
    (redact word call.advisory.question).toList (redact word call.advisory.confidence).toList
    (isoMs call.now).toList

/-- `write_ledger_advisory`: the files it leaves, with the step it fails at. -/
def writeLedgerAdvisory (call : Call) (files : Files) : Except (Step × Files) Files := do
  let files ← attempt call.fault .readText files files
  let blocks := newBlock word call :: priorBlocks (readLedger files)
  let files ← attempt call.fault .encode files files
  let content := joinBlank (keepBlocks [] 0 blocks)
  let files ← attempt call.fault .mkdir files files
  match replaceLedger call.fault (Utf8.encode content) files with
  | .error (step, files) => .error (step, { files with tmp := none })
  | .ok files =>
    .ok { files with events := files.events ++ [assessmentEvent (redact word) call.advisory] }

/-- The files after a call. -/
def afterCall (files : Files) (call : Call) : Files :=
  match writeLedgerAdvisory word call files with
  | .error (_, files) => files
  | .ok files => files

/-- The files after one call and another. -/
def run (calls : List Call) (files : Files) : Files := calls.foldl (afterCall word) files

/-- The blocks of the ledger, as a call finds them. -/
def blocksOf (files : Files) : List Text := priorBlocks (readLedger files)

/-- The blocks that calls have written, the newest first. -/
def written (calls : List Call) : List Text :=
  ((calls.filter (·.fault.isNone)).map fun call => translateNewlines (newBlock word call)).reverse

end

/-! ## What is kept -/

theorem byteLength_append (left right : Text) :
    byteLength (left ++ right) = byteLength left + byteLength right := by
  rw [byteLength, Utf8.encode_append, List.length_append]
  rfl

theorem joinBlank_append {left right : List Text} (before : left ≠ []) (after : right ≠ []) :
    joinBlank (left ++ right) = joinBlank left ++ (ledgerBlockSep ++ joinBlank right) := by
  induction left with
  | nil => exact absurd rfl before
  | cons block left ih =>
    cases left with
    | nil =>
      obtain ⟨next, rest, rfl⟩ := List.exists_cons_of_ne_nil after
      rw [List.singleton_append, joinBlank_cons, joinBlank_singleton]
      rfl
    | cons next left =>
      have further := ih (List.cons_ne_nil next left)
      rw [List.cons_append] at further ⊢
      rw [List.cons_append, joinBlank_cons, further, joinBlank_cons, List.append_assoc]
      rfl

theorem byteLength_joinBlank {left right : List Text} (before : left ≠ []) (after : right ≠ []) :
    byteLength (joinBlank (left ++ right)) =
      byteLength (joinBlank left) + (byteLength ledgerBlockSep + byteLength (joinBlank right)) := by
  rw [joinBlank_append before after, byteLength_append, byteLength_append]

theorem byteLength_joinBlank_le {left : List Text} (before : left ≠ []) (right : List Text) :
    byteLength (joinBlank left) ≤ byteLength (joinBlank (left ++ right)) := by
  cases right with
  | nil => rw [List.append_nil]
  | cons next rest =>
    rw [byteLength_joinBlank before (List.cons_ne_nil next rest)]
    exact Nat.le_add_right _ _

/-- Blocks kept after some others: as many as fit, and no more would. -/
def Fitting (kept rest : List Text) (k : ℕ) : Prop :=
  k ≤ rest.length ∧ (k = 0 ∨ byteLength (joinBlank (kept ++ rest.take k)) ≤ ledgerMaxBytes) ∧
    ∀ j, k < j → j ≤ rest.length →
      ledgerMaxBytes < byteLength (joinBlank (kept ++ rest.take j))

/-- The loop keeps the longest run of blocks that fits. -/
theorem keepBlocks_fitting {kept : List Text} (filled : kept ≠ []) (rest : List Text) :
    ∃ k, Fitting kept rest k ∧
      keepBlocks kept (byteLength (joinBlank kept)) rest = kept ++ rest.take k := by
  induction rest generalizing kept with
  | nil =>
    refine ⟨0, ⟨Nat.le_refl 0, .inl rfl, fun j more few => ?_⟩, (List.append_nil kept).symm⟩
    exact absurd few (Nat.not_le.mpr more)
  | cons block rest ih =>
    have nonempty : kept.isEmpty = false := List.isEmpty_eq_false_iff.mpr filled
    have grown := byteLength_joinBlank filled (List.cons_ne_nil block [])
    rw [joinBlank_singleton, Nat.add_comm (byteLength ledgerBlockSep)] at grown
    rw [keepBlocks]
    simp only [nonempty, Bool.false_eq_true, if_false, true_and]
    rw [← grown]
    have moved : ∀ j, kept ++ [block] ++ rest.take j = kept ++ (block :: rest).take (j + 1) := by
      intro j
      rw [List.append_assoc, List.take_succ_cons, List.singleton_append]
    split
    · rename_i large
      refine ⟨0, ⟨Nat.zero_le _, .inl rfl, fun j more few => ?_⟩, (List.append_nil kept).symm⟩
      obtain ⟨j, rfl⟩ := Nat.exists_eq_succ_of_ne_zero (Nat.ne_zero_of_lt more)
      rw [← moved]
      exact Nat.lt_of_lt_of_le large (byteLength_joinBlank_le (by simp) _)
    · rename_i small
      obtain ⟨k, ⟨inside, fits, longest⟩, kept_rest⟩ := @ih (kept ++ [block]) (by simp)
      simp only [moved] at kept_rest fits longest
      refine ⟨k + 1, ⟨Nat.succ_le_succ inside, .inr ?_, fun j more few => ?_⟩, kept_rest⟩
      · obtain rfl | fits := fits
        · rw [List.take_succ_cons, List.take_zero]
          exact Nat.le_of_not_lt small
        · exact fits
      · obtain ⟨j, rfl⟩ := Nat.exists_eq_succ_of_ne_zero (Nat.ne_zero_of_lt more)
        exact longest j (Nat.lt_of_succ_lt_succ more) (Nat.le_of_succ_le_succ few)

/-! ## What a call leaves -/

section
variable {word : Char → Bool}

/-- What a write leaves: the new block before the longest run of the prior ones that fits. -/
def Folded (word : Char → Bool) (call : Call) (before after : Files) : Prop :=
  ∃ k, Fitting [newBlock word call] (blocksOf before) k ∧
    after.ledger = some (Utf8.encode
      (joinBlank (newBlock word call :: (blocksOf before).take k))) ∧
    after.tmp = none ∧
    after.events = before.events ++ [assessmentEvent (redact word) call.advisory]

/-- What a failure leaves: the files as they were, without a temporary file if the call had come
to that. -/
def Unfolded (step : Step) (before after : Files) : Prop :=
  after.ledger = before.ledger ∧ after.events = before.events ∧
    after.tmp = if step.guarded then none else before.tmp

theorem call_folds {call : Call} (whole : call.fault = none) (before : Files) :
    Folded word call before (afterCall word before call) := by
  obtain ⟨k, fitting, kept⟩ := keepBlocks_fitting (List.cons_ne_nil (newBlock word call) [])
    (blocksOf before)
  have loop : keepBlocks [] 0 (newBlock word call :: blocksOf before) =
      newBlock word call :: (blocksOf before).take k := by
    rw [joinBlank_singleton] at kept
    rw [keepBlocks, List.isEmpty_nil, if_pos rfl, if_neg (by simp), Nat.zero_add, Nat.add_zero]
    exact kept
  have folded : afterCall word before call =
      { ledger := some (Utf8.encode (joinBlank (keepBlocks [] 0
          (newBlock word call :: blocksOf before))))
        tmp := none
        events := before.events ++ [assessmentEvent (redact word) call.advisory] } := by
    rw [afterCall, writeLedgerAdvisory, whole]
    rfl
  rw [folded, loop]
  exact ⟨k, fitting, rfl, rfl, rfl⟩

theorem call_unfolds {call : Call} {fault : Fault} (fails : call.fault = some fault)
    (before : Files) : Unfolded fault.step before (afterCall word before call) := by
  obtain ⟨step, landed⟩ := fault
  rw [afterCall, writeLedgerAdvisory, fails]
  cases step <;> exact ⟨rfl, rfl, rfl⟩

/-! ## Reading the ledger back -/

theorem blocks_priorBlocks (existing : Text) : Blocks (priorBlocks existing) :=
  (blocks_splitBlank existing).sublist List.filter_sublist

theorem readLedger_return_free (files : Files) : '\r' ∉ readLedger files := by
  unfold readLedger
  split
  · exact List.not_mem_nil
  · exact fun member => (mem_translateNewlines member).1 rfl

theorem blocksOf_return_free {files : Files} {block : Text} (member : block ∈ blocksOf files) :
    '\r' ∉ block := fun inside =>
  readLedger_return_free files (mem_splitBlank (List.mem_filter.mp member).1 inside)

theorem digitChar_oneLine (n : ℕ) : ¬ LineEnd (digitChar n) := fun ends =>
  ends.elim (digitChar_ne n (by decide)) (digitChar_ne n (by decide))

/-- A timestamp stands on one line. -/
theorem isoMs_oneLine (d : Datetime) : OneLine (isoMs d).toList := by
  simp only [isoMs, pad2, pad3, pad4, String.toList_ofList, OneLine, List.cons_append,
    List.nil_append, List.forall_mem_cons]
  simp only [digitChar_oneLine, not_false_eq_true, true_and]
  simp [LineEnd]

/-- No field of the call's advisory has a blank line. -/
def Tight (call : Call) : Prop :=
  NoBlankLine call.advisory.observation.toList ∧ NoBlankLine call.advisory.question.toList ∧
    NoBlankLine call.advisory.confidence.toList

theorem redact_unbroken {field : String} (tight : NoBlankLine field.toList) :
    Unbroken (redact word field).toList := by
  rw [redact, String.toList_ofList]
  exact Masking.redactSecrets_unbroken word (unbroken_of_noBlankLine tight)

/-- The block of an advisory without blank lines has none. -/
theorem newBlock_unbroken {call : Call} (tight : Tight call) : Unbroken (newBlock word call) := by
  obtain ⟨observation, question, confidence⟩ := tight
  have heading : Unbroken ("### Goal assessment -- ".toList ++ (isoMs call.now).toList) :=
    unbroken_oneLine (.append (by decide) (isoMs_oneLine call.now))
  have observed := @Unbroken.line _ "- Observation: ".toList _ heading (by decide) (by decide)
    (@redact_unbroken word _ observation)
  have questioned := @Unbroken.line _ "- Question: ".toList _ observed (by decide) (by decide)
    (@redact_unbroken word _ question)
  exact @Unbroken.line _ "- Confidence: ".toList _ questioned (by decide) (by decide)
    (@redact_unbroken word _ confidence)

/-- A block begins with its heading. -/
theorem newBlock_filled (call : Call) :
    (strip (translateNewlines (newBlock word call))).isEmpty = false := by
  obtain ⟨rest, begins⟩ : ∃ rest, newBlock word call = '#' :: rest := ⟨_, rfl⟩
  have solid : isSpace '#' = false := by decide
  rw [begins, translateNewlines_plain (by decide), strip, lstrip,
    List.dropWhile_cons_of_neg (by rw [solid]; exact Bool.false_ne_true),
    List.isEmpty_eq_false_iff]
  intro blank
  have all := List.rdropWhile_eq_nil_iff.mp blank '#' List.mem_cons_self
  rw [solid] at all
  cases all

/-- **A block is read back as it was written.** -/
theorem blocks_folded {call : Call} (tight : Tight call) {before after : Files}
    (folded : Folded word call before after) : ∃ k, blocksOf after =
      translateNewlines (newBlock word call) :: (blocksOf before).take k := by
  obtain ⟨k, _, ledger, _⟩ := folded
  refine ⟨k, ?_⟩
  have kept : Blocks ((blocksOf before).take k) :=
    (blocks_priorBlocks _).sublist (List.take_sublist k _)
  have cut := splitBlank_written (@newBlock_unbroken word call tight) kept
    fun block member => blocksOf_return_free (List.mem_of_mem_take member)
  have decoded := Utf8.decode_encode
    (joinBlank (newBlock word call :: (blocksOf before).take k)) []
  rw [List.append_nil, show Utf8.decode [] = [] from rfl, List.append_nil] at decoded
  have filled : ∀ block ∈ (blocksOf before).take k, (!(strip block).isEmpty) = true :=
    fun block member => (List.mem_filter.mp (List.mem_of_mem_take member)).2
  rw [blocksOf, readLedger, ledger, priorBlocks]
  dsimp only
  rw [decoded, cut, List.filter_cons_of_pos (by rw [newBlock_filled]; rfl),
    List.filter_eq_self.mpr filled]

theorem run_append (done : List Call) (call : Call) (start : Files) :
    run word (done ++ [call]) start = afterCall word (run word done start) call := by
  rw [run, List.foldl_append]
  rfl

/-- The ledger is the newest blocks of all that were ever there. -/
theorem blocksOf_run {calls : List Call} (tight : ∀ call ∈ calls, Tight call) (start : Files) :
    blocksOf (run word calls start) <+: written word calls ++ blocksOf start := by
  induction calls using List.reverseRecOn with
  | nil => exact List.prefix_rfl
  | append_singleton calls call ih =>
    have earlier := ih fun c member => tight c (List.mem_append_left _ member)
    have last := tight call (List.mem_append_right _ List.mem_cons_self)
    rw [run_append]
    cases fault : call.fault with
    | none =>
      obtain ⟨k, blocks⟩ := blocks_folded last (call_folds fault (run word calls start))
      have grown : written word (calls ++ [call]) =
          translateNewlines (newBlock word call) :: written word calls := by
        simp [written, fault]
      rw [blocks, grown, List.cons_append]
      exact (List.prefix_cons_inj _).mpr ((List.take_prefix k _).trans earlier)
    | some failed =>
      have unfolded := @call_unfolds word _ _ fault (run word calls start)
      have same : written word (calls ++ [call]) = written word calls := by
        simp [written, fault]
      rw [same, blocksOf, readLedger, unfolded.1]
      exact earlier

theorem run_tmp {start : Files} (clean : start.tmp = none) (calls : List Call) :
    (run word calls start).tmp = none := by
  induction calls generalizing start with
  | nil => exact clean
  | cons call calls ih =>
    refine @ih (afterCall word start call) ?_
    cases fault : call.fault with
    | none =>
      obtain ⟨k, _, _, tmp, _⟩ := @call_folds word _ fault start
      exact tmp
    | some failed =>
      rw [(@call_unfolds word _ _ fault start).2.2, clean]
      exact ite_self none

end

/-- **The ledger law.**  In any run of calls, a call that fails leaves the ledger and the events
as they were, and one that does not puts its block before the longest run of the blocks that fits,
and emits its event. No temporary file remains, and where no field has a blank line the ledger is
always the newest of all blocks, those of the start after those that were written. -/
theorem ledger_keeps_newest (word : Char → Bool) (start : Files) (calls : List Call) :
    (∀ done call rest, calls = done ++ call :: rest →
      (call.fault = none →
        Folded word call (run word done start) (run word (done ++ [call]) start)) ∧
      ∀ fault ∈ call.fault,
        Unfolded fault.step (run word done start) (run word (done ++ [call]) start)) ∧
    (start.tmp = none → (run word calls start).tmp = none) ∧
    ((∀ call ∈ calls, Tight call) →
      blocksOf (run word calls start) <+: written word calls ++ blocksOf start) := by
  refine ⟨fun done call rest _ => ?_, fun clean => run_tmp clean calls,
    fun tight => blocksOf_run tight start⟩
  rw [run_append]
  exact ⟨fun whole => call_folds whole _, fun fault fails => call_unfolds fails _⟩

/-- A call at some instant. -/
def callWith (observation : String) (fault : Option Fault) : Call where
  advisory := ⟨observation, "Why?", "low"⟩
  now := ⟨2026, 3, 14, 9, 26, 0, 0, some 0, by decide⟩
  fault := fault

/-- Between two calls that write, one that runs out of disk space. -/
def outOfSpace : List Call :=
  [callWith "One line" none, callWith "Lost" (some ⟨.write, 10⟩), callWith "Two\nlines" none]

/-- The failed call leaves nothing, the others their blocks. -/
theorem failed_call_leaves_nothing :
    (run Char.isAlphanum outOfSpace ⟨none, none, []⟩).tmp = none ∧
      blocksOf (run Char.isAlphanum outOfSpace ⟨none, none, []⟩) <+:
        written Char.isAlphanum outOfSpace ++ blocksOf ⟨none, none, []⟩ :=
  have law := ledger_keeps_newest Char.isAlphanum ⟨none, none, []⟩ outOfSpace
  ⟨law.2.1 rfl, law.2.2 (by simp [outOfSpace, callWith, Tight]; decide)⟩

end AgentRunner.GoalLedger
