import AgentRunner.RelayText
import Mathlib.Algebra.Order.Archimedean.Basic
import Mathlib.Data.List.GetD
import Mathlib.Tactic.IntervalCases

/-! How long the relay puts up with an outage: the loop of `relay_remote_events` over one ssh run
after another, of which each ends, and when it gives up on them. -/
namespace AgentRunner.RelayOutage
open PyValue RelayText

/-! ## The attempts -/

/-- An ssh run that has ended: what it handed over, and the monotonic clock at its exit. -/
structure Attempt where
  lines : List (List Char)
  exitAt : ℚ

/-- The relay is about to connect, having slept for so long; or it has returned, or raised. -/
inductive Status where
  | going (r : Relay) (sleepS : ℚ)
  | returned (r : Relay) (code : ℤ)
  | raised (e : PyErr)

section Loop
variable (i : JsonText.Interpreter) (toleranceS : ℚ)

/-- One turn of the loop. -/
def connectOnce (r : Relay) (a : Attempt) : Status :=
  match a.lines.foldlM (Relay.onLine i) r with
  | .error e => .raised e
  | .ok r =>
    match r.onExit toleranceS a.exitAt with
    | (r, some sleepS) => .going r sleepS
    | (r, none) => .returned r 1

/-- The relay behind the first attempts of a sequence. -/
def statusAfter (attempts : ℕ → Attempt) : ℕ → Status
  | 0 => .going .fresh 0
  | n + 1 =>
    match statusAfter attempts n with
    | .going r _ => connectOnce i toleranceS r (attempts n)
    | ended => ended

/-- A clock on which each sleep takes at least as long as it was to. -/
def SleepsAdvance (attempts : ℕ → Attempt) : Prop :=
  ∀ n r sleepS, statusAfter i toleranceS attempts (n + 1) = .going r sleepS →
    (attempts n).exitAt + sleepS ≤ (attempts (n + 1)).exitAt

end Loop

/-- Attempt `first` is the first failed one of the outage that attempt `n` belongs to: no line
has been relayed since. -/
structure Outage (attempts : ℕ → Attempt) (first n : ℕ) : Prop where
  le : first ≤ n
  silent : ∀ k, first < k → k ≤ n → (attempts k).lines = []
  starts : first = 0 ∨ (attempts first).lines ≠ []

/-- The seconds since the first failed attempt. -/
def elapsedS (attempts : ℕ → Attempt) (first n : ℕ) : ℚ :=
  (attempts n).exitAt - (attempts first).exitAt

section Outages
variable {attempts : ℕ → Attempt} {first n : ℕ}

theorem Outage.unique {other : ℕ} (one : Outage attempts first n)
    (another : Outage attempts other n) : first = other := by
  by_contra distinct
  obtain earlier | later := Nat.lt_or_gt_of_ne distinct
  · obtain zero | lines := another.starts
    · omega
    · exact lines (one.silent other earlier another.le)
  · obtain zero | lines := one.starts
    · omega
    · exact lines (another.silent first later one.le)

theorem Outage.succ (outage : Outage attempts first n) (silent : (attempts (n + 1)).lines = []) :
    Outage attempts first (n + 1) := by
  refine ⟨Nat.le_succ_of_le outage.le, fun k after within => ?_, outage.starts⟩
  obtain before | rfl := Nat.lt_or_eq_of_le within
  · exact outage.silent k after (Nat.lt_succ_iff.mp before)
  · exact silent

theorem outage_start (starts : n = 0 ∨ (attempts n).lines ≠ []) : Outage attempts n n :=
  ⟨le_refl n, fun _ after within => absurd after (Nat.not_lt.mpr within), starts⟩

end Outages

/-! ## The account of an outage -/

/-- The account behind `n` attempts: the outage is counted from its first attempt on. -/
def Accounts (attempts : ℕ → Attempt) (r : Relay) : ℕ → Prop
  | 0 => r.blipStart = none ∧ r.attempt = 0
  | n + 1 => ∃ first, Outage attempts first n ∧ r.blipStart = some (attempts first).exitAt ∧
      r.attempt + first = n + 1

section Accounting
variable {i : JsonText.Interpreter} {toleranceS : ℚ} {attempts : ℕ → Attempt} {n : ℕ}
  {r r' : Relay} {sleepS : ℚ}

/-- A line ends the outage. -/
theorem onLine_resets {line : List Char} (relayed : r.onLine i line = .ok r') :
    r'.blipStart = none ∧ r'.attempt = 0 := by
  obtain ⟨parsed, next, -, -, rfl⟩ := onLine_ok relayed
  exact ⟨rfl, rfl⟩

theorem onLines_reset {lines : List (List Char)} (given : lines ≠ [])
    (relayed : lines.foldlM (Relay.onLine i) r = .ok r') :
    r'.blipStart = none ∧ r'.attempt = 0 := by
  obtain ⟨before, line, rfl⟩ := List.eq_nil_or_concat lines |>.resolve_left given
  rw [List.concat_eq_append, List.foldlM_append] at relayed
  simp only [bind, Except.bind] at relayed
  split at relayed
  · cases relayed
  · rw [List.foldlM_cons] at relayed
    simp only [bind, Except.bind] at relayed
    split at relayed
    · cases relayed
    · rename_i last
      cases relayed
      exact onLine_resets last

/-- What the exit of attempt `n` reckons with: the outage it belongs to, and how many attempts
of it have failed before. -/
theorem exit_account (accounts : Accounts attempts r n)
    (relayed : (attempts n).lines.foldlM (Relay.onLine i) r = .ok r') :
    ∃ first, Outage attempts first n ∧
      r'.blipStart.getD (attempts n).exitAt = (attempts first).exitAt ∧ r'.attempt + first = n := by
  by_cases silent : (attempts n).lines = []
  · rw [silent] at relayed
    cases relayed
    cases n with
    | zero =>
      obtain ⟨blip, attempt⟩ := accounts
      refine ⟨0, outage_start (.inl rfl), ?_, attempt⟩
      rw [blip]
      rfl
    | succ n =>
      obtain ⟨first, outage, blip, attempt⟩ := accounts
      refine ⟨first, outage.succ silent, ?_, attempt⟩
      rw [blip]
      rfl
  · obtain ⟨blip, attempt⟩ := onLines_reset silent relayed
    refine ⟨n, outage_start (.inr silent), ?_, ?_⟩
    · rw [blip]
      rfl
    · rw [attempt, Nat.zero_add]

/-- Behind an attempt whose lines do not raise, the relay returns when the tolerance has run out,
or else sleeps for the back-off, or for what is left of the tolerance. -/
theorem connectOnce_exits (toleranceS : ℚ) {r₁ : Relay} (accounts : Accounts attempts r n)
    (relayed : (attempts n).lines.foldlM (Relay.onLine i) r = .ok r₁) :
    ∃ first r', Outage attempts first n ∧ r'.blipStart = some (attempts first).exitAt ∧
      r'.attempt + first = n + 1 ∧
      connectOnce i toleranceS r (attempts n) =
        if toleranceS ≤ 0 ∨ toleranceS ≤ elapsedS attempts first n then .returned r' 1
        else .going r' (min (RelayLoop.reconnectBackoffS r'.attempt)
          (toleranceS - elapsedS attempts first n)) := by
  obtain ⟨first, outage, blip, attempt⟩ := exit_account accounts relayed
  refine ⟨first, (r₁.onExit toleranceS (attempts n).exitAt).1, outage, congrArg some blip, ?_, ?_⟩
  · change r₁.attempt + 1 + first = n + 1
    omega
  · rw [connectOnce, relayed]
    simp only [Relay.onExit, blip, elapsedS]
    split
    · rename_i slept
      split at slept
      · cases slept
      · rename_i patient
        cases slept
        rw [if_neg patient]
    · rename_i gave_up
      split at gave_up
      · rename_i out_
        cases gave_up
        rw [if_pos out_]
      · cases gave_up

/-- An attempt behind which the relay goes on is within the tolerance. -/
theorem connectOnce_going (accounts : Accounts attempts r n)
    (turned : connectOnce i toleranceS r (attempts n) = .going r' sleepS) :
    ∃ first, Outage attempts first n ∧ elapsedS attempts first n < toleranceS ∧
      r'.blipStart = some (attempts first).exitAt ∧ r'.attempt + first = n + 1 ∧
      sleepS = min (RelayLoop.reconnectBackoffS r'.attempt)
        (toleranceS - elapsedS attempts first n) := by
  cases relayed : (attempts n).lines.foldlM (Relay.onLine i) r with
  | error e =>
    rw [connectOnce, relayed] at turned
    cases turned
  | ok r₁ =>
    obtain ⟨first, next, outage, blip, attempt, same⟩ := connectOnce_exits toleranceS accounts relayed
    rw [same] at turned
    split at turned
    · cases turned
    · rename_i patient
      cases turned
      exact ⟨first, outage, not_le.mp (not_or.mp patient).2, blip, attempt, rfl⟩

/-- An attempt behind which the relay returns: the tolerance has run out. -/
theorem connectOnce_returned {code : ℤ} (accounts : Accounts attempts r n)
    (turned : connectOnce i toleranceS r (attempts n) = .returned r' code) :
    code = 1 ∧ ∃ first, Outage attempts first n ∧
      (toleranceS ≤ 0 ∨ toleranceS ≤ elapsedS attempts first n) := by
  cases relayed : (attempts n).lines.foldlM (Relay.onLine i) r with
  | error e =>
    rw [connectOnce, relayed] at turned
    cases turned
  | ok r₁ =>
    obtain ⟨first, next, outage, -, -, same⟩ := connectOnce_exits toleranceS accounts relayed
    rw [same] at turned
    split at turned
    · rename_i out_
      cases turned
      exact ⟨rfl, first, outage, out_⟩
    · cases turned

/-- Without a line nothing raises. -/
theorem connectOnce_silent (silent : (attempts n).lines = []) :
    (∃ r' sleepS, connectOnce i toleranceS r (attempts n) = .going r' sleepS) ∨
      ∃ r', connectOnce i toleranceS r (attempts n) = .returned r' 1 := by
  rw [connectOnce, silent]
  simp only [List.foldlM_nil, pure, Except.pure]
  split
  · exact .inl ⟨_, _, rfl⟩
  · exact .inr ⟨_, rfl⟩

/-- Behind a relayed line the outage begins with this exit, and the back-off with a second. -/
theorem connectOnce_relayed (positive : 0 < toleranceS) (given : (attempts n).lines ≠ []) :
    (∃ r', connectOnce i toleranceS r (attempts n) = .going r' (min 1 toleranceS) ∧
      r'.blipStart = some (attempts n).exitAt ∧ r'.attempt = 1) ∨
    ∃ e, connectOnce i toleranceS r (attempts n) = .raised e := by
  unfold connectOnce
  cases relayed : (attempts n).lines.foldlM (Relay.onLine i) r with
  | error e => exact .inr ⟨e, rfl⟩
  | ok r₁ =>
    obtain ⟨blip, attempt⟩ := onLines_reset given relayed
    refine .inl ⟨⟨r₁.written, r₁.last, some (attempts n).exitAt, 1⟩, ?_, rfl, rfl⟩
    have patient : ¬ (toleranceS ≤ 0 ∨ toleranceS ≤ 0) := by
      rw [or_self]
      exact not_le.mpr positive
    have first : RelayLoop.reconnectBackoffS 1 = 1 := rfl
    simp only [Relay.onExit, blip, attempt, Option.getD_none, sub_self, Nat.zero_add,
      if_neg patient, first, sub_zero]

theorem statusAfter_succ (going : statusAfter i toleranceS attempts n = .going r sleepS) :
    statusAfter i toleranceS attempts (n + 1) = connectOnce i toleranceS r (attempts n) := by
  rw [statusAfter, going]

/-- A relay that goes on was going on before. -/
theorem going_before
    (going : statusAfter i toleranceS attempts (n + 1) = .going r sleepS) :
    ∃ before slept, statusAfter i toleranceS attempts n = .going before slept ∧
      connectOnce i toleranceS before (attempts n) = .going r sleepS := by
  rw [statusAfter] at going
  split at going
  · exact ⟨_, _, by assumption, going⟩
  · rename_i ended
    exact absurd going (ended _ _)

theorem going_accounts (going : statusAfter i toleranceS attempts n = .going r sleepS) :
    Accounts attempts r n := by
  induction n generalizing r sleepS with
  | zero =>
    cases going
    exact ⟨rfl, rfl⟩
  | succ n ih =>
    obtain ⟨before, slept, earlier, turned⟩ := going_before going
    obtain ⟨first, outage, -, blip, attempt, -⟩ := connectOnce_going (ih earlier) turned
    exact ⟨first, outage, blip, attempt⟩

end Accounting

/-! ## The pointer of the loop -/

/-- What the first attempts are to the pointer: their lines, and a reconnect behind each. -/
def movesOf (attempts : ℕ → Attempt) : ℕ → List Move
  | 0 => []
  | n + 1 => movesOf attempts n ++ ((attempts n).lines.map .line ++
      [.reconnect (attempts n).exitAt])

theorem going_runs {i : JsonText.Interpreter} {toleranceS : ℚ} {attempts : ℕ → Attempt} {n : ℕ}
    {r : Relay} {sleepS : ℚ} (going : statusAfter i toleranceS attempts n = .going r sleepS) :
    run i toleranceS (movesOf attempts n) = .ok r := by
  induction n generalizing r sleepS with
  | zero =>
    cases going
    rfl
  | succ n ih =>
    obtain ⟨before, slept, earlier, turned⟩ := going_before going
    have lines : ∀ r, ((attempts n).lines.map Move.line).foldlM (Relay.step i toleranceS) r =
        (attempts n).lines.foldlM (Relay.onLine i) r := fun r => List.foldlM_map
    rw [movesOf, run, List.foldlM_append]
    rw [show (movesOf attempts n).foldlM (Relay.step i toleranceS) .fresh = .ok before from
      ih earlier]
    simp only [bind, Except.bind, List.foldlM_append, lines]
    unfold connectOnce at turned
    split at turned
    · cases turned
    · rename_i r₁ relayed
      rw [relayed]
      split at turned
      · rename_i exited
        cases turned
        simp only [List.foldlM_cons, List.foldlM_nil, Relay.step, exited]
        rfl
      · cases turned

/-- The pointer the loop resumes from follows all the lines it has relayed. -/
theorem going_follows {i : JsonText.Interpreter} {toleranceS : ℚ} {attempts : ℕ → Attempt} {n : ℕ}
    {r : Relay} {sleepS : ℚ} (going : statusAfter i toleranceS attempts n = .going r sleepS) :
    Follows i (linesOf (movesOf attempts n)) r :=
  (run_follows (going_runs going)).1

/-! ## Giving up on time -/

/-- What holds of a relay with a tolerance: it sleeps only within the tolerance of an outage; it
returns 1, and does so only when the tolerance of the outage has run out; a relayed line ends
the outage and starts the back-off again; and without any more lines it returns. -/
structure GivesUpOnTime (i : JsonText.Interpreter) (toleranceS : ℚ) (attempts : ℕ → Attempt) :
    Prop where
  sleeps : ∀ n r sleepS, statusAfter i toleranceS attempts (n + 1) = .going r sleepS →
    ∃ first, Outage attempts first n ∧ 0 < sleepS ∧
      elapsedS attempts first n + sleepS ≤ toleranceS
  patient : ∀ n before slept r code, statusAfter i toleranceS attempts n = .going before slept →
    statusAfter i toleranceS attempts (n + 1) = .returned r code →
    code = 1 ∧ ∃ first, Outage attempts first n ∧ toleranceS ≤ elapsedS attempts first n
  line : ∀ (r : Relay) text r', r.onLine i text = .ok r' → r'.blipStart = none ∧ r'.attempt = 0
  resets : ∀ n before slept, statusAfter i toleranceS attempts n = .going before slept →
    (attempts n).lines ≠ [] →
    (∃ r, statusAfter i toleranceS attempts (n + 1) = .going r (min 1 toleranceS) ∧
      r.blipStart = some (attempts n).exitAt ∧ r.attempt = 1) ∨
    ∃ e, statusAfter i toleranceS attempts (n + 1) = .raised e
  returns : ∀ n before slept, statusAfter i toleranceS attempts n = .going before slept →
    (∀ k, n ≤ k → (attempts k).lines = []) →
    ∃ last, n ≤ last ∧ (∃ before slept, statusAfter i toleranceS attempts last =
        .going before slept) ∧
      ∃ r, statusAfter i toleranceS attempts (last + 1) = .returned r 1

section OnTime
variable {i : JsonText.Interpreter} {toleranceS : ℚ} {attempts : ℕ → Attempt} {n : ℕ}
  {r : Relay} {sleepS : ℚ}

theorem backoff_bounds (attempt : ℕ) :
    1 ≤ RelayLoop.reconnectBackoffS attempt ∧ RelayLoop.reconnectBackoffS attempt ≤ 30 := by
  unfold RelayLoop.reconnectBackoffS
  generalize attempt - 1 = index
  obtain known | beyond := Nat.lt_or_ge index 5
  · interval_cases index <;> norm_num
  · rw [List.getD_eq_default _ _ beyond]
    norm_num

/-- A sleep is within the tolerance, and takes a second unless it takes what is left of it. -/
theorem going_sleeps (going : statusAfter i toleranceS attempts (n + 1) = .going r sleepS) :
    ∃ first, Outage attempts first n ∧ elapsedS attempts first n < toleranceS ∧
      0 < sleepS ∧ elapsedS attempts first n + sleepS ≤ toleranceS ∧
      min 1 (toleranceS - elapsedS attempts first n) ≤ sleepS := by
  obtain ⟨before, slept, earlier, turned⟩ := going_before going
  obtain ⟨first, outage, within, -, -, rfl⟩ := connectOnce_going (going_accounts earlier) turned
  have backoff := (backoff_bounds r.attempt).1
  refine ⟨first, outage, within, ?_, ?_, min_le_min_right _ backoff⟩
  · exact lt_min (by linarith) (by linarith)
  · have least := min_le_right (RelayLoop.reconnectBackoffS r.attempt)
      (toleranceS - elapsedS attempts first n)
    linarith

/-- While it goes on without a line, the clock gains a second with each attempt. -/
theorem silent_clock (advance : SleepsAdvance i toleranceS attempts)
    (silent : ∀ k, n ≤ k → (attempts k).lines = [])
    (goes : ∀ k, n ≤ k → ∃ r sleepS, statusAfter i toleranceS attempts (k + 1) = .going r sleepS)
    {first : ℕ} (outage : Outage attempts first n) (k : ℕ) :
    Outage attempts first (n + k) ∧
      elapsedS attempts first n + k ≤ elapsedS attempts first (n + k) := by
  induction k with
  | zero => exact ⟨outage, by simp⟩
  | succ k ih =>
    obtain ⟨same, gained⟩ := ih
    have next : Outage attempts first (n + (k + 1)) := same.succ (silent _ (by omega))
    obtain ⟨r, sleepS, going⟩ := goes (n + k) (by omega)
    obtain ⟨_, again, -, -, -, least⟩ := going_sleeps going
    obtain rfl := again.unique same
    obtain ⟨_, _, later⟩ := goes (n + (k + 1)) (by omega)
    obtain ⟨_, another, within, -⟩ := going_sleeps later
    obtain rfl := another.unique next
    have clock : (attempts (n + k)).exitAt + sleepS ≤ (attempts (n + (k + 1))).exitAt :=
      advance (n + k) r sleepS going
    refine ⟨next, ?_⟩
    unfold elapsedS at gained within least ⊢
    push_cast
    obtain second | rest := min_le_iff.mp least
    · linarith
    · linarith

/-- Without any more lines the relay returns. -/
theorem silent_returns (advance : SleepsAdvance i toleranceS attempts)
    (going : statusAfter i toleranceS attempts n = .going r sleepS)
    (silent : ∀ k, n ≤ k → (attempts k).lines = []) :
    ∃ last, n ≤ last ∧
      (∃ before slept, statusAfter i toleranceS attempts last = .going before slept) ∧
      ∃ r, statusAfter i toleranceS attempts (last + 1) = .returned r 1 := by
  by_contra never
  have goes : ∀ k, ∃ r sleepS, statusAfter i toleranceS attempts (n + k) = .going r sleepS := by
    intro k
    induction k with
    | zero => exact ⟨r, sleepS, going⟩
    | succ k ih =>
      obtain ⟨before, slept, earlier⟩ := ih
      have turned := statusAfter_succ earlier
      obtain ⟨r', sleepS', again⟩ | ⟨r', ended⟩ :=
        @connectOnce_silent i toleranceS attempts (n + k) before (silent _ (by omega))
      · exact ⟨r', sleepS', turned.trans again⟩
      · exact absurd ⟨n + k, by omega, ⟨before, slept, earlier⟩, r', turned.trans ended⟩ never
  have onward : ∀ k, n ≤ k →
      ∃ r sleepS, statusAfter i toleranceS attempts (k + 1) = .going r sleepS := by
    intro k later
    obtain ⟨gap, rfl⟩ := Nat.exists_eq_add_of_le later
    exact goes (gap + 1)
  obtain ⟨_, _, first_⟩ := onward n (le_refl n)
  obtain ⟨first, outage, -⟩ := going_sleeps first_
  obtain ⟨k, enough⟩ := exists_nat_gt (toleranceS - elapsedS attempts first n)
  obtain ⟨same, gained⟩ := silent_clock advance silent onward outage k
  obtain ⟨_, _, still⟩ := onward (n + k) (by omega)
  obtain ⟨_, again, within, -⟩ := going_sleeps still
  obtain rfl := again.unique same
  linarith

end OnTime

/-- A host that is down, tried every minute. -/
def downHost (n : ℕ) : Attempt := ⟨[], 60 * n⟩

theorem downHost_advances (i : JsonText.Interpreter) : SleepsAdvance i 90 downHost := by
  intro n r sleepS going
  obtain ⟨before, slept, earlier, turned⟩ := going_before going
  obtain ⟨first, -, -, -, -, rfl⟩ := connectOnce_going (going_accounts earlier) turned
  have slept := (min_le_left (RelayLoop.reconnectBackoffS r.attempt)
    (90 - elapsedS downHost first n)).trans (backoff_bounds r.attempt).2
  simp only [downHost] at slept ⊢
  push_cast
  linarith

end AgentRunner.RelayOutage
