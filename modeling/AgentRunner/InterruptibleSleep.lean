import AgentRunner.BackOff
import Mathlib.Data.List.Induction

/-! `_throttle._interruptible_sleep` with either kind of listener: what it has slept when it
returns, whatever wakes it, and whatever its clocks say. -/
namespace AgentRunner.InterruptibleSleep

/-! ## One slice -/

/-- One `Listener.wait` as the monotonic clock sees it: before the call, at the two readings in
it, and behind it, whenever that is; a byte may end it at any time. -/
structure Wait where
  started : ℚ
  armed : ℚ
  entered : ℚ
  ended : ℚ

/-- The seconds `select` is given, or a plain sleep where it refuses the descriptor. -/
def Wait.remaining (timeoutS : ℚ) (w : Wait) : ℚ := max 0 (w.armed + timeoutS - w.entered)

/-- What the loop finds at one chunk boundary, and the wait behind it. -/
structure Turn where
  requested : Bool
  shouldStop : Bool
  epoch : ℚ
  wait : Wait

/-- The arguments: whether there is a `should_stop`, and whether the listener is live. -/
structure Sleep where
  totalS : ℚ
  chunkS : ℕ+
  asks : Bool
  deadlineEpoch : Option ℚ
  live : Bool

/-- The loop with the naps it has asked its listener for. -/
inductive Loop where
  | sleeping (remaining : ℚ) (naps : List ℚ)
  | returned (result : Bool) (naps : List ℚ)

def Loop.naps : Loop → List ℚ
  | .sleeping _ naps | .returned _ naps => naps

section Loop
variable (s : Sleep)

def Sleep.nap (remaining : ℚ) : ℚ := min (s.chunkS : ℚ) remaining

/-- `stop["requested"] or (should_stop is not None and should_stop())`. -/
def Sleep.stopped (t : Turn) : Bool := t.requested || s.asks && t.shouldStop

/-- `deadline_epoch is not None and clock.epoch() >= deadline_epoch`. -/
def Sleep.reached (t : Turn) : Bool := s.deadlineEpoch.any fun deadline => deadline ≤ t.epoch

/-- What a slice takes off the rest: what a live listener measured, or else the nap. -/
def Sleep.credit (t : Turn) (remaining : ℚ) : ℚ :=
  if s.live then max 0 (t.wait.ended - t.wait.started) else s.nap remaining

/-- One turn of the loop. -/
def Loop.turn (loop : Loop) (t : Turn) : Loop :=
  match loop with
  | .returned result naps => .returned result naps
  | .sleeping remaining naps =>
    if 0 < remaining then
      if s.stopped t then .returned true naps
      else if s.reached t then .returned false naps
      else .sleeping (remaining - s.credit t remaining) (naps ++ [s.nap remaining])
    else .returned false naps

/-- `_interruptible_sleep` behind some turns. -/
def interruptibleSleep (turns : List Turn) : Loop :=
  turns.foldl (Loop.turn s) (.sleeping s.totalS [])

end Loop

/-! ## What has been slept -/

/-- The monotonic time that the waits have taken. -/
def elapsedS : List Turn → ℚ
  | [] => 0
  | t :: rest => max 0 (t.wait.ended - t.wait.started) + elapsedS rest

/-- The time a sleep was to take in its naps. -/
def intendedS : List ℚ → ℚ
  | [] => 0
  | nap :: rest => nap + intendedS rest

/-- The time that is credited: the actual one with a live listener, the intended one without. -/
def Sleep.credited (s : Sleep) (turns : List Turn) (naps : List ℚ) : ℚ :=
  if s.live then elapsedS turns else intendedS naps

/-- A clock that never steps back, from a call to its return. -/
def Clocked : ℚ → List Turn → ℚ → Prop
  | start, [], stop => start ≤ stop
  | start, t :: rest, stop =>
    start ≤ t.wait.started ∧ t.wait.started ≤ t.wait.armed ∧ t.wait.armed ≤ t.wait.entered ∧
      t.wait.entered ≤ t.wait.ended ∧ Clocked t.wait.ended rest stop

theorem elapsedS_snoc (turns : List Turn) (t : Turn) :
    elapsedS (turns ++ [t]) = elapsedS turns + max 0 (t.wait.ended - t.wait.started) := by
  induction turns with
  | nil => simp [elapsedS]
  | cons first rest ih => rw [List.cons_append, elapsedS, ih, elapsedS, add_assoc]

theorem intendedS_snoc (naps : List ℚ) (nap : ℚ) :
    intendedS (naps ++ [nap]) = intendedS naps + nap := by
  induction naps with
  | nil => simp [intendedS]
  | cons first rest ih => rw [List.cons_append, intendedS, ih, intendedS, add_assoc]

/-- What the waits have taken has passed. -/
theorem elapsedS_le {start stop : ℚ} {turns : List Turn} (clocked : Clocked start turns stop) :
    elapsedS turns ≤ stop - start := by
  induction turns generalizing start with
  | nil => exact sub_nonneg.mpr clocked
  | cons t rest ih =>
    obtain ⟨called, armed, entered, ended, later⟩ := clocked
    have slept := ih later
    rw [elapsedS, max_eq_right (by linarith)]
    linarith

/-- Under such a clock no wait is longer than its nap. -/
theorem Wait.remaining_le {w : Wait} {nap : ℚ} (positive : 0 ≤ nap) (armed : w.armed ≤ w.entered) :
    w.remaining nap ≤ nap :=
  max_le positive (by linarith)

/-! ## Every schedule -/

/-- What a caller can rely on, whatever the turns: the answer is true only for a stop that was
found at a chunk boundary, and false only where the credited time has reached the total or the
wall clock the deadline; no nap is longer than the chunk, and no wait for one on a clock that does
not step back in it; and where a live listener is woken, by whatever and however often, the total
has still passed on a clock that never steps back. -/
structure KeepsWord (s : Sleep) : Prop where
  interrupted : ∀ turns t remaining naps left,
    interruptibleSleep s turns = .sleeping remaining naps →
    interruptibleSleep s (turns ++ [t]) = .returned true left →
    t.requested = true ∨ s.asks = true ∧ t.shouldStop = true
  finished : ∀ turns t remaining naps left,
    interruptibleSleep s turns = .sleeping remaining naps →
    interruptibleSleep s (turns ++ [t]) = .returned false left →
    s.totalS ≤ s.credited turns left ∨ ∃ deadline ∈ s.deadlineEpoch, deadline ≤ t.epoch
  naps : ∀ turns, ∀ nap ∈ (interruptibleSleep s turns).naps, 0 < nap ∧ nap ≤ s.chunkS
  waits : ∀ turns (t : Turn), ∀ nap ∈ (interruptibleSleep s turns).naps,
    t.wait.armed ≤ t.wait.entered → t.wait.remaining nap ≤ s.chunkS
  unshortened : s.live = true → ∀ turns t remaining naps left start stop,
    interruptibleSleep s turns = .sleeping remaining naps →
    interruptibleSleep s (turns ++ [t]) = .returned false left → Clocked start turns stop →
    s.totalS ≤ stop - start ∨ ∃ deadline ∈ s.deadlineEpoch, deadline ≤ t.epoch

section Schedules
variable {s : Sleep} {turns : List Turn} {t : Turn} {remaining : ℚ} {naps left : List ℚ}

theorem interruptibleSleep_snoc (s : Sleep) (turns : List Turn) (t : Turn) :
    interruptibleSleep s (turns ++ [t]) = (interruptibleSleep s turns).turn s t := by
  rw [interruptibleSleep, List.foldl_append]
  rfl

/-- A turn that does not end the sleep naps. -/
theorem turn_sleeping {loop : Loop} (going : loop.turn s t = .sleeping remaining naps) :
    ∃ before earlier, loop = .sleeping before earlier ∧ 0 < before ∧
      remaining = before - s.credit t before ∧ naps = earlier ++ [s.nap before] := by
  cases loop with
  | returned result earlier => cases going
  | sleeping before earlier =>
    rw [Loop.turn] at going
    split at going
    · rename_i positive
      split at going
      · cases going
      · split at going
        · cases going
        · cases going
          exact ⟨before, earlier, rfl, positive, rfl, rfl⟩
    · cases going

/-- A turn that ends the sleep has a reason for it, and naps no more. -/
theorem turn_returned {result : Bool}
    (ended : (Loop.sleeping remaining naps).turn s t = .returned result left) :
    left = naps ∧ ((result = true ∧ s.stopped t = true) ∨
      result = false ∧ (remaining ≤ 0 ∨ s.reached t = true)) := by
  rw [Loop.turn] at ended
  split at ended
  · split at ended
    · rename_i stop
      cases ended
      exact ⟨rfl, .inl ⟨rfl, stop⟩⟩
    · split at ended
      · rename_i reached
        cases ended
        exact ⟨rfl, .inr ⟨rfl, .inr reached⟩⟩
      · cases ended
  · rename_i spent
    cases ended
    exact ⟨rfl, .inr ⟨rfl, .inl (not_lt.mp spent)⟩⟩

/-- The rest of a sleep is what is not credited yet. -/
theorem sleeping_remaining (going : interruptibleSleep s turns = .sleeping remaining naps) :
    remaining = s.totalS - s.credited turns naps := by
  induction turns using List.reverseRecOn generalizing remaining naps with
  | nil =>
    cases going
    simp [Sleep.credited, elapsedS, intendedS]
  | append_singleton turns t ih =>
    rw [interruptibleSleep_snoc] at going
    obtain ⟨before, earlier, slept, -, rfl, rfl⟩ := turn_sleeping going
    have rest := ih slept
    unfold Sleep.credited at rest ⊢
    unfold Sleep.credit
    by_cases live : s.live = true
    · simp only [if_pos live, elapsedS_snoc] at rest ⊢
      linarith
    · simp only [if_neg live, intendedS_snoc] at rest ⊢
      linarith

theorem naps_bounded (s : Sleep) (turns : List Turn) :
    ∀ nap ∈ (interruptibleSleep s turns).naps, 0 < nap ∧ nap ≤ s.chunkS := by
  induction turns using List.reverseRecOn with
  | nil => exact List.forall_mem_nil _
  | append_singleton turns t ih =>
    rw [interruptibleSleep_snoc]
    cases slept : interruptibleSleep s turns with
    | returned result naps =>
      rw [slept] at ih
      exact ih
    | sleeping remaining naps =>
      rw [slept] at ih
      cases ended : (Loop.sleeping remaining naps).turn s t with
      | returned result left =>
        obtain ⟨rfl, -⟩ := turn_returned ended
        exact ih
      | sleeping rest left =>
        obtain ⟨before, earlier, same, positive, -, rfl⟩ := turn_sleeping ended
        cases same
        intro nap member
        obtain old | new := List.mem_append.mp member
        · exact ih nap old
        · rw [List.mem_singleton.mp new]
          have chunk : (0 : ℚ) < s.chunkS := by exact_mod_cast s.chunkS.pos
          exact ⟨lt_min chunk positive, min_le_left _ _⟩

theorem reached_deadline (reached : s.reached t = true) :
    ∃ deadline ∈ s.deadlineEpoch, deadline ≤ t.epoch := by
  obtain ⟨deadline, given, passed⟩ := (Option.any_eq_true _ _).mp reached
  exact ⟨deadline, given, of_decide_eq_true passed⟩

/-- A false answer is due to the credited time or to the deadline. -/
theorem finished_reason (slept : interruptibleSleep s turns = .sleeping remaining naps)
    (ended : interruptibleSleep s (turns ++ [t]) = .returned false left) :
    s.totalS ≤ s.credited turns left ∨ ∃ deadline ∈ s.deadlineEpoch, deadline ≤ t.epoch := by
  rw [interruptibleSleep_snoc, slept] at ended
  obtain ⟨rfl, ⟨contra, -⟩ | ⟨-, spent | reached⟩⟩ := turn_returned ended
  · cases contra
  · rw [sleeping_remaining slept] at spent
    exact .inl (sub_nonpos.mp spent)
  · exact .inr (reached_deadline reached)

end Schedules

section BackOff
open BackOff (Surroundings World)
variable (s : Surroundings) (deadlineEpoch : Option ℚ)

/-- The turn a back-off finds: it never has a live listener to wait for. -/
def turnAt (w : World) : Turn where
  requested := s.stop w.checks
  shouldStop := false
  epoch := ((w.stopped s).2.epoch s).1
  wait := ⟨0, 0, 0, 0⟩

/-- The arguments of a back-off. -/
def backOffSleep (totalS : ℚ) (chunkS : ℕ+) : Sleep := ⟨totalS, chunkS, false, deadlineEpoch, false⟩

/-- A boundary of a back-off is one of this sleep. -/
theorem boundary_turn (totalS : ℚ) (chunkS : ℕ+) (w : World) :
    (BackOff.boundary s deadlineEpoch w).1 =
        (if (backOffSleep deadlineEpoch totalS chunkS).stopped (turnAt s w) then some true
          else if (backOffSleep deadlineEpoch totalS chunkS).reached (turnAt s w) then some false
          else none) ∧
      (BackOff.boundary s deadlineEpoch w).2.checks = w.checks + 1 := by
  unfold BackOff.boundary Sleep.stopped Sleep.reached World.stopped
  cases stop : s.stop w.checks with
  | true => simp [turnAt, stop]
  | false =>
    cases deadlineEpoch with
    | none => simp [backOffSleep, turnAt, stop]
    | some deadline =>
      by_cases passed : deadline ≤ w.time + s.drift w.ops
      · simp [backOffSleep, turnAt, stop, World.epoch, World.stopped, passed]
      · simp [backOffSleep, turnAt, stop, World.epoch, World.stopped, passed]

theorem lone_turn_reads (w : World) (i : ℕ) (t : Turn) (found : [turnAt s w][i]? = some t) :
    t.requested = s.stop (w.checks + i) := by
  cases i with
  | zero =>
    cases found
    rfl
  | succ i => cases found

/-- The sleep of a back-off is this one, without a live listener and with its stop flag read at
one boundary after another. -/
theorem backOff_sleeps (totalS : ℚ) (chunkS : ℕ+) (remaining : ℚ) (w : World) (naps : List ℚ) :
    ∃ (turns : List Turn) (left : List ℚ),
      turns.foldl (Loop.turn (backOffSleep deadlineEpoch totalS chunkS))
        (Loop.sleeping remaining naps) =
          .returned (BackOff.interruptibleSleep s chunkS deadlineEpoch remaining w).1 left ∧
      ∀ (i : ℕ) (t : Turn), turns[i]? = some t → t.requested = s.stop (w.checks + i) := by
  induction remaining, w using BackOff.interruptibleSleep.induct s chunkS deadlineEpoch
      generalizing naps with
  | case1 remaining w positive result after ended =>
    refine ⟨[turnAt s w], naps, ?_, lone_turn_reads s w⟩
    have found := (boundary_turn s deadlineEpoch totalS chunkS w).1
    rw [BackOff.interruptibleSleep, if_pos positive, ended]
    rw [ended] at found
    simp only [List.foldl_cons, List.foldl_nil, Loop.turn, if_pos positive]
    split at found
    · cases found
      rw [if_pos (by assumption)]
    · split at found
      · cases found
        rw [if_neg (by assumption), if_pos (by assumption)]
      · cases found
  | case2 remaining w positive after going nap ih =>
    obtain ⟨found, checks⟩ := boundary_turn s deadlineEpoch totalS chunkS w
    rw [going] at found checks
    obtain ⟨turns, left, slept, reads⟩ := ih (naps ++ [nap])
    refine ⟨turnAt s w :: turns, left, ?_, ?_⟩
    · rw [BackOff.interruptibleSleep, if_pos positive, going, List.foldl_cons]
      have napped : (Loop.sleeping remaining naps).turn (backOffSleep deadlineEpoch totalS chunkS)
          (turnAt s w) = .sleeping (remaining - nap) (naps ++ [nap]) := by
        rw [Loop.turn, if_pos positive]
        split at found
        · cases found
        · split at found
          · cases found
          · rw [if_neg (by assumption), if_neg (by assumption)]
            rfl
      rw [napped]
      exact slept
    · intro i t found
      cases i with
      | zero =>
        cases found
        rfl
      | succ i =>
        rw [reads i t found, show (after.sleep s nap).checks = w.checks + 1 from checks]
        exact congrArg s.stop (by omega)
  | case3 remaining w spent =>
    refine ⟨[turnAt s w], naps, ?_, lone_turn_reads s w⟩
    rw [BackOff.interruptibleSleep, if_neg spent]
    simp only [List.foldl_cons, List.foldl_nil, Loop.turn, if_neg spent]

end BackOff

end AgentRunner.InterruptibleSleep
