import AgentRunner.Doorbell

/-! When the doorbell of an entered listener is heard: no ring may have found its FIFO
without a reader before the listener opened it, and remove it after. -/
namespace AgentRunner.Doorbell
open Runs

variable {c : Setting} {s t u : System} {i j fifo : ℕ} {action : Action}

/-- Ring `i` is about to remove the listener's FIFO as a stale entry. -/
def System.Condemns (c : Setting) (s : System) (i : ℕ) : Prop :=
  c.mayUnlink i = true ∧ ∃ paths writes, s.rings i = .stale c.path paths writes

/-- The `with` block has ended. -/
def System.Left (s : System) : Prop := s.listener = .leaving ∨ s.listener = .exited

/-- Every ring that was called by `s` has finished by `t`. -/
def EarlyRingsFinished (s t : System) : Prop :=
  ∀ i, s.rings i ≠ .idle → ∃ writes, t.rings i = .finished writes

/-- The path is linked to the FIFO the listener has open, and every later ring that
finishes while it listens has delivered a byte to it or found its buffer full. -/
def System.Heard (c : Setting) (s : System) (fifo : ℕ) : Prop :=
  s.dir.get? c.path = some fifo ∧
    ∀ actions t, run (System.step c) s actions = some t → t.listener = .entered fifo →
      ∀ i writes, s.rings i = .idle → t.rings i = .finished writes →
        Write.delivered fifo ∈ writes ∨ Write.full fifo ∈ writes

/-! ## Steps -/

@[simp] theorem setRing_listener (ring : RingState) :
    (s.setRing i ring).listener = s.listener := rfl

@[simp] theorem setRing_dir (ring : RingState) : (s.setRing i ring).dir = s.dir := rfl

@[simp] theorem setRing_heldElsewhere (ring : RingState) :
    (s.setRing i ring).heldElsewhere = s.heldElsewhere := rfl

@[simp] theorem setRing_rings (ring : RingState) : (s.setRing i ring).rings i = ring :=
  Function.update_self ..

theorem setRing_others (ring : RingState) (other : j ≠ i) :
    (s.setRing i ring).rings j = s.rings j := Function.update_of_ne other ..

theorem path_isFifo (c : Setting) : isFifo c.path = true := by
  rw [isFifo, List.isSuffixOf_iff_suffix, Setting.path, fifoName, String.toList_append]
  exact List.suffix_append _ _

theorem hasReader_entered (entered : s.listener = .entered fifo) : s.hasReader fifo = true := by
  simp [System.hasReader, entered]

/-- A ring's step moves that ring only, and removes no entry but one it found stale. -/
theorem ringStep_frame (stepped : s.ringStep c i = some t) :
    t.listener = s.listener ∧ (∀ j, j ≠ i → t.rings j = s.rings j) ∧ s.rings i ≠ .idle ∧
      t.rings i ≠ .idle ∧
      (t.dir = s.dir ∨ ∃ path paths writes, c.mayUnlink i = true ∧
        s.rings i = .stale path paths writes ∧ t.dir = s.dir.erase path) := by
  unfold System.ringStep at stepped
  split at stepped
  case h_1 => cases stepped
  case h_7 => cases stepped
  case h_5 path paths writes at_stale =>
    obtain rfl := Option.some.inj stepped
    refine ⟨rfl, fun j other => setRing_others _ other, by simp [at_stale], by simp, ?_⟩
    by_cases may : c.mayUnlink i = true
    · exact Or.inr ⟨path, paths, writes, may, at_stale, by simp [may]⟩
    · exact Or.inl (by simp [may])
  all_goals
    rename_i here
    repeat' split at stepped
    all_goals
      obtain rfl := Option.some.inj stepped
      exact ⟨rfl, fun j other => setRing_others _ other, by simp [here], by simp, Or.inl rfl⟩

/-- A ring takes an entry for stale where its FIFO has no reader. -/
theorem ringStep_stale {path : String} {paths : List String} {writes : List Write}
    (stepped : s.ringStep c i = some t) (stale : t.rings i = .stale path paths writes) :
    ∃ fifo, s.dir.get? path = some fifo ∧ s.hasReader fifo = false := by
  unfold System.ringStep at stepped
  split at stepped
  case h_1 | h_7 => cases stepped
  case h_4 =>
    split at stepped
    · obtain rfl := Option.some.inj stepped
      simp at stale
    · rename_i found
      split at stepped
      · obtain rfl := Option.some.inj stepped
        simp at stale
      · rename_i unread
        obtain rfl := Option.some.inj stepped
        rw [setRing_rings] at stale
        injection stale with same
        subst same
        exact ⟨_, found, by simpa using unread⟩
  all_goals
    repeat' split at stepped
    all_goals
      obtain rfl := Option.some.inj stepped
      simp at stale

/-- What every step of a listening system may do to it. -/
theorem step_entered (entered : s.listener = .entered fifo) (stepped : s.step c action = some t) :
    t.Left ∨ (t.listener = .entered fifo ∧
      ((t.dir.get? c.path = s.dir.get? c.path ∧
          (t.rings = s.rings ∨ ∃ i, s.rings i = .idle ∧ t = s.setRing i .called)) ∨
        ∃ i, s.ringStep c i = some t)) := by
  cases action with
  | listener => simp [System.step, System.listenerStep, entered] at stepped
  | drain =>
    simp only [System.step, entered, Option.some.injEq] at stepped
    subst stepped
    exact Or.inr ⟨rfl, Or.inl ⟨rfl, Or.inl rfl⟩⟩
  | exit =>
    simp only [System.step, entered, Option.some.injEq] at stepped
    subst stepped
    exact Or.inl (Or.inl rfl)
  | call i =>
    simp only [System.step] at stepped
    split at stepped
    · rename_i idle
      obtain rfl := Option.some.inj stepped
      exact Or.inr ⟨entered, Or.inl ⟨rfl, Or.inr ⟨i, idle, rfl⟩⟩⟩
    · cases stepped
  | ring i =>
    have moved : s.ringStep c i = some t := stepped
    exact Or.inr ⟨(ringStep_frame moved).1.trans entered, Or.inr ⟨i, moved⟩⟩
  | world dir nextFifo heldElsewhere buffered =>
    simp only [System.step] at stepped
    split at stepped
    · rename_i allowed
      obtain rfl := Option.some.inj stepped
      exact Or.inr ⟨entered, Or.inl ⟨allowed.1, Or.inl rfl⟩⟩
    · cases stepped

theorem left_step (left : s.Left) (stepped : s.step c action = some t) : t.Left := by
  cases action with
  | listener =>
    obtain leaving | exited := left
    · simp only [System.step, System.listenerStep, leaving, Option.some.injEq] at stepped
      subst stepped
      exact Or.inr rfl
    · simp [System.step, System.listenerStep, exited] at stepped
  | drain => obtain h | h := left <;> simp [System.step, h] at stepped
  | exit => obtain h | h := left <;> simp [System.step, h] at stepped
  | call i =>
    simp only [System.step] at stepped
    split at stepped
    · obtain rfl := Option.some.inj stepped
      exact left
    · cases stepped
  | ring i =>
    rw [System.Left, (ringStep_frame (c := c) stepped).1]
    exact left
  | world =>
    simp only [System.step] at stepped
    split at stepped
    · obtain rfl := Option.some.inj stepped
      exact left
    · cases stepped

/-! ## The FIFO stays linked -/

/-- The listener has the FIFO of its path open, and no ring is about to remove it. -/
structure System.Attached (c : Setting) (s : System) (fifo : ℕ) : Prop where
  entered : s.listener = .entered fifo
  linked : s.dir.get? c.path = some fifo
  safe : ∀ i, ¬ s.Condemns c i

/-- While the FIFO has a reader no ring can start to remove it. -/
theorem condemns_step (linked : s.dir.get? c.path = some fifo)
    (entered : s.listener = .entered fifo)
    (stepped : s.ringStep c i = some t) (condemns : t.Condemns c j) : s.Condemns c j := by
  obtain ⟨may, paths, writes, stale⟩ := condemns
  by_cases same : j = i
  · subst same
    obtain ⟨found, linked', unread⟩ := ringStep_stale stepped stale
    obtain rfl := Option.some.inj (linked.symm.trans linked')
    rw [hasReader_entered entered] at unread
    cases unread
  · rw [(ringStep_frame stepped).2.1 j same] at stale
    exact ⟨may, paths, writes, stale⟩

theorem attached_step (attached : s.Attached c fifo) (stepped : s.step c action = some t) :
    t.Attached c fifo ∨ t.Left := by
  obtain left | ⟨entered, ⟨same, rings | ⟨i, idle, rfl⟩⟩ | ⟨i, moved⟩⟩ :=
    step_entered attached.entered stepped
  · exact Or.inr left
  · refine Or.inl ⟨entered, same.trans attached.linked, fun i condemns => attached.safe i ?_⟩
    rw [System.Condemns, rings] at condemns
    exact condemns
  · refine Or.inl ⟨entered, same.trans attached.linked, fun j condemns => ?_⟩
    obtain ⟨may, paths, writes, stale⟩ := condemns
    by_cases called : j = i
    · subst called
      simp at stale
    · rw [setRing_others _ called] at stale
      exact attached.safe j ⟨may, paths, writes, stale⟩
  · refine Or.inl ⟨entered, ?_, fun j condemns =>
      attached.safe j (condemns_step attached.linked attached.entered moved condemns)⟩
    obtain same | ⟨path, paths, writes, may, stale, erased⟩ := (ringStep_frame moved).2.2.2.2
    · rw [same]
      exact attached.linked
    · rw [erased, Dict.get?_erase, if_neg, attached.linked]
      rintro rfl
      exact attached.safe i ⟨may, paths, writes, stale⟩

/-- A ring that is bound to reach the listener's FIFO, or has. -/
def Arriving (c : Setting) (fifo : ℕ) : RingState → Prop
  | .idle | .called => True
  | .scanning paths writes =>
    c.path ∈ paths ∨ Write.delivered fifo ∈ writes ∨ Write.full fifo ∈ writes
  | .stale path paths writes =>
    path ≠ c.path ∧ (c.path ∈ paths ∨ Write.delivered fifo ∈ writes ∨ Write.full fifo ∈ writes)
  | .opened held paths writes =>
    held = fifo ∨ c.path ∈ paths ∨ Write.delivered fifo ∈ writes ∨ Write.full fifo ∈ writes
  | .finished writes => Write.delivered fifo ∈ writes ∨ Write.full fifo ∈ writes

theorem arriving_ringStep (attached : s.Attached c fifo) (arriving : Arriving c fifo (s.rings i))
    (stepped : s.ringStep c i = some t) : Arriving c fifo (t.rings i) := by
  have read := hasReader_entered attached.entered
  unfold System.ringStep at stepped
  split at stepped
  case h_1 | h_7 => cases stepped
  case h_2 =>
    obtain rfl := Option.some.inj stepped
    rw [setRing_rings]
    refine Or.inl (List.mem_filter.mpr ⟨(Dict.get?_ne_none _ _).mp ?_, path_isFifo c⟩)
    simp [attached.linked]
  case h_3 here =>
    rw [here] at arriving
    obtain rfl := Option.some.inj stepped
    rw [setRing_rings]
    exact arriving.resolve_left (by simp)
  case h_4 path paths writes here =>
    rw [here] at arriving
    split at stepped
    · rename_i missing
      obtain rfl := Option.some.inj stepped
      rw [setRing_rings]
      refine arriving.imp_left fun member => ?_
      obtain rfl | later := List.mem_cons.mp member
      · rw [attached.linked] at missing
        cases missing
      · exact later
    · rename_i held found
      have elsewhere : held ≠ fifo → path ≠ c.path := by
        rintro other rfl
        exact other (Option.some.inj (found.symm.trans attached.linked))
      split at stepped
      · obtain rfl := Option.some.inj stepped
        rw [setRing_rings]
        by_cases same : held = fifo
        · exact Or.inl same
        · refine Or.inr (arriving.imp_left fun member => ?_)
          exact (List.mem_cons.mp member).resolve_left (elsewhere same).symm
      · rename_i unread
        have other : path ≠ c.path := elsewhere (by rintro rfl; exact unread read)
        obtain rfl := Option.some.inj stepped
        rw [setRing_rings]
        exact ⟨other, arriving.imp_left fun member =>
          (List.mem_cons.mp member).resolve_left other.symm⟩
  case h_5 here =>
    rw [here] at arriving
    obtain rfl := Option.some.inj stepped
    rw [setRing_rings]
    exact arriving.2
  case h_6 held paths writes here =>
    rw [here] at arriving
    have kept (w : Write) : c.path ∈ paths ∨ Write.delivered fifo ∈ writes ∨
        Write.full fifo ∈ writes → c.path ∈ paths ∨ Write.delivered fifo ∈ writes ++ [w] ∨
        Write.full fifo ∈ writes ++ [w] := by
      rintro (member | delivered | full)
      · exact Or.inl member
      · exact Or.inr (Or.inl (List.mem_append_left _ delivered))
      · exact Or.inr (Or.inr (List.mem_append_left _ full))
    split at stepped
    · rename_i unread
      obtain rfl := Option.some.inj stepped
      rw [setRing_rings]
      refine kept _ (arriving.resolve_left ?_)
      rintro rfl
      rw [read] at unread
      cases unread
    · split at stepped
      · obtain rfl := Option.some.inj stepped
        rw [setRing_rings]
        obtain rfl | other := arriving
        · exact Or.inr (Or.inl (by simp))
        · exact kept _ other
      · obtain rfl := Option.some.inj stepped
        rw [setRing_rings]
        obtain rfl | other := arriving
        · exact Or.inr (Or.inr (by simp))
        · exact kept _ other

theorem arriving_step (attached : s.Attached c fifo) (arriving : Arriving c fifo (s.rings i))
    (stepped : s.step c action = some t) : Arriving c fifo (t.rings i) ∨ t.Left := by
  obtain left | ⟨_, ⟨_, rings | ⟨j, idle, rfl⟩⟩ | ⟨j, moved⟩⟩ :=
    step_entered attached.entered stepped
  · exact Or.inr left
  · rw [rings]
    exact Or.inl arriving
  · by_cases called : i = j
    · subst called
      rw [setRing_rings]
      exact Or.inl trivial
    · rw [setRing_others _ called]
      exact Or.inl arriving
  · by_cases here : i = j
    · subst here
      exact Or.inl (arriving_ringStep attached arriving moved)
    · rw [(ringStep_frame moved).2.1 i here]
      exact Or.inl arriving

theorem not_left (entered : s.listener = .entered fifo) : ¬ s.Left := by
  simp [System.Left, entered]

/-- An attached listener stays attached while it listens, and is heard. -/
theorem attached_run {actions : List Action} (attached : s.Attached c fifo)
    (ran : run (System.step c) s actions = some u) : u.Attached c fifo ∨ u.Left := by
  apply run_preserves (fun v => v.Attached c fifo ∨ v.Left) _ (Or.inl attached) ran
  rintro v action w (attached | left) stepped
  · exact attached_step attached stepped
  · exact Or.inr (left_step left stepped)

theorem heard_of_attached (attached : s.Attached c fifo) : s.Heard c fifo := by
  refine ⟨attached.linked, fun actions t ran listening i writes idle finished => ?_⟩
  have bound : (t.Attached c fifo ∧ Arriving c fifo (t.rings i)) ∨ t.Left := by
    apply run_preserves
      (fun v => (v.Attached c fifo ∧ Arriving c fifo (v.rings i)) ∨ v.Left) _
      (Or.inl ⟨attached, by rw [idle]; trivial⟩) ran
    rintro v action w (⟨attached, arriving⟩ | left) stepped
    · obtain kept | left := attached_step attached stepped
      · exact (arriving_step attached arriving stepped).imp_left fun arrives => ⟨kept, arrives⟩
      · exact Or.inr left
    · exact Or.inr (left_step left stepped)
  obtain ⟨_, arrived⟩ := bound.resolve_right (not_left listening)
  rw [finished] at arrived
  exact arrived

/-! ## The FIFO is removed -/

/-- The listener has a FIFO open that is unlinked, or that ring `i` is about to unlink. -/
def System.Doomed (c : Setting) (s : System) (fifo i : ℕ) : Prop :=
  s.listener = .entered fifo ∧ (s.Condemns c i ∨ s.dir.get? c.path = none)

theorem doomed_step (doomed : s.Doomed c fifo i) (stepped : s.step c action = some t) :
    t.Doomed c fifo i ∨ t.Left := by
  obtain ⟨listening, fate⟩ := doomed
  obtain left | ⟨entered, ⟨same, rings | ⟨j, idle, rfl⟩⟩ | ⟨j, moved⟩⟩ :=
    step_entered listening stepped
  · exact Or.inr left
  · refine Or.inl ⟨entered, fate.imp ?_ same.trans⟩
    rintro ⟨may, stale⟩
    exact ⟨may, by rw [rings]; exact stale⟩
  · refine Or.inl ⟨entered, fate.imp_left ?_⟩
    rintro ⟨may, paths, writes, stale⟩
    have other : i ≠ j := by
      rintro rfl
      rw [idle] at stale
      cases stale
    exact ⟨may, paths, writes, (setRing_others _ other).trans stale⟩
  · refine Or.inl ⟨entered, ?_⟩
    obtain ⟨_, others, _, _, removed⟩ := ringStep_frame moved
    obtain ⟨may, paths, writes, stale⟩ | gone := fate
    · by_cases here : i = j
      · subst here
        simp only [System.ringStep, stale, may, if_true, Option.some.injEq] at moved
        subst moved
        exact Or.inr (by simp)
      · exact Or.inl ⟨may, paths, writes, (others i here).trans stale⟩
    · obtain same | ⟨path, _, _, _, _, erased⟩ := removed
      · exact Or.inr (same ▸ gone)
      · rw [erased, Dict.get?_erase, gone]
        exact Or.inr (ite_self none)

/-- Once the ring that condemned it has finished, the listener's FIFO is gone. -/
theorem deaf_of_condemned {actions : List Action} {writes : List Write}
    (entered : s.listener = .entered fifo) (condemns : s.Condemns c i)
    (ran : run (System.step c) s actions = some u) (listening : u.listener = .entered fifo)
    (finished : u.rings i = .finished writes) : u.dir.get? c.path = none := by
  have bound : u.Doomed c fifo i ∨ u.Left := by
    apply run_preserves (fun v => v.Doomed c fifo i ∨ v.Left) _
      (Or.inl ⟨entered, Or.inl condemns⟩) ran
    rintro v action w (doomed | left) stepped
    · exact doomed_step doomed stepped
    · exact Or.inr (left_step left stepped)
  obtain ⟨_, ⟨_, _, _, stale⟩ | gone⟩ := bound.resolve_right (not_left listening)
  · rw [finished] at stale
    cases stale
  · exact gone

/-! ## When the doorbell is heard -/

/-- Every listener that enters has opened its FIFO in one step of the run. -/
theorem entered_opened {start : System} {actions : List Action} {tries : ℕ}
    (making : start.listener = .making tries)
    (ran : run (System.step c) start actions = some u) (listening : u.listener = .entered fifo) :
    ∃ before after s left, actions = before ++ .listener :: after ∧
      run (System.step c) start before = some s ∧ s.listener = .opening left ∧
      s.dir.get? c.path = some fifo := by
  obtain ⟨before, action, after, s, t, rfl, reached, not_yet, stepped, entered, _⟩ :=
    run_crosses (fun v : System => v.listener = .entered fifo)
      (by rw [making]; simp) ran listening
  cases action with
  | listener =>
    refine ⟨before, after, s, ?_⟩
    simp only [System.step, System.listenerStep] at stepped
    split at stepped
    case h_2 left opening =>
      split at stepped
      · rename_i found
        obtain rfl := Option.some.inj stepped
        obtain rfl := ListenerState.entered.inj entered
        exact ⟨left, rfl, reached, opening, found⟩
      · obtain rfl := Option.some.inj stepped
        simp only at entered
        split at entered <;> cases entered
    case h_1 =>
      split at stepped <;>
      · obtain rfl := Option.some.inj stepped
        cases entered
    case h_3 | h_4 =>
      obtain rfl := Option.some.inj stepped
      cases entered
    all_goals cases stepped
  | ring i =>
    rw [(ringStep_frame (c := c) stepped).1] at entered
    exact absurd entered not_yet
  | drain =>
    simp only [System.step] at stepped
    split at stepped
    · obtain rfl := Option.some.inj stepped
      exact absurd entered not_yet
    · cases stepped
  | exit =>
    simp only [System.step] at stepped
    split at stepped
    · obtain rfl := Option.some.inj stepped
      cases entered
    · cases stepped
  | call i =>
    simp only [System.step] at stepped
    split at stepped
    · obtain rfl := Option.some.inj stepped
      exact absurd entered not_yet
    · cases stepped
  | world =>
    simp only [System.step] at stepped
    split at stepped
    · obtain rfl := Option.some.inj stepped
      exact absurd entered not_yet
    · cases stepped

/-- **A listener is heard exactly where no ring had condemned its FIFO.**  Whatever the
order of the system calls, once the rings called before the listener's `open` have finished,
the path is linked to the FIFO it has open and every later ring reaches it, if and only if
at that `open` no ring was between finding the FIFO without a reader and removing it. -/
theorem heard_iff_uncondemned {start : System} {before after : List Action} {tries : ℕ}
    (reached : run (System.step c) start before = some s)
    (opening : s.listener = .opening tries) (found : s.dir.get? c.path = some fifo)
    (ran : run (System.step c) start (before ++ .listener :: after) = some u)
    (listening : u.listener = .entered fifo) (finished : EarlyRingsFinished s u) :
    u.Heard c fifo ↔ ∀ i, ¬ s.Condemns c i := by
  obtain ⟨s', reached', rest⟩ := run_append.mp ran
  obtain rfl := Option.some.inj (reached.symm.trans reached')
  obtain ⟨t, stepped, later⟩ := run_cons.mp rest
  have opened : t = { s with listener := .entered fifo } := by
    simp only [System.step, System.listenerStep, opening, found, Option.some.injEq] at stepped
    exact stepped.symm
  subst opened
  constructor
  · rintro ⟨linked, _⟩ i condemns
    obtain ⟨may, paths, writes, stale⟩ := condemns
    obtain ⟨writes', done⟩ := finished i (by rw [stale]; simp)
    have gone := deaf_of_condemned (c := c) (s := { s with listener := .entered fifo }) rfl
      ⟨may, paths, writes, stale⟩ later listening done
    rw [linked] at gone
    cases gone
  · intro uncondemned
    obtain attached | left := attached_run (c := c) (s := { s with listener := .entered fifo })
      ⟨rfl, found, uncondemned⟩ later
    · exact heard_of_attached attached
    · exact absurd left (not_left listening)

/-- A FIFO of 65536 bytes, a listener under some pid, and rings that may clean up. -/
def bell : Setting := ⟨65536, 7, 9, fun _ => true⟩

/-- A listener about to enter under an empty directory, while nobody rings. -/
def quiet : System := ⟨Dict.empty, 0, [], fun _ => 0, .making 3, fun _ => .idle⟩

/-- The same, with the FIFO made and not yet opened. -/
def linkedBell : System :=
  { quiet with dir := Dict.empty.set bell.path 0, nextFifo := 1, listener := .opening 3 }

theorem undisturbed_bell_heard :
    System.Heard bell { linkedBell with listener := .entered 0 } 0 ↔
      ∀ i, ¬ linkedBell.Condemns bell i := by
  have found : linkedBell.dir.get? bell.path = some 0 := by simp [linkedBell]
  have ran : run (System.step bell) linkedBell ([] ++ .listener :: []) =
      some { linkedBell with listener := .entered 0 } := by
    simp [run, System.step, System.listenerStep, linkedBell]
  exact heard_iff_uncondemned run_nil rfl found ran rfl fun i called => absurd rfl called

/-- Ring `1` finds the new FIFO without a reader, the listener opens it, the ring removes
it: the listener has entered, every ring has finished, and the path is not linked. -/
theorem late_unlink_deafens :
    ∃ s u, run (System.step bell) quiet [.listener, .call 1, .ring 1, .ring 1] = some s ∧
      s.listener = .opening 3 ∧
      run (System.step bell) quiet ([.listener, .call 1, .ring 1, .ring 1] ++
        .listener :: [.ring 1, .ring 1]) = some u ∧
      u.listener = .entered 0 ∧ EarlyRingsFinished s u ∧ ¬ u.Heard bell 0 := by
  let s : System := (((linkedBell.setRing 1 .called).setRing 1 (.scanning [bell.path] [])).setRing 1
    (.stale bell.path [] []))
  let u : System := (({ s with
    listener := .entered 0, dir := s.dir.erase bell.path }.setRing 1 (.scanning [] [])).setRing 1
      (.finished []))
  have make : quiet.step bell .listener = some linkedBell := rfl
  have call : linkedBell.step bell (.call 1) = some (linkedBell.setRing 1 .called) := rfl
  have scan : (linkedBell.setRing 1 .called).step bell (.ring 1) =
      some ((linkedBell.setRing 1 .called).setRing 1 (.scanning [bell.path] [])) := by
    simp [System.step, System.ringStep, linkedBell, Dict.set, Dict.put, Dict.empty, path_isFifo]
  have find : ((linkedBell.setRing 1 .called).setRing 1 (.scanning [bell.path] [])).step bell
      (.ring 1) =
      some s := by
    simp [System.step, System.ringStep, linkedBell, s, System.hasReader, quiet]
  have enter : s.step bell .listener = some { s with listener := .entered 0 } := by
    simp [System.step, System.listenerStep, s, linkedBell]
  have remove : ({ s with listener := .entered 0 } : System).step bell (.ring 1) =
      some ({ s with listener := .entered 0, dir := s.dir.erase bell.path }.setRing 1
        (.scanning [] [])) := by
    simp [System.step, System.ringStep, s, bell]
  have finish : ({ s with listener := .entered 0, dir := s.dir.erase bell.path }.setRing 1
      (.scanning [] [])).step bell (.ring 1) = some u := by
    simp [System.step, System.ringStep, u]
  have reached : run (System.step bell) quiet [.listener, .call 1, .ring 1, .ring 1] = some s := by
    simp only [run, make, call, scan, find, Option.bind_some]
  refine ⟨s, u, reached, rfl, run_append.mpr ⟨s, reached, ?_⟩, rfl, ?_, ?_⟩
  · simp only [run, enter, remove, finish, Option.bind_some]
  · intro i called
    have first : i = 1 := by
      by_contra other
      apply called
      simp only [s, setRing_others _ other, linkedBell, quiet]
    subst first
    exact ⟨[], setRing_rings _⟩
  · rintro ⟨linked, _⟩
    simp [u] at linked

end AgentRunner.Doorbell
