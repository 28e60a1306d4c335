import AgentRunner.Breadcrumbs
import AgentRunner.RecoveryTiming
import AgentRunner.PoisonedTail
import AgentRunner.MonitorThrottle

/-! One breadcrumb per throttle episode. Each emitter reads the newest two month files
and closes what is open there; written in month order, these are an end of the whole
stream, so what is open in them is open. -/
namespace AgentRunner.BreadcrumbLaw
open PyValue Events IsoTime EventFile EmittedEvents Throttle ThrottleViews BackOff RecoveryTiming
  MonthFiles Shards Breadcrumbs

variable {host : Host} {journal : Journal}

/-! ## The stream and its tail -/

/-- The agents' latest transient events in some events. -/
def latest (host : Host) (events : List Event) : Dict String (Option Event) :=
  events.foldl (latestStep host) .empty

theorem latestEver_eq (host : Host) (journal : Journal) :
    latestEver host journal = latest host (journal.map Prod.snd) := rfl

theorem latestInTail_eq (host : Host) (journal : Journal) :
    latestTransientPerAgent host (logDir journal) =
      latest host ((newest 2 journal).flatMap Prod.snd) := by
  rw [latestTransientPerAgent, tailEvents_logDir]
  rfl

theorem latest_concat (events : List Event) (ev : Event) :
    latest host (events ++ [ev]) = latestStep host (latest host events) ev := by
  rw [latest, List.foldl_concat]
  rfl

theorem latest_append (front back : List Event) (agent : String) :
    (latest host (front ++ back)).get? agent =
      ((latest host back).get? agent).or ((latest host front).get? agent) := by
  induction back using List.reverseRecOn with
  | nil => simp [latest]
  | append_singleton back ev ih =>
    rw [← List.append_assoc, latest_concat, latest_concat]
    simp only [latestStep]
    split_ifs
    · simp only [Dict.get?_set]
      split
      · rfl
      · exact ih
    · simp only [Dict.get?_set]
      split
      · rfl
      · exact ih
    · exact ih

/-- What the tail shows of an agent is the latest there ever was of it. -/
theorem open_of_openInTail (ordered : InOrder journal) {agent : String}
    (shown : OpenInTail host journal agent) : Open host journal agent := by
  obtain ⟨detected, shown⟩ := shown
  refine ⟨detected, ?_⟩
  rw [latestEver_eq, ← older_newest_flat 2 ordered, latest_append, ← latestInTail_eq, shown]
  rfl

/-! ## One event more -/

/-- An event that is neither a detection nor a recovery changes no agent's latest. -/
theorem latestStep_other (d : Dict String (Option Event)) {ev : Event}
    (detected : isKind ev transientErrorDetected = false)
    (recovered : isKind ev transientErrorRecovered = false) : latestStep host d ev = d := by
  simp only [latestStep, detected, recovered, Bool.false_eq_true, if_false]

theorem isKind_recovered (at_ : Reading) (classification agent : String) (seconds : Int) :
    isKind (emitTransientErrorRecovered at_ classification agent seconds).event
      transientErrorRecovered = true := by
  rw [isKind_event]
  exact beq_self_eq_true _

theorem agentLabel_recovered (at_ : Reading) (classification agent : String) (seconds : Int) :
    agentLabel host (emitTransientErrorRecovered at_ classification agent seconds).event =
      agent := rfl

/-- A recovery closes its agent's episode and no other's. -/
theorem latest_recovered (events : List Event) (at_ : Reading) (classification agent : String)
    (seconds : Int) (other : String) :
    (latest host (events ++
      [(emitTransientErrorRecovered at_ classification agent seconds).event])).get? other =
        if other = agent then some none else (latest host events).get? other := by
  have recovered := isKind_recovered at_ classification agent seconds
  rw [latest_concat, latestStep, if_neg, if_pos recovered, agentLabel_recovered, Dict.get?_set]
  rw [isKind_unique recovered (by decide)]
  exact Bool.false_ne_true

theorem latest_capped (events : List Event) (at_ : Reading) (payload : BackoffCapped) :
    latest host (events ++ [(emitTransientErrorBackoffCapped at_ payload).event]) =
      latest host events := by
  rw [latest_concat, latestStep_other]
  · rw [isKind_event]
    rfl
  · rw [isKind_event]
    rfl

theorem open_recovered (at_ : Reading) (classification agent : String) (seconds : Int)
    {other : String} (different : other ≠ agent) :
    Open host (write journal (emitTransientErrorRecovered at_ classification agent seconds)) other ↔
      Open host journal other := by
  simp only [Open, latestEver_eq, write, List.map_append, List.map_singleton]
  rw [latest_recovered, if_neg different]

theorem open_capped (at_ : Reading) (payload : BackoffCapped) (agent : String) :
    Open host (write journal (emitTransientErrorBackoffCapped at_ payload)) agent ↔
      Open host journal agent := by
  simp only [Open, latestEver_eq, write, List.map_append, List.map_singleton]
  rw [latest_capped]

/-! ## The emitters -/

/-- The breadcrumbs of distinct open agents each close an open episode. -/
theorem emitPending_closes {pending : List (String × String × Int)} (at_ : Nat → Reading)
    (distinct : (pending.map Prod.fst).Nodup)
    (opened : ∀ agent ∈ pending.map Prod.fst, Open host journal agent) :
    ∀ closing ∈ (emitPending at_ journal pending).2, Open host closing.before closing.agent := by
  induction pending generalizing journal at_ with
  | nil => exact fun _ member => (by cases member)
  | cons entry rest ih =>
    obtain ⟨agent, classification, seconds⟩ := entry
    obtain ⟨fresh, distinct⟩ := List.nodup_cons.mp distinct
    intro closing member
    obtain rfl | later := List.mem_cons.mp member
    · exact opened agent (.head _)
    · refine ih _ distinct (fun other named => ?_) closing later
      have different : other ≠ agent := fun same => fresh (same ▸ named)
      exact (open_recovered _ _ _ _ different).mpr (opened other (.tail _ named))

theorem emitPending_agents (at_ : Nat → Reading) (journal : Journal)
    (pending : List (String × String × Int)) :
    (emitPending at_ journal pending).2.map Closing.agent = pending.map Prod.fst := by
  induction pending generalizing journal at_ with
  | nil => rfl
  | cons entry rest ih => exact congrArg (entry.1 :: ·) (ih _ _)

/-- The recoveries among a back-off's emissions. -/
def recovered : List Emission → List Recovered :=
  List.filterMap fun
    | .recovered payload => some payload
    | .backoffCapped _ => none

theorem emitAll_silent {emissions : List Emission} (at_ : Nat → Reading) (journal : Journal)
    (silent : recovered emissions = []) : (emitAll at_ journal emissions).2 = [] := by
  induction emissions generalizing journal at_ with
  | nil => rfl
  | cons emission rest ih =>
    cases emission with
    | backoffCapped payload => exact ih _ _ silent
    | recovered payload => cases silent

/-- A back-off whose one recovery names an open agent closes that agent's episode. -/
theorem emitAll_closes {emissions : List Emission} {payload : Recovered} (at_ : Nat → Reading)
    (one : recovered emissions = [payload]) (opened : Open host journal payload.agent) :
    ∀ closing ∈ (emitAll at_ journal emissions).2, Open host closing.before closing.agent := by
  induction emissions generalizing journal at_ with
  | nil => cases one
  | cons emission rest ih =>
    cases emission with
    | backoffCapped capped => exact ih _ one ((open_capped _ capped _).mpr opened)
    | recovered p =>
      obtain ⟨rfl, silent⟩ := List.cons.inj one
      intro closing member
      obtain rfl | later := List.mem_cons.mp member
      · exact opened
      · rw [emitAll_silent _ _ silent] at later
        cases later

/-! ## Who is pending -/

/-- The agents `pending_recovered` names: open in the tail and not in the active map. -/
theorem pendingLoop_names {now : ℚ} {active : Dict String TransientErrorState}
    {entries : List (String × Option Event)} {pending : List (String × String × Int)}
    (ran : pendingLoop host now active entries = .ok pending) :
    pending.map Prod.fst =
      (entries.filter fun entry => entry.2.isSome && !active.contains entry.1).map Prod.fst := by
  induction entries generalizing pending with
  | nil =>
    cases ran
    rfl
  | cons entry rest ih =>
    obtain ⟨agent, value⟩ := entry
    cases value with
    | none => exact ih ran
    | some detected =>
      rw [pendingLoop] at ran
      by_cases held : active.contains agent = true
      · rw [if_pos held] at ran
        simp only [List.filter_cons, Option.isSome_some, held, Bool.not_true, Bool.and_false,
          Bool.false_eq_true, if_false]
        exact ih ran
      · rw [if_neg held] at ran
        cases measured : throttledForS host (PyValue.get detected "ts") now with
        | error e =>
          rw [measured] at ran
          cases ran
        | ok seconds =>
          cases looped : pendingLoop host now active rest with
          | error e =>
            rw [measured, looped] at ran
            cases ran
          | ok cleared =>
            rw [measured, looped] at ran
            cases ran
            simp only [List.filter_cons, Option.isSome_some, Bool.eq_false_iff.mpr held,
              Bool.not_false, Bool.and_true, if_true, List.map_cons]
            rw [ih looped]

theorem pending_iff {later : ℚ} {active : Dict String TransientErrorState}
    {pending : List (String × String × Int)}
    (ran : pendingRecovered host (logDir journal) later (some active) = .ok pending) :
    (pending.map Prod.fst).Nodup ∧ ∀ agent, agent ∈ pending.map Prod.fst ↔
      OpenInTail host journal agent ∧ active.contains agent = false := by
  have names := pendingLoop_names ran
  rw [names]
  constructor
  · exact ((latestTransientPerAgent host (logDir journal)).nodup).sublist
      (List.filter_sublist.map _)
  · intro agent
    simp only [List.mem_map, List.mem_filter, Bool.and_eq_true, Bool.not_eq_true', Prod.exists,
      exists_and_right, exists_eq_right, OpenInTail, Dict.get?_eq_some]
    constructor
    · rintro ⟨value, member, opened, clear⟩
      obtain ⟨detected, rfl⟩ := Option.isSome_iff_exists.mp opened
      exact ⟨⟨detected, member⟩, clear⟩
    · rintro ⟨⟨detected, member⟩, clear⟩
      exact ⟨some detected, member, rfl, clear⟩

/-- The active map holds open agents only. -/
theorem active_open {now : ℚ} {active : Dict String TransientErrorState}
    {after : ExponentCache} {cache : ExponentCache}
    (ran : activeThrottles host (logDir journal) now cache none = .ok (active, after))
    {agent : String} (held : active.contains agent = true) : OpenInTail host journal agent := by
  obtain ⟨result, _, ran', -, lookup⟩ := activeThrottles_spec host (logDir journal) now cache none
  cases ran.symm.trans ran'
  obtain ⟨state, found⟩ := Option.isSome_iff_exists.mp held
  rw [lookup, Option.bind_eq_some_iff] at found
  obtain ⟨detected, latest, -⟩ := found
  exact ⟨detected, Option.join_eq_some_iff.mp latest⟩

/-- At any instant, the agents open in the tail are the keys of the active map and
the agents pending, and no agent is both. -/
theorem open_is_active_or_pending (host : Host) (journal : Journal) (now : ℚ) :
    ∃ active pending, activeThrottles host (logDir journal) now none none = .ok (active, none) ∧
      pendingRecovered host (logDir journal) now none = .ok pending ∧
      ∀ agent, (OpenInTail host journal agent ↔
          active.contains agent = true ∨ agent ∈ pending.map Prod.fst) ∧
        ¬ (active.contains agent = true ∧ agent ∈ pending.map Prod.fst) := by
  obtain ⟨active, after, ran, uncached, -⟩ :=
    activeThrottles_spec host (logDir journal) now none none
  rw [uncached rfl] at ran
  obtain ⟨pending, listed⟩ := PoisonedTail.pendingRecovered_returns host (logDir journal) now
    (some active)
  have names := (pending_iff listed).2
  refine ⟨active, pending, ran, ?_, fun agent => ⟨⟨fun opened => ?_, ?_⟩, ?_⟩⟩
  · simp only [pendingRecovered, ran, Except.map, bind, Except.bind]
    exact listed
  · rw [names]
    cases held : active.contains agent with
    | true => exact .inl rfl
    | false => exact .inr ⟨opened, rfl⟩
  · rintro (held | named)
    · exact active_open ran held
    · exact ((names agent).mp named).1
  · rintro ⟨held, named⟩
    rw [((names agent).mp named).2] at held
    cases held

/-! ## After a skip cycle -/

theorem emitPending_extends (at_ : Nat → Reading) (journal : Journal)
    (pending : List (String × String × Int)) :
    ∃ added, (emitPending at_ journal pending).1 = journal ++ added := by
  induction pending generalizing journal at_ with
  | nil => exact ⟨[], (List.append_nil _).symm⟩
  | cons entry rest ih =>
    obtain ⟨added, grown⟩ := ih (fun i => at_ (i + 1))
      (write journal (emitTransientErrorRecovered (at_ 0) entry.2.1 entry.1 entry.2.2))
    exact ⟨_, grown.trans (List.append_assoc ..)⟩

/-- A breadcrumb leaves nothing open in the tail that was not open before, and
closes its own agent's episode. -/
theorem tail_recovered {at_ : Reading} {classification agent : String} {seconds : Int}
    (ordered : InOrder (write journal
      (emitTransientErrorRecovered at_ classification agent seconds)))
    {other : String} {detected : Event}
    (shown : (latestTransientPerAgent host (logDir (write journal
      (emitTransientErrorRecovered at_ classification agent seconds)))).get? other =
        some (some detected)) :
    other ≠ agent ∧
      (latestTransientPerAgent host (logDir journal)).get? other = some (some detected) := by
  obtain ⟨dropped, kept, before, after⟩ := newest_concat (n := 2) (by decide) ordered
  rw [latestInTail_eq, write, after, latest_recovered] at shown
  split at shown
  · cases shown
  · rename_i different
    refine ⟨different, ?_⟩
    rw [latestInTail_eq, before, latest_append, shown]
    rfl

/-- What a skip cycle leaves open in the tail was open before it, and not pending. -/
theorem tail_after_pending {pending : List (String × String × Int)} (at_ : Nat → Reading)
    (ordered : InOrder (emitPending at_ journal pending).1) {agent : String} {detected : Event}
    (shown : (latestTransientPerAgent host (logDir (emitPending at_ journal pending).1)).get?
      agent =
      some (some detected)) :
    agent ∉ pending.map Prod.fst ∧
      (latestTransientPerAgent host (logDir journal)).get? agent = some (some detected) := by
  induction pending generalizing journal at_ with
  | nil => exact ⟨List.not_mem_nil, shown⟩
  | cons entry rest ih =>
    obtain ⟨added, grown⟩ := emitPending_extends (fun i => at_ (i + 1))
      (write journal (emitTransientErrorRecovered (at_ 0) entry.2.1 entry.1 entry.2.2)) rest
    obtain ⟨later, shown⟩ := ih (fun i => at_ (i + 1)) ordered shown
    have first : InOrder (write journal
        (emitTransientErrorRecovered (at_ 0) entry.2.1 entry.1 entry.2.2)) :=
      InOrder.earlier (grown ▸ ordered)
    obtain ⟨different, before⟩ := tail_recovered first shown
    refine ⟨fun named => ?_, before⟩
    obtain same | named := List.mem_cons.mp named
    · exact different same
    · exact later named

theorem files_length_emitPending (at_ : Nat → Reading) (journal : Journal)
    (pending : List (String × String × Int)) :
    (files journal).length ≤ (files (emitPending at_ journal pending).1).length := by
  induction pending generalizing journal at_ with
  | nil => exact le_rfl
  | cons entry rest ih => exact (files_length_le journal _ _).trans (ih _ _)

/-- A breadcrumb that opens no new month file counts for no agent's back-off. -/
theorem backoffExponent_recovered {at_ : Reading} {classification agent : String} {seconds : Int}
    (ordered : InOrder (write journal
      (emitTransientErrorRecovered at_ classification agent seconds)))
    (same : (files (write journal
      (emitTransientErrorRecovered at_ classification agent seconds))).length =
        (files journal).length) (other : String) :
    backoffExponent host (logDir (write journal
      (emitTransientErrorRecovered at_ classification agent seconds))) other =
        backoffExponent host (logDir journal) other := by
  have recovered := isKind_recovered at_ classification agent seconds
  have uncounted : ∀ count, countStep host other count
      (emitTransientErrorRecovered at_ classification agent seconds).event = count := by
    intro count
    rw [countStep, isKind_unique recovered (show _ ≠ transientErrorDetected by decide),
      isKind_unique recovered (show _ ≠ agentUsageRecorded by decide)]
    simp
  rw [backoffExponent, backoffExponent, tailEvents_logDir, tailEvents_logDir]
  rw [write] at ordered same ⊢
  rw [newest_same (by decide) ordered same, List.foldl_concat, uncounted]

theorem backoffExponent_after_pending {pending : List (String × String × Int)}
    (at_ : Nat → Reading) (ordered : InOrder (emitPending at_ journal pending).1)
    (same : (files (emitPending at_ journal pending).1).length = (files journal).length)
    (agent : String) :
    backoffExponent host (logDir (emitPending at_ journal pending).1) agent =
      backoffExponent host (logDir journal) agent := by
  induction pending generalizing journal at_ with
  | nil => rfl
  | cons entry rest ih =>
    have grows := files_length_emitPending (fun i => at_ (i + 1))
      (write journal (emitTransientErrorRecovered (at_ 0) entry.2.1 entry.1 entry.2.2)) rest
    have opens := files_length_le journal (emitTransientErrorRecovered (at_ 0) entry.2.1 entry.1
      entry.2.2).month (emitTransientErrorRecovered (at_ 0) entry.2.1 entry.1 entry.2.2).event
    obtain ⟨added, grown⟩ := emitPending_extends (fun i => at_ (i + 1))
      (write journal (emitTransientErrorRecovered (at_ 0) entry.2.1 entry.1 entry.2.2)) rest
    have first : (files (write journal
        (emitTransientErrorRecovered (at_ 0) entry.2.1 entry.1 entry.2.2))).length =
          (files journal).length := le_antisymm (grows.trans same.le) opens
    exact (ih (fun i => at_ (i + 1)) ordered (same.trans first.symm)).trans
      (backoffExponent_recovered (InOrder.earlier (grown ▸ ordered)) first agent)

/-- **A skip cycle settles what has cleared.**  It announces no agent of its active
map; with that map nothing is pending after it, nor with the map recomputed at the
same instant, unless one of its own breadcrumbs opened a new month file. -/
theorem skipCycle_settles {now later : ℚ} {at_ : Nat → Reading}
    {active : Dict String TransientErrorState} {after : Journal} {closings : List Closing}
    (ran : skipCycle host now later at_ journal = .ok (active, after, closings))
    (ordered : InOrder after) :
    (∀ closing ∈ closings, active.contains closing.agent = false) ∧
      (∀ then_, pendingRecovered host (logDir after) then_ (some active) = .ok []) ∧
      ((files after).length = (files journal).length →
        pendingRecovered host (logDir after) now none = .ok []) := by
  obtain ⟨active', cache, scanned, uncached, lookup⟩ :=
    activeThrottles_spec host (logDir journal) now none none
  obtain ⟨pending, listed⟩ := PoisonedTail.pendingRecovered_returns host (logDir journal) later
    (some active')
  simp only [skipCycle, scanned, listed, bind, Except.bind, pure, Except.pure] at ran
  rw [← Prod.mk.eta (p := emitPending at_ journal pending)] at ran
  cases ran
  have names := (pending_iff listed).2
  have settled : ∀ agent, OpenInTail host (emitPending at_ journal pending).1 agent →
      active.contains agent = true := by
    rintro agent ⟨detected, shown⟩
    obtain ⟨absent, before⟩ := tail_after_pending at_ ordered shown
    by_contra missing
    exact absent ((names agent).mpr ⟨⟨detected, before⟩, Bool.eq_false_iff.mpr missing⟩)
  have empty : ∀ {then_ known}, (∀ agent,
      OpenInTail host (emitPending at_ journal pending).1 agent →
      Dict.contains known agent = true) →
        pendingRecovered host (logDir (emitPending at_ journal pending).1) then_ (some known) =
          .ok [] := by
    intro then_ known covers
    obtain ⟨found, listed'⟩ := PoisonedTail.pendingRecovered_returns host
      (logDir (emitPending at_ journal pending).1) then_ (some known)
    have nobody : found.map Prod.fst = [] := by
      refine List.eq_nil_iff_forall_not_mem.mpr fun agent named => ?_
      obtain ⟨opened, clear⟩ := ((pending_iff listed').2 agent).mp named
      rw [covers agent opened] at clear
      cases clear
    rw [listed', List.map_eq_nil_iff.mp nobody]
  refine ⟨fun closing member => ?_, fun then_ => empty settled, fun same => ?_⟩
  · have named := List.mem_map_of_mem (f := Closing.agent) member
    rw [emitPending_agents] at named
    exact ((names _).mp named).2
  · obtain ⟨active'', cache'', rescanned, -, lookup'⟩ :=
      activeThrottles_spec host (logDir (emitPending at_ journal pending).1) now none none
    have again : pendingRecovered host (logDir (emitPending at_ journal pending).1) now none =
        pendingRecovered host (logDir (emitPending at_ journal pending).1) now (some active'') := by
      simp only [pendingRecovered, rescanned, Except.map, bind, Except.bind]
    rw [again]
    refine empty fun agent opened => ?_
    have held := settled agent opened
    obtain ⟨detected, shown⟩ := opened
    obtain ⟨-, before⟩ := tail_after_pending at_ ordered shown
    simp only [Option.getD_none, exponentOf_none] at lookup lookup'
    rw [Dict.contains, lookup, before] at held
    rw [Dict.contains, lookup', shown, backoffExponent_after_pending at_ ordered same]
    exact held

/-! ## Over a run -/

theorem emitAll_extends (at_ : Nat → Reading) (journal : Journal) (emissions : List Emission) :
    ∃ added, (emitAll at_ journal emissions).1 = journal ++ added := by
  induction emissions generalizing journal at_ with
  | nil => exact ⟨[], (List.append_nil _).symm⟩
  | cons emission rest ih =>
    cases emission with
    | backoffCapped payload =>
      obtain ⟨added, grown⟩ := ih (fun i => at_ (i + 1))
        (write journal (emitTransientErrorBackoffCapped (at_ 0) payload))
      exact ⟨_, grown.trans (List.append_assoc ..)⟩
    | recovered p =>
      obtain ⟨added, grown⟩ := ih (fun i => at_ (i + 1)) (write journal
        (emitTransientErrorRecovered (at_ 0) p.classification p.agent p.throttledForS))
      exact ⟨_, grown.trans (List.append_assoc ..)⟩

/-- The skip loop's step: it returns, and each breadcrumb closes an open episode. -/
theorem skipCycle_closes (host : Host) (journal : Journal) (now later : ℚ) (at_ : Nat → Reading) :
    ∃ active after closings, skipCycle host now later at_ journal = .ok (active, after, closings) ∧
      (∃ added, after = journal ++ added) ∧
      (InOrder journal → ∀ closing ∈ closings, Open host closing.before closing.agent) := by
  obtain ⟨active, cache, scanned, -, -⟩ :=
    activeThrottles_spec host (logDir journal) now none none
  obtain ⟨pending, listed⟩ := PoisonedTail.pendingRecovered_returns host (logDir journal) later
    (some active)
  obtain ⟨distinct, names⟩ := pending_iff listed
  refine ⟨active, (emitPending at_ journal pending).1, (emitPending at_ journal pending).2, ?_,
    emitPending_extends at_ journal pending, fun ordered => ?_⟩
  · simp only [skipCycle, scanned, listed, bind, Except.bind, pure, Except.pure]
  · exact emitPending_closes at_ distinct fun agent named =>
      open_of_openInTail ordered ((names agent).mp named).1

/-- The back-off's step: it returns, and its breadcrumb, if it leaves one, closes the
episode it slept through. -/
theorem backOff_closes (host : Host) (journal : Journal) (now start : ℚ) (s : Surroundings)
    (jitter : Jitter) (chunkS : ℕ+) (at_ : Nat → Reading) :
    ∃ after closings, backOff host now start s jitter chunkS at_ journal = .ok (after, closings) ∧
      (∃ added, after = journal ++ added) ∧
      (InOrder journal → ∀ closing ∈ closings, Open host closing.before closing.agent) := by
  obtain ⟨cache, checked, -⟩ :=
    ThrottleCoherence.checkThrottleState_returns host (logDir journal) now none
  simp only [backOff, checked, bind, Except.bind]
  cases reported : ThrottleCoherence.scalarState host (logDir journal) now none with
  | none => exact ⟨journal, [], rfl, ⟨[], (List.append_nil _).symm⟩, fun _ _ h => (by cases h)⟩
  | some throttle =>
    obtain ⟨interrupted, w, _, _, _, applied, -, -, -, -, silent, announced⟩ :=
      applyBackOff_spec host s (logDir journal) throttle jitter chunkS (.start start)
    simp only [applied, pure, Except.pure]
    refine ⟨(emitAll at_ journal w.emitted).1, (emitAll at_ journal w.emitted).2, rfl,
      emitAll_extends at_ journal w.emitted, fun ordered => ?_⟩
    cases interrupted with
    | true =>
      have nothing : recovered w.emitted = [] := silent rfl
      rw [emitAll_silent at_ journal nothing]
      exact fun _ h => (by cases h)
    | false =>
      obtain ⟨e, one, named, -⟩ := announced rfl
      have one : recovered w.emitted = [e] := one
      refine emitAll_closes at_ one (open_of_openInTail ordered ?_)
      obtain ⟨detected, newest, state⟩ := Option.bind_eq_some_iff.mp reported
      rw [named, ThrottleCoherence.stateAt_agent state]
      exact ⟨detected, latest_of_unrecovered host newest⟩

theorem step_closes (host : Host) (journal : Journal) (move : Move) :
    ∃ after closings, step host journal move = .ok (after, closings) ∧
      (∃ added, after = journal ++ added) ∧
      (InOrder journal → ∀ closing ∈ closings, Open host closing.before closing.agent) := by
  cases move with
  | round written _ => exact ⟨_, [], rfl, ⟨written, rfl⟩, fun _ _ h => (by cases h)⟩
  | skip now later at_ =>
    obtain ⟨active, after, closings, ran, grown, closes⟩ :=
      skipCycle_closes host journal now later at_
    exact ⟨after, closings, by rw [step, ran]; rfl, grown, closes⟩
  | backOff now start s jitter chunkS at_ =>
    exact backOff_closes host journal now start s jitter chunkS at_

/-- A run returns, only appends, and each of its breadcrumbs closes an open episode. -/
theorem run_closes (host : Host) (moves : List Move) (journal : Journal) :
    ∃ after closings, run host moves journal = .ok (after, closings) ∧
      (∃ added, after = journal ++ added) ∧
      (InOrder after → ∀ closing ∈ closings, Open host closing.before closing.agent) := by
  induction moves generalizing journal with
  | nil => exact ⟨journal, [], rfl, ⟨[], (List.append_nil _).symm⟩, fun _ _ h => (by cases h)⟩
  | cons move moves ih =>
    obtain ⟨next, closings, stepped, ⟨written, rfl⟩, closes⟩ := step_closes host journal move
    obtain ⟨after, later, ran, ⟨added, rfl⟩, rest⟩ := ih (journal ++ written)
    refine ⟨journal ++ written ++ added, closings ++ later, ?_,
      ⟨written ++ added, List.append_assoc ..⟩, fun ordered closing member => ?_⟩
    · simp only [run, stepped, ran, bind, Except.bind, pure, Except.pure]
    · obtain now | then_ := List.mem_append.mp member
      · exact closes (InOrder.earlier (InOrder.earlier ordered)) closing now
      · exact rest ordered closing then_

/-- **One breadcrumb per throttle episode.**  In every run of rounds, skip cycles and
back-offs that writes its events in the order of their month files: each recovery is
written for an agent whose latest transient event is a detection; at every instant the
agents open in the newest two files are the active ones and the pending ones, none
both; and a skip cycle announces no agent of its active map and leaves none pending. -/
theorem one_breadcrumb_per_episode (host : Host) (moves : List Move) (journal : Journal)
    (closings : List Closing) (ran : run host moves [] = .ok (journal, closings))
    (ordered : InOrder journal) :
    (∀ closing ∈ closings, Open host closing.before closing.agent) ∧
    (∀ now, ∃ active pending,
      activeThrottles host (logDir journal) now none none = .ok (active, none) ∧
      pendingRecovered host (logDir journal) now none = .ok pending ∧
      ∀ agent, (OpenInTail host journal agent ↔
          active.contains agent = true ∨ agent ∈ pending.map Prod.fst) ∧
        ¬ (active.contains agent = true ∧ agent ∈ pending.map Prod.fst)) ∧
    ∀ now later at_ active after announced,
      skipCycle host now later at_ journal = .ok (active, after, announced) → InOrder after →
        (∀ closing ∈ announced, active.contains closing.agent = false) ∧
        (∀ then_, pendingRecovered host (logDir after) then_ (some active) = .ok []) ∧
        ((files after).length = (files journal).length →
          pendingRecovered host (logDir after) now none = .ok []) := by
  refine ⟨?_, open_is_active_or_pending host journal,
    fun now later at_ active after announced => ?_⟩
  · obtain ⟨_, _, ran', -, closes⟩ := run_closes host moves []
    cases ran.symm.trans ran'
    exact closes ordered
  · exact skipCycle_settles

/-! ## A run, and three that step outside the law -/

instance (host : Host) (journal : Journal) (agent : String) :
    Decidable (Open host journal agent) :=
  decidable_of_iff (((latestEver host journal).get? agent).join.isSome = true) (by
    rw [Open, Option.isSome_iff_exists]
    simp only [Option.join_eq_some_iff])

private theorem february_valid : Valid 2026 2 1 0 0 0 0 (some 0) := by decide

private theorem march_valid : Valid 2026 3 1 0 0 0 0 (some 0) := by decide

def february : Reading := ⟨⟨2026, 2, 1, 0, 0, 0, 0, some 0, february_valid⟩, rfl⟩

def march : Reading := ⟨⟨2026, 3, 1, 0, 0, 0, 0, some 0, march_valid⟩, rfl⟩

/-- A detection for an agent that runs into its reset at 1000. -/
def timedOut (agent : String) : Event :=
  [("event", .str transientErrorDetected), ("agent", .str agent),
    ("classification", .str "api_timeout"), ("reset_at_epoch", .int 1000)]

def roundStarted : Event := [("event", .str "round_start")]

/-- One agent times out, and the skip loop announces it when it has cleared. -/
def cleared : List Move :=
  [.round [("2026-02", timedOut "claude")] (by decide), .skip 2000 2000 fun _ => february]

private theorem ran_as (moves : List Move) (test : Journal × List Closing → Bool)
    (ends : ((run MonitorThrottle.bareHost moves []).toOption.map test).getD false = true) :
    ∃ journal closings, run MonitorThrottle.bareHost moves [] = .ok (journal, closings) ∧
      test (journal, closings) = true := by
  obtain ⟨journal, closings, ran, -, -⟩ := run_closes MonitorThrottle.bareHost moves []
  rw [ran] at ends
  exact ⟨journal, closings, ran, ends⟩

instance (journal : Journal) : Decidable (InOrder journal) :=
  inferInstanceAs (Decidable ((journal.map Prod.fst).Pairwise (· ≤ ·)))

theorem cleared_closes : ∃ journal closings,
    run MonitorThrottle.bareHost cleared [] = .ok (journal, closings) ∧ closings.length = 1 ∧
      ∀ closing ∈ closings, Open MonitorThrottle.bareHost closing.before closing.agent := by
  obtain ⟨journal, closings, ran, test⟩ := ran_as cleared
    (fun result => decide (InOrder result.1) && result.2.length == 1)
    (by decide +kernel)
  rw [Bool.and_eq_true, decide_eq_true_eq, beq_iff_eq] at test
  exact ⟨journal, closings, ran, test.2,
    (one_breadcrumb_per_episode _ cleared journal closings ran test.1).1⟩

/-- A detection that two newer month files have pushed out of sight. -/
def agedOut : List Move :=
  [.round [("2026-01", timedOut "claude"), ("2026-02", roundStarted), ("2026-03", roundStarted)]
    (by decide)]

/-- The clock falls back a month: the breadcrumbs go to a file before the detection's. -/
def fellBack : List Move :=
  [.round [("2026-03", timedOut "claude")] (by decide), .skip 2000 2000 fun _ => february,
    .skip 2000 2000 fun _ => february]

/-- Claude has timed out in two months, codex is past its reset. -/
def twoMonths : List Move :=
  [.round [("2026-01", timedOut "claude"), ("2026-02", MonitorThrottle.limited "codex" 500),
    ("2026-02", timedOut "claude")] (by decide)]

/-- Three runs outside the law: an open agent neither active nor pending; a breadcrumb
for an agent whose latest transient event is a recovery; and an agent pending right
after a skip cycle, whose breadcrumb opened a new month file. -/
theorem beyond_the_tail :
    (∃ journal closings, run MonitorThrottle.bareHost agedOut [] = .ok (journal, closings) ∧
      Open MonitorThrottle.bareHost journal "claude" ∧
      ∀ now active pending,
        activeThrottles MonitorThrottle.bareHost (logDir journal) now none none =
          .ok (active, none) →
        pendingRecovered MonitorThrottle.bareHost (logDir journal) now none = .ok pending →
        active.contains "claude" = false ∧ "claude" ∉ pending.map Prod.fst) ∧
    (∃ journal closings, run MonitorThrottle.bareHost fellBack [] = .ok (journal, closings) ∧
      ∃ closing ∈ closings, ¬ Open MonitorThrottle.bareHost closing.before closing.agent) ∧
    ∃ journal closings, run MonitorThrottle.bareHost twoMonths [] = .ok (journal, closings) ∧
      ∃ active after announced pending,
        skipCycle MonitorThrottle.bareHost 1000 1000 (fun _ => march) journal =
          .ok (active, after, announced) ∧
        pendingRecovered MonitorThrottle.bareHost (logDir after) 1000 none = .ok pending ∧
        pending ≠ [] := by
  refine ⟨?_, ?_, ?_⟩
  · obtain ⟨journal, closings, ran, test⟩ := ran_as agedOut (fun result =>
      decide (Open MonitorThrottle.bareHost result.1 "claude") &&
        ((latestTransientPerAgent MonitorThrottle.bareHost (logDir result.1)).get? "claude").isNone)
      (by decide +kernel)
    rw [Bool.and_eq_true, decide_eq_true_eq, Option.isNone_iff_eq_none] at test
    refine ⟨journal, closings, ran, test.1, fun now active pending scanned listed => ?_⟩
    obtain ⟨active', pending', scanned', listed', union⟩ :=
      open_is_active_or_pending MonitorThrottle.bareHost journal now
    cases scanned.symm.trans scanned'
    cases listed.symm.trans listed'
    have unseen : ¬ OpenInTail MonitorThrottle.bareHost journal "claude" := by
      rintro ⟨detected, shown⟩
      rw [test.2] at shown
      cases shown
    have neither := fun h => unseen ((union "claude").1.mpr h)
    exact ⟨Bool.eq_false_iff.mpr fun held => neither (.inl held), fun named => neither (.inr named)⟩
  · obtain ⟨journal, closings, ran, test⟩ := ran_as fellBack (fun result =>
      result.2.any fun closing =>
        !decide (Open MonitorThrottle.bareHost closing.before closing.agent)) (by decide +kernel)
    obtain ⟨closing, member, closed⟩ := List.any_eq_true.mp test
    rw [Bool.not_eq_true', decide_eq_false_iff_not] at closed
    exact ⟨journal, closings, ran, closing, member, closed⟩
  · obtain ⟨journal, closings, ran, test⟩ := ran_as twoMonths (fun result =>
      ((skipCycle MonitorThrottle.bareHost 1000 1000 (fun _ => march) result.1).toOption.map
        fun cycle => ((pendingRecovered MonitorThrottle.bareHost (logDir cycle.2.1) 1000
          none).toOption.map fun pending => !pending.isEmpty).getD false).getD false)
      (by decide +kernel)
    obtain ⟨active, after, announced, cycled, -⟩ :=
      skipCycle_closes MonitorThrottle.bareHost journal 1000 1000 fun _ => march
    obtain ⟨pending, listed⟩ :=
      PoisonedTail.pendingRecovered_returns MonitorThrottle.bareHost (logDir after) 1000 none
    simp only [cycled, Except.toOption, Option.map_some, Option.getD_some, listed,
      Bool.not_eq_true', List.isEmpty_eq_false_iff] at test
    exact ⟨journal, closings, ran, active, after, announced, pending, cycled, listed, test⟩

end AgentRunner.BreadcrumbLaw
