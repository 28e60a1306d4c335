import AgentRunner.ConfigModels
import AgentRunner.WeekMinutes

/-! The overlap check of `phase_select.py`: pairs of phases with an agent and run windows of
their own that are open together, found window by window, against the schedules serve runs
them by. -/
namespace AgentRunner.PhaseOverlap
open ConfigModels Schedule Validators WeekMinutes

structure WindowOverlap where
  phaseA : String
  phaseB : String
  windowA : String
  windowB : String

/-- `_effectively_open`. -/
def effectivelyOpen (w : Window) (pauseWindows : List Window) (d m : ℕ) : Bool :=
  contains w d m && !pauseWindows.any (contains · d m)

/-- `_windows_collide`. -/
def windowsCollide (a b : Window) (pauseA pauseB : List Window) : Bool :=
  (List.range 7).any fun d => (List.range 1440).any fun m =>
    effectivelyOpen a pauseA d m && effectivelyOpen b pauseB d m

/-- `itertools.combinations(items, 2)`. -/
def combinations {α : Type} : List α → List (α × α)
  | [] => []
  | first :: rest => rest.map (first, ·) ++ combinations rest

/-- The phase's own agent and its own windows: what makes it a candidate. -/
def isCandidate (cfg : Config) (phase : String) : Bool :=
  match cfg.phases.overrides.lookup phase with
  | none => false
  | some ov => ov.agent.isSome && ov.schedule.any fun own => !own.runWindows.isEmpty

/-- The candidates, each with its effective schedule. -/
def candidates (cfg : Config) : List (String × ScheduleConfig) :=
  (cfg.phases.list.getD []).filterMap fun phase =>
    if isCandidate cfg phase then some (phase, (cfg.profileFor (some phase)).schedule) else none

/-- The first pair of windows that collides. -/
def firstHit (a b : ScheduleConfig) : Option (Window × Window) :=
  (a.runWindows.flatMap fun wa => b.runWindows.map fun wb => (wa, wb)).find? fun pair =>
    windowsCollide pair.1 pair.2 a.pauseWindows b.pauseWindows

/-- What a pair of candidates adds to the report. -/
def overlapOf (pair : (String × ScheduleConfig) × (String × ScheduleConfig)) :
    Option WindowOverlap :=
  if pair.1.2.timezone ≠ pair.2.2.timezone then none
  else (firstHit pair.1.2 pair.2.2).map fun hit =>
    ⟨pair.1.1, pair.2.1, hit.1.label, hit.2.label⟩

def findPhaseWindowOverlaps (cfg : Config) : List WindowOverlap :=
  (combinations (candidates cfg)).filterMap overlapOf

/-! ## Windows and schedules -/

theorem windowsCollide_iff (a b : Window) (pauseA pauseB : List Window) :
    windowsCollide a b pauseA pauseB = true ↔ ∃ d < 7, ∃ m < 1440,
      effectivelyOpen a pauseA d m = true ∧ effectivelyOpen b pauseB d m = true := by
  simp only [windowsCollide, List.any_eq_true, List.mem_range, Bool.and_eq_true]

/-- A schedule with run windows is open where one of them is, its pauses taken out. -/
theorem openAt_iff_window {runWindows : List Window} (some_window : runWindows ≠ [])
    (pauseWindows : List Window) (d m : ℕ) :
    openAt runWindows pauseWindows d m = true ↔
      ∃ w ∈ runWindows, effectivelyOpen w pauseWindows d m = true := by
  have scheduled : runWindows.isEmpty = false := by simpa using some_window
  simp only [openAt, scheduled, Bool.false_or, effectivelyOpen, Bool.and_eq_true,
    List.any_eq_true]
  constructor
  · rintro ⟨⟨w, member, inside⟩, clear⟩
    exact ⟨w, member, inside, clear⟩
  · rintro ⟨w, member, inside, clear⟩
    exact ⟨⟨w, member, inside⟩, clear⟩

/-- Two schedules are open together at some minute of the week. -/
def OpenTogether (a b : ScheduleConfig) : Prop :=
  ∃ d < 7, ∃ m < 1440, openAt a.runWindows a.pauseWindows d m = true ∧
    openAt b.runWindows b.pauseWindows d m = true

/-- Searching the pairs of windows finds exactly the schedules that are open together. -/
theorem firstHit_isSome {a b : ScheduleConfig} (ofA : a.runWindows ≠ [])
    (ofB : b.runWindows ≠ []) : (firstHit a b).isSome = true ↔ OpenTogether a b := by
  simp only [firstHit, List.find?_isSome, List.mem_flatMap, List.mem_map, windowsCollide_iff,
    OpenTogether, openAt_iff_window ofA, openAt_iff_window ofB]
  constructor
  · rintro ⟨_, ⟨wa, memberA, wb, memberB, rfl⟩, d, day, m, time, insideA, insideB⟩
    exact ⟨d, day, m, time, ⟨wa, memberA, insideA⟩, wb, memberB, insideB⟩
  · rintro ⟨d, day, m, time, ⟨wa, memberA, insideA⟩, wb, memberB, insideB⟩
    exact ⟨(wa, wb), ⟨wa, memberA, wb, memberB, rfl⟩, d, day, m, time, insideA, insideB⟩

/-! ## Pairs of a list -/

variable {α β γ : Type}

/-- The pairs of what a list is filtered to are the pairs both of whose members pass. -/
theorem combinations_filterMap (pick : α → Option β) (items : List α) :
    combinations (items.filterMap pick) =
      (combinations items).filterMap fun pair =>
        (pick pair.1).bind fun first => (pick pair.2).map (first, ·) := by
  induction items with
  | nil => rfl
  | cons item rest ih =>
    rw [combinations, List.filterMap_append, List.filterMap_map, ← ih]
    cases picked : pick item with
    | none =>
      rw [List.filterMap_cons_none picked]
      simp [picked]
    | some first =>
      rw [List.filterMap_cons_some picked, combinations]
      congr 1
      simp only [Function.comp_def, picked, Option.bind_some]
      rw [List.map_filterMap]

/-! ## What is reported -/

/-- The phase overrides the agent and defines run windows of its own. -/
def Own (cfg : Config) (phase : String) : Prop :=
  ∃ ov own, cfg.phases.overrides.lookup phase = some ov ∧ ov.agent.isSome = true ∧
    ov.schedule = some own ∧ own.runWindows ≠ []

/-- The schedule a phase runs by. -/
def effective (cfg : Config) (phase : String) : ScheduleConfig :=
  (cfg.profileFor (some phase)).schedule

/-- Two phases with an agent and windows of their own, in one zone, are open together. -/
structure Collides (cfg : Config) (pair : String × String) : Prop where
  first : Own cfg pair.1
  second : Own cfg pair.2
  zone : (effective cfg pair.1).timezone = (effective cfg pair.2).timezone
  together : OpenTogether (effective cfg pair.1) (effective cfg pair.2)

variable {cfg : Config}

theorem isCandidate_iff {phase : String} : isCandidate cfg phase = true ↔ Own cfg phase := by
  unfold isCandidate Own
  cases cfg.phases.overrides.lookup phase with
  | none => simp
  | some ov =>
    cases schedule : ov.schedule with
    | none => simp [schedule]
    | some own => simp [schedule]

/-- A phase runs by its own windows; only the zone may be inherited. -/
theorem effective_runWindows {phase : String} (own : Own cfg phase) :
    (effective cfg phase).runWindows ≠ [] := by
  obtain ⟨ov, sched, found, -, schedule, windows⟩ := own
  have windows_eq : (effective cfg phase).runWindows = sched.runWindows := by
    simp only [effective, Config.profileFor, Option.bind_some, found, schedule]
    split <;> rfl
  rwa [windows_eq]

/-- A pair of candidates is reported exactly where its phases collide. -/
theorem overlapOf_isSome {pair : String × String} (first : Own cfg pair.1)
    (second : Own cfg pair.2) :
    (overlapOf ((pair.1, effective cfg pair.1), (pair.2, effective cfg pair.2))).isSome = true ↔
      Collides cfg pair := by
  unfold overlapOf
  by_cases zone : (effective cfg pair.1).timezone = (effective cfg pair.2).timezone
  · rw [if_neg (not_not_intro zone), Option.isSome_map,
      firstHit_isSome (effective_runWindows first) (effective_runWindows second)]
    exact ⟨fun together => ⟨first, second, zone, together⟩, fun collides => collides.together⟩
  · rw [if_pos zone]
    exact ⟨fun nothing => by simp at nothing, fun collides => absurd collides.zone zone⟩

/-- The names on a report are those of the pair it is about. -/
theorem overlapOf_names {pair : (String × ScheduleConfig) × (String × ScheduleConfig)}
    {o : WindowOverlap} (reported : overlapOf pair = some o) :
    (o.phaseA, o.phaseB) = (pair.1.1, pair.2.1) := by
  unfold overlapOf at reported
  split at reported
  · cases reported
  · obtain ⟨hit, -, rfl⟩ := Option.map_eq_some_iff.mp reported
    rfl

end AgentRunner.PhaseOverlap
