import AgentRunner.Schedule
import AgentRunner.ConfigModels
import Mathlib.Data.List.ReduceOption

/-! `phase_select.py`: the phase a round launches, and the pause of `cli/serve_cmd.py` that
waits for one. The two ask about the same candidates with two predicates of their own. -/
namespace AgentRunner.PhaseSelect
open ConfigModels Schedule

def rotationIndex (roundNum : ℤ) (n : ℕ) : ℕ := ((roundNum - 1) % n).toNat

/-- `candidate_phases`; the index is always in range, so a `none` is the base config only. -/
def candidatePhases (cfg : Config) (roundNum : ℤ) : List (Option String) :=
  match cfg.phases.list.getD [] with
  | [] => [none]
  | first :: others =>
    let phases := first :: others
    let k0 := rotationIndex roundNum phases.length
    if cfg.phases.phasePolicy = "skip" then
      (List.range phases.length).map fun i => phases[(k0 + i) % phases.length]?
    else [phases[k0]?]

structure Selection where
  phase : Option String
  paused : Bool
  resumeAt : Option DateTime
  resumePhase : Option String
  resumeTimezone : Option String
  skipped : List String
  activeWindow : Option String

/-- What `best` holds: the opening, phase, window label and timezone of one candidate. -/
structure Best where
  resumeAt : DateTime
  phase : Option String
  window : Option String
  timezone : Option String

/-- `phase in throttled_phases`. -/
def inThrottled (throttledPhases : List String) (phase : Option String) : Bool :=
  phase.any throttledPhases.contains

/-- The resume scan's `if`: a candidate that never opens is dropped, a tie keeps the
earlier candidate. -/
def improve (best : Option Best) (decision : PauseDecision) (phase timezone : Option String) :
    Option Best :=
  match decision.resumeAt, best with
  | none, best => best
  | some resumeAt, none => some ⟨resumeAt, phase, decision.activeWindow, timezone⟩
  | some resumeAt, some b =>
    if resumeAt.utc < b.resumeAt.utc then
      some ⟨resumeAt, phase, decision.activeWindow, timezone⟩
    else some b

section Select
variable (cfg : Config) (throttledPhases : List String) (nowFn : Option String → DateTime)

/-- The loop of `select_phase` over the candidates from the `i`-th on. -/
def selectFrom (i : ℕ) (skipped : List String) (rotationWindow : Option String)
    (best : Option Best) : List (Option String) → Selection
  | [] =>
    match best with
    | none => ⟨none, true, none, none, none, [], rotationWindow⟩
    | some b => ⟨none, true, some b.resumeAt, b.phase, b.timezone, [], b.window⟩
  | phase :: rest =>
    let sched := (cfg.profileFor phase).schedule
    let now := nowFn sched.timezone
    let skipped' := skipped ++ phase.toList
    if inThrottled throttledPhases phase then
      selectFrom (i + 1) skipped' rotationWindow best rest
    else if shouldRun now sched.runWindows sched.pauseWindows then
      ⟨phase, false, none, none, none, skipped, rotationWindow⟩
    else
      let decision := evaluate sched.runWindows sched.pauseWindows now
      selectFrom (i + 1) skipped'
        (if i = 0 then decision.activeWindow else rotationWindow)
        (improve best decision phase sched.timezone) rest

def selectPhase (roundNum : ℤ) : Selection :=
  selectFrom cfg throttledPhases nowFn 0 [] none none (candidatePhases cfg roundNum)

/-- The window part of what `_pause_until_selectable` polls; the rest is the throttle's own
reset. -/
def pollWindows (roundNum : ℤ) : Bool :=
  let candidates := (candidatePhases cfg roundNum).filter (!inThrottled throttledPhases ·)
  (candidates.map fun p => (cfg.profileFor p).schedule).any fun sched =>
    shouldRun (nowFn sched.timezone) sched.runWindows sched.pauseWindows

end Select

/-! ## What a selection promises -/

/-- Every zone's clock at one instant. -/
def clocks (zones : Option String → ℤ) (instant : ℤ) (timezone : Option String) : DateTime :=
  ⟨instant, zones timezone⟩

section Promise
variable (cfg : Config) (throttledPhases : List String) (zones : Option String → ℤ)

/-- The candidate's schedule is open at the instant. -/
def OpensAt (phase : Option String) (instant : ℤ) : Prop :=
  let sched := (cfg.profileFor phase).schedule
  shouldRun (clocks zones instant sched.timezone) sched.runWindows sched.pauseWindows = true

/-- The candidate may be launched: its schedule is open and it is not throttled. -/
def Qualifies (now : ℤ) (phase : Option String) : Prop :=
  inThrottled throttledPhases phase = false ∧ OpensAt cfg zones phase now

/-- `t` is the first instant from `now` on at which the candidate is open. -/
def FirstOpening (now : ℤ) (phase : Option String) (t : ℤ) : Prop :=
  IsLeast {t | now ≤ t ∧ OpensAt cfg zones phase t} t

/-- The selection launches the first candidate that qualifies and skips those before it. -/
def Launches (now : ℤ) (order : List (Option String)) (sel : Selection) : Prop :=
  ∃ before chosen after, order = before ++ chosen :: after ∧
    (∀ c ∈ before, ¬ Qualifies cfg throttledPhases zones now c) ∧
    Qualifies cfg throttledPhases zones now chosen ∧
    sel.phase = chosen ∧ sel.skipped.map some = before

/-- The selection describes one unthrottled candidate, whose first opening no other
unthrottled candidate's precedes; or no unthrottled candidate ever opens. -/
def Awaits (now : ℤ) (order : List (Option String)) (sel : Selection) : Prop :=
  match sel.resumeAt with
  | none =>
    sel.resumePhase = none ∧ sel.resumeTimezone = none ∧
      ∀ c ∈ order, inThrottled throttledPhases c = false → ∀ t, ¬ OpensAt cfg zones c t
  | some r =>
    (∃ c ∈ order, inThrottled throttledPhases c = false ∧
      FirstOpening cfg zones now c r.utc ∧
      r.offset = zones (cfg.profileFor c).schedule.timezone ∧
      sel.resumePhase = c ∧
      sel.resumeTimezone = (cfg.profileFor c).schedule.timezone ∧
      sel.activeWindow = some (activeWindowLabel
        (clocks zones now (cfg.profileFor c).schedule.timezone)
        (cfg.profileFor c).schedule.pauseWindows)) ∧
    ∀ c ∈ order, inThrottled throttledPhases c = false → (∃ t, OpensAt cfg zones c t) →
      ∃ t, FirstOpening cfg zones now c t ∧ r.utc ≤ t

end Promise

/-! ## The scan -/

theorem opensAt_iff {cfg : Config} {zones : Option String → ℤ} {phase : Option String} {t : ℤ} :
    OpensAt cfg zones phase t ↔
      shouldRun (clocks zones t (cfg.profileFor phase).schedule.timezone)
        (cfg.profileFor phase).schedule.runWindows
        (cfg.profileFor phase).schedule.pauseWindows = true := Iff.rfl

section Scan
variable (cfg : Config) (throttledPhases : List String) (zones : Option String → ℤ) (now : ℤ)

/-- What a closed candidate offers the scan. -/
def offer (phase : Option String) : Option Best :=
  let sched := (cfg.profileFor phase).schedule
  let here := clocks zones now sched.timezone
  (nextResumeAt here sched.runWindows sched.pauseWindows).map fun r =>
    ⟨r, phase, some (activeWindowLabel here sched.pauseWindows), sched.timezone⟩

/-- `best` is the earliest of what the unthrottled candidates of a list offer. -/
def Scanned (order : List (Option String)) (best : Option Best) : Prop :=
  (∀ b, best = some b → ∃ c ∈ order, inThrottled throttledPhases c = false ∧
    offer cfg zones now c = some b) ∧
  ∀ c ∈ order, inThrottled throttledPhases c = false → ∀ o, offer cfg zones now c = some o →
    ∃ b, best = some b ∧ b.resumeAt.utc ≤ o.resumeAt.utc

variable {cfg throttledPhases zones now} {phase : Option String}
  {order : List (Option String)} {best : Option Best}

theorem scanned_nil : Scanned cfg throttledPhases zones now [] none := by
  simp [Scanned]

theorem scanned_throttled (scanned : Scanned cfg throttledPhases zones now order best)
    (throttled : inThrottled throttledPhases phase = true) :
    Scanned cfg throttledPhases zones now (order ++ [phase]) best := by
  obtain ⟨owned, least⟩ := scanned
  constructor
  · intro b held
    obtain ⟨c, member, rest⟩ := owned b held
    exact ⟨c, List.mem_append_left _ member, rest⟩
  · intro c member free
    obtain before | last := List.mem_append.mp member
    · exact least c before free
    · rw [List.mem_singleton.mp last, throttled] at free
      exact absurd free (by decide)

/-- Adding a closed candidate keeps `best` the earliest offer. -/
theorem scanned_closed (scanned : Scanned cfg throttledPhases zones now order best)
    (free : inThrottled throttledPhases phase = false) (closed : ¬ OpensAt cfg zones phase now) :
    Scanned cfg throttledPhases zones now (order ++ [phase])
      (improve best
        (evaluate (cfg.profileFor phase).schedule.runWindows
          (cfg.profileFor phase).schedule.pauseWindows
          (clocks zones now (cfg.profileFor phase).schedule.timezone))
        phase (cfg.profileFor phase).schedule.timezone) := by
  obtain ⟨owned, least⟩ := scanned
  have before : ∀ b, best = some b → ∃ c ∈ order ++ [phase],
      inThrottled throttledPhases c = false ∧ offer cfg zones now c = some b := by
    intro b held
    obtain ⟨c, member, rest⟩ := owned b held
    exact ⟨c, List.mem_append_left _ member, rest⟩
  have last : phase ∈ order ++ [phase] := List.mem_append_right _ (List.mem_singleton.mpr rfl)
  rw [OpensAt, Bool.not_eq_true] at closed
  simp only [evaluate, closed, Bool.false_eq_true, if_false, improve]
  cases opening : nextResumeAt (clocks zones now (cfg.profileFor phase).schedule.timezone)
      (cfg.profileFor phase).schedule.runWindows
      (cfg.profileFor phase).schedule.pauseWindows with
  | none =>
    have silent : offer cfg zones now phase = none := by simp [offer, opening]
    refine ⟨before, fun c member free o offers => ?_⟩
    obtain earlier | here := List.mem_append.mp member
    · exact least c earlier free o offers
    · rw [List.mem_singleton.mp here, silent] at offers
      exact absurd offers (by simp)
  | some r =>
    have offered : offer cfg zones now phase = some ⟨r, phase,
        some (activeWindowLabel (clocks zones now (cfg.profileFor phase).schedule.timezone)
          (cfg.profileFor phase).schedule.pauseWindows),
        (cfg.profileFor phase).schedule.timezone⟩ := by
      simp [offer, opening]
    cases best with
    | none =>
      refine ⟨fun b held => ⟨phase, last, free, held ▸ offered⟩, fun c member free o offers => ?_⟩
      obtain earlier | here := List.mem_append.mp member
      · obtain ⟨b, held, _⟩ := least c earlier free o offers
        exact absurd held (by simp)
      · rw [List.mem_singleton.mp here, offered] at offers
        exact ⟨_, rfl, (Option.some.inj offers ▸ le_refl _)⟩
    | some b =>
      by_cases sooner : r.utc < b.resumeAt.utc
      · simp only [sooner, if_true]
        refine ⟨fun b' held => ⟨phase, last, free, held ▸ offered⟩,
          fun c member free o offers => ⟨_, rfl, ?_⟩⟩
        obtain earlier | here := List.mem_append.mp member
        · obtain ⟨b', held, bound⟩ := least c earlier free o offers
          obtain rfl := Option.some.inj held
          exact sooner.le.trans bound
        · rw [List.mem_singleton.mp here, offered] at offers
          exact Option.some.inj offers ▸ le_refl _
      · simp only [sooner, if_false]
        refine ⟨before, fun c member free o offers => ⟨_, rfl, ?_⟩⟩
        obtain earlier | here := List.mem_append.mp member
        · obtain ⟨b', held, bound⟩ := least c earlier free o offers
          obtain rfl := Option.some.inj held
          exact bound
        · rw [List.mem_singleton.mp here, offered] at offers
          exact Option.some.inj offers ▸ not_lt.mp sooner

/-- The loop, started after the candidates of `before`, launches the first that qualifies
or ends with the earliest offer of them all. -/
theorem selectFrom_outcome (rest : List (Option String)) (before : List (Option String)) (i : ℕ)
    (rotationWindow : Option String) (best : Option Best)
    (none_before : ∀ c ∈ before, ¬ Qualifies cfg throttledPhases zones now c)
    (scanned : Scanned cfg throttledPhases zones now before best) :
    (∃ passed chosen after, before ++ rest = passed ++ chosen :: after ∧
      (∀ c ∈ passed, ¬ Qualifies cfg throttledPhases zones now c) ∧
      Qualifies cfg throttledPhases zones now chosen ∧
      ∃ window, selectFrom cfg throttledPhases (clocks zones now) i before.reduceOption
        rotationWindow best rest =
          ⟨chosen, false, none, none, none, passed.reduceOption, window⟩) ∨
    ((∀ c ∈ before ++ rest, ¬ Qualifies cfg throttledPhases zones now c) ∧
      ∃ last window, Scanned cfg throttledPhases zones now (before ++ rest) last ∧
        selectFrom cfg throttledPhases (clocks zones now) i before.reduceOption
          rotationWindow best rest =
            selectFrom cfg throttledPhases (clocks zones now) 0 [] window last []) := by
  induction rest generalizing before i rotationWindow best with
  | nil =>
    right
    rw [List.append_nil]
    exact ⟨none_before, best, rotationWindow, scanned, rfl⟩
  | cons phase rest ih =>
    have skips : before.reduceOption ++ phase.toList = (before ++ [phase]).reduceOption := by
      rw [← List.concat_eq_append, List.reduceOption_concat]
    have continues : before ++ phase :: rest = before ++ [phase] ++ rest := by simp
    by_cases throttled : inThrottled throttledPhases phase = true
    · have blocked : ∀ c ∈ before ++ [phase], ¬ Qualifies cfg throttledPhases zones now c := by
        intro c member qualifies
        obtain earlier | here := List.mem_append.mp member
        · exact none_before c earlier qualifies
        · rw [List.mem_singleton.mp here] at qualifies
          exact Bool.false_ne_true (qualifies.1.symm.trans throttled)
      rw [selectFrom, if_pos throttled, skips, continues]
      exact ih _ _ _ _ blocked (scanned_throttled scanned throttled)
    · have free : inThrottled throttledPhases phase = false := by simpa using throttled
      rw [selectFrom, if_neg throttled]
      by_cases opens : OpensAt cfg zones phase now
      · left
        rw [if_pos (opensAt_iff.mp opens)]
        exact ⟨before, phase, rest, rfl, none_before, ⟨free, opens⟩, rotationWindow, rfl⟩
      · have blocked : ∀ c ∈ before ++ [phase], ¬ Qualifies cfg throttledPhases zones now c := by
          intro c member qualifies
          obtain earlier | here := List.mem_append.mp member
          · exact none_before c earlier qualifies
          · rw [List.mem_singleton.mp here] at qualifies
            exact opens qualifies.2
        rw [if_neg (opensAt_iff.not.mp opens), skips, continues]
        exact ih _ _ _ _ blocked (scanned_closed scanned free opens)

/-- The poll asks exactly whether some candidate qualifies. -/
theorem pollWindows_iff {roundNum : ℤ} :
    pollWindows cfg throttledPhases (clocks zones now) roundNum = true ↔
      ∃ c ∈ candidatePhases cfg roundNum, Qualifies cfg throttledPhases zones now c := by
  simp only [pollWindows, List.any_map, List.any_eq_true, List.mem_filter, Qualifies, OpensAt,
    Bool.not_eq_true', Function.comp, and_assoc]

/-- What a candidate offers is its first opening, in its own zone, under its own label. -/
theorem offer_eq_some {b : Best} (blocked : ¬ OpensAt cfg zones phase now)
    (offered : offer cfg zones now phase = some b) :
    FirstOpening cfg zones now phase b.resumeAt.utc ∧
      b.resumeAt.offset = zones (cfg.profileFor phase).schedule.timezone ∧
      b.phase = phase ∧ b.timezone = (cfg.profileFor phase).schedule.timezone ∧
      b.window = some (activeWindowLabel
        (clocks zones now (cfg.profileFor phase).schedule.timezone)
        (cfg.profileFor phase).schedule.pauseWindows) := by
  obtain ⟨r, found, rfl⟩ := Option.map_eq_some_iff.mp offered
  obtain ⟨zone, first⟩ := nextResumeAt_first (by simpa [OpensAt] using blocked) found
  exact ⟨first, zone, rfl, rfl, rfl⟩

/-- A closed candidate that opens at some instant makes an offer. -/
theorem offers_of_opens {t : ℤ} (opens : OpensAt cfg zones phase t) :
    ∃ b, offer cfg zones now phase = some b := by
  let sched := (cfg.profileFor phase).schedule
  obtain ⟨r, found⟩ : ∃ r, nextResumeAt (clocks zones now sched.timezone) sched.runWindows
      sched.pauseWindows = some r := exists_nextResumeAt opens
  exact ⟨_, Option.map_eq_some_iff.mpr ⟨r, found, rfl⟩⟩

/-- What the scan ends with is what a pause awaits. -/
theorem scanned_awaits {last : Option Best} {window : Option String}
    (blocked : ∀ c ∈ order, ¬ Qualifies cfg throttledPhases zones now c)
    (scanned : Scanned cfg throttledPhases zones now order last) :
    Awaits cfg throttledPhases zones now order
      (selectFrom cfg throttledPhases (clocks zones now) 0 [] window last []) := by
  obtain ⟨owned, least⟩ := scanned
  have shut : ∀ c ∈ order, inThrottled throttledPhases c = false → ¬ OpensAt cfg zones c now :=
    fun c member free opens => blocked c member ⟨free, opens⟩
  cases last with
  | none =>
    refine ⟨rfl, rfl, fun c member free t opens => ?_⟩
    obtain ⟨b, offered⟩ : ∃ b, offer cfg zones now c = some b := offers_of_opens opens
    obtain ⟨b', held, _⟩ := least c member free b offered
    exact absurd held (by simp)
  | some b =>
    obtain ⟨c, member, free, offered⟩ := owned b rfl
    obtain ⟨first, zone, phase_eq, timezone_eq, window_eq⟩ :=
      offer_eq_some (shut c member free) offered
    refine ⟨⟨c, member, free, first, zone, phase_eq, timezone_eq, window_eq⟩, ?_⟩
    rintro d member free ⟨t, opens⟩
    obtain ⟨o, offered⟩ : ∃ o, offer cfg zones now d = some o := offers_of_opens opens
    obtain ⟨b', held, bound⟩ := least d member free o offered
    obtain rfl := Option.some.inj held
    exact ⟨o.resumeAt.utc, (offer_eq_some (shut d member free) offered).1, bound⟩

end Scan

theorem rotationIndex_lt (roundNum : ℤ) {n : ℕ} (positive : 0 < n) :
    rotationIndex roundNum n < n := by
  simp only [rotationIndex]
  have := Int.emod_lt_of_pos (roundNum - 1) (Int.natCast_pos.mpr positive)
  omega

/-- Only a lone base config is no named phase. -/
theorem candidatePhases_named (cfg : Config) (roundNum : ℤ) :
    candidatePhases cfg roundNum = [none] ∨
      ∀ c ∈ candidatePhases cfg roundNum, c.isSome = true := by
  unfold candidatePhases
  split
  · exact Or.inl rfl
  · rename_i first others _
    have positive : 0 < (first :: others).length := Nat.succ_pos _
    right
    split
    · intro c member
      obtain ⟨i, _, rfl⟩ := List.mem_map.mp member
      rw [List.getElem?_eq_getElem (Nat.mod_lt _ positive)]
      rfl
    · intro c member
      rw [List.mem_singleton.mp member, List.getElem?_eq_getElem (rotationIndex_lt _ positive)]
      rfl

/-- A phase that candidates precede is preceded by named ones. -/
theorem passed_named {cfg : Config} {roundNum : ℤ} {passed after : List (Option String)}
    {chosen : Option String}
    (split : candidatePhases cfg roundNum = passed ++ chosen :: after) :
    passed.reduceOption.map some = passed := by
  have named : ∀ c ∈ passed, c.isSome = true := by
    intro c member
    obtain alone | all := candidatePhases_named cfg roundNum
    · obtain ⟨rfl, _⟩ | ⟨_, empty⟩ := List.append_eq_singleton_iff.mp (split.symm.trans alone)
      · exact absurd member (by simp)
      · exact absurd empty (by simp)
    · exact all c (split ▸ List.mem_append_left _ member)
  clear split
  induction passed with
  | nil => rfl
  | cons c rest ih =>
    obtain ⟨name, rfl⟩ := Option.isSome_iff_exists.mp (named c List.mem_cons_self)
    rw [List.reduceOption_cons_of_some, List.map_cons,
      ih fun d member => named d (List.mem_cons_of_mem _ member)]

/-- **Phase selection meets its specification.**  A round launches the first candidate of
the rotation that is open and not throttled, having skipped those before it, and it pauses
exactly where no candidate qualifies. The poll of the pause is then false at the same
instant, and the pause awaits the earliest first opening of the unthrottled candidates. -/
theorem selection_launches_or_awaits (cfg : Config) (roundNum : ℤ) (throttledPhases : List String)
    (zones : Option String → ℤ) (now : ℤ) :
    let order := candidatePhases cfg roundNum
    let sel := selectPhase cfg throttledPhases (clocks zones now) roundNum
    (sel.paused = true ↔ ∀ c ∈ order, ¬ Qualifies cfg throttledPhases zones now c) ∧
      (sel.paused = false → Launches cfg throttledPhases zones now order sel) ∧
      (sel.paused = true →
        pollWindows cfg throttledPhases (clocks zones now) roundNum = false ∧
        Awaits cfg throttledPhases zones now order sel) := by
  intro order sel
  obtain ⟨passed, chosen, after, split, blocked, qualifies, window, launched⟩ |
      ⟨blocked, last, window, scanned, ended⟩ :=
    selectFrom_outcome order [] 0 none none (by simp) scanned_nil
  · replace launched : sel = ⟨chosen, false, none, none, none, passed.reduceOption, window⟩ :=
      launched
    have running : sel.paused = false := by rw [launched]
    have member : chosen ∈ order := by
      rw [show order = passed ++ chosen :: after from split]
      simp
    refine ⟨⟨fun paused => ?_, fun all => absurd qualifies (all chosen member)⟩,
      fun _ => ⟨passed, chosen, after, split, blocked, qualifies, ?_, ?_⟩, fun paused => ?_⟩
    · exact absurd (running.symm.trans paused) (by decide)
    · rw [launched]
    · rw [launched]
      exact passed_named split
    · exact absurd (running.symm.trans paused) (by decide)
  · rw [List.nil_append] at blocked scanned
    have awaits : Awaits cfg throttledPhases zones now _
        (selectFrom cfg throttledPhases (clocks zones now) 0 [] window last []) :=
      scanned_awaits blocked scanned
    replace ended : sel =
        selectFrom cfg throttledPhases (clocks zones now) 0 [] window last [] := ended
    have paused : sel.paused = true := by
      rw [ended]
      cases last <;> rfl
    refine ⟨⟨fun _ => blocked, fun _ => paused⟩,
      fun running => absurd (running.symm.trans paused) (by decide), fun _ => ⟨?_, ?_⟩⟩
    · rw [← Bool.not_eq_true, pollWindows_iff]
      rintro ⟨c, member, qualifies⟩
      exact blocked c member qualifies
    · rw [ended]
      exact awaits

end AgentRunner.PhaseSelect
