import AgentRunner.Episodes
import AgentRunner.Treadmill
import Mathlib.Data.List.Sort

/-! A serve run as the treadmill assessor sees it: each round appends its
substrate event, then the assessment of the rounds before it, then whatever the
round did. Assessed so, the assessor is the edge-triggered alarm over the
rounds' goal-check signatures. -/
namespace AgentRunner.TreadmillRun
open PyValue Events Treadmill Episodes

/-- A round to be played: its number, its `round_substrate_before`, and the
activity and goal-check events it appends on its own. -/
structure ScriptedRound where
  num : Int
  before : Event
  own : List Event

/-- The names of the checks a bucket holds an unskipped result for. -/
def checkedNames (bucket : List Event) : List String :=
  bucket.filterMap fun ev =>
    if !isKind ev goalCheck || (get ev "skipped").truthy then none
    else
      match get ev "name" with
      | .str name => some name
      | _ => none

/-- Rounds with increasing numbers, each appending events of its own number or of
none, all with the same checks, whose values can be read. -/
structure Script (host : Host) where
  rounds : List ScriptedRound
  increasing : rounds.Pairwise fun r r' => r.num < r'.num
  begins : ∀ r ∈ rounds, isKind r.before roundSubstrateBefore = true ∧
    roundNumOf r.before = some r.num
  numbered : ∀ r ∈ rounds, ∀ ev ∈ r.own, roundNumOf ev = none ∨ roundNumOf ev = some r.num
  noAssessment : ∀ r ∈ rounds, ∀ ev ∈ r.own, isKind ev goalAssessment = false
  readable : ∀ r ∈ rounds, Returns (checkSignature host r.own)
  sameChecks : ∀ r ∈ rounds, ∀ r' ∈ rounds, ∀ name,
    name ∈ checkedNames r.own ↔ name ∈ checkedNames r'.own

/-- The event `write_ledger_advisory` leaves, its texts redacted. -/
def assessmentEvent (redact : String → String) (advisory : Advisory) : Event :=
  [("event", .str goalAssessment), ("observation", .str (redact advisory.observation)),
    ("question", .str (redact advisory.question)),
    ("confidence", .str (redact advisory.confidence))]

/-- A played round, with what the assessment before it returned. -/
abbrev Played := ScriptedRound × Option Advisory

/-- The events a played round has appended. -/
def blockOf (redact : String → String) (p : Played) : List Event :=
  p.1.before :: ((p.2.map (assessmentEvent redact)).toList ++ p.1.own)

def streamOf (redact : String → String) (played : List Played) : List Event :=
  played.flatMap (blockOf redact)

section
variable (host : Host) (files : Files) (redact : String → String) (k : ℕ+)

/-- One round: `round_substrate_before` is in the tail when the assessor reads it. -/
def playRound (played : List Played) (r : ScriptedRound) : Except PyErr (List Played) := do
  let advisory ← assessTreadmill host
    (files.spread (streamOf redact played ++ [r.before])) r.num k
  return played ++ [(r, advisory)]

def play (rounds : List ScriptedRound) : Except PyErr (List Played) :=
  rounds.foldlM (playRound host files redact k) []

end

/-! ## Tagging a stream of rounds -/

/-- Events that carry the current number, or none, are tagged with it. -/
theorem tagFrom_own {num : Int} {events : List Event}
    (numbered : ∀ ev ∈ events, roundNumOf ev = none ∨ roundNumOf ev = some num)
    (rest : List Event) : tagFrom (some num) (events ++ rest) =
      events.map (fun ev => (some num, ev)) ++ tagFrom (some num) rest := by
  induction events with
  | nil => rfl
  | cons ev events ih =>
    have here : (roundNumOf ev).or (some num) = some num := by
      rcases numbered ev List.mem_cons_self with none | own
      · rw [none]; rfl
      · rw [own]; rfl
    simp only [List.cons_append, tagFrom, here, List.map_cons,
      ih fun e member => numbered e (.tail _ member)]

/-- What a script asks of one round's numbers. -/
structure WellNumbered (r : ScriptedRound) : Prop where
  begins : roundNumOf r.before = some r.num
  numbered : ∀ ev ∈ r.own, roundNumOf ev = none ∨ roundNumOf ev = some r.num

/-- The tagged stream of some played rounds. -/
def taggedOf (redact : String → String) (played : List Played) : List (Option Int × Event) :=
  played.flatMap fun p => (blockOf redact p).map fun ev => (some p.1.num, ev)

variable {host : Host} {files : Files} {redact : String → String} {k : ℕ+}

/-- A round's events are tagged with its number: the first one carries it. -/
theorem tag_block {p : Played} (round : WellNumbered p.1) (current : Option Int)
    (tail : List Event) : tagFrom current (blockOf redact p ++ tail) =
      (blockOf redact p).map (fun ev => (some p.1.num, ev)) ++ tagFrom (some p.1.num) tail := by
  have own : ∀ ev ∈ (p.2.map (assessmentEvent redact)).toList ++ p.1.own,
      roundNumOf ev = none ∨ roundNumOf ev = some p.1.num := by
    intro ev member
    rcases List.mem_append.mp member with assessed | own
    · obtain ⟨advisory, -, rfl⟩ := Option.map_eq_some_iff.mp (Option.mem_toList.mp assessed)
      exact .inl rfl
    · exact round.numbered ev own
  have first : (roundNumOf p.1.before).or current = some p.1.num := by
    rw [round.begins]; rfl
  rw [blockOf, List.cons_append, tagFrom, first, tagFrom_own own, List.map_cons, List.cons_append]

theorem tag_stream {played : List Played} (wellNumbered : ∀ p ∈ played, WellNumbered p.1)
    {before : Event} {num : Int} (begins : roundNumOf before = some num) :
    tagRounds (streamOf redact played ++ [before]) =
      taggedOf redact played ++ [(some num, before)] := by
  unfold tagRounds
  generalize none = current
  induction played generalizing current with
  | nil => simp [streamOf, taggedOf, tagFrom, begins]
  | cons p rest ih =>
    rw [streamOf, taggedOf, List.flatMap_cons, List.flatMap_cons, List.append_assoc,
      tag_block (wellNumbered p List.mem_cons_self), List.append_assoc, ← streamOf, ← taggedOf,
      ih fun q member => wellNumbered q (.tail _ member)]

/-! ## Reading the buckets back -/

theorem bucketOf_append (first second : List (Option Int × Event)) (num : Int) :
    bucketOf (first ++ second) num = bucketOf first num ++ bucketOf second num := by
  simp [bucketOf]

theorem bucketOf_block (num other : Int) (events : List Event) :
    bucketOf (events.map fun ev => (some num, ev)) other = if num = other then events else [] := by
  by_cases same : num = other
  · simp [bucketOf, List.filter_map, same, Function.comp_def]
  · simp [bucketOf, List.filter_map, same, Function.comp_def]

theorem bucketOf_absent {played : List Played} {num : Int} (absent : ∀ p ∈ played, p.1.num ≠ num) :
    bucketOf (taggedOf redact played) num = [] := by
  induction played with
  | nil => rfl
  | cons p rest ih =>
    rw [taggedOf, List.flatMap_cons, bucketOf_append, bucketOf_block,
      if_neg (absent p List.mem_cons_self)]
    exact ih fun q member => absent q (.tail _ member)

/-- The bucket of a played round is the block it appended. -/
theorem bucketOf_played {played : List Played}
    (increasing : played.Pairwise fun p q => p.1.num < q.1.num) {p : Played} (member : p ∈ played)
    {num : Int} (later : p.1.num < num) (before : Event) :
    bucketOf (taggedOf redact played ++ [(some num, before)]) p.1.num = blockOf redact p := by
  have current : bucketOf [(some num, before)] p.1.num = [] := by
    simpa [later.ne'] using bucketOf_block num p.1.num [before]
  rw [bucketOf_append, current, List.append_nil]
  induction played with
  | nil => cases member
  | cons q rest ih =>
    obtain ⟨above, tail⟩ := List.pairwise_cons.mp increasing
    rw [taggedOf, List.flatMap_cons, bucketOf_append, bucketOf_block]
    rcases List.mem_cons.mp member with rfl | member
    · rw [if_pos rfl, ← taggedOf, bucketOf_absent fun r inRest => (above r inRest).ne',
        List.append_nil]
    · rw [if_neg (above p member).ne, List.nil_append]
      exact ih tail member

/-- The completed rounds are the played ones, in order. -/
theorem completedRounds_played {played : List Played}
    (increasing : played.Pairwise fun p q => p.1.num < q.1.num) {num : Int}
    (later : ∀ p ∈ played, p.1.num < num) (before : Event) :
    completedRounds (taggedOf redact played ++ [(some num, before)]) num =
      played.map fun p => p.1.num := by
  have sorted : (played.map fun p => p.1.num).Pairwise (· < ·) := List.pairwise_map.mpr increasing
  have members : ∀ n, n ∈ ((taggedOf redact played ++ [(some num, before)]).filterMap
      Prod.fst).filter (· < num) ↔ n ∈ played.map fun p => p.1.num := by
    intro n
    simp only [List.mem_filter, List.mem_filterMap, List.mem_append, taggedOf, List.mem_flatMap,
      List.mem_map, List.mem_singleton, decide_eq_true_eq]
    constructor
    · rintro ⟨⟨entry, ⟨p, member, ev, -, rfl⟩ | rfl, same⟩, below⟩
      · exact ⟨p, member, Option.some.inj same⟩
      · cases same
        exact absurd below (lt_irrefl _)
    · rintro ⟨p, member, rfl⟩
      exact ⟨⟨_, .inl ⟨p, member, p.1.before, List.mem_cons_self, rfl⟩, rfl⟩, later p member⟩
  refine List.Perm.eq_of_sortedLE List.sortedLE_mergeSort ?_ ?_
  · exact (List.sortedLT_iff_pairwise.mpr sorted).sortedLE
  · refine (List.mergeSort_perm _ _).trans ?_
    refine (List.perm_ext_iff_of_nodup (List.nodup_dedup _) (sorted.imp ne_of_lt)).mpr fun n => ?_
    rw [List.mem_dedup]
    exact members n

/-! ## What a block shows -/

theorem isKind_assessment (advisory : Advisory) (kind : String) :
    isKind (assessmentEvent redact advisory) kind = (goalAssessment == kind) := rfl

/-- The activity of a round that opened with `before`. -/
def RoundActive (r : ScriptedRound) : Prop := roundHasActivity (r.before :: r.own) = true

/-- An assessment in a block is no activity. -/
theorem activity_block (p : Played) :
    roundHasActivity (blockOf redact p) = true ↔ RoundActive p.1 := by
  obtain ⟨r, advisory⟩ := p
  cases advisory with
  | none => rfl
  | some advisory =>
    have kinds : ∀ kind, kind ≠ goalAssessment →
        isKind (assessmentEvent redact advisory) kind = false := by
      intro kind other
      simpa [isKind_assessment] using Ne.symm other
    simp only [RoundActive, blockOf, roundHasActivity, gitHeadMoved, gitHeads, Option.map_some,
      Option.toList_some, List.cons_append, List.nil_append, List.any_cons, List.foldl_cons,
      kinds dirtyDetected (by decide), kinds dirtyAutoCommitted (by decide),
      kinds roundSubstrateBefore (by decide), kinds roundSubstrateAfter (by decide),
      Bool.false_or, Bool.false_eq_true, if_false]

theorem signature_skips {ev : Event} (other : isKind ev goalCheck = false) (rest : List Event) :
    checkSignature host (ev :: rest) = checkSignature host rest := by
  simp [checkSignature, signatureStep, other, bind, Except.bind]

/-- Nor is it, or the substrate event, a goal check. -/
theorem signature_block (p : Played) (begins : isKind p.1.before roundSubstrateBefore = true) :
    checkSignature host (blockOf redact p) = checkSignature host p.1.own := by
  obtain ⟨r, advisory⟩ := p
  rw [blockOf, signature_skips (isKind_unique begins (by decide))]
  cases advisory with
  | none => rfl
  | some advisory => exact signature_skips (by rw [isKind_assessment]; decide) _

private theorem signatureStep_names {sig next : Dict String CheckEntry} {ev : Event}
    (stepped : signatureStep host sig ev = .ok next) (name : String) :
    next.get? name ≠ none ↔ sig.get? name ≠ none ∨ name ∈ checkedNames [ev] := by
  unfold signatureStep at stepped
  split at stepped
  · rename_i skipped
    cases stepped
    simp only [checkedNames, List.filterMap_cons, if_pos skipped]
    simp
  · rename_i counted
    split at stepped
    · rename_i text named
      cases value : coercedCheckValue host (get ev "value") with
      | error e =>
        rw [value] at stepped
        cases stepped
      | ok read =>
        rw [value] at stepped
        cases stepped
        simp only [checkedNames, List.filterMap_cons, if_neg counted, named]
        by_cases same : name = text <;> simp [same]
    · rename_i unnamed
      cases stepped
      simp only [checkedNames, List.filterMap_cons, if_neg counted]
      simp

/-- The signature holds an entry for exactly the checks that were not skipped. -/
theorem signature_names {bucket : List Event} {sig : Dict String CheckEntry}
    (computed : checkSignature host bucket = .ok sig) (name : String) :
    sig.get? name ≠ none ↔ name ∈ checkedNames bucket := by
  suffices ∀ bucket start, bucket.foldlM (signatureStep host) start = .ok sig →
      (sig.get? name ≠ none ↔ start.get? name ≠ none ∨ name ∈ checkedNames bucket) by
    simpa using this bucket .empty computed
  intro bucket
  induction bucket with
  | nil =>
    intro start computed
    cases computed
    simp [checkedNames]
  | cons ev rest ih =>
    intro start computed
    rw [List.foldlM_cons] at computed
    cases stepped : signatureStep host start ev with
    | error e =>
      rw [stepped] at computed
      cases computed
    | ok next =>
      rw [stepped] at computed
      rw [ih next computed, signatureStep_names stepped, or_assoc, ← List.mem_append,
        checkedNames, checkedNames, ← List.filterMap_append, List.singleton_append]
      rfl

end AgentRunner.TreadmillRun
