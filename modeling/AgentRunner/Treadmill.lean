import AgentRunner.Dict
import AgentRunner.Events
import Mathlib.Data.List.Dedup
import Mathlib.Data.PNat.Defs

/-! `goal.py`: the treadmill assessor, an advisory raised over a window of
completed rounds that kept working while no goal check moved. -/
namespace AgentRunner.Treadmill
open PyValue Events

/-! ## One round's bucket -/

/-- `_round_num_of`: a `round_num` that is an int and not a bool. -/
def roundNumOf (ev : Event) : Option Int :=
  match get ev "round_num" with
  | .int n => some n
  | _ => none

/-- `_tag_rounds`, from the round in force before the first event. -/
def tagFrom (current : Option Int) : List Event → List (Option Int × Event)
  | [] => []
  | ev :: rest =>
    let current := (roundNumOf ev).or current
    (current, ev) :: tagFrom current rest

/-- `_tag_rounds`. -/
def tagRounds (tail : List Event) : List (Option Int × Event) := tagFrom none tail

/-- The newest `git_head` of each side of the round's substrate pair. -/
def gitHeads (bucket : List Event) : Json × Json :=
  bucket.foldl (fun heads ev =>
    if isKind ev roundSubstrateBefore then (get ev "git_head", heads.2)
    else if isKind ev roundSubstrateAfter then (heads.1, get ev "git_head")
    else heads) (.null, .null)

def isNull : Json → Bool
  | .null => true
  | _ => false

/-- `_git_head_moved`. -/
def gitHeadMoved (bucket : List Event) : Bool :=
  let (before, after) := gitHeads bucket
  !isNull before && !isNull after && !Json.pyEq before after

/-- `_round_has_activity`. -/
def roundHasActivity (bucket : List Event) : Bool :=
  (bucket.any fun ev => isKind ev dirtyDetected || isKind ev dirtyAutoCommitted) ||
    gitHeadMoved bucket

/-- `_coerce_float`: `math.isfinite` of an int no double can hold raises. -/
def coerceFloat (host : Host) (value : Json) (default : PyFloat) : Except PyErr PyFloat :=
  match value with
  | .bool b => .ok (.finite b.toInt)
  | .int n =>
    match host.floatOfInt n with
    | some q => .ok (.finite q)
    | none => .error .overflowError
  | .float x => .ok (if isFinite x then x else default)
  | .str s =>
    match host.floatOfText s with
    | some x => .ok (if isFinite x then x else default)
    | none => .ok default
  | _ => .ok default

/-- `_coerced_check_value`. -/
def coercedCheckValue (host : Host) (raw : Json) : Except PyErr (Option PyFloat) :=
  if isNull raw then .ok none
  else do
    let coerced ← coerceFloat host raw .nan
    return if coerced = .nan then none else some coerced

/-- Satisfied, and the value read. -/
abbrev CheckEntry := Bool × Option PyFloat

/-- The loop body of `_check_signature`. -/
def signatureStep (host : Host) (sig : Dict String CheckEntry) (ev : Event) :
    Except PyErr (Dict String CheckEntry) :=
  if !isKind ev goalCheck || (get ev "skipped").truthy then .ok sig
  else
    match get ev "name" with
    | .str name => do
      let value ← coercedCheckValue host (get ev "value")
      return sig.set name ((get ev "satisfied").truthy, value)
    | _ => .ok sig

/-- `_check_signature`. -/
def checkSignature (host : Host) (bucket : List Event) : Except PyErr (Dict String CheckEntry) :=
  bucket.foldlM (signatureStep host) .empty

/-! ## The assessor -/

/-- The rounds below `current_round` in the tail, sorted. -/
def completedRounds (tagged : List (Option Int × Event)) (currentRound : Int) : List Int :=
  ((tagged.filterMap Prod.fst).filter (· < currentRound)).dedup.mergeSort

/-- `buckets.get(rn, [])`. -/
def bucketOf (tagged : List (Option Int × Event)) (rn : Int) : List Event :=
  (tagged.filter fun entry => entry.1 = some rn).map Prod.snd

/-- `check_series.setdefault(name, []).append(entry)` for one round's signature. -/
def appendSeries (series : Dict String (List CheckEntry)) (sig : Dict String CheckEntry) :
    Dict String (List CheckEntry) :=
  sig.entries.foldl (fun series entry =>
    series.set entry.1 (series.getD entry.1 [] ++ [entry.2])) series

/-- `check_series` over a window. -/
def checkSeries (host : Host) (tagged : List (Option Int × Event)) (window : List Int) :
    Except PyErr (Dict String (List CheckEntry)) :=
  window.foldlM (fun series rn =>
    (checkSignature host (bucketOf tagged rn)).map (appendSeries series)) .empty

/-- The backward walk to the episode's start, over the earlier rounds, newest first. -/
def walkBack (host : Host) (tagged : List (Option Int × Event))
    (constantSig : Dict String CheckEntry) : List Int → Int → Except PyErr Int
  | [], start => .ok start
  | rn :: earlier, start =>
    if roundHasActivity (bucketOf tagged rn) = false then .ok start
    else do
      let sig ← checkSignature host (bucketOf tagged rn)
      if sig.beq constantSig then walkBack host tagged constantSig earlier rn else return start

/-- A `goal_assessment` from the episode's first event on. -/
def alreadyFired (tagged : List (Option Int × Event)) (episodeStart : Int) : Bool :=
  (tagged.dropWhile fun entry => entry.1 ≠ some episodeStart).any fun entry =>
    isKind entry.2 goalAssessment

/-- `Advisory`. -/
structure Advisory where
  observation : String
  question : String
  confidence : String
  deriving DecidableEq

/-- The advisory for a window of `k` rounds over these checks. -/
def advisoryFor (k : ℕ+) (names : List String) : Advisory where
  observation := "For the last " ++ toString (k : Nat) ++
    " rounds the working tree kept changing, but goal-check(s) " ++ ", ".intercalate names ++
    " never changed status or value."
  question := "What specifically is blocking progress on the unmet check(s) -- " ++
    "is there a concrete next step, or is the check itself measuring the wrong thing?"
  confidence := "medium"

/-- The three gates of `assess_treadmill` over a window `first :: later`, given
the completed rounds before it. -/
def assessWindow (host : Host) (tagged : List (Option Int × Event)) (k : ℕ+)
    (earlier : List Int) (first : Int) (later : List Int) :
    Except PyErr (Option Advisory) := do
  let window := first :: later
  -- gate 1: activity in every round of the window
  if window.all (fun rn => roundHasActivity (bucketOf tagged rn)) = false then return none
  else
    -- gate 2: some check, none of which moved, and not all of them satisfied
    let series ← checkSeries host tagged window
    let constantSig := series.mapValues fun entries => entries.headD (false, none)
    if series.entries.isEmpty then return none
    else if series.values.any (fun entries => 1 < entries.dedup.length) then return none
    else if constantSig.values.all Prod.fst then return none
    else
      -- gate 3: not fired since the episode began
      let episodeStart ← walkBack host tagged constantSig earlier.reverse first
      if alreadyFired tagged episodeStart then return none
      else return some (advisoryFor k ((series.entries.map Prod.fst).mergeSort))

/-- `assess_treadmill`. -/
def assessTreadmill (host : Host) (logDir : LogDir) (currentRound : Int) (k : ℕ+) :
    Except PyErr (Option Advisory) :=
  let tagged := tagRounds (tailEvents logDir)
  let roundNums := completedRounds tagged currentRound
  if roundNums.length < k then .ok none
  else
    match roundNums.drop (roundNums.length - k) with
    | [] => .ok none
    | first :: later =>
      assessWindow host tagged k (roundNums.take (roundNums.length - k)) first later

end AgentRunner.Treadmill
