import AgentRunner.MidRound

/-! Who gives `memory.high` back. Within a round the brake's writes alternate between
the limit the round began with and lower ones; a round that cannot restore at its end
forgets what it owes, and the next one takes the lowered limit for its own. -/
namespace AgentRunner.SoftBrake
open MidRound

/-! ## A serve run -/

/-- What a serve run leaves: the brake's acts, and the ends of the rounds with whether
the round-end restore was written. -/
inductive Step where
  | act (act : BrakeAct)
  | roundEnd (restored : Bool)

def isRestore : BrakeAct → Bool
  | .restore _ => true
  | _ => false

/-- Rounds one after the other on a leaf whose `memory.high` nobody else writes. -/
def serve (scale : Int → Int → Int) : Token → List Round → List Step
  | _, [] => []
  | high, r :: rest =>
    let ran := midRound scale r high
    let b := finish r ran.brake
    (ran.begun.flatMap Ticked.brake ++ b.acts).map .act ++
      .roundEnd (b.acts.any isRestore) :: serve scale b.memoryHigh rest

/-- A write of `written` where the file shows `high` lowers the limit in force. -/
def Lowers (written : Int) (high : Token) : Prop :=
  ∀ limit ∈ parseCgroupToken high, written < limit

/-- The brake gives the limit back: what an engage stashes is what the file shows, and
it lowers it; a restore writes what the file showed before the oldest engage not yet
restored, `owed`; and a round that ends restored, or owing nothing, ends on `first`. -/
def GivesBack (first : Token) : Token → Option Token → List Step → Prop
  | _, _, [] => True
  | high, owed, .act (.engage previous written) :: rest =>
    previous = high ∧ Lowers written high ∧
      GivesBack first (.bytes written) (owed.or (some high)) rest
  | high, owed, .act (.restore token) :: rest =>
    token = owed.getD high ∧ GivesBack first token none rest
  | high, owed, .act _ :: rest => GivesBack first high owed rest
  | high, owed, .roundEnd restored :: rest =>
    (restored = true ∨ owed = none → high = first) ∧ GivesBack first high owed rest

/-- No restore is written while an engage of an earlier round is unrestored. `own` tells
an unrestored engage of the round under way, `lost` one of a round that has ended. -/
def NoneLost : Bool → Bool → List Step → Prop
  | _, _, [] => True
  | lost, _, .act (.engage _ _) :: rest => NoneLost lost true rest
  | lost, _, .act (.restore _) :: rest => lost = false ∧ NoneLost lost false rest
  | lost, own, .act _ :: rest => NoneLost lost own rest
  | lost, own, .roundEnd _ :: rest => NoneLost (lost || own) false rest

/-! ## Within a round -/

/-- What the file shows in a round begun at `start`: that, or a lower value written. -/
def shown (start : Token) (held : Option Int) : Token := held.elim start .bytes

/-- The brake's acts in a round begun at `start`, by the value they leave written. -/
inductive Moves (start : Token) : Option Int → List BrakeAct → Option Int → Prop where
  | done (held : Option Int) : Moves start held [] held
  | engage {written : Int} {rest : List BrakeAct} {last : Option Int}
      (lowers : Lowers written start) (after : Moves start (some written) rest last) :
      Moves start none (.engage start written :: rest) last
  | restore {held : Option Int} {rest : List BrakeAct} {last : Option Int}
      (after : Moves start none rest last) : Moves start held (.restore start :: rest) last
  | engaged {held : Option Int} {rest : List BrakeAct} {last : Option Int} (previous written
      memoryCurrent signal context) (after : Moves start held rest last) :
      Moves start held
        (.memoryHighEngaged previous written memoryCurrent signal context :: rest) last
  | failed {held : Option Int} {rest : List BrakeAct} {last : Option Int} (errno)
      (after : Moves start held rest last) :
      Moves start held (.memoryHighWriteFailed errno :: rest) last
  | released {held : Option Int} {rest : List BrakeAct} {last : Option Int} (reason)
      (after : Moves start held rest last) :
      Moves start held (.memoryHighReleased reason :: rest) last

section Round
variable {start : Token}

theorem Moves.trans {a b c : Option Int} {first second : List BrakeAct}
    (left : Moves start a first b) (right : Moves start b second c) :
    Moves start a (first ++ second) c := by
  induction left with
  | done held => exact right
  | engage lowers _ ih => exact .engage lowers (ih right)
  | restore _ ih => exact .restore (ih right)
  | engaged previous written memoryCurrent signal context _ ih =>
    exact .engaged previous written memoryCurrent signal context (ih right)
  | failed errno _ ih => exact .failed errno (ih right)
  | released reason _ ih => exact .released reason (ih right)

/-- The brake's locals in a round begun at `start` that has written `held`: an engaged
brake remembers where the round began, and a brake that is not engaged owes nothing. -/
structure Holds (start : Token) (b : Brake) (held : Option Int) : Prop where
  shows : b.memoryHigh = shown start held
  remembers : b.engaged = true → b.previous = some start
  owes : b.engaged = false → held = none

/-- A part of a check only adds moves. -/
def Adds (start : Token) (b : Brake) (held : Option Int) (b' : Brake) : Prop :=
  ∃ new last, b'.acts = b.acts ++ new ∧ Moves start held new last ∧ Holds start b' last

theorem Adds.same {b b' : Brake} {held : Option Int} (acts : b'.acts = b.acts)
    (holds : Holds start b' held) : Adds start b held b' :=
  ⟨[], held, by rw [acts, List.append_nil], .done held, holds⟩

/-- The brake as a part of a check left it, by an exception or not. -/
def leftAt : Except Brake Brake → Brake
  | .ok b => b
  | .error b => b

/-- The brake as a release left it. -/
def releasedAt : Except Brake (Bool × Brake) → Brake
  | .ok (_, b) => b
  | .error b => b

/-- A release writes where the round began, or nothing. -/
theorem releaseBrake_adds {b : Brake} {held : Option Int} (holds : Holds start b held)
    (engaged : b.engaged = true) (restores : Bool) (raises : Call → Bool) (reason : String) :
    ∃ new last, (releasedAt (releaseBrake restores raises start reason b)).acts = b.acts ++ new ∧
      Moves start held new last ∧
      Holds start (releasedAt (releaseBrake restores raises start reason b)) last ∧
      (new.any isRestore = true → last = none) ∧ (restores = true → last = none) ∧
      ∀ b', releaseBrake restores raises start reason b = .ok (true, b') → last = none := by
  have owes : ∀ {last : Option Int}, b.engaged = false → last = none :=
    fun off => absurd (engaged.symm.trans off) nofun
  cases restores with
  | true =>
    cases event : raises .released with
    | true =>
      simp only [releaseBrake, Brake.emit, event, if_true]
      exact ⟨[.restore start], none, rfl, .restore (.done none), ⟨rfl, holds.remembers, owes⟩,
        fun _ => rfl, fun _ => rfl, fun _ _ => rfl⟩
    | false =>
      simp only [releaseBrake, Brake.emit, event, if_true, if_neg Bool.false_ne_true]
      exact ⟨[.restore start, .memoryHighReleased reason], none, List.append_assoc ..,
        .restore (.released reason (.done none)), ⟨rfl, holds.remembers, owes⟩,
        fun _ => rfl, fun _ => rfl, fun _ _ => rfl⟩
  | false =>
    cases event : raises .restoreFailed with
    | true =>
      simp only [releaseBrake, Brake.emit, event, if_true, if_neg Bool.false_ne_true]
      exact ⟨[], held, (List.append_nil _).symm, .done held, holds,
        fun written => absurd written nofun, nofun, fun b' same => by cases same⟩
    | false =>
      simp only [releaseBrake, Brake.emit, event, if_neg Bool.false_ne_true]
      exact ⟨[.memoryHighWriteFailed none], held, rfl, .failed none (.done held),
        ⟨holds.shows, holds.remembers, holds.owes⟩,
        fun written => absurd written nofun, nofun, fun b' same => by cases same⟩

theorem recover_adds (cfg : BrakeConfig) (t : Tick) {b : Brake} {held : Option Int}
    (holds : Holds start b held) : Adds start b held (leftAt (recover cfg t b)) := by
  rw [recover]
  split
  · exact Adds.same rfl ⟨holds.shows, holds.remembers, holds.owes⟩
  dsimp only
  split
  · rename_i previous engaged stashed
    cases (holds.remembers engaged).symm.trans stashed
    split
    · obtain ⟨new, last, acts, moves, holds', -, -, done⟩ := releaseBrake_adds
        (b := { b with warningStreak := 0, noneStreak := b.noneStreak + 1 })
        ⟨holds.shows, holds.remembers, holds.owes⟩ engaged t.restores t.raises "recovered"
      cases result : releaseBrake t.restores t.raises start "recovered"
          { b with warningStreak := 0, noneStreak := b.noneStreak + 1 } with
      | error b' =>
        rw [result] at acts holds'
        exact ⟨new, last, acts, moves, holds'⟩
      | ok pair =>
        obtain ⟨restored, b'⟩ := pair
        rw [result] at acts holds'
        cases restored with
        | true =>
          cases done b' result
          exact ⟨new, none, acts, moves, holds'.shows, fun on => absurd on nofun, fun _ => rfl⟩
        | false => exact ⟨new, last, acts, moves, holds'.shows, holds'.remembers, holds'.owes⟩
    · exact Adds.same rfl ⟨holds.shows, holds.remembers, holds.owes⟩
  · exact Adds.same rfl ⟨holds.shows, holds.remembers, holds.owes⟩

/-- What an engage writes, it read, and it lowers. -/
theorem engage_lowers {scale : Int → Int → Int} {leaf : Leaf} {high previous : Token}
    {stepPct written memoryCurrent : Int}
    (engaged : engageLeafMemoryHigh scale leaf high stepPct =
      .engaged previous written memoryCurrent) : previous = high ∧ Lowers written high := by
  unfold engageLeafMemoryHigh at engaged
  split at engaged
  · cases engaged
  split at engaged
  · cases engaged
  split at engaged
  · cases engaged
  split at engaged
  · cases engaged
  split at engaged
  · cases engaged
  split at engaged
  · cases engaged
  · rename_i above _ _
    cases engaged
    refine ⟨rfl, fun limit shows => ?_⟩
    rw [Option.any_eq_true] at above
    simp only [not_exists, not_and, decide_eq_true_eq, not_le] at above
    exact above limit shows

theorem engage_adds (scale : Int → Int → Int) (cfg : BrakeConfig) (armed : Bool) (t : Tick)
    {b : Brake} {held : Option Int} (holds : Holds start b held) :
    Adds start b held (leftAt (engage scale cfg armed t b)) := by
  rw [engage]
  split
  · rename_i pressure stepPct _ _
    split
    · rename_i ready
      cases holds.owes ready.2.1
      split
      · exact Adds.same rfl holds
      split
      · rename_i previous written memoryCurrent result
        obtain ⟨rfl, lowers⟩ := engage_lowers result
        have shows : b.memoryHigh = start := holds.shows
        rw [shows] at lowers ⊢
        rw [Brake.emit]
        split
        · exact ⟨[.engage start written], some written, rfl, .engage lowers (.done _), rfl,
            fun _ => rfl, fun off => absurd off nofun⟩
        · exact ⟨[.engage start written, _], some written, List.append_assoc ..,
            .engage lowers (.engaged _ _ _ _ _ (.done _)), rfl, fun _ => rfl,
            fun off => absurd off nofun⟩
      · rw [Brake.emit]
        split
        · exact Adds.same rfl holds
        · exact ⟨[_], none, rfl, .failed _ (.done _), holds.shows, holds.remembers, holds.owes⟩
      · exact Adds.same rfl holds
    · exact Adds.same rfl holds
  · exact Adds.same rfl holds

theorem brakeTick_adds (scale : Int → Int → Int) (cfg : BrakeConfig) (armed : Bool) (t : Tick)
    {b : Brake} {held : Option Int} (holds : Holds start b held) :
    Adds start b held (leftAt (brakeTick scale cfg armed t b)) := by
  obtain ⟨first, middle, acts, moves, holds'⟩ := recover_adds cfg t holds
  rw [brakeTick]
  cases result : recover cfg t b with
  | error b' =>
    rw [result] at acts holds'
    exact ⟨first, middle, acts, moves, holds'⟩
  | ok b' =>
    rw [result] at acts holds'
    obtain ⟨second, last, acts', moves', holds''⟩ := engage_adds scale cfg armed t holds'
    exact ⟨first ++ second, last, acts'.trans (by rw [acts, List.append_assoc]),
      moves.trans moves', holds''⟩

/-- The brake's share of what a check came to. -/
def brakePart : Except (Left × Brake × Floor) (Brake × Floor) → Brake
  | .ok (b, _) => b
  | .error (_, b, _) => b

theorem tick_adds (scale : Int → Int → Int) (r : Round) (t : Tick) (f : Floor) {b : Brake}
    {held : Option Int} (holds : Holds start b held) :
    Adds start b held (brakePart (tick scale r t b f)) := by
  have adds := brakeTick_adds scale r.cfg.brake r.armed t holds
  rw [tick]
  split
  · exact Adds.same rfl holds
  split
  · rename_i result
    rw [result] at adds
    exact adds
  · rename_i result
    rw [result] at adds
    split <;> exact adds

/-- The moves of the checks of a round, and the brake the loop was left with. -/
theorem checks_moves (scale : Int → Int → Int) (r : Round) (ts : List Tick) {b : Brake}
    {held : Option Int} (f : Floor) (holds : Holds start b held) :
    ∃ last, Moves start held ((checks scale r ts b f).begun.flatMap Ticked.brake) last ∧
      Holds start (checks scale r ts b f).brake last := by
  induction ts generalizing b held f with
  | nil => exact ⟨held, .done held, holds⟩
  | cons t rest ih =>
    obtain ⟨new, middle, acts, moves, holds'⟩ := tick_adds scale r t { f with acts := [] }
      (b := { b with acts := [] }) ⟨holds.shows, holds.remembers, holds.owes⟩
    rw [List.nil_append] at acts
    rw [checks]
    split
    · rename_i b' f' result
      rw [result] at acts holds'
      obtain ⟨last, later, end_⟩ := ih f' holds'
      refine ⟨last, ?_, end_⟩
      have whole := moves.trans later
      rw [← acts] at whole
      exact whole
    all_goals
      rename_i b' f' result
      rw [result] at acts holds'
      refine ⟨middle, ?_, holds'⟩
      rw [← acts] at moves
      simpa [Ran.begun, brakePart] using moves

/-- The `finally` after the checks: once it restores, the file is back. -/
theorem finish_moves (r : Round) {b : Brake} {held : Option Int} (holds : Holds start b held) :
    ∃ last, Moves start held (finish r b).acts last ∧
      (finish r b).memoryHigh = shown start last ∧
      ((finish r b).acts.any isRestore = true → last = none) ∧
      (r.restoresAtEnd = true → last = none) := by
  rw [finish]
  dsimp only
  split
  · rename_i previous engaged stashed
    cases (holds.remembers engaged).symm.trans stashed
    obtain ⟨new, last, acts, moves, holds', restored, writes, -⟩ := releaseBrake_adds
      (b := { b with acts := [] }) ⟨holds.shows, holds.remembers, holds.owes⟩ engaged
      r.restoresAtEnd r.raisesAtEnd "round_end"
    rw [List.nil_append] at acts
    rw [← acts] at moves restored
    split
    · rename_i result
      rw [result] at moves holds' restored
      exact ⟨last, moves, holds'.shows, restored, writes⟩
    · rename_i result
      rw [result] at moves holds' restored
      exact ⟨last, moves, holds'.shows, restored, writes⟩
  · rename_i idle
    refine ⟨held, .done held, holds.shows, fun written => absurd written nofun, fun _ => ?_⟩
    refine holds.owes (Bool.eq_false_iff.mpr fun engaged => ?_)
    exact idle start engaged (holds.remembers engaged)

/-- The moves of a whole round. -/
theorem round_moves (scale : Int → Int → Int) (r : Round) (start : Token) :
    ∃ last, Moves start none ((midRound scale r start).begun.flatMap Ticked.brake ++
        (finish r (midRound scale r start).brake).acts) last ∧
      (finish r (midRound scale r start).brake).memoryHigh = shown start last ∧
      ((finish r (midRound scale r start).brake).acts.any isRestore = true → last = none) ∧
      (r.restoresAtEnd = true → last = none) := by
  have fresh : Holds start (.start start) none := ⟨rfl, fun on => absurd on nofun, fun _ => rfl⟩
  obtain ⟨middle, moves, holds⟩ := checks_moves scale r r.ticks .start fresh
  obtain ⟨last, moves', ends⟩ := finish_moves r holds
  exact ⟨last, moves.trans moves', ends⟩

end Round

/-! ## Across rounds -/

section Rounds
variable {first start : Token}

/-- The limit owed inside a round that found nothing owed. -/
def owedOf (start : Token) (held : Option Int) : Option Token := held.map fun _ => start

/-- Nothing owed from before: a round's moves give back, whatever comes after them. -/
theorem givesBack_clean {held last : Option Int} {acts : List BrakeAct}
    (moves : Moves start held acts last) (rest : List Step) :
    GivesBack first (shown start held) (owedOf start held) (acts.map .act ++ rest) ↔
      GivesBack first (shown start last) (owedOf start last) rest := by
  induction moves with
  | done held => exact Iff.rfl
  | engage lowers _ ih => exact ⟨fun all => ih.mp all.2.2, fun all => ⟨rfl, lowers, ih.mpr all⟩⟩
  | @restore held _ _ _ ih =>
    have back : start = (owedOf start held).getD (shown start held) := by cases held <;> rfl
    exact ⟨fun all => ih.mp all.2, fun all => ⟨back, ih.mpr all⟩⟩
  | engaged _ _ _ _ _ _ ih => exact ih
  | failed _ _ ih => exact ih
  | released _ _ ih => exact ih

theorem noneLost_clean {held last : Option Int} {acts : List BrakeAct}
    (moves : Moves start held acts last) (rest : List Step) :
    NoneLost false held.isSome (acts.map .act ++ rest) ↔ NoneLost false last.isSome rest := by
  induction moves with
  | done held => exact Iff.rfl
  | engage _ _ ih => exact ih
  | restore _ ih => exact ⟨fun all => ih.mp all.2, fun all => ⟨rfl, ih.mpr all⟩⟩
  | engaged _ _ _ _ _ _ ih => exact ih
  | failed _ _ ih => exact ih
  | released _ _ ih => exact ih

/-- Another limit owed from before: a round's moves give back only without a restore. -/
theorem givesBack_lost (other : start ≠ first) {held last : Option Int} {acts : List BrakeAct}
    (moves : Moves start held acts last) (rest : List Step) :
    GivesBack first (shown start held) (some first) (acts.map .act ++ rest) ↔
      acts.any isRestore = false ∧ GivesBack first (shown start last) (some first) rest := by
  induction moves with
  | done held => exact (and_iff_right rfl).symm
  | engage lowers _ ih =>
    exact ⟨fun all => ih.mp all.2.2, fun all => ⟨rfl, lowers, ih.mpr all⟩⟩
  | restore _ _ => exact ⟨fun all => absurd all.1 other, fun all => absurd all.1 nofun⟩
  | engaged _ _ _ _ _ _ ih => exact ih
  | failed _ _ ih => exact ih
  | released _ _ ih => exact ih

theorem noneLost_lost {held last : Option Int} {acts : List BrakeAct}
    (moves : Moves start held acts last) (rest : List Step) :
    NoneLost true held.isSome (acts.map .act ++ rest) ↔
      acts.any isRestore = false ∧ NoneLost true last.isSome rest := by
  induction moves with
  | done held => exact (and_iff_right rfl).symm
  | engage _ _ ih => exact ih
  | restore _ _ => exact ⟨fun all => absurd all.1 nofun, fun all => absurd all.1 nofun⟩
  | engaged _ _ _ _ _ _ ih => exact ih
  | failed _ _ ih => exact ih
  | released _ _ ih => exact ih

/-- A lower limit than the one owed. -/
def Under (start first : Token) : Prop := ∃ n, start = .bytes n ∧ Lowers n first

theorem Under.ne (under : Under start first) : start ≠ first := by
  obtain ⟨n, rfl, lowers⟩ := under
  rintro rfl
  exact Int.lt_irrefl n (lowers n rfl)

theorem Moves.lowers {held last : Option Int} {acts : List BrakeAct}
    (moves : Moves start held acts last) (before : ∀ n ∈ held, Lowers n start) :
    ∀ n ∈ last, Lowers n start := by
  induction moves with
  | done held => exact before
  | engage lowers _ ih => exact ih fun n same => by cases same; exact lowers
  | restore _ ih => exact ih fun n none_ => nomatch none_
  | engaged _ _ _ _ _ _ ih => exact ih before
  | failed _ _ ih => exact ih before
  | released _ _ ih => exact ih before

/-- What a round leaves is no higher than where it began. -/
theorem Moves.under {last : Option Int} {acts : List BrakeAct}
    (moves : Moves start none acts last) (under : Under start first) :
    Under (shown start last) first := by
  cases last with
  | none => exact under
  | some written =>
    obtain ⟨n, rfl, below⟩ := under
    have step := moves.lowers (fun n none_ => nomatch none_) written rfl
    exact ⟨written, rfl, fun limit shows => Int.lt_trans (step n rfl) (below limit shows)⟩

/-- Rounds that begin on a lowered limit while `first` is owed. -/
theorem serve_lost (scale : Int → Int → Int) (rounds : List Round) (under : Under start first) :
    GivesBack first start (some first) (serve scale start rounds) ↔
      NoneLost true false (serve scale start rounds) := by
  induction rounds generalizing start with
  | nil => exact Iff.rfl
  | cons r rest ih =>
    obtain ⟨last, moves, shows, -⟩ := round_moves scale r start
    simp only [serve]
    refine (givesBack_lost under.ne moves _).trans (Iff.trans ?_ (noneLost_lost moves _).symm)
    refine and_congr_right fun quiet => ?_
    rw [List.any_append, Bool.or_eq_false_iff] at quiet
    have later := ih (moves.under under)
    rw [← shows] at later ⊢
    constructor
    · exact fun all => later.mp all.2
    · refine fun all => ⟨fun ended => ?_, later.mpr all⟩
      obtain restored | none_ := ended
      · exact absurd (restored.symm.trans quiet.2) nofun
      · cases none_

/-- Where every round-end restore can be written, none is lost. -/
theorem restored_rounds_lose_none (scale : Int → Int → Int) (rounds : List Round)
    (written : ∀ r ∈ rounds, r.restoresAtEnd = true) :
    NoneLost false false (serve scale start rounds) := by
  induction rounds generalizing start with
  | nil => trivial
  | cons r rest ih =>
    obtain ⟨last, moves, -, -, restored⟩ := round_moves scale r start
    cases restored (written r (.head _))
    simp only [serve]
    exact (noneLost_clean moves _).mpr (ih fun r' member => written r' (.tail _ member))

end Rounds

/-- **The soft brake gives the limit back, in every run that loses none.**  Over every
sequence of rounds, checks, exceptions and failing writes: each restore writes what
`memory.high` showed before the oldest unrestored engage, no engage raises it, and each
round that ends restored or owing nothing ends on the first limit, exactly if no restore
is written while an engage of an earlier round is unrestored. -/
theorem gives_back_iff (scale : Int → Int → Int) (first : Token) (rounds : List Round) :
    GivesBack first first none (serve scale first rounds) ↔
      NoneLost false false (serve scale first rounds) := by
  induction rounds with
  | nil => exact Iff.rfl
  | cons r rest ih =>
    obtain ⟨last, moves, shows, restored, -⟩ := round_moves scale r first
    simp only [serve]
    refine (givesBack_clean moves _).trans (Iff.trans ?_ (noneLost_clean moves _).symm)
    cases last with
    | none =>
      have back : (finish r (midRound scale r first).brake).memoryHigh = first := shows
      rw [back]
      exact ⟨fun all => ih.mp all.2, fun all => ⟨fun _ => rfl, ih.mpr all⟩⟩
    | some written =>
      have lowers := moves.lowers (fun n none_ => nomatch none_) written rfl
      have under : Under (.bytes written) first := ⟨written, rfl, lowers⟩
      have later := serve_lost scale rest under
      have low : (finish r (midRound scale r first).brake).memoryHigh = .bytes written := shows
      rw [low]
      refine ⟨fun all => later.mp all.2, fun all => ⟨fun ended => ?_, later.mpr all⟩⟩
      obtain written_ | none_ := ended
      · exact absurd (restored written_) nofun
      · cases none_

def everySample : HostHealthConfig where
  pressure := ⟨3, by decide, true, false⟩
  brake := ⟨true, 0, by decide, 1, by decide⟩

/-- A round with one check, which finds pressure and engages. -/
def engaging (memoryCurrent : Int) (restoresAtEnd : Bool) : Round where
  cfg := everySample
  deferToCgroup := false
  armed := true
  ticks := [⟨some ⟨.warning, "psi", "", []⟩, ⟨true, some memoryCurrent, true, none⟩, true,
    fun _ => false⟩]
  restoresAtEnd := restoresAtEnd
  raisesAtEnd := fun _ => false

theorem lowered_limit_stays :
    ¬ GivesBack .max .max none (serve (fun memoryCurrent _ => memoryCurrent) .max
      [engaging 314572800 false, engaging 209715200 true]) := by
  rintro ⟨-, -, -, -, -, restored, -⟩
  cases restored

end AgentRunner.SoftBrake
