import AgentRunner.TreadmillAlarm

/-! The assessor over a whole serve run is an edge-triggered alarm, so it raises
one advisory per stuck episode unless two episodes stand back to back and the
first is just as long as the window. -/
namespace AgentRunner.TreadmillLaw
open PyValue Events Treadmill TreadmillRun TreadmillAlarm Episodes
variable {host : Host} {files : Files} {redact : String → String} {k : ℕ+}

/-- Played rounds, all below the number of the round about to start, that keep
what their script promises. -/
structure Ready (host : Host) (played : List Played) (num : Int) : Prop where
  wellNumbered : ∀ p ∈ played, WellNumbered p.1
  begins : ∀ p ∈ played, isKind p.1.before roundSubstrateBefore = true
  noAssessment : ∀ p ∈ played, ∀ ev ∈ p.1.own, isKind ev goalAssessment = false
  readable : ∀ p ∈ played, Returns (checkSignature host p.1.own)
  sameChecks : ∀ p ∈ played, ∀ q ∈ played, ∀ name,
    name ∈ checkedNames p.1.own ↔ name ∈ checkedNames q.1.own
  increasing : played.Pairwise fun p q => p.1.num < q.1.num
  later : ∀ p ∈ played, p.1.num < num

namespace Ready
variable {played : List Played} {num : Int}

theorem signature (ready : Ready host played num) {p : Played} (member : p ∈ played) :
    checkSignature host p.1.own = .ok (sigOf host p.1) := by
  obtain ⟨sig, computed⟩ := ready.readable p member
  simp [sigOf, computed]

variable (redact) in
theorem reads (ready : Ready host played num) (before : Event) :
    Reads host (taggedOf redact played ++ [(some num, before)]) (played.map Prod.fst) := by
  constructor
  · intro r member
    obtain ⟨p, inside, rfl⟩ := List.mem_map.mp member
    rw [bucketOf_played ready.increasing inside (ready.later p inside)]
    exact activity_block p
  · intro r member
    obtain ⟨p, inside, rfl⟩ := List.mem_map.mp member
    rw [bucketOf_played ready.increasing inside (ready.later p inside),
      signature_block p (ready.begins p inside), ready.signature inside]

/-- Every round's signature has the same names. -/
theorem names (ready : Ready host played num) {p q : Played} (first : p ∈ played)
    (second : q ∈ played) (name : String) :
    (sigOf host p.1).get? name ≠ none ↔ (sigOf host q.1).get? name ≠ none := by
  rw [signature_names (ready.signature first), signature_names (ready.signature second)]
  exact ready.sameChecks p first q second name

end Ready

/-- A window is a run of one label when all of its rounds were active, none of
their signatures differs from the first, and that one is unmet. -/
theorem run_window_iff (host : Host) {rounds : List ScriptedRound} {a b : Nat} (order : a ≤ b)
    (inside : b < rounds.length) :
    Run (labels host rounds) a b ↔
      (∀ i, ∀ _ : a ≤ i, ∀ _ : i ≤ b, RoundActive rounds[i] ∧
        (sigOf host rounds[i]).Same (sigOf host rounds[a])) ∧
      Unmet (sigOf host rounds[a]) := by
  have at_ : ∀ i, ∀ _ : i ≤ b, labels host rounds i = stuckLabel host rounds[i] :=
    fun i high => labels_eq (by omega)
  constructor
  · rintro ⟨-, labelled, same⟩
    have first : stuckLabel host rounds[a] = some (sigOf host rounds[a]).get? ∧
        Unmet (sigOf host rounds[a]) := by
      rw [at_ a order] at labelled
      unfold stuckLabel at labelled ⊢
      split
      · rename_i stuck
        exact ⟨rfl, stuck.2⟩
      · rename_i free
        rw [if_neg free] at labelled
        exact absurd rfl labelled
    refine ⟨fun i low high => (stuckLabel_eq_some first.2).mp ?_, first.2⟩
    rw [← at_ i high, same i low high, at_ a order, first.1]
  · rintro ⟨shown, unmet⟩
    have label : ∀ i, a ≤ i → i ≤ b → labels host rounds i = some (sigOf host rounds[a]).get? := by
      intro i low high
      rw [at_ i high]
      exact (stuckLabel_eq_some unmet).mpr (shown i low high)
    refine ⟨order, by simp [label a (le_refl a) order], fun i low high => ?_⟩
    rw [label i low high, label a (le_refl a) order]

private theorem forall_drop {α : Type} {xs : List α} {a : Nat} {P : α → Prop} :
    (∀ x ∈ xs.drop a, P x) ↔ ∀ i, a ≤ i → ∀ h : i < xs.length, P xs[i] := by
  constructor
  · intro all i low h
    refine all _ (List.mem_iff_getElem?.mpr ⟨i - a, ?_⟩)
    rw [List.getElem?_drop, show a + (i - a) = i by omega, List.getElem?_eq_getElem h]
  · intro all x member
    obtain ⟨j, found⟩ := List.mem_iff_getElem?.mp member
    rw [List.getElem?_drop] at found
    obtain ⟨h, rfl⟩ := List.getElem?_eq_some_iff.mp found
    exact all (a + j) (by omega) h

/-- A stretch that starts where the label of a window first appears is where the
runs ending with the window start. -/
private theorem runs_from {σ : Type} {label : Nat → Option σ} {value : σ} {s a b : Nat}
    (low : s ≤ a) (order : a ≤ b) (window : Run label a b) (here : label a = some value)
    (stretch : ∀ i, s ≤ i → i < a → label i = some value)
    (starts : ∀ i, i + 1 = s → label i ≠ some value) (i : Nat) :
    i ≤ b ∧ Run label i b ↔ s ≤ i ∧ i ≤ b := by
  have all : ∀ j, s ≤ j → j ≤ b → label j = some value := by
    intro j first last
    by_cases before : j < a
    · exact stretch j first before
    · rw [window.2.2 j (by omega) last, here]
  constructor
  · rintro ⟨last, run⟩
    refine ⟨?_, last⟩
    by_contra earlier
    refine starts (s - 1) (by omega) ?_
    rw [run.2.2 (s - 1) (by omega) (by omega), ← run.2.2 b last (le_refl b),
      all b (by omega) (le_refl b)]
  · rintro ⟨first, last⟩
    refine ⟨last, last, by simp [all i first last], fun j low' high => ?_⟩
    rw [all j (by omega) high, all i first last]

/-- The runs that end at a place start at one place only. -/
private theorem start_unique {σ : Type} {label : Nat → Option σ} {s s' a b : Nat} (low : s ≤ a)
    (low' : s' ≤ a) (order : a ≤ b) (runsFrom : ∀ i, i ≤ b ∧ Run label i b ↔ s ≤ i ∧ i ≤ b)
    (runsFrom' : ∀ i, i ≤ b ∧ Run label i b ↔ s' ≤ i ∧ i ≤ b) : s' = s := by
  have up := ((runsFrom' s).mp ((runsFrom s).mpr ⟨le_refl s, low.trans order⟩)).1
  have down := ((runsFrom s').mp ((runsFrom' s').mpr ⟨le_refl s', low'.trans order⟩)).1
  exact le_antisymm up down

/-- A window up to the last round is a run when its rounds were active and the later
signatures are the first, which is unmet. -/
theorem run_to_last_iff (host : Host) {rounds : List ScriptedRound} {a b : Nat}
    (inside : a < rounds.length) (last : b + 1 = rounds.length) :
    Run (labels host rounds) a b ↔
      (∀ i, a ≤ i → ∀ h : i < rounds.length, RoundActive rounds[i]) ∧
      (∀ other ∈ (rounds.drop (a + 1)).map (sigOf host), other.Same (sigOf host rounds[a])) ∧
      Unmet (sigOf host rounds[a]) := by
  have window : rounds.drop a = rounds[a] :: rounds.drop (a + 1) :=
    List.drop_eq_getElem_cons inside
  rw [run_window_iff host (by omega : a ≤ b) (by omega : b < rounds.length)]
  constructor
  · rintro ⟨shown, unmet⟩
    refine ⟨fun i low h => (shown i low (by omega)).1, fun other member => ?_, unmet⟩
    obtain ⟨r, later, rfl⟩ := List.mem_map.mp member
    have same : ∀ r ∈ rounds.drop a, (sigOf host r).Same (sigOf host rounds[a]) :=
      forall_drop.mpr fun i low h => (shown i low (by omega)).2
    exact same r (window ▸ .tail _ later)
  · rintro ⟨active, same, unmet⟩
    have all : ∀ r ∈ rounds.drop a, (sigOf host r).Same (sigOf host rounds[a]) := by
      rw [window]
      exact List.forall_mem_cons.mpr
        ⟨fun _ => rfl, fun r later => same _ (List.mem_map_of_mem later)⟩
    exact ⟨fun i low _ => ⟨active i low (by omega), forall_drop.mp all i low (by omega)⟩, unmet⟩

/-- The activity gate passes a window when each of its rounds was active. -/
theorem active_window_iff {tagged : List (Option Int × Event)} {rounds : List ScriptedRound}
    (reads : Reads host tagged rounds) {a : Nat} (inside : a < rounds.length) :
    ((rounds[a].num :: (rounds.drop (a + 1)).map fun r => r.num).all fun rn =>
      roundHasActivity (bucketOf tagged rn)) = true ↔
        ∀ i, a ≤ i → ∀ h : i < rounds.length, RoundActive rounds[i] := by
  have window : rounds.drop a = rounds[a] :: rounds.drop (a + 1) :=
    List.drop_eq_getElem_cons inside
  rw [← List.map_cons (f := fun r : ScriptedRound => r.num), ← window, List.all_map,
    List.all_eq_true, ← forall_drop (P := RoundActive)]
  exact forall₂_congr fun r member => reads.active r (List.mem_of_mem_drop member)

/-- The series of a window are those of its signatures. -/
theorem window_series {tagged : List (Option Int × Event)} {rounds : List ScriptedRound}
    (reads : Reads host tagged rounds) {a : Nat} (inside : a < rounds.length) :
    checkSeries host tagged (rounds[a].num :: (rounds.drop (a + 1)).map fun r => r.num) =
      .ok ((sigOf host rounds[a] :: (rounds.drop (a + 1)).map (sigOf host)).foldl
        appendSeries .empty) := by
  have series := checkSeries_eq (reads.sub (List.drop_subset a rounds))
  rwa [List.drop_eq_getElem_cons inside, List.map_cons, List.map_cons] at series

/-- The three gates over the window that starts at round `a`: an advisory comes
out exactly when the window lies in a run of one label and no assessment has
appeared since that run began. -/
theorem assessWindow_spec {tagged : List (Option Int × Event)} {rounds : List ScriptedRound}
    (reads : Reads host tagged rounds)
    (names : ∀ r ∈ rounds, ∀ r' ∈ rounds, ∀ name,
      (sigOf host r).get? name ≠ none ↔ (sigOf host r').get? name ≠ none)
    {a b : Nat} (inside : a < rounds.length) (last : b + 1 = rounds.length) :
    ∃ advisory, assessWindow host tagged k ((rounds.take a).map fun r => r.num) rounds[a].num
        ((rounds.drop (a + 1)).map fun r => r.num) = .ok advisory ∧
      (advisory.isSome = true ↔ ∃ s, ∃ low : s ≤ a,
        (∀ i, i ≤ b ∧ Run (labels host rounds) i b ↔ s ≤ i ∧ i ≤ b) ∧
        alreadyFired tagged rounds[s].num = false) := by
  have before : a ≤ b := by omega
  have run_iff := run_to_last_iff host inside last
  have silent (closed : ¬ Run (labels host rounds) a b) :
      ((none : Option Advisory).isSome = true ↔ ∃ s, ∃ low : s ≤ a,
        (∀ i, i ≤ b ∧ Run (labels host rounds) i b ↔ s ≤ i ∧ i ≤ b) ∧
        alreadyFired tagged rounds[s].num = false) := by
    refine iff_of_false (by simp) ?_
    rintro ⟨s, low, runsFrom, -⟩
    exact closed ((runsFrom a).mpr ⟨low, before⟩).2
  have sameNames : ∀ other ∈ (rounds.drop (a + 1)).map (sigOf host), ∀ name,
      other.get? name ≠ none ↔ (sigOf host rounds[a]).get? name ≠ none := by
    intro other member
    obtain ⟨r, later, rfl⟩ := List.mem_map.mp member
    exact names r (List.mem_of_mem_drop later) _ (List.getElem_mem inside)
  have moved := no_move_iff sameNames
  have met := not_all_satisfied_iff _ (constant_same sameNames)
  have actives := active_window_iff reads inside
  unfold assessWindow
  by_cases active : ∀ i, a ≤ i → ∀ h : i < rounds.length, RoundActive rounds[i]
  · have gate := actives.mpr active
    simp only [gate, Bool.true_eq_false, if_false, window_series reads inside, bind, Except.bind]
    by_cases stuck : (∀ other ∈ (rounds.drop (a + 1)).map (sigOf host),
        other.Same (sigOf host rounds[a])) ∧ Unmet (sigOf host rounds[a])
    · obtain ⟨same, unmet⟩ := stuck
      have run : Run (labels host rounds) a b := run_iff.mpr ⟨active, same, unmet⟩
      have some_ : (((sigOf host rounds[a] :: (rounds.drop (a + 1)).map (sigOf host)).foldl
          appendSeries .empty).entries.isEmpty) = false := by
        refine series_nonempty (sigOf host rounds[a]) _ (fun name => ?_) unmet
        rw [series_cons sameNames, Option.map_eq_none_iff]
      obtain ⟨s, low, walked, stretch, starts⟩ :=
        walkBack_spec reads (constant_same sameNames) unmet a inside
      have here : labels host rounds a = some (sigOf host rounds[a]).get? := by
        rw [labels_eq inside, stuckLabel_eq_some unmet]
        exact ⟨active a (le_refl a) inside, fun _ => rfl⟩
      have runsFrom := runs_from low before run here stretch starts
      simp only [some_, moved.mpr same, met.mpr unmet, Bool.false_eq_true, if_false, walked]
      cases fired : alreadyFired tagged rounds[s].num with
      | true =>
        refine ⟨none, rfl, iff_of_false (by simp) ?_⟩
        rintro ⟨s', low', runsFrom', quiet⟩
        cases start_unique low low' before runsFrom runsFrom'
        rw [fired] at quiet
        cases quiet
      | false => exact ⟨some _, rfl, iff_of_true rfl ⟨s, low, runsFrom, fired⟩⟩
    · refine ⟨none, ?_, silent fun run => stuck (run_iff.mp run).2⟩
      split
      · rfl
      · split
        · rfl
        · rename_i still
          split
          · rfl
          · rename_i open_
            rw [Bool.not_eq_true] at still open_
            exact absurd ⟨moved.mp still, met.mp open_⟩ stuck
  · have gate := mt actives.mp active
    rw [Bool.not_eq_true] at gate
    exact ⟨none, by simp only [gate, if_true]; rfl, silent fun run => active (run_iff.mp run).1⟩

variable (files redact k) in
/-- **What one assessment decides.**  It returns; and it returns an advisory
exactly when the last `k` rounds are a run of one label and none of the rounds
since that run began raised one. -/
theorem assess_spec {played : List Played} {num : Int} {before : Event}
    (ready : Ready host played num) (opens : isKind before roundSubstrateBefore = true)
    (numbered : roundNumOf before = some num) :
    ∃ advisory, assessTreadmill host (files.spread (streamOf redact played ++ [before])) num k =
        .ok advisory ∧
      (advisory.isSome = true ↔ (k : Nat) ≤ played.length ∧
        Run (labels host (played.map Prod.fst)) (played.length - k) (played.length - 1) ∧
        ∀ i < played.length, Run (labels host (played.map Prod.fst)) i (played.length - 1) →
          ¬ (played[i]?.bind Prod.snd).isSome = true) := by
  have reads := ready.reads redact before
  have nums : completedRounds (taggedOf redact played ++ [(some num, before)]) num =
      (played.map Prod.fst).map fun r => r.num := by
    rw [completedRounds_played ready.increasing ready.later, List.map_map]
    rfl
  have size : (played.map Prod.fst).length = played.length := List.length_map _
  have positive := k.pos
  unfold assessTreadmill
  rw [files.whole, tag_stream ready.wellNumbered numbered]
  simp only [nums, List.length_map]
  by_cases short : played.length < k
  · rw [if_pos short]
    exact ⟨none, rfl, iff_of_false (by simp) (by omega)⟩
  have inside : played.length - k < (played.map Prod.fst).length := by omega
  rw [if_neg short, ← List.map_drop, List.drop_eq_getElem_cons inside, List.map_cons,
    ← List.map_take]
  have names : ∀ r ∈ played.map Prod.fst, ∀ r' ∈ played.map Prod.fst, ∀ name,
      (sigOf host r).get? name ≠ none ↔ (sigOf host r').get? name ≠ none := by
    intro r member r' member'
    obtain ⟨p, first, rfl⟩ := List.mem_map.mp member
    obtain ⟨q, second, rfl⟩ := List.mem_map.mp member'
    exact ready.names first second
  obtain ⟨advisory, assessed, decides⟩ := assessWindow_spec (k := k) reads names
    (b := played.length - 1) inside (by omega)
  refine ⟨advisory, assessed, decides.trans ?_⟩
  constructor
  · rintro ⟨s, low, runsFrom, quiet⟩
    refine ⟨by omega, ((runsFrom _).mpr ⟨low, by omega⟩).2, fun i below run => ?_⟩
    have from_ := ((runsFrom i).mp ⟨by omega, run⟩).1
    rw [List.getElem_map] at quiet
    have silent := (alreadyFired_iff ready.increasing ready.begins ready.noAssessment opens
      (show s < played.length by omega)).mp quiet i from_
    simp [silent]
  · rintro ⟨enough, run, silent⟩
    obtain ⟨s, low, runsFrom⟩ := run.exists_start
    refine ⟨s, low, runsFrom, ?_⟩
    rw [List.getElem_map]
    refine (alreadyFired_iff ready.increasing ready.begins ready.noAssessment opens
      (show s < played.length by omega)).mpr fun i from_ => ?_
    by_cases below : i < played.length
    · simpa using silent i below ((runsFrom i).mpr ⟨from_, by omega⟩).2
    · simp [List.getElem?_eq_none (not_lt.mp below)]

/-! ## The whole run -/

/-- The assessment before the `j`-th round raised an advisory. -/
def Raised (played : List Played) (j : Nat) : Prop := (played[j]?.bind Prod.snd).isSome = true

theorem raised_append {played : List Played} (p : Played) {j : Nat} (inside : j < played.length) :
    Raised (played ++ [p]) j ↔ Raised played j := by
  rw [Raised, Raised, List.getElem?_append_left inside]

theorem raised_last (played : List Played) (p : Played) :
    Raised (played ++ [p]) played.length ↔ p.2.isSome = true := by
  simp [Raised]

/-- A run among the first rounds of a script is a run of the whole script. -/
theorem run_prefix {first rest : List ScriptedRound} {a b : Nat} (inside : b < first.length) :
    Run (labels host first) a b ↔ Run (labels host (first ++ rest)) a b := by
  have same : ∀ i, i ≤ b → labels host (first ++ rest) i = labels host first i := fun i low => by
    rw [labels, labels, List.getElem?_append_left (by omega)]
  unfold Run
  refine and_congr_right fun order => ?_
  rw [same a order]
  refine and_congr_right fun _ => forall_congr' fun i => forall₂_congr fun _ high => ?_
  rw [same i high]

theorem ready_of_script (script : Script host) {played : List Played} {r : ScriptedRound}
    {rest : List ScriptedRound} (order : played.map Prod.fst ++ r :: rest = script.rounds) :
    Ready host played r.num := by
  have scripted : ∀ p ∈ played, p.1 ∈ script.rounds := by
    intro p member
    rw [← order]
    exact List.mem_append_left _ (List.mem_map_of_mem member)
  have increasing := script.increasing
  rw [← order, List.pairwise_append] at increasing
  obtain ⟨before, -, across⟩ := increasing
  refine ⟨fun p member => ⟨(script.begins _ (scripted p member)).2,
    script.numbered _ (scripted p member)⟩, fun p member => (script.begins _ (scripted p member)).1,
    fun p member => script.noAssessment _ (scripted p member),
    fun p member => script.readable _ (scripted p member),
    fun p first q second => script.sameChecks _ (scripted p first) _ (scripted q second),
    (List.pairwise_map (f := Prod.fst)).mp before, fun p member => ?_⟩
  exact across p.1 (List.mem_map_of_mem member) r List.mem_cons_self

/-- The rounds played so far ring by the alarm's law. -/
def Lawful (script : Script host) (k : ℕ+) (played : List Played) : Prop :=
  ∀ j < played.length, Raised played j ↔ (k : Nat) ≤ j ∧
    Run (labels host script.rounds) (j - k) (j - 1) ∧
    ∀ i < j, Run (labels host script.rounds) i (j - 1) → ¬ Raised played i

variable (files redact k) in
theorem playRound_lawful (script : Script host) {played : List Played} {r : ScriptedRound}
    {rest : List ScriptedRound} (order : played.map Prod.fst ++ r :: rest = script.rounds)
    (lawful : Lawful script k played) :
    ∃ advisory, playRound host files redact k played r = .ok (played ++ [(r, advisory)]) ∧
      Lawful script k (played ++ [(r, advisory)]) := by
  have member : r ∈ script.rounds := by simp [← order]
  obtain ⟨opens, numbered⟩ := script.begins r member
  obtain ⟨advisory, assessed, decides⟩ := assess_spec files redact k
    (ready_of_script script order) opens numbered
  have size : (played.map Prod.fst).length = played.length := List.length_map _
  have positive := k.pos
  refine ⟨advisory, by simp [playRound, assessed, bind, Except.bind, pure, Except.pure], ?_⟩
  intro j inside
  rw [List.length_append, List.length_singleton, Nat.lt_succ_iff_lt_or_eq] at inside
  have quiet : ∀ m, m ≤ played.length →
      ((∀ i < m, Run (labels host script.rounds) i (m - 1) →
        ¬ Raised (played ++ [(r, advisory)]) i) ↔
      ∀ i < m, Run (labels host script.rounds) i (m - 1) → ¬ Raised played i) := by
    intro m low
    refine forall₃_congr fun i below _ => ?_
    rw [raised_append _ (by omega)]
  rcases inside with earlier | rfl
  · rw [raised_append _ earlier, quiet j (by omega)]
    exact lawful j earlier
  · rw [raised_last, quiet _ (le_refl _), decides, ← order]
    by_cases enough : (k : Nat) ≤ played.length
    · have first : ∀ a, Run (labels host (played.map Prod.fst)) a (played.length - 1) ↔
          Run (labels host (played.map Prod.fst ++ r :: rest)) a (played.length - 1) :=
        fun a => run_prefix (by omega)
      simp only [first, Raised]
    · simp [enough]

variable (files redact k) in
/-- Every round of the script is played, and the advisories ring by the alarm's law. -/
theorem play_alarm (script : Script host) :
    ∃ played, play host files redact k script.rounds = .ok played ∧
      played.map Prod.fst = script.rounds ∧
      Alarm (labels host script.rounds) k script.rounds.length (Raised played) := by
  suffices ∀ rest played, played.map Prod.fst ++ rest = script.rounds → Lawful script k played →
      ∃ final, rest.foldlM (playRound host files redact k) played = .ok final ∧
        final.map Prod.fst = script.rounds ∧ Lawful script k final by
    obtain ⟨final, ran, rounds, lawful⟩ := this script.rounds [] rfl (by simp [Lawful])
    have size : final.length = script.rounds.length := by rw [← rounds, List.length_map]
    refine ⟨final, ran, rounds, k.pos, fun i outside => ?_, size ▸ lawful⟩
    simp [labels, List.getElem?_eq_none outside]
  intro rest
  induction rest with
  | nil => exact fun played order lawful => ⟨played, rfl, by simpa using order, lawful⟩
  | cons r rest ih =>
    intro played order lawful
    obtain ⟨advisory, ran, lawful⟩ := playRound_lawful files redact k script order lawful
    obtain ⟨final, rest_, done⟩ := ih (played ++ [(r, advisory)]) (by simp [← order]) lawful
    exact ⟨final, by rw [List.foldlM_cons, ran]; exact rest_, done⟩

/-- **One advisory per stuck episode.**  Over any script, the whole run is played,
and the advisories come exactly once per maximal stuck run of at least `k` rounds,
right after its first `k`, and nowhere else, if and only if no stuck run of just
`k` rounds stands directly before another one that is assessed in full. -/
theorem once_per_episode_iff (script : Script host) (files : Files) (redact : String → String)
    (k : ℕ+) : ∃ played, play host files redact k script.rounds = .ok played ∧
      played.map Prod.fst = script.rounds ∧
      (OncePerEpisode (labels host script.rounds) k script.rounds.length (Raised played) ↔
        ¬ BackToBack (labels host script.rounds) k script.rounds.length) := by
  obtain ⟨played, ran, rounds, alarm⟩ := play_alarm files redact k script
  exact ⟨played, ran, rounds, alarm.once_iff⟩

/-! ## Two episodes back to back -/

/-- A round that dirtied the tree while its one check stayed unsatisfied at `value`. -/
def stuckRound (num : Int) (value : ℚ) : ScriptedRound where
  num := num
  before := [("event", .str roundSubstrateBefore), ("round_num", .int num)]
  own := [[("event", .str dirtyDetected), ("round_num", .int num)],
    [("event", .str goalCheck), ("name", .str "tests"), ("satisfied", .bool false),
      ("value", .float (.finite value)), ("skipped", .bool false)]]

theorem stuckRound_signature (num : Int) (value : ℚ) :
    checkSignature host (stuckRound num value).own =
      .ok (Dict.empty.set "tests" (false, some (.finite value))) := rfl

theorem stuckRound_label (num : Int) (value : ℚ) : stuckLabel host (stuckRound num value) =
    some (Dict.empty.set "tests" (false, some (.finite value))).get? := by
  have sig : sigOf host (stuckRound num value) =
      Dict.empty.set "tests" (false, some (.finite value)) := by
    rw [sigOf, stuckRound_signature]
  have unmet : Unmet (Dict.empty.set "tests" (false, some (.finite value))) :=
    ⟨"tests", _, rfl, rfl⟩
  exact (stuckLabel_eq_some unmet).mpr ⟨rfl, fun _ => by rw [sig]⟩

/-- Three rounds stuck at one value, then four at another. -/
def movedOnce (host : Host) : Script host where
  rounds := [(1, 1), (2, 1), (3, 1), (4, 2), (5, 2), (6, 2), (7, 2)].map fun p =>
    stuckRound p.1 p.2
  increasing := by decide
  begins := List.forall_mem_map.mpr fun _ _ => ⟨rfl, rfl⟩
  numbered := List.forall_mem_map.mpr fun _ _ =>
    List.forall_mem_cons.mpr ⟨.inr rfl, List.forall_mem_singleton.mpr (.inl rfl)⟩
  noAssessment := List.forall_mem_map.mpr fun _ _ =>
    List.forall_mem_cons.mpr ⟨rfl, List.forall_mem_singleton.mpr rfl⟩
  readable := List.forall_mem_map.mpr fun p _ => ⟨_, stuckRound_signature p.1 p.2⟩
  sameChecks := List.forall_mem_map.mpr fun _ _ => List.forall_mem_map.mpr fun _ _ _ => Iff.rfl

/-- The value the check stays at is the label of the round. -/
theorem movedOnce_labels (host : Host) (i : Nat) :
    labels host (movedOnce host).rounds i = if i < 3 then
        some (Dict.empty.set "tests" (false, some (.finite 1))).get?
      else if i < 7 then some (Dict.empty.set "tests" (false, some (.finite 2))).get?
      else none := by
  simp only [labels, movedOnce, List.getElem?_map, Option.bind_map]
  change Option.bind _ (fun p : Int × ℚ => stuckLabel host (stuckRound p.1 p.2)) = _
  simp only [stuckRound_label]
  rcases i with _ | _ | _ | _ | _ | _ | _ | i
  iterate 7 · rfl
  rw [if_neg (by omega), if_neg (by omega)]
  simp

theorem movedOnce_backToBack (host : Host) :
    BackToBack (labels host (movedOnce host).rounds) 3 (movedOnce host).rounds.length := by
  have label := movedOnce_labels host
  have moved : (Dict.empty.set "tests" (false, some (.finite 1)) : Dict String CheckEntry).get? ≠
      (Dict.empty.set "tests" (false, some (.finite 2))).get? := by
    intro same
    have := congrFun same "tests"
    simp at this
  refine ⟨0, 6, ⟨⟨by omega, by simp [label], fun i _ high => ?_⟩, fun i low => by omega, ?_⟩,
    ⟨⟨by omega, by simp [label], fun i low high => ?_⟩, ?_, ?_⟩, by omega, ?_⟩
  · simp only [label, show i < 3 by omega, show 0 < 3 by omega, if_true]
  · rintro i beyond ⟨-, -, same⟩
    have := same 3 (by omega) (by omega)
    simp only [label, lt_irrefl, if_false, show (3 : Nat) < 7 by omega, show 0 < 3 by omega,
      if_true, Option.some.injEq] at this
    exact moved this.symm
  · simp only [label, show ¬ i < 3 by omega, show i < 7 by omega, if_true, if_false]
    rfl
  · rintro i low ⟨-, -, same⟩
    have := same 3 (by omega) (by omega)
    simp only [label, lt_irrefl, if_false, show (3 : Nat) < 7 by omega, show i < 3 by omega,
      if_true, Option.some.injEq] at this
    exact moved this.symm
  · rintro i beyond ⟨-, -, same⟩
    have := same i (by omega) (le_refl i)
    simp [label, show ¬ i < 3 by omega, show ¬ i < 7 by omega] at this
  · simp [movedOnce]

/-- With the default window of three, the second of these episodes gets no
advisory: the first one's, raised in the round the check moved, stands at its start. -/
theorem second_episode_silenced : ∃ script : ∀ host, Script host, ∀ host files redact,
    ¬ ∃ played, play host files redact 3 (script host).rounds = .ok played ∧
      OncePerEpisode (labels host (script host).rounds) 3 (script host).rounds.length
        (Raised played) := by
  refine ⟨movedOnce, fun host files redact => ?_⟩
  rintro ⟨played, ran, once⟩
  obtain ⟨played', ran', -, alarm⟩ := play_alarm files redact 3 (movedOnce host)
  cases ran.symm.trans ran'
  exact alarm.once_iff.mp once (movedOnce_backToBack host)

end AgentRunner.TreadmillLaw
