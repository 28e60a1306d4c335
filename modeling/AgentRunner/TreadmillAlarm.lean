import AgentRunner.TreadmillRun
import Mathlib.Data.Finset.Card

/-! The gates of `assess_treadmill`, read as questions about the labels of the
rounds: a round that was active under an unmet check is labelled with its
goal-check signature, any other round has no label. -/
namespace AgentRunner.TreadmillAlarm
open PyValue Events Treadmill TreadmillRun Episodes
variable {host : Host} {redact : String → String} {k : ℕ+}

/-- The signature of a round whose values can be read. -/
def sigOf (host : Host) (r : ScriptedRound) : Dict String CheckEntry :=
  match checkSignature host r.own with
  | .ok sig => sig
  | .error _ => .empty

/-- Some check was not satisfied. -/
def Unmet (sig : Dict String CheckEntry) : Prop :=
  ∃ name entry, sig.get? name = some entry ∧ entry.1 = false

open Classical in
/-- The label of a round. -/
noncomputable def stuckLabel (host : Host) (r : ScriptedRound) :
    Option (String → Option CheckEntry) :=
  if RoundActive r ∧ Unmet (sigOf host r) then some (sigOf host r).get? else none

/-- The labels along a list of rounds. -/
noncomputable def labels (host : Host) (rounds : List ScriptedRound) (i : Nat) :
    Option (String → Option CheckEntry) := rounds[i]?.bind (stuckLabel host)

theorem stuckLabel_eq_some {r : ScriptedRound} {sig : Dict String CheckEntry} (unmet : Unmet sig) :
    stuckLabel host r = some sig.get? ↔ RoundActive r ∧ (sigOf host r).Same sig := by
  unfold stuckLabel
  constructor
  · intro same
    split at same
    · rename_i stuck
      exact ⟨stuck.1, fun name => congrFun (Option.some.inj same) name⟩
    · cases same
  · rintro ⟨active, same⟩
    have equal : (sigOf host r).get? = sig.get? := funext same
    have here : Unmet (sigOf host r) := by
      obtain ⟨name, entry, held, open_⟩ := unmet
      exact ⟨name, entry, by rw [equal]; exact held, open_⟩
    rw [if_pos ⟨active, here⟩, equal]

/-- The tagged tail shows each of these rounds as it was scripted. -/
structure Reads (host : Host) (tagged : List (Option Int × Event))
    (rounds : List ScriptedRound) : Prop where
  active : ∀ r ∈ rounds, roundHasActivity (bucketOf tagged r.num) = true ↔ RoundActive r
  signature : ∀ r ∈ rounds, checkSignature host (bucketOf tagged r.num) = .ok (sigOf host r)

theorem Reads.sub {tagged : List (Option Int × Event)} {rounds some_ : List ScriptedRound}
    (reads : Reads host tagged rounds) (subset : some_ ⊆ rounds) : Reads host tagged some_ :=
  ⟨fun r member => reads.active r (subset member),
    fun r member => reads.signature r (subset member)⟩

/-! ## The series of the checks -/

theorem appendSeries_get? (series : Dict String (List CheckEntry)) (sig : Dict String CheckEntry)
    (name : String) : (appendSeries series sig).get? name =
      match sig.get? name with
      | none => series.get? name
      | some entry => some (series.getD name [] ++ [entry]) := by
  suffices ∀ entries : List (String × CheckEntry), (entries.map Prod.fst).Nodup →
      ∀ series : Dict String (List CheckEntry),
      (entries.foldl (fun series entry =>
        series.set entry.1 (series.getD entry.1 [] ++ [entry.2])) series).get? name =
      match Dict.find entries name with
      | none => series.get? name
      | some entry => some (series.getD name [] ++ [entry]) from
    this sig.entries sig.nodup series
  intro entries distinct
  induction entries with
  | nil => exact fun _ => rfl
  | cons entry rest ih =>
    intro series
    obtain ⟨key, value⟩ := entry
    obtain ⟨fresh, tail⟩ := List.nodup_cons.mp distinct
    simp only [List.foldl_cons, ih tail, Dict.find]
    by_cases same : key = name
    · subst same
      simp [Dict.find_absent fresh]
    · simp [same, Ne.symm same, Dict.getD]

/-- Under each name a series collects what the signatures hold there, in order. -/
theorem series_get? (sigs : List (Dict String CheckEntry)) (name : String) :
    (sigs.foldl appendSeries .empty).get? name =
      match sigs.filterMap fun sig => sig.get? name with
      | [] => none
      | entry :: entries => some (entry :: entries) := by
  induction sigs using List.reverseRecOn with
  | nil => rfl
  | append_singleton sigs sig ih =>
    rw [List.foldl_concat, appendSeries_get?, List.filterMap_append, Dict.getD, ih]
    cases held : sig.get? name with
    | none => simp [held]
    | some entry => cases sigs.filterMap fun sig => sig.get? name <;> simp [held]

theorem checkSeries_eq {tagged : List (Option Int × Event)} {rounds : List ScriptedRound}
    (reads : Reads host tagged rounds) : checkSeries host tagged (rounds.map fun r => r.num) =
      .ok ((rounds.map (sigOf host)).foldl appendSeries .empty) := by
  unfold checkSeries
  generalize Dict.empty = start
  induction rounds generalizing start with
  | nil => rfl
  | cons r rest ih =>
    rw [List.map_cons, List.foldlM_cons, reads.signature r List.mem_cons_self]
    exact ih (reads.sub (List.subset_cons_self _ _)) _

/-! ## Gate two -/

private theorem dedup_short (entry : CheckEntry) (entries : List CheckEntry) :
    ¬ 1 < (entry :: entries).dedup.length ↔ ∀ other ∈ entries, other = entry := by
  rw [← List.card_toFinset, not_lt, Finset.card_le_one]
  simp only [List.mem_toFinset, List.mem_cons]
  constructor
  · exact fun equal other member => equal other (.inr member) entry (.inl rfl)
  · intro equal a first b second
    have (c : CheckEntry) (member : c = entry ∨ c ∈ entries) : c = entry :=
      member.elim id (equal c)
    rw [this a first, this b second]

/-- The values a series under `name` collects when every signature has one. -/
private theorem collected {sig : Dict String CheckEntry} {sigs : List (Dict String CheckEntry)}
    (sameNames : ∀ other ∈ sigs, ∀ name, other.get? name ≠ none ↔ sig.get? name ≠ none)
    (name : String) : (sigs.filterMap fun other => other.get? name) =
      match sig.get? name with
      | none => []
      | some entry => sigs.map fun other => (other.get? name).getD entry := by
  cases held : sig.get? name with
  | none =>
    refine List.filterMap_eq_nil_iff.mpr fun other member => ?_
    by_contra present
    exact (sameNames other member name).mp present held
  | some entry =>
    simp only
    rw [← List.filterMap_eq_map]
    refine List.filterMap_congr fun other member => ?_
    obtain ⟨value, here⟩ := Option.ne_none_iff_exists'.mp
      ((sameNames other member name).mpr (by simp [held]))
    simp [here]

variable {sig : Dict String CheckEntry} {sigs : List (Dict String CheckEntry)}

/-- The series over signatures with the same names: one under each name, starting
with the first signature's entry. -/
theorem series_cons (sameNames : ∀ other ∈ sigs, ∀ name,
    other.get? name ≠ none ↔ sig.get? name ≠ none) (name : String) :
    ((sig :: sigs).foldl appendSeries .empty).get? name =
      (sig.get? name).map fun entry =>
        entry :: sigs.map fun other => (other.get? name).getD entry := by
  rw [series_get?, List.filterMap_cons, collected sameNames]
  cases sig.get? name <;> rfl

/-- No series holds two different entries exactly when the signatures agree. -/
theorem no_move_iff (sameNames : ∀ other ∈ sigs, ∀ name,
    other.get? name ≠ none ↔ sig.get? name ≠ none) :
    (((sig :: sigs).foldl appendSeries .empty).values.any fun entries =>
      1 < entries.dedup.length) = false ↔ ∀ other ∈ sigs, other.Same sig := by
  simp only [List.any_eq_false, decide_eq_true_eq, Dict.mem_values, series_cons sameNames]
  constructor
  · intro short other member name
    cases held : sig.get? name with
    | none =>
      by_contra present
      exact (sameNames other member name).mp present held
    | some entry =>
      have equal := (dedup_short entry _).mp (short _ ⟨name, by rw [held]; rfl⟩)
      obtain ⟨value, here⟩ := Option.ne_none_iff_exists'.mp
        ((sameNames other member name).mpr (by simp [held]))
      have := equal value (List.mem_map.mpr ⟨other, member, by simp [here]⟩)
      rw [here, this]
  · rintro same entries ⟨name, held⟩
    obtain ⟨entry, here, rfl⟩ := Option.map_eq_some_iff.mp held
    refine (dedup_short entry _).mpr fun value member => ?_
    obtain ⟨other, inside, rfl⟩ := List.mem_map.mp member
    rw [same other inside name, here]
    rfl

/-- The constant signature is the first one. -/
theorem constant_same (sameNames : ∀ other ∈ sigs, ∀ name,
    other.get? name ≠ none ↔ sig.get? name ≠ none) :
    (((sig :: sigs).foldl appendSeries .empty).mapValues fun entries =>
      entries.headD (false, none)).Same sig := by
  intro name
  rw [Dict.get?_mapValues, series_cons sameNames]
  cases sig.get? name <;> rfl

theorem not_all_satisfied_iff (constant : Dict String CheckEntry) (same : constant.Same sig) :
    constant.values.all Prod.fst = false ↔ Unmet sig := by
  simp only [List.all_eq_false, Dict.mem_values, same _, Unmet, Bool.not_eq_true]
  constructor
  · rintro ⟨entry, ⟨name, held⟩, open_⟩
    exact ⟨name, entry, held, open_⟩
  · rintro ⟨name, entry, held, open_⟩
    exact ⟨entry, ⟨name, held⟩, open_⟩

theorem series_nonempty (d : Dict String CheckEntry) {α : Type} (series : Dict String α)
    (names : ∀ name, series.get? name = none ↔ d.get? name = none) (unmet : Unmet d) :
    series.entries.isEmpty = false := by
  obtain ⟨name, entry, held, -⟩ := unmet
  cases empty : series.entries with
  | cons first rest => rfl
  | nil =>
    have absent : series.get? name = none := by simp [Dict.get?, empty, Dict.find]
    rw [names, held] at absent
    cases absent

/-! ## Gate three -/

theorem labels_eq {rounds : List ScriptedRound} {i : Nat} (inside : i < rounds.length) :
    labels host rounds i = stuckLabel host rounds[i] := by
  simp [labels, inside]

/-- The walk stops at the first round of the stretch of equal labels. The
induction is over the number of earlier rounds, read newest first. -/
theorem walkBack_spec {tagged : List (Option Int × Event)} {rounds : List ScriptedRound}
    (reads : Reads host tagged rounds) {constant sig : Dict String CheckEntry}
    (same : constant.Same sig) (unmet : Unmet sig) (n : Nat) (inside : n < rounds.length) :
    ∃ s, ∃ low : s ≤ n, walkBack host tagged constant
        ((rounds.take n).map fun r => r.num).reverse rounds[n].num =
          .ok rounds[s].num ∧
      (∀ i, s ≤ i → i < n → labels host rounds i = some sig.get?) ∧
      ∀ i, i + 1 = s → labels host rounds i ≠ some sig.get? := by
  induction n with
  | zero =>
    refine ⟨0, le_refl 0, rfl, fun i _ none => absurd none (Nat.not_lt_zero i), ?_⟩
    exact fun i impossible => absurd impossible (Nat.succ_ne_zero i)
  | succ n ih =>
    have here : n < rounds.length := by omega
    have member : rounds[n] ∈ rounds := List.getElem_mem here
    have earlier : ((rounds.take (n + 1)).map fun r => r.num).reverse =
        rounds[n].num :: ((rounds.take n).map fun r => r.num).reverse := by
      rw [List.take_succ_eq_append_getElem here, List.map_append, List.reverse_append]
      rfl
    have matches_ : labels host rounds n = some sig.get? ↔
        roundHasActivity (bucketOf tagged rounds[n].num) = true ∧
          (sigOf host rounds[n]).beq constant = true := by
      rw [labels_eq here, stuckLabel_eq_some unmet, reads.active _ member, Dict.beq_iff_same]
      refine and_congr_right fun _ => forall_congr' fun name => ?_
      rw [same name]
    have stops : labels host rounds n ≠ some sig.get? →
        walkBack host tagged constant ((rounds.take (n + 1)).map fun r => r.num).reverse
          rounds[n + 1].num = .ok rounds[n + 1].num := by
      intro differs
      rw [earlier, walkBack]
      split
      · rfl
      · rename_i active
        have other : ¬ (sigOf host rounds[n]).beq constant = true := fun equal =>
          differs (matches_.mpr ⟨by simpa using active, equal⟩)
        simp only [reads.signature _ member, bind, Except.bind, other]
        rfl
    by_cases continues : labels host rounds n = some sig.get?
    · obtain ⟨active, equal⟩ := matches_.mp continues
      obtain ⟨s, low, walked, stretch, starts⟩ := ih here
      refine ⟨s, by omega, ?_, fun i from_ to_ => ?_, starts⟩
      · rw [earlier, walkBack, if_neg (by simp [active])]
        simp only [reads.signature _ member, bind, Except.bind, equal, if_true]
        exact walked
      · rcases Nat.lt_succ_iff_lt_or_eq.mp to_ with before | rfl
        · exact stretch i from_ before
        · exact continues
    · refine ⟨n + 1, le_refl _, stops continues, fun i from_ to_ => by omega, ?_⟩
      rintro i same_
      rwa [Nat.succ.inj same_]

/-! ## The fired marker -/

theorem block_fired (p : Played) (begins : isKind p.1.before roundSubstrateBefore = true)
    (own : ∀ ev ∈ p.1.own, isKind ev goalAssessment = false) :
    (blockOf redact p).any (fun ev => isKind ev goalAssessment) = p.2.isSome := by
  have quiet : p.1.own.any (fun ev => isKind ev goalAssessment) = false := by
    simpa using own
  have before : isKind p.1.before goalAssessment = false := isKind_unique begins (by decide)
  obtain ⟨r, advisory⟩ := p
  cases advisory with
  | none => simp only [blockOf, Option.map_none, Option.toList_none, List.nil_append,
      List.any_cons, before, quiet]; rfl
  | some advisory => simp [blockOf, before, isKind_assessment]

/-- Dropping up to the first event of round `s` drops the blocks before it. -/
theorem dropWhile_tagged {played : List Played}
    (increasing : played.Pairwise fun p q => p.1.num < q.1.num)
    (tail : List (Option Int × Event)) {s : Nat} (inside : s < played.length) :
    (taggedOf redact played ++ tail).dropWhile (fun entry => entry.1 ≠ some played[s].1.num) =
      taggedOf redact (played.drop s) ++ tail := by
  induction played generalizing s with
  | nil => exact absurd inside (Nat.not_lt_zero s)
  | cons p rest ih =>
    obtain ⟨above, later⟩ := List.pairwise_cons.mp increasing
    cases s with
    | zero =>
      rw [taggedOf, List.flatMap_cons, List.append_assoc, blockOf, List.map_cons, List.cons_append,
        List.dropWhile_cons_of_neg (by simp)]
      simp [taggedOf, blockOf]
    | succ s =>
      have shorter : s < rest.length := by simpa using inside
      have other := above rest[s] (List.getElem_mem shorter)
      have skipped : ∀ entry ∈ (blockOf redact p).map (fun ev => (some p.1.num, ev)),
          decide (entry.1 ≠ some rest[s].1.num) = true := by
        intro entry member
        obtain ⟨ev, -, rfl⟩ := List.mem_map.mp member
        simpa using other.ne
      rw [taggedOf, List.flatMap_cons, List.append_assoc, List.getElem_cons_succ,
        List.dropWhile_append_of_pos skipped, List.drop_succ_cons]
      exact ih later shorter

/-- From the first event of round `s` on, the tail holds an assessment exactly if
one of the rounds from `s` on has one. -/
theorem alreadyFired_iff {played : List Played}
    (increasing : played.Pairwise fun p q => p.1.num < q.1.num)
    (begins : ∀ p ∈ played, isKind p.1.before roundSubstrateBefore = true)
    (own : ∀ p ∈ played, ∀ ev ∈ p.1.own, isKind ev goalAssessment = false)
    {num : Int} {before : Event} (opens : isKind before roundSubstrateBefore = true)
    {s : Nat} (inside : s < played.length) :
    alreadyFired (taggedOf redact played ++ [(some num, before)]) played[s].1.num = false ↔
      ∀ i, s ≤ i → played[i]?.bind Prod.snd = none := by
  have block : ∀ p ∈ played.drop s, ((blockOf redact p).map fun ev => (some p.1.num, ev)).any
      (fun entry => isKind entry.2 goalAssessment) = p.2.isSome := by
    intro p member
    have here := List.mem_of_mem_drop member
    rw [List.any_map]
    exact block_fired p (begins p here) (own p here)
  have quiet : isKind before goalAssessment = false := isKind_unique opens (by decide)
  rw [alreadyFired, dropWhile_tagged increasing _ inside, taggedOf, List.any_append,
    List.any_flatMap]
  simp only [List.any_cons, quiet, List.any_nil, Bool.or_false, List.any_eq_false]
  constructor
  · intro silent i from_
    cases found : played[i]? with
    | none => rfl
    | some p =>
      have member : p ∈ played.drop s := by
        refine List.mem_iff_getElem?.mpr ⟨i - s, ?_⟩
        rw [List.getElem?_drop, show s + (i - s) = i by omega, found]
      have := silent p member
      rw [block p member] at this
      simpa using this
  · intro silent p member
    rw [block p member]
    obtain ⟨j, found⟩ := List.mem_iff_getElem?.mp member
    rw [List.getElem?_drop] at found
    have := silent (s + j) (by omega)
    rw [found] at this
    simpa using this

end AgentRunner.TreadmillAlarm
