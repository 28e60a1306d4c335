import AgentRunner.Redaction

/-! What the persisted excerpts tell of the secrets that redaction masks: nothing while the
text is no longer than the cut, and for every longer text the rest of a secret it splits. -/
namespace AgentRunner.Redaction
open Backtracking TextLines

variable {word : Char → Bool}

/-- Some character every pattern but the prefixes needs. -/
def separator (c : Char) : Bool := isSpace c || "=:.".toList.contains c

/-- The characters a prefix can begin with. -/
def prefixStart (c : Char) : Bool := "sgxAyrpnh".toList.contains c

theorem demands_sequence {p : Char → Bool} {parts : List Regex} {part : Regex}
    (member : part ∈ parts) (demands : Demands p part) : Demands p (sequence parts) := by
  unfold sequence
  induction parts with
  | nil => cases member
  | cons first rest ih =>
    rw [List.foldr_cons]
    obtain rfl | later := List.mem_cons.mp member
    · exact demands_first demands
    · exact demands_second (ih later)

theorem separator_of_isSpace (c : Char) (space : isSpace c = true) : separator c = true := by
  simp [separator, space]

theorem pemRe_demands : Demands separator pemRe :=
  demands_sequence (.head _) (demands_literal (c := ' ') (by decide) (by decide))

theorem envRe_demands : Demands separator envRe :=
  demands_sequence (.tail _ (.head _)) (demands_literal (c := '=') (by decide) (by decide))

theorem blank_or_equals_demands :
    Demands separator (.alt (some1 isSpace) (literal "=")) :=
  demands_alt (demands_many separator_of_isSpace)
    (demands_literal (c := '=') (by decide) (by decide))

theorem flagRe_demands : Demands separator flagRe :=
  demands_sequence (.tail _ (.head _)) (demands_group blank_or_equals_demands)

theorem shortUserRe_demands : Demands separator (shortUserRe word) :=
  demands_sequence (.tail _ (.tail _ (.head _))) (demands_group blank_or_equals_demands)

theorem headerNameRe_demands : Demands separator (headerNameRe word) :=
  demands_sequence (.tail _ (.tail _ (.head _))) (demands_group
    (demands_sequence (.tail _ (.head _)) (demands_literal (c := ':') (by decide) (by decide))))

theorem schemeRe_demands : Demands separator (schemeRe word) :=
  demands_sequence (.tail _ (.tail _ (.head _))) (demands_group (demands_many separator_of_isSpace))

theorem urlUserinfoRe_demands : Demands separator urlUserinfoRe :=
  demands_sequence (.head _) (demands_group (demands_sequence (.tail _ (.tail _ (.head _)))
    (demands_literal (c := ':') (by decide) (by decide))))

theorem urlQueryRe_demands : Demands separator urlQueryRe :=
  demands_sequence (.head _) (demands_group (demands_sequence (.tail _ (.tail _ (.head _)))
    (demands_literal (c := '=') (by decide) (by decide))))

theorem jwtRe_demands : Demands separator (jwtRe word) :=
  demands_sequence (.tail _ (.tail _ (.tail _ (.head _))))
    (demands_literal (c := '.') (by decide) (by decide))

/-- A text without separators is redacted by the prefixes alone. -/
theorem redactSecrets_plain {text : Text} (plain : ∀ c ∈ text, separator c = false) :
    redactSecrets word text = prefixRe.sub [.plain mask] text := by
  simp only [redactSecrets, sub_of_demands pemRe_demands plain, sub_of_demands envRe_demands plain,
    sub_of_demands flagRe_demands plain, sub_of_demands shortUserRe_demands plain,
    sub_of_demands headerNameRe_demands plain, sub_of_demands schemeRe_demands plain,
    sub_of_demands urlUserinfoRe_demands plain, sub_of_demands urlQueryRe_demands plain,
    sub_of_demands jwtRe_demands plain]

theorem prefixRe_begins : Begins prefixStart prefixRe := by
  apply begins_edge
  apply begins_first
  apply begins_oneOf
  intro r member
  simp only [prefixRes, List.mem_cons, List.not_mem_nil, or_false] at member
  obtain rfl | rfl | rfl | rfl | rfl | rfl | rfl | rfl | rfl | rfl | rfl | rfl | rfl | rfl | rfl |
    rfl | rfl := member
  case inr.inr.inr.inr.inr.inr.inr.inr.inr.inr.inr.inr.inr.inr.inl =>
    apply begins_first
    apply begins_oneOf
    intro r member
    simp only [List.mem_cons, List.not_mem_nil, or_false] at member
    obtain rfl | rfl | rfl := member
    all_goals exact begins_literal (by decide)
  all_goals exact begins_first (begins_literal (by decide))

/-! ## A secret that a cut splits -/

/-- `sk-` and a run of one letter: a secret from sixteen letters on. -/
def key (x : Char) (m : ℕ) : Text := 's' :: 'k' :: '-' :: List.replicate m x

/-- The runs the secrets are made of: no letter begins another secret. -/
def Inert (x : Char) : Prop := x = 'b' ∨ x = 'c'

variable {x : Char} {m j fuel : ℕ} {before : Text}

theorem inert_plain (inert : Inert x) :
    separator x = false ∧ prefixStart x = false ∧ isAlnum x = true := by
  obtain rfl | rfl := inert <;> decide

theorem key_plain (inert : Inert x) (c : Char)
    (member : c ∈ List.replicate j '-' ++ key x m) : separator c = false := by
  simp only [key, List.mem_append, List.mem_cons, List.mem_replicate] at member
  obtain ⟨_, rfl⟩ | rfl | rfl | rfl | ⟨_, rfl⟩ := member
  · decide
  · decide
  · decide
  · decide
  · exact (inert_plain inert).1

/-- A whole key is the most preferred match where it begins. -/
theorem key_matched (inert : Inert x) (long : 16 ≤ m)
    (alone : before.head?.any isAlnum = false) :
    (prefixRe.matches ⟨before, key x m, []⟩).head? =
      some ⟨(List.replicate m x).reverse ++ '-' :: 'k' :: 's' :: before, [], []⟩ := by
  have taken : (greedy isAlnum 16 none ('-' :: 'k' :: 's' :: before) (List.replicate m x)).head? =
      some ((List.replicate m x).reverse ++ '-' :: 'k' :: 's' :: before, []) := by
    apply greedy_all
    · intro c member
      rw [List.eq_of_mem_replicate member]
      exact (inert_plain inert).2.2
    · rw [List.length_replicate]
      exact long
  have first : (notBehind isAlnum).matches ⟨before, key x m, []⟩ = [⟨before, key x m, []⟩] := by
    simp [notBehind, Regex.matches, alone]
  have choices : prefixRe.matches ⟨before, key x m, []⟩ =
      (oneOf prefixRes).matches ⟨before, key x m, []⟩ := by
    change ((notBehind isAlnum).matches _).flatMap
      (Regex.seq (oneOf prefixRes) .empty).matches = _
    rw [first, List.flatMap_singleton, matches_seq_empty]
  obtain ⟨k, rfl⟩ : ∃ k, m = k + 1 := ⟨m - 1, by omega⟩
  have other : (prefixed "sk-ant-" (alnumOr "-_") 16).matches ⟨before, key x (k + 1), []⟩ = [] := by
    obtain rfl | rfl := inert <;> rfl
  have whole : (prefixed "sk-" isAlnum 16).matches ⟨before, key x (k + 1), []⟩ =
      (greedy isAlnum 16 none ('-' :: 'k' :: 's' :: before) (List.replicate (k + 1) x)).map
        fun way => ⟨way.1, way.2, []⟩ := by
    change (Regex.seq (.many isAlnum 16 none) .empty).matches
      ⟨'-' :: 'k' :: 's' :: before, List.replicate (k + 1) x, []⟩ ++ [] = _
    rw [matches_seq_empty, List.append_nil]
    rfl
  rw [choices]
  change ((prefixed "sk-ant-" (alnumOr "-_") 16).matches _ ++
    ((prefixed "sk-" isAlnum 16).matches _ ++ _)).head? = _
  rw [other, whole, List.nil_append, List.head?_append, List.head?_map, taken]
  rfl

/-- A key one letter short matches nothing. -/
theorem short_key_unmatched (inert : Inert x) : prefixRe.matches ⟨before, key x 15, []⟩ = [] := by
  have none_there : (oneOf prefixRes).matches ⟨before, key x 15, []⟩ = [] := by
    apply oneOf_unmatched
    intro r member
    simp only [prefixRes, List.mem_cons, List.not_mem_nil, or_false] at member
    obtain rfl | rfl | rfl | rfl | rfl | rfl | rfl | rfl | rfl | rfl | rfl | rfl | rfl | rfl | rfl |
      rfl | rfl := member
    case inr.inl =>
      change (Regex.seq (literal "sk-") (.seq (.many isAlnum 16 none) .empty)).matches _ = []
      have here : "sk-".toList.isPrefixOf (key x 15) = true := by
        obtain rfl | rfl := inert <;> decide
      have wanting : ∀ before, greedy isAlnum 16 none before (List.replicate 15 x) = [] := by
        intro before
        apply greedy_short
        rw [List.length_replicate]
        decide
      rw [Regex.matches, matches_literal, if_pos here, List.flatMap_singleton, matches_seq_empty,
        Regex.matches, List.map_eq_nil_iff]
      exact wanting _
    case inr.inr.inr.inr.inr.inr.inr.inr.inr.inr.inr.inr.inr.inr.inl =>
      change ((oneOf [literal "sk", literal "rk", literal "pk"]).matches _).flatMap _ = []
      rw [List.flatMap_eq_nil_iff]
      intro m first
      simp only [oneOf, Regex.matches, List.mem_append, matches_literal] at first
      obtain begun | begun | begun := first
      · split at begun
        · rw [List.mem_singleton.mp begun]
          apply literal_unmatched
          obtain rfl | rfl := inert <;> decide
        · cases begun
      · split at begun
        · rename_i other
          obtain rfl | rfl := inert <;> exact absurd other (by decide)
        · cases begun
      · split at begun
        · rename_i other
          obtain rfl | rfl := inert <;> exact absurd other (by decide)
        · cases begun
    all_goals
      apply literal_unmatched
      obtain rfl | rfl := inert <;> decide
  change ((notBehind isAlnum).matches ⟨before, key x 15, []⟩).flatMap
    (Regex.seq (oneOf prefixRes) .empty).matches = []
  rw [List.flatMap_eq_nil_iff]
  intro m first
  simp only [notBehind, Regex.matches] at first
  split at first
  · rw [List.mem_singleton.mp first, matches_seq_empty, none_there]
  · cases first

theorem dash_unmatched (before : Text) (c : Char) (rest : Text)
    (member : c ∈ List.replicate j '-') :
    prefixRe.matches ⟨before, c :: rest, []⟩ = [] := by
  apply unmatched_of_begins prefixRe_begins
  rw [List.eq_of_mem_replicate member]
  decide

/-- A key after dashes is masked as a whole. -/
theorem redact_key (word : Char → Bool) (inert : Inert x) (long : 16 ≤ m) :
    redactSecrets word (List.replicate j '-' ++ key x m) =
      List.replicate j '-' ++ mask.toList := by
  have alone : ((List.replicate j '-').reverse ++ []).head?.any isAlnum = false := by
    rw [List.reverse_replicate, List.append_nil]
    cases j <;> rfl
  have size : (List.replicate j '-' ++ key x m).length =
      (m + 2 + 1) + (List.replicate j '-').length := by
    simp [key]
    omega
  have found : subFrom prefixRe [.plain mask] (m + 2 + 1) ((List.replicate j '-').reverse ++ [])
      (key x m) = mask.toList := by
    rw [key, subFrom, ← key, key_matched inert long alone]
    simp [expand, subFrom]
  rw [redactSecrets_plain (key_plain inert), Regex.sub, size, subFrom_skips dash_unmatched, found]

/-- What is left of a key one letter short is not masked. -/
theorem redact_short_key (word : Char → Bool) (inert : Inert x) :
    redactSecrets word (List.replicate j '-' ++ key x 15) = List.replicate j '-' ++ key x 15 := by
  have size : (List.replicate j '-' ++ key x 15).length =
      (0 + ('k' :: '-' :: List.replicate 15 x).length + 1) + (List.replicate j '-').length := by
    simp [key]
    omega
  have rest_plain : ∀ c ∈ 'k' :: '-' :: List.replicate 15 x, prefixStart c = false := by
    intro c member
    simp only [List.mem_cons, List.mem_replicate] at member
    obtain rfl | rfl | ⟨_, rfl⟩ := member
    · decide
    · decide
    · exact (inert_plain inert).2.1
  rw [redactSecrets_plain (key_plain inert), Regex.sub, size, subFrom_skips dash_unmatched, key,
    subFrom_skip (short_key_unmatched inert), subFrom_of_begins prefixRe_begins rest_plain]

/-- A key whose beginning is cut off is not masked. -/
theorem redact_key_tail (word : Char → Bool) (inert : Inert x) (k : ℕ) :
    redactSecrets word ((key x m).drop (k + 1)) = (key x m).drop (k + 1) := by
  have inside : ∀ c ∈ (key x m).drop (k + 1), c = 'k' ∨ c = '-' ∨ c = x := by
    intro c member
    have later : c ∈ 'k' :: '-' :: List.replicate m x := List.mem_of_mem_drop member
    simp only [List.mem_cons, List.mem_replicate] at later
    obtain same | same | ⟨_, same⟩ := later
    · exact Or.inl same
    · exact Or.inr (Or.inl same)
    · exact Or.inr (Or.inr same)
  have plain : ∀ c ∈ (key x m).drop (k + 1), separator c = false ∧ prefixStart c = false := by
    intro c member
    obtain rfl | rfl | rfl := inside c member
    · decide
    · decide
    · exact ⟨(inert_plain inert).1, (inert_plain inert).2.1⟩
  rw [redactSecrets_plain fun c member => (plain c member).1, Regex.sub]
  have kept : subFrom prefixRe [.plain mask] (0 + ((key x m).drop (k + 1)).length) []
      ((key x m).drop (k + 1)) = (key x m).drop (k + 1) :=
    subFrom_of_begins prefixRe_begins fun c member => (plain c member).2
  rwa [Nat.zero_add] at kept

/-! ## When the excerpts are blind -/

/-- The give-up events of two round logs, the longer of `n` characters, are equal where
redaction makes the logs equal. -/
def ReasonBlind (word : Char → Bool) (n : ℕ) : Prop :=
  ∀ a b : Text, max a.length b.length = n → redactSecrets word a = redactSecrets word b →
    ∀ kind consecutive exitCode,
      emitGiveup word kind consecutive exitCode (some a) =
        emitGiveup word kind consecutive exitCode (some b)

/-- The transient errors persisted of two results, the longer of `n` characters, are equal
where redaction makes the results equal. -/
def RawBlind (word : Char → Bool) (n : ℕ) : Prop :=
  ∀ a b : Text, max a.length b.length = n → redactSecrets word a = redactSecrets word b →
    ∀ epoch info isError status,
      persistedTransient word epoch info (some ⟨isError, status, a⟩) =
        persistedTransient word epoch info (some ⟨isError, status, b⟩)

@[simp] theorem key_length (x : Char) (m : ℕ) : (key x m).length = m + 3 := by
  simp [key]

theorem key_drop_last (k : ℕ) (inside : k < m + 3) (long : 0 < m) :
    ((key x m).drop k).getLast? = some x := by
  obtain ⟨m, rfl⟩ : ∃ i, m = i + 1 := ⟨m - 1, by omega⟩
  rw [List.getLast?_drop, if_neg (by rw [key_length]; omega), key, List.replicate_succ',
    ← List.cons_append, ← List.cons_append, ← List.cons_append, List.getLast?_concat]

theorem reason_of_short {text : Text} (short : text.length ≤ 2000) :
    lastChars 2000 text = text := by
  rw [lastChars, Nat.sub_eq_zero_of_le short, List.drop_zero]

/-- Past the cut, two keys of one length leave tails that differ. -/
theorem reason_leaks (word : Char → Bool) {n : ℕ} (long : 2000 < n) :
    (key 'b' (n - 3)).length = n ∧ (key 'c' (n - 3)).length = n ∧
      redactSecrets word (key 'b' (n - 3)) = redactSecrets word (key 'c' (n - 3)) ∧
      ∀ kind consecutive exitCode,
        emitGiveup word kind consecutive exitCode (some (key 'b' (n - 3))) ≠
          emitGiveup word kind consecutive exitCode (some (key 'c' (n - 3))) := by
  have size : ∀ x, (key x (n - 3)).length = n := fun x => by rw [key_length]; omega
  have masked : ∀ x, Inert x → redactSecrets word (key x (n - 3)) = mask.toList := fun x inert =>
    redact_key (j := 0) word inert (by omega)
  refine ⟨size _, size _, (masked _ (Or.inl rfl)).trans (masked _ (Or.inr rfl)).symm, ?_⟩
  intro kind consecutive exitCode same
  obtain ⟨k, cut⟩ : ∃ k, n - 2000 = k + 1 := ⟨n - 2001, by omega⟩
  have reasons := congrArg GiveUp.reason same
  simp only [emitGiveup, lastChars, size, cut, redact_key_tail word (Or.inl rfl),
    redact_key_tail word (Or.inr rfl)] at reasons
  have lasts := congrArg List.getLast? reasons
  rw [key_drop_last _ (by omega) (by omega), key_drop_last _ (by omega) (by omega)] at lasts
  exact absurd lasts (by decide)

/-- Dashes that put the sixteenth letter of a key past the cut, and the key. -/
def straddling (x : Char) (n : ℕ) : Text := List.replicate 182 '-' ++ key x (n - 185)

theorem key_take (x : Char) (k : ℕ) : (key x (15 + k)).take 18 = key x 15 := by
  simp [key, List.take_replicate]

theorem dashed_take (x : Char) (k : ℕ) :
    (List.replicate j '-' ++ key x (15 + k)).take (j + 18) = List.replicate j '-' ++ key x 15 := by
  rw [List.take_append, List.length_replicate, Nat.add_sub_cancel_left, key_take,
    List.take_of_length_le]
  rw [List.length_replicate]
  omega

theorem straddling_take (x : Char) {n : ℕ} (long : rawCap < n) :
    (straddling x n).take rawCap = List.replicate 182 '-' ++ key x 15 := by
  have more : n - 185 = 15 + (n - 200) := by
    simp only [rawCap] at long
    omega
  rw [straddling, more]
  exact dashed_take x _

theorem straddling_length (x : Char) {n : ℕ} (long : rawCap < n) : (straddling x n).length = n := by
  simp only [rawCap] at long
  rw [straddling, List.length_append, List.length_replicate, key_length]
  omega

theorem straddling_last (x : Char) : (List.replicate j '-' ++ key x 15).getLast? = some x := by
  rw [List.getLast?_append, ← List.drop_zero (l := key x 15), key_drop_last _ (by omega) (by omega)]
  rfl

/-- Past the cut, two keys that straddle it leave fragments that differ. -/
theorem raw_leaks (word : Char → Bool) {n : ℕ} (long : rawCap < n) :
    (straddling 'b' n).length = n ∧ (straddling 'c' n).length = n ∧
      redactSecrets word (straddling 'b' n) = redactSecrets word (straddling 'c' n) ∧
      ∀ epoch info,
        persistedTransient word epoch info (some ⟨true, some 429, straddling 'b' n⟩) ≠
          persistedTransient word epoch info (some ⟨true, some 429, straddling 'c' n⟩) := by
  have whole : 16 ≤ n - 185 := by
    simp only [rawCap] at long
    omega
  refine ⟨straddling_length _ long, straddling_length _ long, ?_, fun epoch info same => ?_⟩
  · rw [straddling, straddling, redact_key word (Or.inl rfl) whole,
      redact_key word (Or.inr rfl) whole]
  · have raws : (persistedTransient word epoch info (some ⟨true, some 429, straddling 'b' n⟩)).map
        Transient.raw = (persistedTransient word epoch info
          (some ⟨true, some 429, straddling 'c' n⟩)).map Transient.raw := by rw [same]
    have fragment : ∀ x, Inert x →
        (persistedTransient word epoch info (some ⟨true, some 429, straddling x n⟩)).map
          Transient.raw = some (List.replicate 182 '-' ++ key x 15) := by
      intro x inert
      have kept := redact_short_key (j := 182) word inert
      unfold persistedTransient classifyTransientError
      split
      · simp only [Option.map_some, emitTransientErrorDetected, Option.elim_some,
          straddling_take x long, kept]
      · simp only [Option.filter_some, if_true, classifyTransientStatus, Option.map_some,
          emitTransientErrorDetected, straddling_take x long, kept]
    rw [fragment _ (Or.inl rfl), fragment _ (Or.inr rfl), Option.some.injEq] at raws
    have lasts := congrArg List.getLast? raws
    rw [straddling_last, straddling_last] at lasts
    exact absurd lasts (by decide)

/-- **The excerpts are blind to secrets exactly up to their cuts.**  The reason of a give-up
event depends on a round log only through its redaction where the log has at most 2000
characters, the raw text of a transient error where the error has at most 200; among the
texts of any greater length two with one redaction are told apart. -/
theorem excerpts_blind_iff (word : Char → Bool) (n : ℕ) :
    (ReasonBlind word n ↔ n ≤ 2000) ∧ (RawBlind word n ↔ n ≤ rawCap) := by
  refine ⟨⟨fun blind => ?_, fun short a b longest masked kind consecutive exitCode => ?_⟩,
    ⟨fun blind => ?_, fun short a b longest masked epoch info isError status => ?_⟩⟩
  · by_contra long
    obtain ⟨sizeB, sizeC, masked, leaks⟩ := reason_leaks word (not_le.mp long)
    exact leaks "" 0 0 (blind _ _ (by rw [sizeB, sizeC, max_self]) masked "" 0 0)
  · have shortA : a.length ≤ 2000 := (le_max_left _ _).trans (longest.trans_le short)
    have shortB : b.length ≤ 2000 := (le_max_right _ _).trans (longest.trans_le short)
    simp only [emitGiveup, reason_of_short shortA, reason_of_short shortB, masked]
  · by_contra long
    obtain ⟨sizeB, sizeC, masked, leaks⟩ := raw_leaks word (not_le.mp long)
    exact leaks 0 none (blind _ _ (by rw [sizeB, sizeC, max_self]) masked 0 none true (some 429))
  · have shortA : a.length ≤ rawCap := (le_max_left _ _).trans (longest.trans_le short)
    have shortB : b.length ≤ rawCap := (le_max_right _ _).trans (longest.trans_le short)
    unfold persistedTransient classifyTransientError
    split
    · simp only [Option.map_some, emitTransientErrorDetected, Option.elim_some,
        List.take_of_length_le shortA, List.take_of_length_le shortB, masked]
    · cases isError with
      | false => rfl
      | true =>
        simp only [Option.filter_some, if_true, Option.map_map, Function.comp_def,
          emitTransientErrorDetected, List.take_of_length_le shortA,
          List.take_of_length_le shortB, masked]

/-- A round log of 2001 characters whose secret the cut splits, and a result of 201. -/
theorem split_secret_leaks :
    redactSecrets isAlnum (key 'b' 1998) = redactSecrets isAlnum (key 'c' 1998) ∧
      emitGiveup isAlnum "crash_loop" 5 1 (some (key 'b' 1998)) ≠
        emitGiveup isAlnum "crash_loop" 5 1 (some (key 'c' 1998)) ∧
      redactSecrets isAlnum (straddling 'b' 201) = redactSecrets isAlnum (straddling 'c' 201) ∧
      persistedTransient isAlnum 0 none (some ⟨true, some 429, straddling 'b' 201⟩) ≠
        persistedTransient isAlnum 0 none (some ⟨true, some 429, straddling 'c' 201⟩) := by
  obtain ⟨_, _, masked, leaks⟩ := @reason_leaks isAlnum 2001 (by omega)
  have past : rawCap < 201 := Nat.lt_succ_self 200
  obtain ⟨_, _, masked', leaks'⟩ := raw_leaks isAlnum past
  exact ⟨masked, leaks "crash_loop" 5 1, masked', leaks' 0 none⟩

end AgentRunner.Redaction
