import Mathlib.Data.List.Induction
import Mathlib.Data.List.Basic
import Mathlib.Order.Lattice

/-! A stream written to files by key: each entry goes to the end of its key's file,
and a reader takes the files in the order of their keys, the newest few of them
only. While the keys never step back, the files in order are the stream itself. -/
namespace AgentRunner.Shards
variable {κ α : Type} [LinearOrder κ]

/-- Append an entry to the file of its key, among files in ascending order. -/
def put : List (κ × List α) → κ → α → List (κ × List α)
  | [], k, a => [(k, [a])]
  | (j, file) :: rest, k, a =>
    if k < j then (k, [a]) :: (j, file) :: rest
    else if k = j then (j, file ++ [a]) :: rest
    else (j, file) :: put rest k a

/-- The files a stream of keyed entries leaves. -/
def files (history : List (κ × α)) : List (κ × List α) :=
  history.foldl (fun files entry => put files entry.1 entry.2) []

/-- The files but the newest `n`, and the newest `n`. -/
def older (n : Nat) (history : List (κ × α)) : List (κ × List α) :=
  (files history).take ((files history).length - n)

def newest (n : Nat) (history : List (κ × α)) : List (κ × List α) :=
  (files history).drop ((files history).length - n)

/-- No entry has a smaller key than one before it. -/
def InOrder (history : List (κ × α)) : Prop := (history.map Prod.fst).Pairwise (· ≤ ·)

theorem files_concat (history : List (κ × α)) (k : κ) (a : α) :
    files (history ++ [(k, a)]) = put (files history) k a := by
  rw [files, List.foldl_concat]
  rfl

theorem InOrder.init {history : List (κ × α)} {entry : κ × α}
    (ordered : InOrder (history ++ [entry])) :
    InOrder history ∧ ∀ earlier ∈ history, earlier.1 ≤ entry.1 := by
  rw [InOrder, List.map_append, List.pairwise_append] at ordered
  refine ⟨ordered.1, fun earlier member => ?_⟩
  exact ordered.2.2 _ (List.mem_map_of_mem member) _ (List.mem_singleton_self _)

theorem InOrder.earlier {history later : List (κ × α)} (ordered : InOrder (history ++ later)) :
    InOrder history := by
  rw [InOrder, List.map_append, List.pairwise_append] at ordered
  exact ordered.1

/-! ## One entry -/

theorem mem_put {fs : List (κ × List α)} {k : κ} {a : α} {file : κ × List α}
    (member : file ∈ put fs k a) :
    file ∈ fs ∨ file.1 = k ∧ a ∈ file.2 ∧ ∀ b ∈ file.2, b = a ∨
      ∃ old ∈ fs, old.1 = k ∧ b ∈ old.2 := by
  induction fs with
  | nil =>
    cases List.mem_singleton.mp member
    exact .inr ⟨rfl, .head _, fun b inside => .inl (List.mem_singleton.mp inside)⟩
  | cons head rest ih =>
    obtain ⟨j, held⟩ := head
    rw [put] at member
    split at member
    · obtain rfl | old := List.mem_cons.mp member
      · exact .inr ⟨rfl, .head _, fun b inside => .inl (List.mem_singleton.mp inside)⟩
      · exact .inl old
    split at member
    · rename_i same
      subst same
      obtain rfl | old := List.mem_cons.mp member
      · refine .inr ⟨rfl, List.mem_append_right _ (List.mem_singleton_self _), fun b inside => ?_⟩
        obtain before | new := List.mem_append.mp inside
        · exact .inr ⟨_, .head _, rfl, before⟩
        · exact .inl (List.mem_singleton.mp new)
      · exact .inl (.tail _ old)
    · obtain rfl | old := List.mem_cons.mp member
      · exact .inl (.head _)
      · refine (ih old).imp (.tail _) fun ⟨key, new, from_⟩ => ⟨key, new, fun b inside => ?_⟩
        exact (from_ b inside).imp id fun ⟨held, there, fact⟩ => ⟨held, .tail _ there, fact⟩

theorem put_ascending {fs : List (κ × List α)} (k : κ) (a : α)
    (ascending : fs.Pairwise fun x y => x.1 < y.1) :
    (put fs k a).Pairwise fun x y => x.1 < y.1 := by
  induction fs with
  | nil => exact List.pairwise_singleton _ _
  | cons head rest ih =>
    obtain ⟨j, held⟩ := head
    obtain ⟨least, tail⟩ := List.pairwise_cons.mp ascending
    rw [put]
    split
    · rename_i below
      refine List.pairwise_cons.mpr ⟨fun file member => ?_, ascending⟩
      obtain rfl | later := List.mem_cons.mp member
      · exact below
      · exact below.trans (least file later)
    split
    · exact List.pairwise_cons.mpr ⟨least, tail⟩
    · rename_i notBelow notSame
      have above : j < k := lt_of_le_of_ne (not_lt.mp notBelow) (Ne.symm notSame)
      refine List.pairwise_cons.mpr ⟨fun file member => ?_, ih tail⟩
      obtain old | ⟨same, -⟩ := mem_put member
      · exact least file old
      · rw [same]
        exact above

/-- An entry whose key is no smaller than any before it goes to the last file, or
opens a new one behind it. -/
theorem put_last {fs : List (κ × List α)} {k : κ} (a : α)
    (ascending : fs.Pairwise fun x y => x.1 < y.1) (late : ∀ file ∈ fs, file.1 ≤ k) :
    (∃ init file, fs = init ++ [(k, file)] ∧ put fs k a = init ++ [(k, file ++ [a])]) ∨
      put fs k a = fs ++ [(k, [a])] := by
  induction fs with
  | nil => exact .inr rfl
  | cons head rest ih =>
    obtain ⟨j, held⟩ := head
    obtain ⟨least, tail⟩ := List.pairwise_cons.mp ascending
    have notAfter : ¬ k < j := not_lt.mpr (late _ (.head _))
    rw [put, if_neg notAfter]
    split
    · rename_i same
      subst same
      have last : rest = [] := by
        refine List.eq_nil_iff_forall_not_mem.mpr fun file member => ?_
        exact absurd (least file member) (not_lt.mpr (late file (.tail _ member)))
      subst last
      exact .inl ⟨[], held, rfl, rfl⟩
    · obtain ⟨init, file, split_, result⟩ | result := ih tail fun file member =>
        late file (.tail _ member)
      · exact .inl ⟨(j, held) :: init, file, by rw [split_]; rfl, by rw [result]; rfl⟩
      · exact .inr (by rw [result]; rfl)

/-! ## The files of a stream -/

theorem put_map {β : Type} (f : α → β) (fs : List (κ × List α)) (k : κ) (a : α) :
    put (fs.map fun file => (file.1, file.2.map f)) k (f a) =
      (put fs k a).map fun file => (file.1, file.2.map f) := by
  induction fs with
  | nil => rfl
  | cons head rest ih =>
    rw [List.map_cons, put, put]
    split_ifs
    · rfl
    · rw [List.map_cons, List.map_append]
      rfl
    · rw [List.map_cons, ih]

/-- Where an entry goes is decided by its key alone. -/
theorem files_map {β : Type} (f : α → β) (history : List (κ × α)) :
    files (history.map fun entry => (entry.1, f entry.2)) =
      (files history).map fun file => (file.1, file.2.map f) := by
  induction history using List.reverseRecOn with
  | nil => rfl
  | append_singleton history entry ih =>
    obtain ⟨k, a⟩ := entry
    rw [List.map_append, List.map_singleton, files_concat, ih, put_map, files_concat]

theorem newest_map {β : Type} (f : α → β) (n : Nat) (history : List (κ × α)) :
    (newest n (history.map fun entry => (entry.1, f entry.2))).flatMap Prod.snd =
      ((newest n history).flatMap Prod.snd).map f := by
  rw [newest, newest, files_map, List.length_map, ← List.map_drop, List.flatMap_map,
    List.map_flatMap]

theorem files_ascending (history : List (κ × α)) :
    (files history).Pairwise fun x y => x.1 < y.1 := by
  induction history using List.reverseRecOn with
  | nil => exact List.Pairwise.nil
  | append_singleton history entry ih =>
    obtain ⟨k, a⟩ := entry
    rw [files_concat]
    exact put_ascending k a ih

/-- A file holds entries of its key, and at least one. -/
theorem mem_files {history : List (κ × α)} {file : κ × List α} (member : file ∈ files history) :
    (∃ a, a ∈ file.2) ∧ ∀ a ∈ file.2, (file.1, a) ∈ history := by
  induction history using List.reverseRecOn generalizing file with
  | nil => cases member
  | append_singleton history entry ih =>
    obtain ⟨k, a⟩ := entry
    rw [files_concat] at member
    obtain old | ⟨rfl, new, from_⟩ := mem_put member
    · exact ⟨(ih old).1, fun b inside => List.mem_append_left _ ((ih old).2 b inside)⟩
    · refine ⟨⟨a, new⟩, fun b inside => ?_⟩
      obtain rfl | ⟨held, there, same, inside⟩ := from_ b inside
      · exact List.mem_append_right _ (List.mem_singleton_self _)
      · exact List.mem_append_left _ (same ▸ (ih there).2 b inside)

private theorem files_late {history : List (κ × α)} {k : κ}
    (late : ∀ earlier ∈ history, earlier.1 ≤ k) (file : κ × List α)
    (member : file ∈ files history) : file.1 ≤ k := by
  obtain ⟨⟨a, inside⟩, from_⟩ := mem_files member
  exact late _ (from_ a inside)

/-- Written in order, the files one after the other are the stream. -/
theorem files_flat {history : List (κ × α)} (ordered : InOrder history) :
    (files history).flatMap Prod.snd = history.map Prod.snd := by
  induction history using List.reverseRecOn with
  | nil => rfl
  | append_singleton history entry ih =>
    obtain ⟨k, a⟩ := entry
    obtain ⟨before, late⟩ := ordered.init
    have whole := ih before
    rw [files_concat, List.map_append, ← whole]
    obtain ⟨init, file, split_, result⟩ | result :=
      put_last a (files_ascending history) (files_late late)
    · rw [result, split_]
      simp
    · rw [result]
      simp

/-- The older files, then the newest, are the stream. -/
theorem older_newest_flat (n : Nat) {history : List (κ × α)} (ordered : InOrder history) :
    (older n history).flatMap Prod.snd ++ (newest n history).flatMap Prod.snd =
      history.map Prod.snd := by
  rw [older, newest, ← List.flatMap_append, List.take_append_drop, files_flat ordered]

/-- One more entry in order: the newest files keep an end of what they held, and the
entry stands behind it. -/
theorem newest_concat {n : Nat} (positive : 0 < n) {history : List (κ × α)} {k : κ} {a : α}
    (ordered : InOrder (history ++ [(k, a)])) :
    ∃ dropped kept, (newest n history).flatMap Prod.snd = dropped ++ kept ∧
      (newest n (history ++ [(k, a)])).flatMap Prod.snd = kept ++ [a] := by
  obtain ⟨-, late⟩ := ordered.init
  rw [newest, newest, files_concat]
  obtain ⟨init, file, split_, result⟩ | result :=
    put_last a (files_ascending history) (files_late late)
  · refine ⟨[], ((files history).drop ((files history).length - n)).flatMap Prod.snd, rfl, ?_⟩
    rw [result, split_]
    have shape : ∀ last : κ × List α, (init ++ [last]).drop ((init ++ [last]).length - n) =
        init.drop (init.length + 1 - n) ++ [last] := by
      intro last
      rw [List.length_append, List.length_singleton, List.drop_append_of_le_length (by omega)]
    rw [shape, shape]
    simp
  · rw [result]
    have size : (files history ++ [(k, [a])]).length - n = (files history).length + 1 - n := by
      rw [List.length_append, List.length_singleton]
    rw [size, List.drop_append_of_le_length (by omega), List.flatMap_append]
    refine ⟨(((files history).drop ((files history).length - n)).take
      ((files history).length + 1 - n - ((files history).length - n))).flatMap Prod.snd,
      ((files history).drop ((files history).length + 1 - n)).flatMap Prod.snd, ?_, rfl⟩
    rw [← List.flatMap_append]
    congr 1
    have again : (files history).drop ((files history).length + 1 - n) =
        ((files history).drop ((files history).length - n)).drop
          ((files history).length + 1 - n - ((files history).length - n)) := by
      rw [List.drop_drop]
      congr 1
      omega
    rw [again, List.take_append_drop]

/-- Where the entry opens no new file, the newest files only gain it. -/
theorem newest_same {n : Nat} (positive : 0 < n) {history : List (κ × α)} {k : κ} {a : α}
    (ordered : InOrder (history ++ [(k, a)]))
    (same : (files (history ++ [(k, a)])).length = (files history).length) :
    (newest n (history ++ [(k, a)])).flatMap Prod.snd =
      (newest n history).flatMap Prod.snd ++ [a] := by
  obtain ⟨-, late⟩ := ordered.init
  rw [newest, newest, same]
  rw [files_concat] at same ⊢
  obtain ⟨init, file, split_, result⟩ | result :=
    put_last a (files_ascending history) (files_late late)
  · have small : init.length + 1 - n ≤ init.length := by omega
    rw [result, split_, List.length_append, List.length_singleton,
      List.drop_append_of_le_length small, List.drop_append_of_le_length small]
    simp
  · rw [result, List.length_append, List.length_singleton] at same
    omega

theorem files_length_le (history : List (κ × α)) (k : κ) (a : α) :
    (files history).length ≤ (files (history ++ [(k, a)])).length := by
  rw [files_concat]
  induction files history with
  | nil => exact Nat.zero_le _
  | cons head rest ih =>
    obtain ⟨j, held⟩ := head
    rw [put]
    split
    · exact Nat.le_succ _
    split
    · exact Nat.le_refl _
    · exact Nat.succ_le_succ ih

/-- Behind an entry of an older file stand two keys, one above the other. -/
theorem older_keys {history : List (κ × α)} {file : κ × List α} (member : file ∈ older 2 history) :
    ∃ middle ∈ history, ∃ last ∈ history, file.1 < middle.1 ∧ middle.1 < last.1 := by
  have ascending := files_ascending history
  rw [← List.take_append_drop ((files history).length - 2) (files history),
    List.pairwise_append] at ascending
  obtain ⟨-, rest, before⟩ := ascending
  have inside : 2 < (files history).length := by
    by_contra small
    rw [older, Nat.sub_eq_zero_of_le (Nat.le_of_not_lt small)] at member
    cases member
  have two : ((files history).drop ((files history).length - 2)).length = 2 := by
    rw [List.length_drop]
    omega
  obtain ⟨x, y, pair⟩ := List.length_eq_two.mp two
  rw [pair] at rest before
  have entry : ∀ f ∈ (files history).drop ((files history).length - 2),
      ∃ e ∈ history, e.1 = f.1 := by
    intro f there
    obtain ⟨⟨a, inside⟩, from_⟩ := mem_files (List.mem_of_mem_drop there)
    exact ⟨_, from_ a inside, rfl⟩
  rw [pair] at entry
  obtain ⟨middle, heldMiddle, keyMiddle⟩ := entry x (.head _)
  obtain ⟨last, heldLast, keyLast⟩ := entry y (.tail _ (.head _))
  refine ⟨middle, heldMiddle, last, heldLast, ?_, ?_⟩
  · rw [keyMiddle]
    exact before file member x (.head _)
  · rw [keyMiddle, keyLast]
    exact List.rel_of_pairwise_cons rest (.head _)

end AgentRunner.Shards
