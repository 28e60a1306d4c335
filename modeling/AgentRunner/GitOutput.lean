import AgentRunner.Utf8

/-! What a command prints, as `run_bounded` hands it on: decoded, with every line end made a
newline. -/
namespace AgentRunner.GitOutput

/-- `data.replace("\r\n", "\n").replace("\r", "\n")`, which `communicate` does to a text. -/
def translateNewlines : List Char → List Char
  | [] => []
  | '\r' :: '\n' :: rest => '\n' :: translateNewlines rest
  | '\r' :: rest => '\n' :: translateNewlines rest
  | c :: rest => c :: translateNewlines rest

/-- What `run_bounded` makes of the bytes that a command prints. -/
def received (bytes : List UInt8) : String :=
  String.ofList (translateNewlines (Utf8.decode bytes))

theorem translateNewlines_plain {c : Char} (plain : c ≠ '\r') (rest : List Char) :
    translateNewlines (c :: rest) = c :: translateNewlines rest := by
  rw [translateNewlines]
  · exact fun _ same _ => plain same
  · exact plain

theorem translateNewlines_return {d : Char} (single : d ≠ '\n') (rest : List Char) :
    translateNewlines ('\r' :: d :: rest) = '\n' :: translateNewlines (d :: rest) := by
  rw [translateNewlines]
  exact fun _ same => single (List.cons.inj same).1

/-- What stands before a character that is in no line end is translated on its own. -/
theorem translateNewlines_cut {c : Char} (plain : c ≠ '\r' ∧ c ≠ '\n') (before after : List Char) :
    translateNewlines (before ++ c :: after) =
      translateNewlines before ++ c :: translateNewlines after := by
  fun_induction translateNewlines before with
  | case1 => exact translateNewlines_plain plain.1 after
  | case2 rest ih => rw [List.cons_append, List.cons_append, translateNewlines, ih]; rfl
  | case3 rest single ih =>
    rw [List.cons_append, List.cons_append, ← ih]
    cases rest with
    | nil => exact translateNewlines_return plain.2 after
    | cons d rest => exact translateNewlines_return (fun same => single rest (same ▸ rfl)) _
  | case4 d rest _ single ih =>
    rw [List.cons_append, translateNewlines_plain single, ih]
    rfl

theorem mem_translateNewlines {c : Char} {text : List Char} (member : c ∈ translateNewlines text) :
    c ≠ '\r' ∧ (c = '\n' ∨ c ∈ text) := by
  fun_induction translateNewlines text with
  | case1 => exact absurd member (by simp)
  | case2 rest ih => grind
  | case3 rest single ih => grind
  | case4 d rest _ plain ih => grind

theorem translateNewlines_lead {lead : List Char} (plain : '\r' ∉ lead) (rest : List Char) :
    translateNewlines (lead ++ rest) = lead ++ translateNewlines rest := by
  induction lead with
  | nil => rfl
  | cons c lead ih =>
    rw [List.mem_cons, not_or] at plain
    rw [List.cons_append, translateNewlines_plain (Ne.symm plain.1), ih plain.2, List.cons_append]

theorem translateNewlines_eq {text : List Char} (plain : '\r' ∉ text) :
    translateNewlines text = text := by
  have whole := translateNewlines_lead plain []
  rwa [List.append_nil, show translateNewlines [] = [] from rfl, List.append_nil] at whole

/-- A text is received as it is but for its line ends. -/
theorem received_encode (text : List Char) :
    (received (Utf8.encode text)).toList = translateNewlines text := by
  have decoded := Utf8.decode_encode text []
  rw [List.append_nil, show Utf8.decode [] = [] from rfl, List.append_nil] at decoded
  rw [received, String.toList_ofList, decoded]

end AgentRunner.GitOutput
