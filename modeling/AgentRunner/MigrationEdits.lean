import AgentRunner.TextLines

/-! The rewrites of `migrations.py`. They work on the lines of a config's raw text: a line
is a table header, an assignment of a key, or neither, whatever it is to the TOML parser. -/
namespace AgentRunner.MigrationEdits
open TextLines

abbrev Text := List Char

/-! ## Lines and what the patterns see in them -/

/-- A boundary of `str.splitlines`, besides the pair `\r\n`. -/
def isBoundary (c : Char) : Bool :=
  let n := c.toNat
  (0x0A ≤ n && n ≤ 0x0D) || (0x1C ≤ n && n ≤ 0x1E) || n == 0x85 || n == 0x2028 || n == 0x2029

/-- `text.splitlines(keepends=True)`. -/
def splitLines : Text → List Text
  | [] => []
  | '\r' :: '\n' :: rest => ['\r', '\n'] :: splitLines rest
  | c :: rest => if isBoundary c then [c] :: splitLines rest else push c (splitLines rest)

/-- `[ \t]`. -/
def isBlank (c : Char) : Bool := c == ' ' || c == '\t'

/-- The name a `_TABLE_HEADER` line is stripped to. -/
def tableHeader (line : Text) : Option String :=
  match lstrip line with
  | '[' :: rest =>
    let name := rest.takeWhile (· != ']')
    if name.isEmpty || (rest.drop name.length).isEmpty then none
    else some (String.ofList (strip name))
  | _ => none

/-- What an assignment of a key splits into: the indent, the blanks up to and with the
equals sign, and what follows it. -/
structure Assignment where
  indent : Text
  sp : Text
  rest : Text

/-- The match of `^(?P<indent>[ \t]*)key(?P<sp>[ \t]*=)`. -/
def assignment (key : String) (line : Text) : Option Assignment :=
  let afterIndent := line.dropWhile isBlank
  if key.toList.isPrefixOf afterIndent then
    let afterKey := afterIndent.drop key.length
    match afterKey.dropWhile isBlank with
    | '=' :: rest => some ⟨line.takeWhile isBlank, afterKey.takeWhile isBlank ++ ['='], rest⟩
    | _ => none
  else none

/-- The header a rewrite looks under: one name, or every `phases.<name>` with a fixed rest. -/
inductive TableSpec where
  | literal (name : String)
  | phases (suffix : String)

/-- The header's name is the literal, or the pattern's `fullmatch`. -/
def TableSpec.covers : TableSpec → String → Bool
  | .literal name, cur => cur == name
  | .phases suffix, cur =>
    if "phases.".toList.isPrefixOf cur.toList then
      let rest := cur.toList.drop 7
      let name := rest.takeWhile fun c => c != '.' && c != ']'
      !name.isEmpty && rest.drop name.length == suffix.toList
    else false

/-- The indices of the lines under `table` that `hit` selects, from line `i` under `cur`. -/
def tableHits (table : TableSpec) (hit : Text → Bool) (i : Nat) (cur : Option String) :
    List Text → List Nat
  | [] => []
  | line :: lines =>
    match tableHeader line with
    | some name => tableHits table hit (i + 1) (some name) lines
    | none =>
      if cur.any table.covers && hit line then i :: tableHits table hit (i + 1) cur lines
      else tableHits table hit (i + 1) cur lines

/-- A literal table takes exactly one hit, a pattern any number but none. -/
def acceptedHits : TableSpec → List Nat → Option (List Nat)
  | _, [] => none
  | .literal _, [i] => some [i]
  | .literal _, _ :: _ :: _ => none
  | .phases _, hits => some hits

/-- `_find_table_hits`. -/
def findTableHits (key : String) (table : TableSpec) (lines : List Text) : Option (List Nat) :=
  acceptedHits table (tableHits table (fun line => (assignment key line).isSome) 0 none lines)

/-- The lines with those at `hits` rewritten. -/
def rewriteAt (rewrite : Text → Text) (hits : List Nat) (lines : List Text) : List Text :=
  lines.mapIdx fun i line => if hits.contains i then rewrite line else line

/-! ## The rewrites -/

/-- `_rename_key`. -/
def renameKey (old new : String) (table : TableSpec) (text : Text) : Text :=
  let lines := splitLines text
  match findTableHits old table lines with
  | none => text
  | some hits =>
    (rewriteAt (fun line =>
      match assignment old line with
      | some a => a.indent ++ new.toList ++ a.sp ++ a.rest
      | none => line) hits lines).flatten

/-- `_drop_key`. -/
def dropKey (key : String) (table : TableSpec) (text : Text) : Text :=
  let lines := splitLines text
  match findTableHits key table lines with
  | none => text
  | some hits => (rewriteAt (fun _ => []) hits lines).flatten

/-- Where `_relocate_key` inserts: after the last line of the first run of lines under
`toTable`. -/
def destination (toTable : String) (i : Nat) (cur : Option String) (found : Option Nat) :
    List Text → Option Nat
  | [] => found
  | line :: lines =>
    match tableHeader line with
    | some name =>
      if found.isSome && cur == some toTable then found
      else destination toTable (i + 1) (some name) (if name = toTable then some i else found) lines
    | none => destination toTable (i + 1) cur (if cur = some toTable then some i else found) lines

/-- The text ends its last line. -/
def endsLine (line : Text) : Bool := line.getLast? == some '\n'

/-- The last line, if there is one, given its end. -/
def endLastLine (lines : List Text) : List Text :=
  match lines.getLast? with
  | none => lines
  | some last => if endsLine last then lines else lines.dropLast ++ [last ++ ['\n']]

/-- `_relocate_key`. -/
def relocateKey (old new fromTable toTable : String) (text : Text) : Text :=
  let lines := splitLines text
  match tableHits (.literal fromTable) (fun line => (assignment old line).isSome) 0 none lines with
  | [hit] =>
    let line := lines.getD hit []
    let moved := match assignment old line with
      | some a => new.toList ++ a.sp ++ a.rest.takeWhile (· != '\n') ++
          (if endsLine line then ['\n'] else [])
      | none => line
    let kept := lines.eraseIdx hit
    match destination toTable 0 none none kept with
    | some i => (kept.insertIdx (i + 1) moved).flatten
    | none =>
      (endLastLine kept ++ [("[" ++ toTable ++ "]\n").toList, moved]).flatten
  | _ => text

/-- What a bare string assignment splits into. -/
structure BareString where
  indent : Text
  sp : Text
  quote : Char
  val : Text
  rest : Text

/-- The match of `_wrap_bare_string_list`: the value ends at its quote's next occurrence. -/
def bareString (key : String) (line : Text) : Option BareString :=
  match assignment key line with
  | none => none
  | some a =>
    match a.rest.dropWhile isBlank with
    | q :: rest =>
      if q == '"' || q == '\'' then
        let val := rest.takeWhile fun c => c != q && c != '\n'
        match rest.drop val.length with
        | close :: rest =>
          if close == q then
            some ⟨a.indent, a.sp ++ a.rest.takeWhile isBlank, q, val, rest⟩
          else none
        | [] => none
      else none
    | [] => none

/-- `_has_space`. -/
def hasSpace : Option String → Bool
  | none => false
  | some s => s.toList.any isSpace

/-- `_wrap_bare_string_list`. -/
def wrapBareStringList (key : String) (table : TableSpec) (skipSpace : Bool) (text : Text) :
    Text :=
  let lines := splitLines text
  let hit := fun line =>
    match bareString key line with
    | some b => !(skipSpace && b.val.any isSpace)
    | none => false
  match acceptedHits table (tableHits table hit 0 none lines) with
  | none => text
  | some hits =>
    (rewriteAt (fun line =>
      match bareString key line with
      | some b => b.indent ++ key.toList ++ b.sp ++ ['[', b.quote] ++ b.val ++ [b.quote, ']'] ++
          b.rest
      | none => line) hits lines).flatten

/-- The lines before the first header, and those from it on. -/
def topLevel (lines : List Text) : List Text × List Text :=
  lines.span fun line => (tableHeader line).isNone

/-- The text of `_stamp_schema_version` where the version is not current. -/
def stampText (version : Int) (text : Text) : Text :=
  let stamp := s!"schema_version = {version}".toList
  let (top, tables) := topLevel (splitLines text)
  match top.findIdx? fun line => (assignment "schema_version" line).isSome with
  | none => stamp ++ ['\n'] ++ text
  | some hit =>
    (rewriteAt (fun line =>
      match assignment "schema_version" line with
      | some a => a.indent ++ stamp ++ a.rest.dropWhile (· != '\n')
      | none => line) [hit] top ++ tables).flatten

end AgentRunner.MigrationEdits
