import AgentRunner.PromptAssembly
import AgentRunner.ContextStore
import AgentRunner.MonthFiles
import AgentRunner.Events
import AgentRunner.Shards
import AgentRunner.TornTail
import AgentRunner.HostHealth
import Mathlib.Data.List.Sort

/-! The configuration label of a round. Every `round_start` carries a digest of the
round's prompt files, checks and agent settings, and names and paths only when the
digest is not that of the `round_start` before it: the log is a delta encoding of the
settings the rounds ran with. -/
namespace AgentRunner.ConfigDigest
open PyValue JsonText JsonRoundTrip ConfigModels EventFile EmittedEvents MonthFiles Shards

/-! ## The digest -/

mutual
/-- `sort_keys=True`. -/
def sortKeys : Json → Json
  | .arr items => .arr (sortItems items)
  | .obj fields => .obj ((sortFields fields).insertionSort fun a b => a.1 ≤ b.1)
  | v => v

def sortItems : List Json → List Json
  | [] => []
  | v :: rest => sortKeys v :: sortItems rest

def sortFields : List (String × Json) → List (String × Json)
  | [] => []
  | (key, v) :: rest => (key, sortKeys v) :: sortFields rest
end

/-- What `digest_payload` collects. -/
structure DigestPayload where
  promptFiles : List String
  promptFileSha256 : List (Option String)
  checks : List (String × List String)
  vcsDirtyAction : String
  promptDelivery : String
  agentEnv : List (String × String)

def strings (texts : List String) : Json := .arr (texts.map .str)

def optional : Option String → Json
  | none => .null
  | some text => .str text

/-- The payload as the `dict` it is. -/
def DigestPayload.toJson (p : DigestPayload) : Json :=
  .obj [("prompt_files", strings p.promptFiles),
    ("prompt_file_sha256", .arr (p.promptFileSha256.map optional)),
    ("checks", .arr (p.checks.map fun c => .obj [("name", .str c.1), ("cmd", strings c.2)])),
    ("vcs_dirty_action", .str p.vcsDirtyAction), ("prompt_delivery", .str p.promptDelivery),
    ("agent_env", .arr (p.agentEnv.map fun e => strings [e.1, e.2]))]

/-- `path.read_bytes()` at one moment; `none` is an `OSError`. -/
abbrev Files := String → Option (List UInt8)

section
variable (env : Validators.Env) (i : Interpreter) (sha256 : List UInt8 → String)

/-- The prompt files that count for a phase. -/
def listedFiles (cfg : Config) (phase : Option String) : List String :=
  match (cfg.profileFor phase).promptFiles with
  | some files => files
  | none => if !cfg.prompt.files.isEmpty then cfg.prompt.files else cfg.prompt.file.toList

/-- The checks of `[goal]`, if there is one. -/
def goalChecks (cfg : Config) : List (String × List String) :=
  match cfg.goal with
  | some goal => goal.checks.map fun c => (c.name, c.cmd)
  | none => []

/-- `sorted(env.items())`. -/
def sortedEnv (items : List (String × String)) : List (String × String) :=
  items.insertionSort fun a b => a.1 < b.1 ∨ a.1 = b.1 ∧ a.2 ≤ b.2

/-- `digest_payload`. -/
def digestPayload (files : Files) (cfg : Config) (phase : Option String) : DigestPayload :=
  let agent := (cfg.profileFor phase).agent
  let listed := listedFiles cfg phase
  { promptFiles := listed
    promptFileSha256 :=
      (listed.map (PromptAssembly.resolved env cfg)).map fun path => (files path).map sha256
    checks := goalChecks cfg
    vcsDirtyAction := cfg.vcs.dirtyAction
    promptDelivery := agent.promptDelivery
    agentEnv := sortedEnv agent.env }

/-- What `_digest_hex` hashes. -/
def blob (p : DigestPayload) : List UInt8 :=
  Utf8.encode (write i .compact 0 (sortKeys p.toJson))

/-- `_digest_hex`. -/
def digestHex (p : DigestPayload) : String := sha256 (blob i p)

/-- `_snapshot`. -/
def snapshot (p : DigestPayload) : Event :=
  [("config_prompt_files", strings p.promptFiles),
    ("config_check_names", strings (p.checks.map Prod.fst)),
    ("config_vcs_dirty_action", .str p.vcsDirtyAction),
    ("config_prompt_delivery", .str p.promptDelivery)]

/-- What `last_round_start_digest` makes of one more event. -/
def digestStep (last : Option String) (ev : Event) : Option String :=
  if isKind ev "round_start" = false then last
  else match get ev "config_digest" with
    | .str digest => if digest = "" then last else some digest
    | _ => last

/-- `last_round_start_digest`, from the events of all month files, oldest first. -/
def lastRoundStartDigest (events : List Event) : Option String := events.foldl digestStep none

/-- `round_start_fields`. -/
def roundStartFields (files : Files) (cfg : Config) (phase : Option String)
    (events : List Event) (roundNum : Int) : Event :=
  let payload := digestPayload env sha256 files cfg phase
  let digest := digestHex i sha256 payload
  let changed := decide (lastRoundStartDigest events ≠ some digest)
  let fields := [("round_num", .int roundNum), ("phase", optional phase),
    ("config_digest", .str digest), ("config_changed", .bool changed)]
  if changed then fields ++ snapshot payload else fields

end

/-! ## A digest stands for its payload -/

theorem sortItems_eq_map (items : List Json) : sortItems items = items.map sortKeys := by
  induction items with
  | nil => rfl
  | cons v items ih => rw [sortItems, ih, List.map_cons]

theorem sortKeys_strings (texts : List String) : sortKeys (strings texts) = strings texts := by
  rw [strings, sortKeys, sortItems_eq_map, List.map_map]
  congr 1

theorem sortKeys_optional (text : Option String) : sortKeys (optional text) = optional text := by
  cases text <;> rfl

/-- The payload as it is hashed. -/
def DigestPayload.canonical (p : DigestPayload) : Json :=
  .obj [("agent_env", .arr (p.agentEnv.map fun e => strings [e.1, e.2])),
    ("checks", .arr (p.checks.map fun c => .obj [("cmd", strings c.2), ("name", .str c.1)])),
    ("prompt_delivery", .str p.promptDelivery),
    ("prompt_file_sha256", .arr (p.promptFileSha256.map optional)),
    ("prompt_files", strings p.promptFiles), ("vcs_dirty_action", .str p.vcsDirtyAction)]

theorem sortKeys_toJson (p : DigestPayload) : sortKeys p.toJson = p.canonical := by
  have checks : (sortKeys ∘ fun c : String × List String =>
      Json.obj [("name", .str c.1), ("cmd", strings c.2)]) =
      fun c => .obj [("cmd", strings c.2), ("name", .str c.1)] := by
    funext c
    simp [sortKeys, sortFields, sortKeys_strings, List.insertionSort, List.orderedInsert]
  have entries : (sortKeys ∘ fun e : String × String => strings [e.1, e.2]) =
      fun e => strings [e.1, e.2] := by
    funext e
    exact sortKeys_strings _
  have hashes : sortKeys ∘ optional = optional := funext sortKeys_optional
  rw [DigestPayload.toJson, DigestPayload.canonical]
  simp [sortKeys, sortFields, sortKeys_strings, sortItems_eq_map, checks, entries, hashes,
    List.insertionSort, List.orderedInsert]

theorem storableItems_of_forall {i : Interpreter} {depth : Nat} {items : List Json}
    (storable : ∀ v ∈ items, Storable i depth v) : StorableItems i depth items := by
  induction items with
  | nil => trivial
  | cons v items ih =>
    obtain ⟨first, others⟩ := List.forall_mem_cons.mp storable
    exact ⟨first, ih others⟩

theorem storable_strings {i : Interpreter} {depth : Nat} (deep : depth < i.maxDepth)
    (texts : List String) : Storable i depth (strings texts) := by
  refine ⟨deep, storableItems_of_forall fun v member => ?_⟩
  obtain ⟨text, -, rfl⟩ := List.mem_map.mp member
  trivial

theorem storable_canonical {i : Interpreter} (deep : 4 ≤ i.maxDepth) (p : DigestPayload) :
    Storable i 0 p.canonical := by
  refine ⟨by omega, by simp, ⟨by omega, ?_⟩, ⟨by omega, ?_⟩, trivial, ⟨by omega, ?_⟩,
    storable_strings (by omega) _, trivial, trivial⟩
  · refine storableItems_of_forall fun v member => ?_
    obtain ⟨e, -, rfl⟩ := List.mem_map.mp member
    exact storable_strings (by omega) _
  · refine storableItems_of_forall fun v member => ?_
    obtain ⟨c, -, rfl⟩ := List.mem_map.mp member
    exact ⟨by omega, by simp, storable_strings (by omega) _, trivial, trivial⟩
  · refine storableItems_of_forall fun v member => ?_
    obtain ⟨text, -, rfl⟩ := List.mem_map.mp member
    cases text <;> trivial

theorem strings_injective {a b : List String} (same : strings a = strings b) : a = b :=
  List.map_injective_iff.mpr (fun _ _ same => Json.str.inj same) (Json.arr.inj same)

theorem canonical_injective {p q : DigestPayload} (same : p.canonical = q.canonical) : p = q := by
  obtain ⟨files, hashes, checks, dirty, delivery, entries⟩ := p
  obtain ⟨files', hashes', checks', dirty', delivery', entries'⟩ := q
  simp only [DigestPayload.canonical, Json.obj.injEq, List.cons.injEq, Prod.mk.injEq, true_and,
    Json.str.injEq, Json.arr.injEq, and_true] at same
  obtain ⟨sameEntries, sameChecks, rfl, sameHashes, sameFiles, rfl⟩ := same
  have optional_injective : Function.Injective optional := by
    intro a b same
    cases a <;> cases b <;> simp_all [optional]
  have entry_injective : Function.Injective fun e : String × String => strings [e.1, e.2] := by
    intro a b same
    have pair := strings_injective same
    simp only [List.cons.injEq, and_true] at pair
    exact Prod.ext pair.1 pair.2
  have check_injective : Function.Injective fun c : String × List String =>
      Json.obj [("cmd", strings c.2), ("name", .str c.1)] := by
    intro a b same
    simp only [Json.obj.injEq, List.cons.injEq, Prod.mk.injEq, true_and, Json.str.injEq,
      and_true] at same
    exact Prod.ext same.2 (strings_injective same.1)
  rw [strings_injective sameFiles, optional_injective.list_map sameHashes,
    check_injective.list_map sameChecks, entry_injective.list_map sameEntries]

/-- **Payloads that differ are hashed from different bytes.**  The hashed text reads
back as the payload, whatever its strings contain. -/
theorem blob_injective {i : Interpreter} (deep : 4 ≤ i.maxDepth) {p q : DigestPayload}
    (same : blob i p = blob i q) : p = q := by
  have reads (p : DigestPayload) :
      loads i (Utf8.decode (blob i p)) = .ok (some p.canonical) := by
    have written := loads_write_alone i .compact (storable_canonical deep p)
    have decoded := Utf8.decode_encode (write i .compact 0 p.canonical) []
    rw [List.append_nil] at decoded
    rw [blob, sortKeys_toJson, decoded, ← written]
    exact congrArg (loads i) (List.append_nil _)
  have both := (reads p).symm.trans ((congrArg _ (congrArg _ same)).trans (reads q))
  exact canonical_injective (Option.some.inj (Except.ok.inj both))

/-! ## Runs -/

/-- A `round_start`: the clock, the files and the configuration the round finds. -/
structure Start where
  reading : Reading
  files : Files
  cfg : Config
  phase : Option String
  roundNum : Int

/-- What is written to the log: a `round_start`, or any other event. -/
inductive Entry where
  | start (s : Start)
  | other (e : Emitted) (foreign : e.kind ≠ "round_start")

/-- What the digest is meant to tell apart. -/
structure Inputs where
  files : List String
  contents : List (Option (List UInt8))
  checks : List (String × List String)
  vcsDirtyAction : String
  promptDelivery : String
  agentEnv : List (String × String)

/-- The events of all month files, oldest file first. -/
def scanAll (journal : Journal) : List Event := (Shards.files journal).flatMap Prod.snd

/-- The settings in force after these events: those of the newest change. -/
def snapshotStep (held : Option Event) (ev : Event) : Option Event :=
  match isKind ev "round_start", get ev "config_changed" with
  | true, .bool true =>
    some (["config_prompt_files", "config_check_names", "config_vcs_dirty_action",
      "config_prompt_delivery"].map fun key => (key, get ev key))
  | _, _ => held

def snapshotInForce (events : List Event) : Option Event := events.foldl snapshotStep none

def Entry.started : Entry → Option Start
  | .start s => some s
  | .other _ _ => none

/-- The newest `round_start`. -/
def lastStart (entries : List Entry) : Option Start := (entries.filterMap Entry.started).getLast?

section
variable (env : Validators.Env) (i : Interpreter) (sha256 : List UInt8 → String)

def Start.inputs (s : Start) : Inputs where
  files := listedFiles s.cfg s.phase
  contents := ((listedFiles s.cfg s.phase).map (PromptAssembly.resolved env s.cfg)).map s.files
  checks := goalChecks s.cfg
  vcsDirtyAction := s.cfg.vcs.dirtyAction
  promptDelivery := (s.cfg.profileFor s.phase).agent.promptDelivery
  agentEnv := sortedEnv (s.cfg.profileFor s.phase).agent.env

def Start.payload (s : Start) : DigestPayload := digestPayload env sha256 s.files s.cfg s.phase

theorem roundStartFields_plain (files : Files) (cfg : Config) (phase : Option String)
    (events : List Event) (roundNum : Int) :
    ∀ field ∈ roundStartFields env i sha256 files cfg phase events roundNum,
      field.1 ≠ "ts" ∧ field.1 ≠ "event" := by
  intro field member
  have names : field.1 ∈ ["round_num", "phase", "config_digest", "config_changed",
      "config_prompt_files", "config_check_names", "config_vcs_dirty_action",
      "config_prompt_delivery"] := by
    rw [roundStartFields] at member
    split at member
    · exact List.mem_map_of_mem member
    · exact List.mem_append_left _ (List.mem_map_of_mem member)
  simp only [List.mem_cons, List.not_mem_nil, or_false] at names
  rcases names with same | same | same | same | same | same | same | same <;> rw [same] <;> decide

/-- The event a start is logged as. -/
def Start.emitted (journal : Journal) (s : Start) : Emitted where
  reading := s.reading.1
  utc := s.reading.2
  kind := "round_start"
  fields := roundStartFields env i sha256 s.files s.cfg s.phase (scanAll journal) s.roundNum
  plain := roundStartFields_plain env i sha256 s.files s.cfg s.phase (scanAll journal) s.roundNum

def append (journal : Journal) : Entry → Journal
  | .start s => write journal (s.emitted env i sha256 journal)
  | .other e _ => write journal e

def logOf (entries : List Entry) : Journal := entries.foldl (append env i sha256) []

/-- The byte strings a run puts through the hash. -/
def digested (entries : List Entry) : Set (List UInt8) :=
  {bytes | ∃ s, Entry.start s ∈ entries ∧
    (some bytes ∈ (s.inputs env).contents ∨ bytes = blob i (s.payload env sha256))}

variable {env i sha256}

theorem hashes_injOn {inputs : Set (List UInt8)} (collisionFree : Set.InjOn sha256 inputs)
    {a b : List (Option (List UInt8))} (inA : ∀ bytes, some bytes ∈ a → bytes ∈ inputs)
    (inB : ∀ bytes, some bytes ∈ b → bytes ∈ inputs)
    (same : a.map (Option.map sha256) = b.map (Option.map sha256)) : a = b := by
  induction a generalizing b with
  | nil => exact (List.map_eq_nil_iff.mp same.symm).symm
  | cons x a ih =>
    cases b with
    | nil => cases same
    | cons y b =>
      rw [List.map_cons, List.map_cons, List.cons.injEq] at same
      rw [ih (fun _ member => inA _ (.tail _ member)) (fun _ member => inB _ (.tail _ member)) same.2]
      congr 1
      cases x with
      | none =>
        cases y with
        | none => rfl
        | some d => cases same.1
      | some c =>
        cases y with
        | none => cases same.1
        | some d =>
          rw [collisionFree (inA c (.head _)) (inB d (.head _)) (Option.some.inj same.1)]

theorem payload_of_inputs (s : Start) :
    s.payload env sha256 = ⟨(s.inputs env).files, (s.inputs env).contents.map (Option.map sha256),
      (s.inputs env).checks, (s.inputs env).vcsDirtyAction, (s.inputs env).promptDelivery,
      (s.inputs env).agentEnv⟩ := by
  simp only [Start.payload, Start.inputs, digestPayload, List.map_map]
  rfl

/-- Starts with different inputs have different payloads, unless the hash collides. -/
theorem payload_eq_iff {entries : List Entry} {s p : Start}
    (collisionFree : Set.InjOn sha256 (digested env i sha256 entries))
    (ran : Entry.start s ∈ entries) (before : Entry.start p ∈ entries) :
    p.payload env sha256 = s.payload env sha256 ↔ p.inputs env = s.inputs env := by
  have pHashed : ∀ bytes, some bytes ∈ (p.inputs env).contents →
      bytes ∈ digested env i sha256 entries :=
    fun bytes member => ⟨p, before, .inl member⟩
  have sHashed : ∀ bytes, some bytes ∈ (s.inputs env).contents →
      bytes ∈ digested env i sha256 entries :=
    fun bytes member => ⟨s, ran, .inl member⟩
  rw [payload_of_inputs, payload_of_inputs]
  constructor
  · intro same
    simp only [DigestPayload.mk.injEq] at same
    obtain ⟨files, hashes, checks, dirty, delivery, items⟩ := same
    have contents := hashes_injOn collisionFree pHashed sHashed hashes
    cases p_inputs : p.inputs env
    cases s_inputs : s.inputs env
    simp_all
  · intro same
    rw [same]

theorem digest_eq_iff (deep : 4 ≤ i.maxDepth) {entries : List Entry} {s p : Start}
    (collisionFree : Set.InjOn sha256 (digested env i sha256 entries))
    (ran : Entry.start s ∈ entries) (before : Entry.start p ∈ entries) :
    digestHex i sha256 (p.payload env sha256) = digestHex i sha256 (s.payload env sha256) ↔
      p.inputs env = s.inputs env := by
  rw [← payload_eq_iff collisionFree ran before]
  refine ⟨fun same => blob_injective deep ?_, fun same => by rw [same]⟩
  exact collisionFree ⟨p, before, .inr rfl⟩ ⟨s, ran, .inr rfl⟩ same

/-! ## What the events hold -/

/-- A field that is neither stamp nor kind is what the caller gave. -/
theorem get_field (e : Emitted) (distinct : (e.fields.map Prod.fst).Nodup) {key : String}
    (own : key ≠ "ts" ∧ key ≠ "event") : get e.event key = get e.fields key := by
  have reserved : ([("ts", Json.str (IsoTime.isoMs e.reading)), ("event", .str e.kind)] :
      Event).lookup key = none := by
    rw [Dict.lookup_cons_if, if_neg own.1, Dict.lookup_cons_if, if_neg own.2]
    rfl
  rw [PyValue.get, PyValue.get, Emitted.event, EventFile.payload, Dict.lookup_foldl_put distinct,
    reserved, Option.or_none]

theorem roundStartFields_distinct (files : Files) (cfg : Config) (phase : Option String)
    (events : List Event) (roundNum : Int) :
    ((roundStartFields env i sha256 files cfg phase events roundNum).map Prod.fst).Nodup := by
  rw [roundStartFields]
  split <;> simp [snapshot]

/-- What a `round_start` says of its own settings. -/
theorem get_start (journal : Journal) (s : Start) {key : String}
    (own : key ≠ "ts" ∧ key ≠ "event") :
    get (s.emitted env i sha256 journal).event key =
      get (roundStartFields env i sha256 s.files s.cfg s.phase (scanAll journal) s.roundNum) key :=
  get_field _ (roundStartFields_distinct ..) own

theorem get_digest (journal : Journal) (s : Start) :
    get (s.emitted env i sha256 journal).event "config_digest" =
      .str (digestHex i sha256 (s.payload env sha256)) := by
  rw [get_start journal s (by decide), roundStartFields]
  split <;> rfl

theorem get_changed (journal : Journal) (s : Start) :
    get (s.emitted env i sha256 journal).event "config_changed" =
      .bool (decide (lastRoundStartDigest (scanAll journal) ≠
        some (digestHex i sha256 (s.payload env sha256)))) := by
  rw [get_start journal s (by decide), roundStartFields]
  split <;> rfl

theorem snapshot_of_changed {journal : Journal} {s : Start}
    (changed : lastRoundStartDigest (scanAll journal) ≠
      some (digestHex i sha256 (s.payload env sha256))) (held : Option Event) :
    snapshotStep held (s.emitted env i sha256 journal).event =
      some (snapshot (s.payload env sha256)) := by
  have kind : isKind (s.emitted env i sha256 journal).event "round_start" = true := by
    rw [isKind_event]
    rfl
  have fields (key : String) (own : key ≠ "ts" ∧ key ≠ "event") :=
    @get_start env i sha256 journal s key own
  rw [snapshotStep, kind, get_changed, decide_eq_true changed]
  simp only [List.map_cons, List.map_nil]
  rw [fields "config_prompt_files" (by decide), fields "config_check_names" (by decide),
    fields "config_vcs_dirty_action" (by decide), fields "config_prompt_delivery" (by decide)]
  rw [roundStartFields]
  simp only [Start.payload] at changed
  simp only [if_pos (decide_eq_true changed)]
  rfl

/-! ## What the log holds -/

theorem logOf_concat (entries : List Entry) (entry : Entry) :
    logOf env i sha256 (entries ++ [entry]) = append env i sha256 (logOf env i sha256 entries) entry :=
  List.foldl_concat ..

theorem lastStart_concat (entries : List Entry) (entry : Entry) :
    lastStart (entries ++ [entry]) = entry.started.or (lastStart entries) := by
  rw [lastStart, List.filterMap_append]
  cases entry <;> simp [Entry.started, lastStart]

theorem digestStep_start (nonempty : ∀ bytes, sha256 bytes ≠ "") (journal : Journal) (s : Start)
    (last : Option String) :
    digestStep last (s.emitted env i sha256 journal).event =
      some (digestHex i sha256 (s.payload env sha256)) := by
  have kind : isKind (s.emitted env i sha256 journal).event "round_start" = true := by
    rw [isKind_event]
    rfl
  rw [digestStep, if_neg (by rw [kind]; decide), get_digest]
  exact if_neg (nonempty _)

/-- The log stands for its newest `round_start`: the digest a reader finds is that
start's, and so are the settings in force. -/
structure Holds (env : Validators.Env) (i : Interpreter) (sha256 : List UInt8 → String)
    (entries : List Entry) : Prop where
  digest : lastRoundStartDigest ((logOf env i sha256 entries).map Prod.snd) =
    (lastStart entries).map fun s => digestHex i sha256 (s.payload env sha256)
  settings : snapshotInForce ((logOf env i sha256 entries).map Prod.snd) =
    (lastStart entries).map fun s => snapshot (s.payload env sha256)

theorem started_mem {entries : List Entry} {s : Start} (last : lastStart entries = some s) :
    Entry.start s ∈ entries := by
  obtain ⟨entry, member, started⟩ := List.mem_filterMap.mp (List.mem_of_getLast? last)
  cases entry with
  | start p => cases started; exact member
  | other e foreign => cases started

theorem holds_of_run (deep : 4 ≤ i.maxDepth) (nonempty : ∀ bytes, sha256 bytes ≠ "")
    {all entries : List Entry} (collisionFree : Set.InjOn sha256 (digested env i sha256 all))
    (part : ∀ entry ∈ entries, entry ∈ all) (ordered : InOrder (logOf env i sha256 entries)) :
    Holds env i sha256 entries := by
  induction entries using List.reverseRecOn with
  | nil => exact ⟨rfl, rfl⟩
  | append_singleton entries entry ih =>
    obtain ⟨earlier, new⟩ := List.forall_mem_append.mp part
    rw [logOf_concat] at ordered
    cases entry with
    | other e foreign =>
      have quiet : isKind e.event "round_start" = false := by
        rw [isKind_event]
        exact beq_eq_false_iff_ne.mpr foreign
      have before := ih earlier (InOrder.earlier ordered)
      refine ⟨?_, ?_⟩ <;> rw [logOf_concat, lastStart_concat]
      · simp only [append, MonthFiles.write, List.map_append, List.map_cons, List.map_nil, Entry.started,
          Option.none_or, ← before.digest, lastRoundStartDigest, List.foldl_append, List.foldl_cons,
          List.foldl_nil]
        exact if_pos quiet
      · simp only [append, MonthFiles.write, List.map_append, List.map_cons, List.map_nil, Entry.started,
          Option.none_or, ← before.settings, snapshotInForce, List.foldl_append, List.foldl_cons,
          List.foldl_nil, snapshotStep, quiet]
    | start s =>
      have before := ih earlier (InOrder.earlier ordered)
      have flat : scanAll (logOf env i sha256 entries) =
          (logOf env i sha256 entries).map Prod.snd := files_flat (InOrder.earlier ordered)
      refine ⟨?_, ?_⟩ <;> rw [logOf_concat, lastStart_concat]
      · simp only [append, MonthFiles.write, List.map_append, List.map_cons, List.map_nil, Entry.started,
          Option.some_or, lastRoundStartDigest, List.foldl_append, List.foldl_cons, List.foldl_nil,
          digestStep_start nonempty, Option.map_some]
      · simp only [append, MonthFiles.write, List.map_append, List.map_cons, List.map_nil, Entry.started,
          Option.some_or, snapshotInForce, List.foldl_append, List.foldl_cons, List.foldl_nil,
          Option.map_some]
        by_cases changed : lastRoundStartDigest (scanAll (logOf env i sha256 entries)) ≠
            some (digestHex i sha256 (s.payload env sha256))
        · exact snapshot_of_changed changed _
        · have same : lastRoundStartDigest (scanAll (logOf env i sha256 entries)) =
              some (digestHex i sha256 (s.payload env sha256)) := not_not.mp changed
          have kept : snapshotStep (snapshotInForce ((logOf env i sha256 entries).map Prod.snd))
              (s.emitted env i sha256 (logOf env i sha256 entries)).event =
                snapshotInForce ((logOf env i sha256 entries).map Prod.snd) := by
            rw [snapshotStep, get_changed, decide_eq_false changed]
            split <;> simp_all
          rw [flat, before.digest] at same
          obtain ⟨p, last, digest⟩ := Option.map_eq_some_iff.mp same
          have inputs := (digest_eq_iff deep collisionFree (new _ (.head _))
            (earlier _ (started_mem last))).mp digest
          have payload := (payload_eq_iff collisionFree (new _ (.head _))
            (earlier _ (started_mem last))).mpr inputs
          rw [snapshotInForce] at kept
          rw [kept, ← snapshotInForce, before.settings, last, Option.map_some, payload]

/-- Later entries leave the log written so far in front. -/
theorem logOf_append (before after : List Entry) :
    ∃ later, logOf env i sha256 (before ++ after) = logOf env i sha256 before ++ later := by
  induction after using List.reverseRecOn with
  | nil => exact ⟨[], by rw [List.append_nil, List.append_nil]⟩
  | append_singleton after entry ih =>
    obtain ⟨later, logged⟩ := ih
    rw [← List.append_assoc, logOf_concat, logged]
    cases entry <;> exact ⟨_, List.append_assoc ..⟩

end

/-- A hash without collisions. -/
def spelled (bytes : List UInt8) : String :=
  String.ofList ('x' :: bytes.map fun byte => Char.ofNat byte.toNat)

theorem spelled_injective : Function.Injective spelled := by
  intro a b same
  have chars := (List.cons.inj (String.ofList_injective same)).2
  refine List.map_injective_iff.mpr (fun x y alike => ?_) chars
  have codes := congrArg Char.toNat alike
  have small (byte : UInt8) : (Char.ofNat byte.toNat).toNat = byte.toNat := by
    have valid : byte.toNat.isValidChar := .inl (by have := byte.toNat_lt; omega)
    rw [Char.ofNat, dif_pos valid]
    rfl
  simp only [small] at codes
  exact UInt8.toNat_inj.mp codes

/-- One prompt file and nothing else. -/
def promptOnly : Config where
  agent := ⟨["claude"], ["\x7bprompt\x7d"], none, [], "argv", [], "", 5⟩
  runtime := ⟨"/repo", "/log", 3600, 5, 20, none, "retry", none, none, [], none, false, 0, []⟩
  prompt := ⟨some "prompt.md", [], false, "prepend", "", false⟩
  vcs := ⟨0, "stash"⟩
  monitor := ⟨[], "", [], 0, 0, 0, HostHealth.defaultHealth, 0, none⟩
  phases := ⟨none, [], "wait"⟩
  plugins := ⟨[]⟩
  schedule := ⟨none, [], []⟩
  goal := none

theorem newYear_utc : TornTail.newYear.offset = some 0 := rfl

/-- The round that finds these bytes in its prompt file. -/
def startWith (bytes : List UInt8) (roundNum : Int) : Start :=
  ⟨⟨TornTail.newYear, newYear_utc⟩, fun _ => some bytes, promptOnly, none, roundNum⟩

end AgentRunner.ConfigDigest
