import AgentRunner.RoundEnv
import Mathlib.Data.Finset.Lattice.Lemmas
import Mathlib.Data.List.Nodup
import Mathlib.Data.List.Pairwise

/-! The two registries of the plugins, `_plugin_manifest.py` over `hooks.py`: what a manifest
registers, what disabling it takes away again, and what it leaves behind. -/
namespace AgentRunner.PluginRegistry
open ConfigModels RoundEnv

/-! ## The registries -/

/-- A whole `PluginManifest`: its hooks beside what the rounds are given of it. -/
structure Manifest (Hook : Type) extends PluginManifest where
  postRoundHooks : List Hook

/-- `hooks._POST_ROUND_HOOKS` and `_LOADED_MANIFESTS`. -/
structure Registries (Hook : Type) where
  postRoundHooks : List Hook
  loadedManifests : List (Manifest Hook)

section Registering
variable {Hook : Type} (hookName : Hook → String) (repr : String → String)

/-- `ensure_unique`, with the names of what exists. -/
def ensureUnique (name : String) (existing : List String) (kind : String) : Except String Unit :=
  if name ∈ existing then
    .error (kind ++ " " ++ repr name ++ " already registered; refusing to add a second")
  else .ok ()

/-- `register_post_round_hook`. -/
def registerPostRoundHook (registry : List Hook) (hook : Hook) : Except String (List Hook) := do
  ensureUnique repr (hookName hook) (registry.map hookName) "post_round_hook"
  return registry ++ [hook]

/-- The loop of `register_manifest`: what it has registered stays where it raises. -/
def registerHooks : List Hook → List Hook → List Hook × Except String Unit
  | registry, [] => (registry, .ok ())
  | registry, hook :: rest =>
    match registerPostRoundHook hookName repr registry hook with
    | .error e => (registry, .error e)
    | .ok registry => registerHooks registry rest

/-- `register_manifest`. -/
def registerManifest (r : Registries Hook) (manifest : Manifest Hook) :
    Registries Hook × Except String Unit :=
  match ensureUnique repr manifest.name (r.loadedManifests.map (·.name)) "plugin manifest" with
  | .error e => (r, .error e)
  | .ok () =>
    match registerHooks hookName repr r.postRoundHooks manifest.postRoundHooks with
    | (hooks, .error e) => (⟨hooks, r.loadedManifests⟩, .error e)
    | (hooks, .ok ()) => (⟨hooks, r.loadedManifests ++ [manifest]⟩, .ok ())

/-- One call after another, whatever each of them raises. -/
def registerAll (manifests : List (Manifest Hook)) : Registries Hook :=
  manifests.foldl (fun r manifest => (registerManifest hookName repr r manifest).1) ⟨[], []⟩

end Registering

section Disabling
variable {Hook : Type} [DecidableEq Hook]

/-- `_remove_by_identity`. -/
def removeByIdentity (registry items : List Hook) : List Hook :=
  registry.filter fun hook => hook ∉ items

/-- One turn of `unregister_by_name`. -/
def unregisterOne (names : Finset String) (state : List Hook × Finset String)
    (manifest : Manifest Hook) : List Hook × Finset String :=
  if manifest.name ∉ names then state
  else (removeByIdentity state.1 manifest.postRoundHooks, insert manifest.name state.2)

/-- `unregister_by_name`: the registries, and the names that were found. -/
def unregisterByName (r : Registries Hook) (names : Finset String) :
    Registries Hook × Finset String :=
  let (hooks, found) := r.loadedManifests.foldl (unregisterOne names) (r.postRoundHooks, ∅)
  ({ r with postRoundHooks := hooks }, found)

end Disabling

/-! ## The resolvers -/

/-- What the rounds are given of the loaded manifests. -/
def Registries.manifests {Hook : Type} (r : Registries Hook) : List PluginManifest :=
  r.loadedManifests.map (·.toPluginManifest)

section Resolving
variable (manifests : List PluginManifest)

/-- `is_cooperative_agent`. -/
def isCooperativeAgent (agentBinary : Option String) : Bool :=
  (resolveCooperativeSignal manifests agentBinary).isSome

/-- `resolve_sigterm_grace_s`. -/
def resolveSigtermGrace (agentBinary : Option String) (sigtermGraceS : Int) : Int :=
  if isCooperativeAgent manifests agentBinary then sigtermGraceS else reapGraceS

/-- Serve asks it for the agent of a phase. -/
theorem resolveSigtermGraceS_agent (agent : AgentConfig) :
    resolveSigtermGraceS manifests agent =
      resolveSigtermGrace manifests (binary agent) agent.sigtermGraceS := rfl

end Resolving

/-! ## Who owns a hook -/

/-- No two hooks share a name and no two manifests do; a loaded manifest has its hooks in the
registry, and shares none with another. -/
structure Owned {Hook : Type} (hookName : Hook → String) (r : Registries Hook) : Prop where
  hooks : (r.postRoundHooks.map hookName).Nodup
  names : (r.loadedManifests.map (·.name)).Nodup
  held : ∀ m ∈ r.loadedManifests, m.postRoundHooks ⊆ r.postRoundHooks
  apart : r.loadedManifests.Pairwise fun m other => ∀ hook ∈ m.postRoundHooks,
    hook ∉ other.postRoundHooks

section Owning
variable {Hook : Type} {hookName : Hook → String} {repr : String → String} {r : Registries Hook}

theorem ensureUnique_ok {name kind : String} {existing : List String} :
    ensureUnique repr name existing kind = .ok () ↔ name ∉ existing := by
  unfold ensureUnique
  split <;> simp_all

/-- The hooks a call leaves in the registry, and that they are all new to it. -/
theorem registerHooks_appends (registry hooks : List Hook)
    (unique : (registry.map hookName).Nodup) :
    ∃ added, (registerHooks hookName repr registry hooks).1 = registry ++ added ∧
      ((registry ++ added).map hookName).Nodup ∧
      ((registerHooks hookName repr registry hooks).2 = .ok () → added = hooks) := by
  induction hooks generalizing registry with
  | nil => exact ⟨[], (List.append_nil _).symm, by rwa [List.append_nil], fun _ => rfl⟩
  | cons hook rest ih =>
    unfold registerHooks registerPostRoundHook
    cases check : ensureUnique repr (hookName hook) (registry.map hookName) "post_round_hook" with
    | error e =>
      exact ⟨[], (List.append_nil _).symm, by rwa [List.append_nil], fun ok => by cases ok⟩
    | ok done =>
      have fresh := ensureUnique_ok.mp check
      have grown : ((registry ++ [hook]).map hookName).Nodup := by
        rw [List.map_append, List.nodup_append]
        refine ⟨unique, List.nodup_singleton _, ?_⟩
        rintro name held _ (_ | ⟨_, ⟨⟩⟩) rfl
        exact fresh held
      obtain ⟨added, same, nodup, whole⟩ := ih (registry ++ [hook]) grown
      refine ⟨hook :: added, ?_, ?_, fun ok => ?_⟩
      · simpa using same
      · simpa using nodup
      · rw [whole ok]

theorem Owned.registerManifest (owned : Owned hookName r)
    (manifest : Manifest Hook) : Owned hookName (registerManifest hookName repr r manifest).1 := by
  unfold PluginRegistry.registerManifest
  cases check : ensureUnique repr manifest.name (r.loadedManifests.map (·.name))
      "plugin manifest" with
  | error e => exact owned
  | ok done =>
    obtain ⟨added, same, nodup, whole⟩ :=
      @registerHooks_appends Hook hookName repr r.postRoundHooks manifest.postRoundHooks owned.hooks
    cases ran : registerHooks hookName repr r.postRoundHooks manifest.postRoundHooks with
    | mk hooks outcome =>
      rw [ran] at same whole
      dsimp only at same whole
      subst same
      cases outcome with
      | error e =>
        exact ⟨nodup, owned.names, fun m member =>
          List.subset_append_of_subset_left _ (owned.held m member), owned.apart⟩
      | ok done =>
        cases whole rfl
        have absent := ensureUnique_ok.mp check
        have foreign : ∀ hook ∈ r.postRoundHooks, hook ∉ manifest.postRoundHooks := by
          rw [List.map_append] at nodup
          intro hook old new
          exact List.disjoint_of_nodup_append nodup (List.mem_map_of_mem old)
            (List.mem_map_of_mem new)
        refine ⟨nodup, ?_, ?_, ?_⟩
        · rw [List.map_append, List.nodup_append]
          refine ⟨owned.names, List.nodup_singleton _, ?_⟩
          rintro name held _ (_ | ⟨_, ⟨⟩⟩) rfl
          exact absent held
        · intro m member
          obtain old | new := List.mem_append.mp member
          · exact List.subset_append_of_subset_left _ (owned.held m old)
          · rw [List.mem_singleton.mp new]
            exact List.subset_append_right _ _
        · refine List.pairwise_append.mpr ⟨owned.apart, List.pairwise_singleton _ _, ?_⟩
          intro m old _ new hook held
          rw [List.mem_singleton.mp new]
          exact foreign hook (owned.held m old held)

/-- Every history of registrations keeps them apart. -/
theorem registerAll_owned (manifests : List (Manifest Hook)) :
    Owned hookName (registerAll hookName repr manifests) := by
  have run : ∀ r, Owned hookName r → Owned hookName (manifests.foldl
      (fun r manifest => (PluginRegistry.registerManifest hookName repr r manifest).1) r) := by
    induction manifests with
    | nil => exact fun r owned => owned
    | cons manifest rest ih => exact fun r owned => ih _ (owned.registerManifest manifest)
  exact run _ ⟨List.nodup_nil, List.nodup_nil, List.forall_mem_nil _, List.Pairwise.nil⟩

/-- Two manifests that share a hook are one. -/
theorem Owned.owner (owned : Owned hookName r) {m other : Manifest Hook}
    (member : m ∈ r.loadedManifests) (others : other ∈ r.loadedManifests) {hook : Hook}
    (own : hook ∈ m.postRoundHooks) (shared : hook ∈ other.postRoundHooks) : m = other := by
  by_contra distinct
  have symmetric : Std.Symm fun m other : Manifest Hook =>
      ∀ hook ∈ m.postRoundHooks, hook ∉ other.postRoundHooks :=
    ⟨fun _ _ apart hook own shared => apart hook shared own⟩
  exact owned.apart.forall member others distinct hook own shared

/-- A loaded manifest is the one its own name finds. -/
theorem Owned.manifestOf (owned : Owned hookName r) {m : Manifest Hook}
    (member : m ∈ r.loadedManifests) :
    RoundEnv.manifestOf r.manifests (some m.name) = some m.toPluginManifest := by
  obtain ⟨before, after, shape⟩ := List.append_of_mem member
  have names := owned.names
  rw [shape, List.map_append, List.map_cons, List.nodup_append] at names
  have earlier : (before.map (·.toPluginManifest)).find?
      (fun other => some other.name = some m.name) = none := by
    refine List.find?_eq_none.mpr fun other earlier => ?_
    obtain ⟨own, held, rfl⟩ := List.mem_map.mp earlier
    have differs := names.2.2 own.name (List.mem_map_of_mem held) m.name (.head _)
    simpa using differs
  rw [RoundEnv.manifestOf, Registries.manifests, shape, List.map_append, List.find?_append, earlier,
    List.map_cons, Option.none_or]
  exact List.find?_cons_of_pos (decide_eq_true rfl)

/-- What the rounds are given of an agent whose manifest is disabled: nothing. -/
structure Silent (manifests : List PluginManifest) (agentBinary : String) : Prop where
  signal : resolveCooperativeSignal manifests (some agentBinary) = none
  cooperative : isCooperativeAgent manifests (some agentBinary) = false
  resume : resolveResumeFlag manifests (some agentBinary) = none
  grace : ∀ sigtermGraceS,
    resolveSigtermGrace manifests (some agentBinary) sigtermGraceS = reapGraceS

/-- What the rounds are given of a loaded manifest is what it declares. -/
theorem silent_iff (owned : Owned hookName r) {m : Manifest Hook} (member : m ∈ r.loadedManifests) :
    Silent r.manifests m.name ↔ m.cooperativeStop = none ∧ m.resumeFlag = none := by
  have found := owned.manifestOf member
  have signal : resolveCooperativeSignal r.manifests (some m.name) = m.cooperativeStop := by
    rw [resolveCooperativeSignal, found, Option.bind_some]
  have resume : resolveResumeFlag r.manifests (some m.name) = m.resumeFlag := by
    rw [resolveResumeFlag, found, Option.bind_some]
  constructor
  · intro silent
    exact ⟨signal ▸ silent.signal, resume ▸ silent.resume⟩
  · rintro ⟨noSignal, noResume⟩
    have hard : isCooperativeAgent r.manifests (some m.name) = false := by
      rw [isCooperativeAgent, signal, noSignal]
      rfl
    refine ⟨signal.trans noSignal, hard, resume.trans noResume, fun sigtermGraceS => ?_⟩
    rw [resolveSigtermGrace, hard]
    rfl

/-- The manifests that are disabled. -/
def named (manifests : List (Manifest Hook)) (names : Finset String) : List (Manifest Hook) :=
  manifests.filter fun m => m.name ∈ names

theorem mem_named {manifests : List (Manifest Hook)} {names : Finset String} {m : Manifest Hook} :
    m ∈ named manifests names ↔ m ∈ manifests ∧ m.name ∈ names := by
  simp [named]

end Owning

/-! ## What disabling takes away -/

section Taking
variable {Hook : Type} [DecidableEq Hook]

theorem foldl_unregisterOne (names : Finset String) (manifests : List (Manifest Hook))
    (hooks : List Hook) (found : Finset String) :
    manifests.foldl (unregisterOne names) (hooks, found) =
      (hooks.filter fun hook => ∀ m ∈ named manifests names, hook ∉ m.postRoundHooks,
        found ∪ ((named manifests names).map (·.name)).toFinset) := by
  induction manifests generalizing hooks found with
  | nil => simp [named]
  | cons m rest ih =>
    rw [List.foldl_cons, unregisterOne]
    by_cases out : m.name ∉ names
    · rw [if_pos out, ih]
      simp [named, out]
    · rw [if_neg out, ih]
      have grown : named (m :: rest) names = m :: named rest names :=
        List.filter_cons_of_pos (decide_eq_true (not_not.mp out))
      rw [grown, removeByIdentity, List.filter_filter]
      refine Prod.ext (List.filter_congr fun hook _ => ?_) ?_
      · rw [← Bool.decide_and]
        simp only [List.forall_mem_cons, and_comm]
      · rw [List.map_cons, List.toFinset_cons, Finset.insert_union, Finset.union_insert]

/-- What every disabling does: the hooks of the manifests that are named are gone from the
registry and no other hook is, what the rounds are given of any other agent stays as it was,
and the names that are returned are those that are loaded. -/
structure Strips (r after : Registries Hook) (names found : Finset String) : Prop where
  gone : ∀ m ∈ r.loadedManifests, m.name ∈ names → ∀ hook ∈ m.postRoundHooks,
    hook ∉ after.postRoundHooks
  kept : ∀ m ∈ r.loadedManifests, m.name ∉ names → m.postRoundHooks ⊆ after.postRoundHooks
  others : after.postRoundHooks = r.postRoundHooks.filter fun hook =>
    ∀ m ∈ named r.loadedManifests names, hook ∉ m.postRoundHooks
  resolved : ∀ agentBinary : Option String, (∀ name ∈ agentBinary, name ∉ names) →
    resolveCooperativeSignal after.manifests agentBinary =
        resolveCooperativeSignal r.manifests agentBinary ∧
      isCooperativeAgent after.manifests agentBinary = isCooperativeAgent r.manifests agentBinary ∧
      resolveResumeFlag after.manifests agentBinary = resolveResumeFlag r.manifests agentBinary ∧
      ∀ sigtermGraceS, resolveSigtermGrace after.manifests agentBinary sigtermGraceS =
        resolveSigtermGrace r.manifests agentBinary sigtermGraceS
  returned : ∀ name, name ∈ found ↔ name ∈ names ∧ ∃ m ∈ r.loadedManifests, m.name = name

/-- Every capability of the manifests that are named is removed, and nothing else. -/
structure Disables (r after : Registries Hook) (names found : Finset String) : Prop
    extends Strips r after names found where
  silent : ∀ m ∈ r.loadedManifests, m.name ∈ names → Silent after.manifests m.name

variable {hookName : Hook → String} {repr : String → String} {r : Registries Hook}

/-- `unregister_by_name` leaves the loaded manifests where they are. -/
theorem unregisterByName_eq (r : Registries Hook) (names : Finset String) :
    unregisterByName r names =
      (⟨r.postRoundHooks.filter fun hook =>
          ∀ m ∈ named r.loadedManifests names, hook ∉ m.postRoundHooks, r.loadedManifests⟩,
        ((named r.loadedManifests names).map (·.name)).toFinset) := by
  simp only [unregisterByName, foldl_unregisterOne, Finset.empty_union]

theorem unregisterByName_strips (owned : Owned hookName r) (names : Finset String) :
    Strips r (unregisterByName r names).1 names (unregisterByName r names).2 := by
  rw [unregisterByName_eq]
  refine ⟨?_, ?_, rfl, fun _ _ => ⟨rfl, rfl, rfl, fun _ => rfl⟩, ?_⟩
  · intro m member disabled hook own left
    have spared := of_decide_eq_true (List.mem_filter.mp left).2
    exact spared m (mem_named.mpr ⟨member, disabled⟩) own
  · intro m member enabled hook own
    refine List.mem_filter.mpr ⟨owned.held m member own, decide_eq_true fun other disabled => ?_⟩
    intro shared
    obtain ⟨others, disabled⟩ := mem_named.mp disabled
    have same := owned.owner member others own shared
    exact enabled (same ▸ disabled)
  · intro name
    simp only [List.mem_toFinset, List.mem_map, mem_named]
    constructor
    · rintro ⟨m, ⟨member, disabled⟩, rfl⟩
      exact ⟨disabled, m, member, rfl⟩
    · rintro ⟨disabled, m, member, rfl⟩
      exact ⟨m, ⟨member, disabled⟩, rfl⟩

end Taking

/-- The manifest of an agent that drains on a signal and whose session is resumed. -/
def sessionManifest : Manifest String where
  name := "pi"
  cooperativeStop := some .sigterm
  resumeFlag := some "--session-id"
  nonempty := by simp
  postRoundHooks := ["pi_error_detector"]

/-- The registries with it alone. -/
def sessionRegistries : Registries String := registerAll id id [sessionManifest]

end AgentRunner.PluginRegistry
