import AgentRunner.RoundEnv
import AgentRunner.Runs

/-! The sessions a serve lifetime resumes, round after round: an id is published in the
rounds of one phase only, the phase it was asked for. -/
namespace AgentRunner.SessionRounds
open ConfigModels RoundEnv Runs

/-! ## The rounds of a lifetime -/

/-- What is decided before a round: its number, its phase, and whether it is fresh-eyes. -/
structure Round where
  num : Int
  phase : Option String
  freshEyes : Bool

/-- A round as it was spawned: the environment of its child, and the id asked for in it. -/
structure Spawned where
  round : Round
  env : Env
  minted : Option String

structure Lifetime where
  sessions : Sessions
  rounds : List Spawned

variable (cfg : Config) (manifests : List PluginManifest) (uuids : Uuids)

/-- `cmd`, from the selection of a round to its spawn. -/
def Lifetime.step (s : Lifetime) (round : Round) : Option Lifetime :=
  let env := applyRoundNumEnv (applyFreshEyes s.sessions.env round.freshEyes) round.num
  let env := applyReapGraceEnv cfg manifests env round.phase
  let env := applyCooperativeSignalEnv cfg manifests env round.phase
  let next := (applyResumeEnv cfg manifests uuids { s.sessions with env := env } round.phase
    round.freshEyes).1
  some ⟨next, s.rounds ++ [⟨round, next.env,
    if s.sessions.asked < next.asked then some (uuids.id s.sessions.asked) else none⟩]⟩

/-- A lifetime begins with the environment of its own process. -/
def boot (env : Env) : Lifetime := ⟨⟨env, .empty, 0⟩, []⟩

/-! ## What is promised -/

/-- The flag a round is resumed with: its phase is known, and its agent declares one. -/
def resumable (phase : Option String) : Option String :=
  if ambiguous cfg phase then none
  else resolveResumeFlag manifests (binary (cfg.profileFor phase).agent)

def Spawned.id (r : Spawned) : Option String := r.env.get? sessionIdKey

/-- The last of the rounds in which the phase could resume. -/
def previous (rounds : List Spawned) (phase : Option String) : Option Spawned :=
  rounds.reverse.find? fun r => r.round.phase = phase ∧ (resumable cfg manifests phase).isSome

/-- What holds of a round and those spawned before it. -/
structure Resumes (before : List Spawned) (r : Spawned) : Prop where
  carries : ∀ flag, resumable cfg manifests r.round.phase = some flag ↔
    r.env.get? resumeFlagKey = some flag ∧ ∃ id, r.id = some id
  neither : resumable cfg manifests r.round.phase = none →
    r.env.get? resumeFlagKey = none ∧ r.id = none
  minted : ∀ id, r.id = some id → ∃ m ∈ before ++ [r], m.round.phase = r.round.phase ∧
    m.minted = some id
  continues : ∀ id, r.id = some id → r.round.freshEyes = false →
    ∀ p, previous cfg manifests before r.round.phase = some p → p.id = some id
  child : ∀ flag id, r.env.get? resumeFlagKey = some flag → r.id = some id →
    resolveResumeArgs r.env = [flag, id]
  childless : r.env.get? resumeFlagKey = none ∨ r.id = none → resolveResumeArgs r.env = []

/-- No id is published in rounds of two phases. -/
def Apart (rounds : List Spawned) : Prop :=
  ∀ r ∈ rounds, ∀ other ∈ rounds, ∀ id, r.id = some id → other.id = some id →
    other.round.phase = r.round.phase

/-! ## One round -/

variable {cfg manifests uuids} {s t : Lifetime} {round : Round}

theorem resumeFlag_nonempty {agentBinary : Option String} {flag : String}
    (declared : resolveResumeFlag manifests agentBinary = some flag) : flag ≠ "" := by
  obtain ⟨m, -, own⟩ := Option.bind_eq_some_iff.mp declared
  rintro rfl
  exact m.nonempty own

@[simp] theorem resumeFlagKey_ne : resumeFlagKey ≠ sessionIdKey := by decide

/-- What a round does: it publishes nothing, the id of its phase, or the next id. -/
inductive Applies (cfg : Config) (manifests : List PluginManifest) (uuids : Uuids) (s t : Lifetime)
    (r : Spawned) : Prop where
  | cold (unable : resumable cfg manifests r.round.phase = none)
      (flag_none : r.env.get? resumeFlagKey = none) (id_none : r.id = none)
      (ids : t.sessions.ids = s.sessions.ids) (asked : t.sessions.asked = s.sessions.asked)
  | resumed (flag sid : String) (able : resumable cfg manifests r.round.phase = some flag)
      (held : s.sessions.ids.get? r.round.phase = some sid)
      (flag_eq : r.env.get? resumeFlagKey = some flag) (id_eq : r.id = some sid)
      (ids : t.sessions.ids = s.sessions.ids) (asked : t.sessions.asked = s.sessions.asked)
  | asks (flag : String) (able : resumable cfg manifests r.round.phase = some flag)
      (first : r.round.freshEyes = true ∨ s.sessions.ids.get? r.round.phase = none)
      (flag_eq : r.env.get? resumeFlagKey = some flag)
      (id_eq : r.id = some (uuids.id s.sessions.asked))
      (minted : r.minted = some (uuids.id s.sessions.asked))
      (ids : t.sessions.ids = s.sessions.ids.set r.round.phase (uuids.id s.sessions.asked))
      (asked : t.sessions.asked = s.sessions.asked + 1)

theorem step_applies (stepped : s.step cfg manifests uuids round = some t) :
    ∃ r, t.rounds = s.rounds ++ [r] ∧ r.round = round ∧ Applies cfg manifests uuids s t r := by
  obtain rfl := Option.some.inj stepped
  refine ⟨_, rfl, rfl, ?_⟩
  -- the other four keys are set before, and are not looked at
  generalize applyCooperativeSignalEnv cfg manifests _ _ = env
  cases declared : resolveResumeFlag manifests (binary (cfg.profileFor round.phase).agent) with
  | none =>
    refine .cold (by simp [resumable, declared]) ?_ ?_ ?_ ?_ <;>
      simp [applyResumeEnv, declared, Spawned.id]
  | some flag =>
    by_cases unknown : ambiguous cfg round.phase = true
    · refine .cold (by simp [resumable, unknown]) ?_ ?_ ?_ ?_ <;>
        simp [applyResumeEnv, declared, unknown, Spawned.id]
    · have able : resumable cfg manifests round.phase = some flag := by
        rw [resumable, if_neg unknown, declared]
      cases eyes : round.freshEyes with
      | true =>
        refine .asks flag able (.inl eyes) ?_ ?_ ?_ ?_ ?_ <;>
          simp [applyResumeEnv, declared, unknown, Spawned.id]
      | false =>
        cases held : s.sessions.ids.get? round.phase with
        | some sid =>
          refine .resumed flag sid able held ?_ ?_ ?_ ?_ <;>
            simp [applyResumeEnv, declared, unknown, held, Spawned.id]
        | none =>
          refine .asks flag able (.inr held) ?_ ?_ ?_ ?_ ?_ <;>
            simp [applyResumeEnv, declared, unknown, held, Spawned.id]

/-! ## Round after round -/

theorem previous_append (rounds : List Spawned) (r : Spawned) (phase : Option String) :
    previous cfg manifests (rounds ++ [r]) phase =
      if r.round.phase = phase ∧ (resumable cfg manifests phase).isSome then some r
      else previous cfg manifests rounds phase := by
  rw [previous, List.reverse_append, List.reverse_singleton, List.singleton_append,
    List.find?_cons]
  split <;> rename_i test
  · rw [if_pos (of_decide_eq_true test)]
  · rw [if_neg (of_decide_eq_false test), previous]

/-- What every round keeps: the table holds the id last published for each phase, every id
published was asked for, in a round of its phase, and no two phases share one. -/
structure Kept (cfg : Config) (manifests : List PluginManifest) (uuids : Uuids) (s : Lifetime) :
    Prop where
  table : ∀ phase, s.sessions.ids.get? phase = (previous cfg manifests s.rounds phase).bind (·.id)
  asked : ∀ r ∈ s.rounds, ∀ id, r.id = some id → ∃ n < s.sessions.asked, id = uuids.id n
  apart : Apart s.rounds
  resumes : ∀ before r after, s.rounds = before ++ r :: after → Resumes cfg manifests before r

theorem kept_boot (env : Env) : Kept cfg manifests uuids (boot env) where
  table _ := rfl
  asked _ member := by cases member
  apart _ member := by cases member
  resumes before r after split := by
    have empty : before ++ r :: after = [] := split.symm
    simp at empty

theorem previous_mem {rounds : List Spawned} {phase : Option String} {p : Spawned}
    (found : previous cfg manifests rounds phase = some p) :
    p ∈ rounds ∧ p.round.phase = phase := by
  have member := List.mem_reverse.mp (List.mem_of_find?_eq_some found)
  have test := List.find?_some (show rounds.reverse.find? _ = some p from found)
  exact ⟨member, (of_decide_eq_true test).1⟩

/-- The id of a round spawned was asked for in a round of its phase. -/
theorem Kept.minted (kept : Kept cfg manifests uuids s) {r : Spawned} (member : r ∈ s.rounds)
    {id : String} (id_eq : r.id = some id) :
    ∃ m ∈ s.rounds, m.round.phase = r.round.phase ∧ m.minted = some id := by
  obtain ⟨before, after, split⟩ := List.append_of_mem member
  obtain ⟨m, among, own⟩ := (kept.resumes before r after split).minted id id_eq
  refine ⟨m, ?_, own⟩
  rw [split, List.append_cons]
  exact List.mem_append_left _ among

/-- The id a table entry holds was published before, in a round of its phase. -/
theorem Kept.held (kept : Kept cfg manifests uuids s) {phase : Option String} {sid : String}
    (held : s.sessions.ids.get? phase = some sid) :
    ∃ p ∈ s.rounds, p.round.phase = phase ∧ p.id = some sid := by
  rw [kept.table phase] at held
  obtain ⟨p, found, id_eq⟩ := Option.bind_eq_some_iff.mp held
  exact ⟨p, (previous_mem found).1, (previous_mem found).2, id_eq⟩

/-- Every round that could resume published an id. -/
theorem Kept.published (kept : Kept cfg manifests uuids s) {r : Spawned} (member : r ∈ s.rounds)
    {flag : String} (able : resumable cfg manifests r.round.phase = some flag) :
    ∃ id, r.id = some id := by
  obtain ⟨before, after, split⟩ := List.append_of_mem member
  exact (((kept.resumes before r after split).carries flag).mp able).2

theorem resumable_nonempty {phase : Option String} {flag : String}
    (able : resumable cfg manifests phase = some flag) : flag ≠ "" := by
  rw [resumable] at able
  split at able
  · cases able
  · exact resumeFlag_nonempty able

/-- Where a flag and an id are published, neither empty, the child appends them. -/
theorem resumes_child {r : Spawned} {flag sid : String} (flag_ne : flag ≠ "") (sid_ne : sid ≠ "")
    (flag_eq : r.env.get? resumeFlagKey = some flag) (id_eq : r.id = some sid) :
    (∀ flag id, r.env.get? resumeFlagKey = some flag → r.id = some id →
      resolveResumeArgs r.env = [flag, id]) ∧
    (r.env.get? resumeFlagKey = none ∨ r.id = none → resolveResumeArgs r.env = []) := by
  constructor
  · intro flag' id flag_eq' id_eq'
    obtain rfl := Option.some.inj (flag_eq.symm.trans flag_eq')
    obtain rfl := Option.some.inj (id_eq.symm.trans id_eq')
    rw [resolveResumeArgs, flag_eq, show r.env.get? sessionIdKey = some sid from id_eq]
    exact if_pos ⟨flag_ne, sid_ne⟩
  · simp [flag_eq, id_eq]

theorem resumes_new (kept : Kept cfg manifests uuids s) {r : Spawned}
    (applies : Applies cfg manifests uuids s t r) : Resumes cfg manifests s.rounds r := by
  cases applies with
  | cold unable flag_none id_none ids asked =>
    refine ⟨fun flag => ?_, fun _ => ⟨flag_none, id_none⟩, fun id same => ?_, fun id same => ?_,
      fun flag id given => ?_, fun _ => ?_⟩
    · simp [unable, flag_none]
    · rw [id_none] at same
      cases same
    · rw [id_none] at same
      cases same
    · rw [flag_none] at given
      cases given
    · rw [resolveResumeArgs, flag_none]
  | resumed flag sid able held flag_eq id_eq ids asked =>
    obtain ⟨p, member, phase_eq, own⟩ := kept.held held
    obtain ⟨n, -, rfl⟩ := kept.asked p member sid own
    obtain ⟨child, childless⟩ :=
      resumes_child (resumable_nonempty able) (uuids.nonempty n) flag_eq id_eq
    refine ⟨fun other => ?_, fun unable => ?_, fun id same => ?_, fun id same _ q found => ?_, child,
      childless⟩
    · simp [able, flag_eq, id_eq]
    · rw [able] at unable
      cases unable
    · obtain rfl := Option.some.inj (id_eq.symm.trans same)
      obtain ⟨m, among, same_phase, minted⟩ := kept.minted member own
      exact ⟨m, List.mem_append_left _ among, same_phase.trans phase_eq, minted⟩
    · rw [kept.table, found] at held
      exact held.trans (id_eq.symm.trans same)
  | asks flag able first flag_eq id_eq minted ids asked =>
    obtain ⟨child, childless⟩ := resumes_child (resumable_nonempty able)
      (uuids.nonempty s.sessions.asked) flag_eq id_eq
    refine ⟨fun other => ?_, fun unable => ?_, fun id same => ?_, fun id same eyes q found => ?_, child,
      childless⟩
    · simp [able, flag_eq, id_eq]
    · rw [able] at unable
      cases unable
    · exact ⟨r, by simp, rfl, minted.trans (id_eq.symm.trans same)⟩
    · -- a phase with an earlier round has an entry in the table
      have absent := first.resolve_left (by rw [eyes]; exact Bool.false_ne_true)
      obtain ⟨member, phase_eq⟩ := previous_mem found
      obtain ⟨own, published⟩ := kept.published member (phase_eq ▸ able)
      rw [kept.table, found, Option.bind_some, published] at absent
      cases absent

/-- A list of rounds that grows by one is cut before that one, or at it. -/
theorem split_concat {rounds before after : List Spawned} {r last : Spawned}
    (split : rounds ++ [last] = before ++ r :: after) :
    (before = rounds ∧ r = last) ∨ ∃ after', rounds = before ++ r :: after' := by
  obtain rfl | ⟨init, final, rfl⟩ := List.eq_nil_or_concat after
  · obtain ⟨rfl, same⟩ := List.append_inj' split rfl
    exact .inl ⟨rfl, (List.singleton_inj.mp same).symm⟩
  · rw [List.concat_eq_append, ← List.cons_append, ← List.append_assoc] at split
    exact .inr ⟨init, (List.append_inj' split rfl).1⟩

/-- An id of a round spawned is no id still to come. -/
theorem Kept.not_next (kept : Kept cfg manifests uuids s) {r : Spawned} (member : r ∈ s.rounds) :
    r.id ≠ some (uuids.id s.sessions.asked) := by
  intro same
  obtain ⟨n, small, eq⟩ := kept.asked r member _ same
  exact absurd (uuids.fresh eq) (by omega)

/-- A round shares its id with rounds of its own phase only. -/
theorem Applies.shares (kept : Kept cfg manifests uuids s) {r : Spawned}
    (applies : Applies cfg manifests uuids s t r) {q : Spawned} (member : q ∈ s.rounds)
    {id : String}
    (own : r.id = some id) (shared : q.id = some id) : q.round.phase = r.round.phase := by
  cases applies with
  | cold unable flag_none id_none ids asked =>
    rw [id_none] at own
    cases own
  | resumed flag sid able held flag_eq id_eq ids asked =>
    obtain ⟨p, member', phase_eq, published⟩ := kept.held held
    obtain rfl := Option.some.inj (id_eq.symm.trans own)
    exact (kept.apart p member' q member _ published shared).trans phase_eq
  | asks flag able first flag_eq id_eq minted ids asked =>
    exact absurd (shared.trans (own.symm.trans id_eq)) (kept.not_next member)

theorem Applies.table (kept : Kept cfg manifests uuids s) {r : Spawned}
    (applies : Applies cfg manifests uuids s t r) (phase : Option String) :
    t.sessions.ids.get? phase =
      (previous cfg manifests (s.rounds ++ [r]) phase).bind (·.id) := by
  rw [previous_append]
  cases applies with
  | cold unable flag_none id_none ids asked =>
    rw [ids, kept.table, if_neg]
    rintro ⟨rfl, able⟩
    rw [unable] at able
    cases able
  | resumed flag sid able held flag_eq id_eq ids asked =>
    rw [ids]
    by_cases same : r.round.phase = phase
    · subst same
      rw [if_pos ⟨rfl, by rw [able]; rfl⟩, held, Option.bind_some, id_eq]
    · rw [if_neg fun both => same both.1, kept.table]
  | asks flag able first flag_eq id_eq minted ids asked =>
    rw [ids, Dict.get?_set]
    by_cases same : r.round.phase = phase
    · subst same
      rw [if_pos rfl, if_pos ⟨rfl, by rw [able]; rfl⟩, Option.bind_some, id_eq]
    · rw [if_neg (Ne.symm same), if_neg fun both => same both.1, kept.table]

theorem Applies.bounded (kept : Kept cfg manifests uuids s) {r : Spawned}
    (applies : Applies cfg manifests uuids s t r) : s.sessions.asked ≤ t.sessions.asked ∧
      ∀ id, r.id = some id → ∃ n < t.sessions.asked, id = uuids.id n := by
  cases applies with
  | cold unable flag_none id_none ids asked =>
    refine ⟨asked.ge, fun id own => ?_⟩
    rw [id_none] at own
    cases own
  | resumed flag sid able held flag_eq id_eq ids asked =>
    refine ⟨asked.ge, fun id own => ?_⟩
    obtain ⟨p, member, -, published⟩ := kept.held held
    rw [asked]
    exact kept.asked p member id (published.trans (id_eq.symm.trans own))
  | asks flag able first flag_eq id_eq minted ids asked =>
    refine ⟨by omega, fun id own => ⟨s.sessions.asked, by omega, ?_⟩⟩
    exact Option.some.inj (own.symm.trans id_eq)

theorem kept_step (s : Lifetime) (round : Round) (t : Lifetime) (kept : Kept cfg manifests uuids s)
    (stepped : s.step cfg manifests uuids round = some t) : Kept cfg manifests uuids t := by
  obtain ⟨r, rounds_eq, -, applies⟩ := step_applies stepped
  obtain ⟨grown, bounded⟩ := applies.bounded kept
  refine ⟨fun phase => rounds_eq ▸ applies.table kept phase, fun q member id own => ?_,
    fun q member other member' id own shared => ?_, fun before q after split => ?_⟩
  · rw [rounds_eq, List.mem_append, List.mem_singleton] at member
    obtain member | rfl := member
    · obtain ⟨n, small, eq⟩ := kept.asked q member id own
      exact ⟨n, small.trans_le grown, eq⟩
    · exact bounded id own
  · rw [rounds_eq, List.mem_append, List.mem_singleton] at member member'
    obtain member | rfl := member <;> obtain member' | rfl := member'
    · exact kept.apart q member other member' id own shared
    · exact (applies.shares kept member shared own).symm
    · exact applies.shares kept member' own shared
    · rfl
  · rw [rounds_eq] at split
    obtain ⟨rfl, rfl⟩ | ⟨after', split⟩ := split_concat split
    · exact resumes_new kept applies
    · exact kept.resumes before q after' split

/-- A lifetime goes through its rounds, each spawned once. -/
theorem run_rounds (cfg : Config) (manifests : List PluginManifest) (uuids : Uuids) (s : Lifetime)
    (rounds : List Round) : ∃ t, run (Lifetime.step cfg manifests uuids) s rounds = some t ∧
      t.rounds.map Spawned.round = s.rounds.map Spawned.round ++ rounds := by
  induction rounds generalizing s with
  | nil => exact ⟨s, rfl, (List.append_nil _).symm⟩
  | cons round rounds ih =>
    obtain ⟨r, grown, own, -⟩ := @step_applies cfg manifests uuids s _ round rfl
    obtain ⟨t, ran, same⟩ := ih _
    refine ⟨t, run_cons.mpr ⟨_, rfl, ran⟩, ?_⟩
    rw [same, grown, List.map_append, List.map_singleton, own, List.append_assoc]
    rfl

/-- **No session crosses phases.**  Over every sequence of rounds of a serve lifetime, of any
phases, known or not, and any schedule of fresh-eyes rounds, for every assignment of resume
flags to agents and every initial environment: in each round the environment carries flag and
id exactly where the phase is known and its agent declares a flag, and neither elsewhere; the
id was asked for in a round of that phase, and is that of the phase's last round unless this
one is fresh-eyes; and the child appends exactly what is carried. No id is published in
rounds of two phases. -/
theorem sessions_stay_in_phase (cfg : Config) (manifests : List PluginManifest) (uuids : Uuids)
    (env : Env) (rounds : List Round) :
    ∃ s, run (Lifetime.step cfg manifests uuids) (boot env) rounds = some s ∧
      s.rounds.map Spawned.round = rounds ∧
      (∀ before r after, s.rounds = before ++ r :: after → Resumes cfg manifests before r) ∧
      Apart s.rounds := by
  obtain ⟨s, ran, own⟩ := run_rounds cfg manifests uuids (boot env) rounds
  have kept := run_preserves _ kept_step (kept_boot env) ran
  exact ⟨s, ran, own, kept.resumes, kept.apart⟩

end AgentRunner.SessionRounds
