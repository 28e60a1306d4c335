import AgentRunner.ConfigModels
import AgentRunner.Dict
import Mathlib.Data.List.Basic

/-! The environment a serve publishes to its round child, and what the child takes from it:
the round number, the grace and first signal of its agent, and the flag and id under which
the agent's session is resumed. -/
namespace AgentRunner.RoundEnv
open ConfigModels

/-! ## The plugin registry -/

/-- The signal an agent drains on. -/
inductive CooperativeStop where
  | sigterm
  | sigint

def CooperativeStop.name : CooperativeStop → String
  | .sigterm => "SIGTERM"
  | .sigint => "SIGINT"

/-- `PluginManifest`: an empty resume flag is refused when it is made. -/
structure PluginManifest where
  name : String
  cooperativeStop : Option CooperativeStop
  resumeFlag : Option String
  nonempty : resumeFlag ≠ some ""

/-- `Path(text).name`. -/
def pathName (text : String) : String :=
  let parts := (text.toList.splitOn '/').map String.ofList
  (parts.filter fun part => part ≠ "" ∧ part ≠ ".").getLast?.getD ""

/-- `AgentConfig.binary`. -/
def binary (agent : AgentConfig) : Option String := agent.command.head?.map pathName

/-- The manifest an agent's binary names, of those loaded. -/
def manifestOf (manifests : List PluginManifest) (agentBinary : Option String) :
    Option PluginManifest :=
  manifests.find? fun m => some m.name = agentBinary

def resolveResumeFlag (manifests : List PluginManifest) (agentBinary : Option String) :
    Option String :=
  (manifestOf manifests agentBinary).bind (·.resumeFlag)

def resolveCooperativeSignal (manifests : List PluginManifest) (agentBinary : Option String) :
    Option CooperativeStop :=
  (manifestOf manifests agentBinary).bind (·.cooperativeStop)

def reapGraceS : Int := 5

def resolveSigtermGraceS (manifests : List PluginManifest) (agent : AgentConfig) : Int :=
  if (resolveCooperativeSignal manifests (binary agent)).isSome then agent.sigtermGraceS
  else reapGraceS

/-! ## What serve publishes -/

abbrev Env := Dict String String

def freshEyesKey : String := "AGENT_RUNNER_FRESH_EYES"
def roundNumKey : String := "AGENT_RUNNER_ROUND_NUM"
def reapGraceKey : String := "AGENT_RUNNER_REAP_GRACE_S"
def stopSignalKey : String := "AGENT_RUNNER_COOPERATIVE_STOP_SIGNAL"
def resumeFlagKey : String := "AGENT_RUNNER_RESUME_FLAG"
def sessionIdKey : String := "AGENT_RUNNER_RESUME_SESSION_ID"

variable (cfg : Config) (manifests : List PluginManifest)

def applyFreshEyes (env : Env) (freshEyes : Bool) : Env :=
  env.set freshEyesKey (if freshEyes then "1" else "0")

def applyRoundNumEnv (env : Env) (roundNum : Int) : Env := env.set roundNumKey (toString roundNum)

/-- `_apply_reap_grace_env`; the table it looks in holds what is computed here. -/
def applyReapGraceEnv (env : Env) (phase : Option String) : Env :=
  env.set reapGraceKey (toString (resolveSigtermGraceS manifests (cfg.profileFor phase).agent))

/-- `_apply_cooperative_signal_env`; the table it looks in holds what is computed here. -/
def applyCooperativeSignalEnv (env : Env) (phase : Option String) : Env :=
  let stop := resolveCooperativeSignal manifests (binary (cfg.profileFor phase).agent)
  env.set stopSignalKey (stop.getD .sigterm).name

/-- Serve cannot know the phase: none was selected, and the child rotates through several. -/
def ambiguous (phase : Option String) : Bool :=
  phase.isNone && !(cfg.phases.list.getD []).isEmpty

/-- The ids `uuid4` hands out, in turn. -/
structure Uuids where
  id : ℕ → String
  fresh : Function.Injective id
  nonempty : ∀ n, id n ≠ ""

/-- Texts that grow are such ids. -/
instance : Inhabited Uuids where
  default := {
    id := fun n => String.ofList (List.replicate (n + 1) '0')
    fresh := fun m n same => by
      have lengths := congrArg (fun text => text.toList.length) same
      simpa using lengths
    nonempty := fun n same => by
      have lengths := congrArg (fun text => text.toList.length) same
      simp at lengths }

/-- What a serve lifetime carries from round to round: the environment of its children, the
session id of each phase, and how many ids it has asked for. -/
structure Sessions where
  env : Env
  ids : Dict (Option String) String
  asked : ℕ

/-- `_apply_resume_env`, and the `session_resumed` event it emits: the id and the phase. -/
def applyResumeEnv (uuids : Uuids) (s : Sessions) (phase : Option String) (freshEyes : Bool) :
    Sessions × Option (String × String) :=
  match resolveResumeFlag manifests (binary (cfg.profileFor phase).agent) with
  | none => ({ s with env := (s.env.erase resumeFlagKey).erase sessionIdKey }, none)
  | some flag =>
    if ambiguous cfg phase then
      ({ s with env := (s.env.erase resumeFlagKey).erase sessionIdKey }, none)
    else
      match if freshEyes then none else s.ids.get? phase with
      | some sid =>
        ({ s with env := (s.env.set resumeFlagKey flag).set sessionIdKey sid },
          some (sid, phase.getD ""))
      | none =>
        let sid := uuids.id s.asked
        (⟨(s.env.set resumeFlagKey flag).set sessionIdKey sid, s.ids.set phase sid, s.asked + 1⟩,
          none)

/-! ## What the child takes -/

/-- `_resolve_resume_args`. -/
def resolveResumeArgs (env : Env) : List String :=
  match env.get? resumeFlagKey, env.get? sessionIdKey with
  | some flag, some sessionId => if flag ≠ "" ∧ sessionId ≠ "" then [flag, sessionId] else []
  | _, _ => []

end AgentRunner.RoundEnv
