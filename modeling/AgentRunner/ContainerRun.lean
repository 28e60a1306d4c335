import AgentRunner.RoundEnv

/-! The part of `agent_runtime.py` that reads a command line: whether it launches a
container, and where that container writes its id. -/
namespace AgentRunner.ContainerRun
open ConfigModels RoundEnv

def containerRuntimes : List String := ["docker", "podman"]

def dockerGlobalFlagsWithValue : List String :=
  ["-H", "--host", "--context", "-c", "--config", "-l", "--log-level", "--tlscacert", "--tlscert",
    "--tlskey"]

def dockerRunFlagsWithValue : List String :=
  ["-e", "--env", "--env-file", "-v", "--volume", "--volumes-from", "--mount", "-p", "--publish",
    "--name", "-w", "--workdir", "-u", "--user", "-m", "--memory", "--memory-swap",
    "--memory-reservation", "--cpus", "--cpu-shares", "--cpuset-cpus", "--cpuset-mems", "--network",
    "--net", "--ip", "--ip6", "--mac-address", "--add-host", "-l", "--label", "--label-file",
    "--restart", "--entrypoint", "-h", "--hostname", "--dns", "--dns-search", "--dns-option",
    "--link", "--log-driver", "--log-opt", "--pid", "--ipc", "--uts", "--userns", "--security-opt",
    "--stop-signal", "--stop-timeout", "--device", "--device-cgroup-rule", "--cap-add",
    "--cap-drop", "--tmpfs", "--ulimit", "--shm-size", "--health-cmd", "--health-interval",
    "--health-retries", "--health-timeout", "--health-start-period", "--platform", "--pull",
    "--pids-limit", "--blkio-weight", "--group-add", "--isolation", "--runtime", "--gpus", "-a",
    "--attach", "--expose", "--cidfile"]

def startsWith (start token : String) : Bool := start.toList.isPrefixOf token.toList

def isFlag (token : String) : Bool := startsWith "-" token

def hasEquals (token : String) : Bool := token.toList.contains '='

/-- `token.split("=", 1)[0]`. -/
def beforeEquals (token : String) : String := String.ofList (token.toList.takeWhile (· ≠ '='))

/-- `token.split("=", 1)[1]`. -/
def afterEquals (token : String) : String :=
  String.ofList ((token.toList.dropWhile (· ≠ '=')).drop 1)

/-- The flags of a leading `sudo`. -/
def skipSudoFlags : List String → List String
  | [] => []
  | [token] => if isFlag token then [] else [token]
  | token :: next :: rest =>
    if !isFlag token then token :: next :: rest
    else if ["-u", "--user"].contains token then skipSudoFlags rest
    else skipSudoFlags (next :: rest)

/-- `_unwrap_command_prefix`. -/
def unwrapCommandPrefix (command : List String) : List String :=
  let unwrapped :=
    match command with
    | first :: rest => if pathName first = "sudo" then skipSudoFlags rest else command
    | [] => []
  match unwrapped with
  | first :: rest =>
    if pathName first = "env" then rest.dropWhile fun token => isFlag token || hasEquals token
    else unwrapped
  | [] => []

/-- The place of `run` behind the global flags. -/
def findRun : List String → Option ℕ
  | [] => none
  | [token] => if token = "run" then some 0 else none
  | token :: next :: rest =>
    if token = "run" then some 0
    else if !isFlag token then none
    else if dockerGlobalFlagsWithValue.contains token then (findRun rest).map (· + 2)
    else (findRun (next :: rest)).map (· + 1)

/-- `_detect_container_run`: the runtime, and the index of `run` in the command. -/
def detectContainerRun (command : List String) : Option (String × ℕ) :=
  let real := unwrapCommandPrefix command
  match real with
  | [] => none
  | first :: rest =>
    if containerRuntimes.contains (pathName first) then
      (findRun rest).map fun i => (pathName first, command.length - real.length + 1 + i)
    else none

/-- `_cidfile_flag_value` of what follows `run`. -/
def cidfileFlagValue : List String → Option String
  | [] => none
  | [token] => if startsWith "--cidfile=" token then some (afterEquals token) else none
  | token :: next :: rest =>
    if token = "--cidfile" then some next
    else if startsWith "--cidfile=" token then some (afterEquals token)
    else if !isFlag token then none
    else if dockerRunFlagsWithValue.contains (beforeEquals token) && !hasEquals token then
      cidfileFlagValue rest
    else cidfileFlagValue (next :: rest)

/-- `_command_has_cidfile_flag` of what follows `run`. -/
def commandHasCidfileFlag (options : List String) : Bool :=
  options.any fun token => token == "--cidfile" || startsWith "--cidfile=" token

/-- `_inject_cidfile`. -/
def injectCidfile (command : List String) (runIdx : ℕ) (cidfilePath : String) : List String :=
  command.take (runIdx + 1) ++ ["--cidfile", cidfilePath] ++ command.drop (runIdx + 1)

/-- What `run` settles before it spawns: the runtime it has recognized, the file the
container's id is in, and the command that is spawned. -/
structure Container where
  runtime : Option String
  cidfile : Option String
  spawnCommand : List String

/-- The container-orphan block of `run`; `ownCidfile` is in the directory it would make. -/
def containerFor (ownCidfile : String) (command : List String) : Container :=
  match detectContainerRun command with
  | none => ⟨none, none, command⟩
  | some (runtime, runIdx) =>
    if runIdx = 1 then
      let options := command.drop (runIdx + 1)
      match cidfileFlagValue options with
      | some existing => ⟨some runtime, some existing, command⟩
      | none =>
        if commandHasCidfileFlag options then ⟨some runtime, none, command⟩
        else ⟨some runtime, some ownCidfile, injectCidfile command runIdx ownCidfile⟩
    else ⟨some runtime, none, command⟩

/-- `AgentConfig.spawn_command`. -/
def spawnCommand (agent : AgentConfig) (workDir : String) : List String :=
  let placed (token : String) : String :=
    String.ofList (Validators.replaceText "\x7bwork_dir\x7d".toList workDir.toList 0 token.toList)
  agent.execPrefix.map placed ++ agent.command

/-- The command launches a container whose id is looked for when it is to be stopped. -/
def Stoppable (command : List String) : Prop :=
  ∃ file, (containerFor "" command).cidfile = some file

instance (command : List String) : Decidable (Stoppable command) :=
  decidable_of_iff ((containerFor "" command).cidfile.isSome = true) Option.isSome_iff_exists

/-- Which file holds the id does not matter to whether one does, and only a recognized
runtime has one. -/
theorem cidfile_shape (ownCidfile : String) (command : List String) :
    ((∃ file, (containerFor ownCidfile command).cidfile = some file) ↔ Stoppable command) ∧
      (Stoppable command →
        ∃ runtime, (containerFor ownCidfile command).runtime = some runtime) := by
  simp only [Stoppable, containerFor]
  cases detectContainerRun command with
  | none => simp
  | some found =>
    dsimp only
    by_cases direct : found.2 = 1
    · simp only [if_pos direct]
      cases cidfileFlagValue (command.drop (found.2 + 1)) with
      | some existing => simp
      | none => by_cases flagged : commandHasCidfileFlag (command.drop (found.2 + 1)) = true <;>
          simp [flagged]
    · simp [if_neg direct]

example : detectContainerRun ["sudo", "-u", "ci", "/usr/bin/docker", "-H", "x", "run", "img"] =
    some ("docker", 6) := by decide

end AgentRunner.ContainerRun
