import AgentRunner.RoundStages

/-! What the exit status of a round process tells its parent: each status stands for something
the process has done or met, and the one kept for the parent's own verdict is never among
them, unless a call inside the round asks for it. -/
namespace AgentRunner.RoundExit
open Effects Triples PyValue ConfigDigest ContextStore AgentRun ServePolicy RoundRun RoundStages

variable {dir : Directory} {s : Stage} {steps : List Step}

/-! ## What a stage says of the past -/

/-- The round the process has written the end of. -/
def endedOf : Stage → Option (Plan × RunResult)
  | .closed plan result => some (plan, result)
  | .cleaning ended | .finished ended => ended
  | _ => none

/-- What the agent came back with. -/
def resultOf : Stage → Option RunResult
  | .ran _ result _ | .exited _ result _ | .looked _ result _ _ | .saved _ result => some result
  | s => (endedOf s).map Prod.snd

/-- What a stage says of the steps that led there. -/
structure Remembers (s : Stage) (steps : List Step) : Prop where
  returned : ∀ result, resultOf s = some result → ∃ durationS, .returned result durationS ∈ steps
  ended : ∀ plan result, endedOf s = some (plan, result) →
    .emitted (.roundEnd plan.roundNum) ∈ steps
  unlocked : ∀ ended, s = .finished ended → .unlocked ∈ steps

theorem remembers (there : At dir s steps) : Remembers s steps := by
  induction there with
  | start => exact ⟨nofun, nofun, nofun⟩
  | @step acts u a v there moved remembered =>
    have last : a ∈ acts ++ [a] := List.mem_append_right _ List.mem_cons_self
    have kept : ∀ b ∈ acts, b ∈ acts ++ [a] := fun _ => List.mem_append_left _
    have back : ∀ result, resultOf u = some result →
        ∃ durationS, .returned result durationS ∈ acts ++ [a] := fun result same =>
      (remembered.returned result same).imp fun _ => kept _
    refine ⟨fun result same => ?_, fun plan result written => ?_, fun ended here => ?_⟩
    · cases moved with
      | returns =>
        obtain rfl := Option.some.inj same
        exact ⟨_, last⟩
      | idles | exits | looks | stashes | clears | saves | savesSeen | ends | unlocks =>
        exact back result same
      | cleans => cases u <;> first | exact back result same | cases same
      | _ => cases same
    · cases moved with
      | ends =>
        obtain ⟨rfl, rfl⟩ := Prod.ext_iff.mp (Option.some.inj written)
        exact last
      | idles | unlocks => exact kept _ (remembered.ended plan result written)
      | cleans =>
        cases u <;> first
          | exact kept _ (remembered.ended plan result written)
          | cases written
      | _ => cases written
    · cases moved with
      | unlocks => exact last
      | idles => exact kept _ (remembered.unlocked ended here)
      | _ => cases here

/-- Outside, no lock has been refused. -/
theorem unrefused (there : At dir s steps) (outside : s = .outside) : .refused ∉ steps := by
  induction there with
  | start => exact List.not_mem_nil
  | step there moved ih =>
    intro member
    cases moved with
    | idles silent =>
      obtain early | last := List.mem_append.mp member
      · exact ih outside early
      · rw [← List.mem_singleton.mp last] at silent
        cases silent
    | passes =>
      obtain early | last := List.mem_append.mp member
      · exact ih rfl early
      · cases List.mem_singleton.mp last
    | _ => cases outside

/-! ## The exit status -/

/-- The agent of a round failed in a way that counts as a crash. -/
def agentCrashed (result : RunResult) : Bool :=
  result.exitCode != 0 && !result.killedForGrace && !result.timedOut

theorem crashed_eq {r : RoundResult} {result : RunResult} (agrees : Agrees r result) :
    crashed r = agentCrashed result := by
  obtain ⟨code, timedOut, grace⟩ := agrees
  rw [crashed, agentCrashed, code, timedOut, grace]

/-- What a process that exits with a status has done. -/
inductive Accounts (steps : List Step) : Int → Prop where
  | ended {plan : Plan} {result : RunResult} {durationS : PyFloat}
      (returned : .returned result durationS ∈ steps)
      (ended : .emitted (.roundEnd plan.roundNum) ∈ steps) (unlocked : .unlocked ∈ steps) :
      Accounts steps (if agentCrashed result then 1 else 0)
  | refused (refused : .refused ∈ steps) : Accounts steps envBatteryExit
  | failing {failures : List PromptAssembly.CheckResult} (checked : .checked failures ∈ steps)
      (some : failures ≠ []) : Accounts steps (batteryExitCode failures)
  | misconfigured : Accounts steps permanentConfigExit
  | caught {e : Raised} (failed : .failed e ∈ steps)
      (caught : (e.isConfigError || e.endsRound) = true) : Accounts steps (classifyRoundExit e)
  | uncaught {e : Raised} {status : Int} (failed : .failed e ∈ steps)
      (ends : exitStatus (.error e) = some status) : Accounts steps status

theorem classifyRoundExit_small {e : Raised} (caught : (e.isConfigError || e.endsRound) = true) :
    classifyRoundExit e % 256 = classifyRoundExit e := by
  cases e with
  | git error => cases error <;> rfl
  | systemExit | killed => cases caught
  | _ => rfl

theorem batteryExitCode_small (failures : List PromptAssembly.CheckResult) :
    batteryExitCode failures % 256 = batteryExitCode failures := by
  rw [batteryExitCode]
  split <;> rfl

theorem accounts_of_answered {code : Int} (answered : Answered dir code steps) :
    Accounts steps (code % 256) := by
  obtain ⟨r, plan, result, agrees, there, rfl⟩ | ⟨e, caught, ⟨s, there, sourced⟩, rfl⟩ := answered
  · have remembered := remembers there
    obtain ⟨durationS, returned⟩ := remembered.returned result rfl
    have small : (if crashed r then 1 else 0) % 256 =
        (if agentCrashed result then 1 else 0 : Int) := by
      rw [crashed_eq agrees]
      split <;> rfl
    rw [small]
    exact .ended returned (remembered.ended plan result rfl) (remembered.unlocked _ rfl)
  · rw [classifyRoundExit_small caught]
    obtain failed | rfl | ⟨rfl, refused⟩ | ⟨failures, -, -, rfl⟩ := sourced
    · exact .caught failed caught
    · exact .misconfigured
    · exact .refused refused
    · cases caught

theorem accounts_of_uncaught {e : Raised} (uncaught : Uncaught dir e steps)
    (escapes : e.endsCommand = false) :
    (∀ status, exitStatus (.error e) = some status → Accounts steps status) ∧
      (exitStatus (.error e) = none → .failed .killed ∈ steps) := by
  obtain ⟨s, there, sourced⟩ := uncaught.lost
  obtain failed | rfl | ⟨rfl, -⟩ | ⟨failures, checked, some, rfl⟩ := sourced
  · refine ⟨fun status same => .uncaught failed same, fun none => ?_⟩
    cases e with
    | killed => exact failed
    | _ => cases none
  · cases escapes
  · obtain ⟨outside, again⟩ | ⟨-, caught⟩ := uncaught
    · obtain failed | none | ⟨-, refused⟩ | ⟨_, _, _, other⟩ := again
      · exact ⟨fun status same => .uncaught failed same, nofun⟩
      · cases none
      · exact absurd refused (unrefused outside rfl)
      · cases other
    · cases caught
  · refine ⟨fun status same => ?_, nofun⟩
    obtain rfl := Option.some.inj same
    change Accounts steps (batteryExitCode failures % 256)
    rw [batteryExitCode_small]
    exact .failing checked some

/-- Without a `SystemExit` there are five statuses. -/
theorem Accounts.among {status : Int} (accounts : Accounts steps status)
    (plain : ∀ arg, .failed (.systemExit arg) ∉ steps) :
    status ∈ ([0, 1, envBatteryExit, permanentConfigExit, 130] : List Int) := by
  cases accounts with
  | ended => split <;> decide
  | refused => decide
  | @failing failures => rw [batteryExitCode]; split <;> decide
  | misconfigured => decide
  | @caught e _ caught =>
    cases e with
    | git error =>
      change (if Raised.isEnvironmental (.git error) then envBatteryExit else 1) ∈ _
      split <;> decide
    | systemExit | killed => cases caught
    | _ => decide
  | @uncaught e _ failed same =>
    cases e with
    | systemExit arg => exact absurd failed (plain arg)
    | killed => cases same
    | _ =>
      obtain rfl := Option.some.inj same
      decide

/-- A log directory before its first round. -/
def fresh : Directory := ⟨.null, .null⟩

end AgentRunner.RoundExit
