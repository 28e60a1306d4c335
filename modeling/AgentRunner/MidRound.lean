import AgentRunner.PyValue

/-! `cli/_serve_round._spawn_round`: the memory checks of one round. Each check lets the
soft brake lower or give back the leaf's `memory.high`, then lets the hard floor count
critical verdicts and end the round. Any call may raise; what was done before it stays. -/
namespace AgentRunner.MidRound
open PyValue

inductive Severity where
  | warning
  | critical
  deriving DecidableEq

def Severity.text : Severity → String
  | .warning => "warning"
  | .critical => "critical"

/-- `host_health.Pressure`. -/
structure Pressure where
  severity : Severity
  signal : String
  message : String
  context : List (String × Json)

/-- `[monitor.host_health.pressure]`, as far as the checks read it. -/
structure PressureConfig where
  criticalConsecutiveSamples : Nat
  samples_pos : 0 < criticalConsecutiveSamples
  inRoundTerminate : Bool
  inRoundNudge : Bool

/-- `[monitor.host_health.brake]`. -/
structure BrakeConfig where
  memoryHigh : Bool
  memoryHighStepPct : Int
  step_range : 0 ≤ memoryHighStepPct ∧ memoryHighStepPct ≤ 50
  warningConsecutiveSamples : Nat
  samples_pos : 0 < warningConsecutiveSamples

structure HostHealthConfig where
  pressure : PressureConfig
  brake : BrakeConfig

/-- The calls of one check that may raise. -/
inductive Call where
  | sample
  | released
  | restoreFailed
  | engage
  | engaged
  | engageFailed
  | criticalSample
  | nudge
  | nudgeEvent
  | terminate
  | terminateEvent
  | deferEvent
  deriving DecidableEq

/-! ## The leaf's `memory.high` -/

/-- The token a cgroup limit file shows. -/
inductive Token where
  | max
  | bytes (n : Int)
  deriving DecidableEq

/-- `_parse_cgroup_token`. -/
def parseCgroupToken : Token → Option Int
  | .max => none
  | .bytes n => some n

def minMemoryHighBytes : Int := 64 * 1024 * 1024
def minBrakeCurrentBytes : Int := 128 * 1024 * 1024

/-- `_brake_high_value`; `scale` is `int(memory_current * (1 - step_pct / 100))`. -/
def brakeHighValue (scale : Int → Int → Int) (memoryCurrent stepPct : Int) : Option Int :=
  if memoryCurrent < minBrakeCurrentBytes then none
  else some (Max.max (scale memoryCurrent stepPct) minMemoryHighBytes)

/-- What an engage finds: whether the leaf resolves, its `memory.current`, whether its
`memory.high` can be read, and the errno where the write fails. -/
structure Leaf where
  found : Bool
  memoryCurrent : Option Int
  highReadable : Bool
  errno : Option Int

inductive EngageResult where
  | notEngaged
  | engaged (previous : Token) (written memoryCurrent : Int)
  | failed (errno : Int)

/-- `engage_leaf_memory_high` on a leaf whose `memory.high` shows `high`. -/
def engageLeafMemoryHigh (scale : Int → Int → Int) (leaf : Leaf) (high : Token) (stepPct : Int) :
    EngageResult :=
  if leaf.found = false then .notEngaged
  else match leaf.memoryCurrent with
  | none => .notEngaged
  | some current =>
    match brakeHighValue scale current stepPct with
    | none => .notEngaged
    | some target =>
      if leaf.highReadable = false then .notEngaged
      else if (parseCgroupToken high).any fun previous => decide (previous ≤ target) then
        .notEngaged
      else match leaf.errno with
      | some errno => .failed errno
      | none => .engaged high target current

/-! ## The soft brake -/

/-- What the brake leaves: successful writes of `memory.high`, and events. -/
inductive BrakeAct where
  | engage (previous : Token) (written : Int)
  | restore (token : Token)
  | memoryHighEngaged (previous : Token) (written memoryCurrent : Int) (signal : String)
      (context : List (String × Json))
  | memoryHighWriteFailed (errno : Option Int)
  | memoryHighReleased (reason : String)

/-- The brake's locals, the leaf's `memory.high`, and what the brake has done. -/
structure Brake where
  engaged : Bool
  previous : Option Token
  disarmed : Bool
  restoreFailed : Bool
  warningStreak : Nat
  noneStreak : Nat
  memoryHigh : Token
  acts : List BrakeAct

def Brake.start (high : Token) : Brake := ⟨false, none, false, false, 0, 0, high, []⟩

/-- Verdict and surroundings of one check: whether a restore's write would succeed,
what an engage would find, and which calls raise. -/
structure Tick where
  pressure : Option Pressure
  leaf : Leaf
  restores : Bool
  raises : Call → Bool

def Brake.emit (raises : Bool) (event : BrakeAct) (b : Brake) : Except Brake Brake :=
  if raises then .error b else .ok { b with acts := b.acts ++ [event] }

/-- `_release_brake`, with `restore_leaf_memory_high` succeeding or not. -/
def releaseBrake (restores : Bool) (raises : Call → Bool) (previous : Token) (reason : String)
    (b : Brake) : Except Brake (Bool × Brake) :=
  if restores then do
    let b := { b with memoryHigh := previous, acts := b.acts ++ [BrakeAct.restore previous] }
    let b ← b.emit (raises .released) (.memoryHighReleased reason)
    return (true, b)
  else do
    let b ← b.emit (raises .restoreFailed) (.memoryHighWriteFailed none)
    return (false, b)

/-- The streaks, and the release after enough checks without pressure. -/
def recover (cfg : BrakeConfig) (t : Tick) (b : Brake) : Except Brake Brake :=
  match t.pressure with
  | some _ => .ok { b with warningStreak := b.warningStreak + 1, noneStreak := 0 }
  | none =>
    let b := { b with warningStreak := 0, noneStreak := b.noneStreak + 1 }
    match b.engaged, b.previous with
    | true, some previous =>
      if b.restoreFailed = false ∧ cfg.warningConsecutiveSamples ≤ b.noneStreak then do
        let (restored, b) ← releaseBrake t.restores t.raises previous "recovered" b
        if restored then return { b with engaged := false, previous := none }
        else return { b with restoreFailed := true }
      else .ok b
    | _, _ => .ok b

/-- `_brake_step_for`; `armed` is the boot probe's verdict for the log directory. -/
def brakeStepFor (cfg : BrakeConfig) (armed : Bool) : Option Int :=
  if cfg.memoryHigh = false then none
  else if armed = false then none
  else some cfg.memoryHighStepPct

/-- The engage after enough checks under pressure. -/
def engage (scale : Int → Int → Int) (cfg : BrakeConfig) (armed : Bool) (t : Tick) (b : Brake) :
    Except Brake Brake :=
  match t.pressure, brakeStepFor cfg armed with
  | some pressure, some stepPct =>
    if b.disarmed = false ∧ b.engaged = false ∧
        cfg.warningConsecutiveSamples ≤ b.warningStreak then
      if t.raises .engage then .error b
      else match engageLeafMemoryHigh scale t.leaf b.memoryHigh stepPct with
      | .engaged previous written memoryCurrent =>
        { b with
            memoryHigh := .bytes written
            acts := b.acts ++ [BrakeAct.engage previous written]
            engaged := true
            previous := some previous }.emit (t.raises .engaged)
          (.memoryHighEngaged previous written memoryCurrent pressure.signal pressure.context)
      | .failed errno => do
        let b ← b.emit (t.raises .engageFailed) (.memoryHighWriteFailed (some errno))
        return { b with disarmed := true }
      | .notEngaged => .ok b
    else .ok b
  | _, _ => .ok b

/-- The brake's part of one check. -/
def brakeTick (scale : Int → Int → Int) (cfg : BrakeConfig) (armed : Bool) (t : Tick) (b : Brake) :
    Except Brake Brake := do
  let b ← recover cfg t b
  engage scale cfg armed t b

/-! ## The hard floor -/

/-- The action enum of `_mid_round_action`. -/
inductive Action where
  | terminate
  | defer
  | countOnly
  | nudge
  deriving DecidableEq

/-- `_mid_round_action`. -/
def midRoundAction (cfg : PressureConfig) (deferToCgroup : Bool) (criticalStreak : Nat)
    (nudged : Bool) : Action :=
  if cfg.inRoundTerminate = true ∧ cfg.criticalConsecutiveSamples ≤ criticalStreak then
    if deferToCgroup then .defer else .terminate
  else if cfg.inRoundNudge = true ∧ nudged = false ∧ criticalStreak = 1 ∧
      cfg.inRoundTerminate = true ∧ deferToCgroup = false then .nudge
  else .countOnly

/-- What the floor leaves: signals to the round and events. -/
inductive FloorAct where
  | sigterm
  | terminateRound
  | roundMemCriticalSample (consecutive : Nat) (context : List (String × Json))
  | roundMemTerminated (severity signal message : String) (consecutive : Nat)
      (context : List (String × Json)) (tier : String)
  | memPressureDeferredToCgroup (signal message : String)

/-- The floor's locals, and what it has done. -/
structure Floor where
  criticalStreak : Nat
  nudged : Bool
  cgroupDeferNotified : Bool
  acts : List FloorAct

def Floor.start : Floor := ⟨0, false, false, []⟩

/-- How a check left the loop. -/
inductive Left where
  | terminated
  | raised
  deriving DecidableEq

def Floor.act (raises : Bool) (act : FloorAct) (f : Floor) : Except (Left × Floor) Floor :=
  if raises then .error (.raised, f) else .ok { f with acts := f.acts ++ [act] }

/-- `emit_round_mem_terminated`. -/
def memTerminated (p : Pressure) (consecutive : Nat) (tier : String) : FloorAct :=
  .roundMemTerminated p.severity.text p.signal p.message consecutive p.context tier

/-- What the floor does under a critical verdict that continues a run to `streak`. -/
def carryOut (cfg : PressureConfig) (deferToCgroup : Bool) (raises : Call → Bool)
    (pressure : Pressure) (streak : Nat) (f : Floor) : Except (Left × Floor) Floor :=
  match midRoundAction cfg deferToCgroup streak f.nudged with
  | .nudge => do
    let f ← { f with nudged := true }.act (raises .nudge) .sigterm
    f.act (raises .nudgeEvent) (memTerminated pressure streak "nudge")
  | .terminate => do
    let f ← f.act (raises .terminate) .terminateRound
    let f ← f.act (raises .terminateEvent) (memTerminated pressure streak "terminate")
    throw (.terminated, f)
  | .defer =>
    if f.cgroupDeferNotified then .ok f
    else do
      let f ← f.act (raises .deferEvent)
        (.memPressureDeferredToCgroup pressure.signal pressure.message)
      return { f with cgroupDeferNotified := true }
  | .countOnly => .ok f

/-- The floor's part of one check. -/
def floorTick (cfg : PressureConfig) (deferToCgroup : Bool) (t : Tick) (f : Floor) :
    Except (Left × Floor) Floor :=
  match t.pressure with
  | none => .ok { f with criticalStreak := 0, cgroupDeferNotified := false }
  | some pressure =>
    if pressure.severity = .critical then do
      let f := { f with criticalStreak := f.criticalStreak + 1 }
      let f ← if f.criticalStreak ≤ 2 * cfg.criticalConsecutiveSamples then
          f.act (t.raises .criticalSample) (.roundMemCriticalSample f.criticalStreak pressure.context)
        else .ok f
      carryOut cfg deferToCgroup t.raises pressure f.criticalStreak f
    else .ok { f with criticalStreak := 0, cgroupDeferNotified := false }

/-! ## A round -/

/-- What one check has done. -/
structure Ticked where
  tick : Tick
  brake : List BrakeAct
  floor : List FloorAct

/-- What a round gets from its caller; without a `host_health_cfg` it has no checks. -/
structure Round where
  cfg : HostHealthConfig
  deferToCgroup : Bool
  armed : Bool
  ticks : List Tick
  restoresAtEnd : Bool
  raisesAtEnd : Call → Bool

/-- The checks that ran to their end, the one that raised, the brake as the loop was
left, and how it was left: `none` where the round exited or ran into its deadline. -/
structure Ran where
  done : List Ticked
  cut : Option Ticked
  brake : Brake
  left : Option Left

/-- One check, and what it leaves in either part. -/
def tick (scale : Int → Int → Int) (r : Round) (t : Tick) (b : Brake) (f : Floor) :
    Except (Left × Brake × Floor) (Brake × Floor) :=
  if t.raises .sample then .error (.raised, b, f)
  else match brakeTick scale r.cfg.brake r.armed t b with
  | .error b => .error (.raised, b, f)
  | .ok b =>
    match floorTick r.cfg.pressure r.deferToCgroup t f with
    | .error (left, f) => .error (left, b, f)
    | .ok f => .ok (b, f)

/-- The checks of a round, until one leaves the loop. -/
def checks (scale : Int → Int → Int) (r : Round) : List Tick → Brake → Floor → Ran
  | [], b, _ => ⟨[], none, b, none⟩
  | t :: rest, b, f =>
    match tick scale r t { b with acts := [] } { f with acts := [] } with
    | .ok (b, f) =>
      let ran := checks scale r rest b f
      { ran with done := ⟨t, b.acts, f.acts⟩ :: ran.done }
    | .error (.terminated, b, f) => ⟨[⟨t, b.acts, f.acts⟩], none, b, some .terminated⟩
    | .error (.raised, b, f) => ⟨[], some ⟨t, b.acts, f.acts⟩, b, some .raised⟩

/-- The loop of one round on a leaf whose `memory.high` shows `high`. -/
def midRound (scale : Int → Int → Int) (r : Round) (high : Token) : Ran :=
  checks scale r r.ticks (.start high) .start

/-- Every check the loop began. -/
def Ran.begun (ran : Ran) : List Ticked := ran.done ++ ran.cut.toList

/-- The `finally`: an engaged brake is released, and no exception leaves it. -/
def finish (r : Round) (b : Brake) : Brake :=
  let b := { b with acts := [] }
  match b.engaged, b.previous with
  | true, some previous =>
    match releaseBrake r.restoresAtEnd r.raisesAtEnd previous "round_end" b with
    | .ok (_, b) => b
    | .error b => b
  | _, _ => b

end AgentRunner.MidRound
