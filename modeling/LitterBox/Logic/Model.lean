import LitterBox.Fsm.Model
import LitterBox.Board.Gpio
import LitterBox.Lib.Runs

/-!
# The control logic of `app_logic/logic.c`

`Logic` holds the static variables of `logic.c`, the `int box_used`, the context of the state
machine and the pin registers.  Each function below is the source function of the same name;
`Inputs` is what one call reads from outside: the pins, the weight, and the true time, of which
`rt_tick_get` returns the low 32 bits.

`Sensor_Logic_Running` is written twice: `sensorLogicRunning` in the order of the source, and as
the chain of its stages `running…`, in which each stage is the state the source has reached after
it.  `sensorLogicRunning_eq` says that they are the same.

A `Step` is one atomic call.  The log of the state machine (`Fsm.out`) is emptied at the beginning
of a step, so that after it the log shows this step only; the calls through the ops table that the
log shows are then carried out on the pins, in their order.
-/

set_option linter.unusedVariables false

namespace LitterBox

/-! ## pins -/

/-- `GET_PIN` -/
def getPin (port n : Nat) : Nat := port * 16 + n

def in1 : Nat := getPin 3 8
def in2 : Nat := getPin 3 9
def o3 : Nat := getPin 3 10
def buzzer : Nat := getPin 3 11
def hongwaiPin : Nat := getPin 4 2
def hallPos1HomePin : Nat := getPin 0 4
def hallPos2DumpPin : Nat := getPin 0 5
def hallPos3SandReturnPin : Nat := getPin 0 6

/-- what one call reads from outside -/
structure Inputs where
  /-- true time; the tick is this modulo `2^32` -/
  time : Nat
  /-- level at `HONGWAI_PIN` -/
  hongwai : Level
  curWeight : Int
  /-- levels at the hall pins -/
  pos1 : Level
  pos2 : Level
  pos3 : Level
  deriving DecidableEq, Repr

/-- what `rt_tick_get` returns in the call -/
def Inputs.now (i : Inputs) : Tick := Clock.tick 32 i.time

/-! ## hall position -/

/-- `litter_hall_position_t` -/
inductive LitterHallPosition where
  | unknown
  | transition
  | pos1Home
  | pos2Dump
  | pos3SandReturn
  | invalid
  deriving DecidableEq, Repr

/-- `litter_hall_config_t`, less the pins -/
structure LitterHallConfig where
  activeLevel : Level
  samplePeriodMs : BitVec 32
  debounceMs : BitVec 32
  deriving DecidableEq, Repr

/-- `litter_hall_state_t` -/
structure LitterHallState where
  lastSampleTick : Tick
  candidateStartedTick : Tick
  rawPosition : LitterHallPosition
  candidatePosition : LitterHallPosition
  stablePosition : LitterHallPosition
  lastReportedPhase : LitterCleanPhase
  lastReportedPosition : LitterHallPosition
  rawActiveBits : BitVec 8
  deriving DecidableEq, Repr

/-- `g_hall_cfg` -/
def gHallCfg : LitterHallConfig where
  activeLevel := .low
  samplePeriodMs := 10
  debounceMs := 20

def logicHallInit : LitterHallState where
  lastSampleTick := 0
  candidateStartedTick := 0
  rawPosition := .unknown
  candidatePosition := .unknown
  stablePosition := .unknown
  lastReportedPhase := .none
  lastReportedPosition := .unknown
  rawActiveBits := 0

def logicHallReadActiveBits (i : Inputs) : BitVec 8 :=
  let activeBits := if i.pos1 = gHallCfg.activeLevel then 0 ||| 0x01 else 0
  let activeBits := if i.pos2 = gHallCfg.activeLevel then activeBits ||| 0x02 else activeBits
  if i.pos3 = gHallCfg.activeLevel then activeBits ||| 0x04 else activeBits

def logicHallDecodePosition (activeBits : BitVec 8) : LitterHallPosition :=
  if activeBits = 0x00 then .transition
  else if activeBits = 0x01 then .pos1Home
  else if activeBits = 0x02 then .pos2Dump
  else if activeBits = 0x04 then .pos3SandReturn
  else .invalid

def logicHallEventFromPosition : LitterHallPosition → LitterFsmEvent
  | .pos1Home => .pos1Reached
  | .pos2Dump => .pos2Reached
  | .pos3SandReturn => .pos3Reached
  | _ => .none

def logicHallTargetPositionFromPhase : LitterCleanPhase → LitterHallPosition
  | .toPos2 => .pos2Dump
  | .toPos3 => .pos3SandReturn
  | .toPos1 => .pos1Home
  | .none => .unknown

/-- the result, the value of `*stable_position`, and the new `g_hall_state` -/
def logicHallPoll (i : Inputs) (h : LitterHallState) :
    Bool × LitterHallPosition × LitterHallState :=
  let stablePosition := h.stablePosition
  let now := i.now
  let sampleTicks := rtTickFromMillisecond gHallCfg.samplePeriodMs
  if h.lastSampleTick ≠ 0 ∧ 0 < sampleTicks ∧
      (now - h.lastSampleTick).toInt < sampleTicks.toInt then
    (false, stablePosition, h)
  else
    let activeBits := logicHallReadActiveBits i
    let rawPosition := logicHallDecodePosition activeBits
    let h := { h with
      lastSampleTick := now, rawActiveBits := activeBits, rawPosition := rawPosition }
    if h.candidatePosition ≠ rawPosition then
      (false, stablePosition,
        { h with candidatePosition := rawPosition, candidateStartedTick := now })
    else
      let debounceTicks := rtTickFromMillisecond gHallCfg.debounceMs
      if h.stablePosition ≠ rawPosition ∧
          (debounceTicks = 0 ∨ debounceTicks.toInt ≤ (now - h.candidateStartedTick).toInt) then
        (true, rawPosition, { h with stablePosition := rawPosition })
      else (false, stablePosition, h)

/-! ## the static variables -/

structure Logic where
  gLogicReady : Bool
  gPrevOccupied : Bool
  gPrevBinFull : Bool
  gRemoteCleanRequest : Bool
  gResetRequest : Bool
  /-- `g_fsm_ctx` and the log of this step -/
  fsm : Fsm
  gHallState : LitterHallState
  boxUsed : Int
  gpio : Gpio

/-- a call into `fsm.c` -/
def Logic.onFsm (f : Fsm → Fsm) (s : Logic) : Logic := { s with fsm := f s.fsm }

def Logic.dispatch (now : Tick) (event : LitterFsmEvent) (s : Logic) : Logic :=
  s.onFsm (litterFsmDispatch now event)

def logicDispatchHallEventIfNeeded (now : Tick) (stablePosition : LitterHallPosition)
    (currentState : LitterFsmState) (currentPhase : LitterCleanPhase)
    (binFullNow protectNow : Bool) (s : Logic) : Logic :=
  if currentState ≠ .cleaning then
    { s with gHallState := { s.gHallState with lastReportedPhase := .none } }
  else if binFullNow = true ∨ protectNow = true then s
  else
    let targetPosition := logicHallTargetPositionFromPhase currentPhase
    if targetPosition = .unknown ∨ stablePosition ≠ targetPosition then s
    else
      let hallEvent := logicHallEventFromPosition stablePosition
      if hallEvent = .none ∨ (s.gHallState.lastReportedPhase = currentPhase ∧
          s.gHallState.lastReportedPosition = stablePosition) then s
      else
        let s := { s with gHallState := { s.gHallState with
          lastReportedPhase := currentPhase, lastReportedPosition := stablePosition } }
        s.dispatch now hallEvent

/-! ## inputs -/

def logicIsOccupied (i : Inputs) : Bool := if i.hongwai = .low then true else false

/-- `BIN_FULL_WEIGHT_THRESHOLD` -/
def binFullWeightThreshold : Int := 500

def logicIsBinFull (i : Inputs) : Bool :=
  if binFullWeightThreshold ≤ i.curWeight then true else false

def logicIsProtectActive (occupiedNow : Bool) (currentState : LitterFsmState) : Bool :=
  if occupiedNow = true ∧ (currentState = .cleaning ∨ currentState = .safeStop) then true else false

/-! ## the ops table

The functions of `g_fsm_ops` write pins; each is the list of its writes. -/

def logicMotorForwardStart : List (Nat × Level) := [(in1, .low), (in2, .high)]
def logicMotorReverseStart : List (Nat × Level) := [(in1, .high), (in2, .low)]
def logicMotorStop : List (Nat × Level) := [(in1, .low), (in2, .low), (buzzer, .low), (o3, .low)]
def logicFaultHandler : List (Nat × Level) := [(buzzer, .low), (o3, .low)]

/-- `g_fsm_ops` -/
def gFsmOps : LitterFsmOps := ⟨true, true, true, true⟩

/-- the pins written by a line of the log -/
def Act.writes : Act → List (Nat × Level)
  | .motorForwardStart => logicMotorForwardStart
  | .motorReverseStart => logicMotorReverseStart
  | .motorStop => logicMotorStop
  | .onFault _ => logicFaultHandler
  | _ => []

def Gpio.writeAll (l : List (Nat × Level)) (g : Gpio) : Gpio :=
  l.foldl (fun g w => hc32PinWrite w.1 w.2 g) g

/-- the calls of a log, newest line first, carried out on the pins -/
def Gpio.replay (g : Gpio) : List Out → Gpio
  | [] => g
  | o :: l => (g.replay l).writeAll o.act.writes

/-! ## Sensor_Logic_Init -/

/-- the pin modes set by `Sensor_Logic_Init` -/
def initPins (g : Gpio) : Gpio :=
  let g := hc32PinMode hongwaiPin .input g
  let g := hc32PinMode in1 .output g
  let g := hc32PinMode in2 .output g
  let g := hc32PinMode buzzer .output g
  let g := hc32PinMode o3 .output g
  let g := hc32PinMode hallPos1HomePin .inputPullup g
  let g := hc32PinMode hallPos2DumpPin .inputPullup g
  hc32PinMode hallPos3SandReturnPin .inputPullup g

def sensorLogicInit (i : Inputs) (s : Logic) : Logic :=
  if s.gLogicReady = true then s
  else
    let s := { s with gpio := initPins s.gpio }
    let occupiedNow := logicIsOccupied i
    let binFullNow := logicIsBinFull i
    let s := { s with gHallState := logicHallInit }
    let s := s.onFsm (litterFsmInit i.now (some gFsmOps))
    let s := s.onFsm (litterFsmSyncInputs occupiedNow binFullNow false)
    let s := { s with gPrevOccupied := occupiedNow, gPrevBinFull := binFullNow }
    let s := if occupiedNow = true then s.dispatch i.now .occupiedOn else s
    let s := if binFullNow = true then s.dispatch i.now .binFull else s
    { s with gLogicReady := true }

def sensorLogicRequestClean (s : Logic) : Logic := { s with gRemoteCleanRequest := true }

def sensorLogicRequestReset (s : Logic) : Logic := { s with gResetRequest := true }

/-- the shell command -/
def litterTimeout (now : Tick) (s : Logic) : Logic :=
  if s.fsm.ctx.state ≠ .cleaning then s else s.dispatch now .stallOrTimeout

/-! ## Sensor_Logic_Running -/

/-- the occupancy edge -/
def occupancyEdge (now : Tick) (occupiedNow : Bool) (currentState : LitterFsmState) (s : Logic) :
    Logic :=
  if occupiedNow ≠ s.gPrevOccupied then
    if occupiedNow = true then
      let s := if currentState = .idle then { s with boxUsed := s.boxUsed + 1 } else s
      if currentState = .cleaning then s.dispatch now .protectTrigger
      else s.dispatch now .occupiedOn
    else s.dispatch now .occupiedOff
  else s

/-- the pending clean request -/
def cleanRequest (now : Tick) (s : Logic) : Logic :=
  if s.gRemoteCleanRequest = true then
    ({ s with gRemoteCleanRequest := false }).dispatch now .cleanStart
  else s

/-- the pending reset request -/
def resetRequest (now : Tick) (s : Logic) : Logic :=
  if s.gResetRequest = true then ({ s with gResetRequest := false }).dispatch now .reset else s

def sensorLogicRunning (i : Inputs) (s : Logic) : Logic :=
  let s := if s.gLogicReady = false then sensorLogicInit i s else s
  let occupiedNow := logicIsOccupied i
  let binFullNow := logicIsBinFull i
  let currentState := s.fsm.ctx.state
  let protectNow := logicIsProtectActive occupiedNow currentState
  let s := s.onFsm (litterFsmSyncInputs occupiedNow binFullNow protectNow)
  let s := if binFullNow = true ∧ s.gPrevBinFull = false then s.dispatch i.now .binFull else s
  let currentState := s.fsm.ctx.state
  let s :=
    if currentState ≠ .fault then cleanRequest i.now (occupancyEdge i.now occupiedNow currentState s)
    else s
  let s := resetRequest i.now s
  let poll := logicHallPoll i s.gHallState
  let s := { s with gHallState := poll.2.2 }
  let currentState := s.fsm.ctx.state
  let currentPhase := s.fsm.ctx.cleanPhase
  let s := logicDispatchHallEventIfNeeded i.now poll.2.1 currentState currentPhase
    binFullNow protectNow s
  let s := s.onFsm (litterFsmTick i.now)
  { s with gPrevOccupied := occupiedNow, gPrevBinFull := binFullNow }

/-! ## its stages -/

/-- the value of `protect_now` in the call -/
def protectNow (i : Inputs) (s : Logic) : Bool :=
  logicIsProtectActive (logicIsOccupied i) s.fsm.ctx.state

def runningSync (i : Inputs) (s : Logic) : Logic :=
  s.onFsm (litterFsmSyncInputs (logicIsOccupied i) (logicIsBinFull i) (protectNow i s))

def runningBinFull (i : Inputs) (s : Logic) : Logic :=
  let s := runningSync i s
  if logicIsBinFull i = true ∧ s.gPrevBinFull = false then s.dispatch i.now .binFull else s

def runningOccupancy (i : Inputs) (s : Logic) : Logic :=
  let s := runningBinFull i s
  if s.fsm.ctx.state ≠ .fault then
    occupancyEdge i.now (logicIsOccupied i) s.fsm.ctx.state s
  else s

def runningClean (i : Inputs) (s : Logic) : Logic :=
  if (runningBinFull i s).fsm.ctx.state ≠ .fault then cleanRequest i.now (runningOccupancy i s)
  else runningOccupancy i s

def runningReset (i : Inputs) (s : Logic) : Logic := resetRequest i.now (runningClean i s)

def runningHall (i : Inputs) (s : Logic) : Logic :=
  let r := runningReset i s
  let poll := logicHallPoll i r.gHallState
  logicDispatchHallEventIfNeeded i.now poll.2.1 r.fsm.ctx.state r.fsm.ctx.cleanPhase
    (logicIsBinFull i) (protectNow i s) { r with gHallState := poll.2.2 }

def runningTick (i : Inputs) (s : Logic) : Logic := (runningHall i s).onFsm (litterFsmTick i.now)

/-- the test against FAULT is made once in the source -/
theorem runningClean_eq (i : Inputs) (s : Logic) :
    runningClean i s =
      if (runningBinFull i s).fsm.ctx.state ≠ .fault then
        cleanRequest i.now (occupancyEdge i.now (logicIsOccupied i)
          (runningBinFull i s).fsm.ctx.state (runningBinFull i s))
      else runningBinFull i s := by
  unfold runningClean runningOccupancy
  by_cases hf : (runningBinFull i s).fsm.ctx.state ≠ .fault
  · rw [if_pos hf, if_pos hf, if_pos hf]
  · rw [if_neg hf, if_neg hf, if_neg hf]

/-- **the stages are the source**, for an initialised machine -/
theorem sensorLogicRunning_eq (i : Inputs) (s : Logic) (h : s.gLogicReady = true) :
    sensorLogicRunning i s =
      { runningTick i s with gPrevOccupied := logicIsOccupied i, gPrevBinFull := logicIsBinFull i } := by
  have hinit : (if s.gLogicReady = false then sensorLogicInit i s else s) = s := by
    rw [h]
    rfl
  unfold sensorLogicRunning
  rw [hinit]
  unfold runningTick runningHall runningReset
  rw [runningClean_eq]
  rfl

/-! ## steps and runs -/

/-- one atomic call -/
inductive Step where
  | running (i : Inputs)
  | requestClean
  | requestReset
  | litterTimeout (time : Nat)
  deriving DecidableEq, Repr

def Step.exec (s : Logic) : Step → Logic
  | .running i => sensorLogicRunning i s
  | .requestClean => sensorLogicRequestClean s
  | .requestReset => sensorLogicRequestReset s
  | .litterTimeout time => LitterBox.litterTimeout (Clock.tick 32 time) s

/-- the log is emptied -/
def Logic.fresh (s : Logic) : Logic := { s with fsm := { s.fsm with out := [] } }

/-- the calls of the log reach the pins -/
def Logic.drivePins (s : Logic) : Logic := { s with gpio := s.gpio.replay s.fsm.out }

def Logic.step (s : Logic) (x : Step) : Logic := (x.exec s.fresh).drivePins

/-- the static variables before `Sensor_Logic_Init`, with any contents of the pin registers -/
def coldStart (g : Gpio) : Logic where
  gLogicReady := false
  gPrevOccupied := false
  gPrevBinFull := false
  gRemoteCleanRequest := false
  gResetRequest := false
  fsm :=
    { ctx :=
        { state := .idle, stateEnterTick := 0, lastEventTick := 0, cleanStartedTick := 0
          phaseStartedTick := 0, deadlineTick := 0, occupied := false, binFull := false
          protectActive := false, cleaningActive := false, cleanPhase := .none, faultCode := .none
          leaveConfirmMs := 0, cleanDelayMs := 0, timeoutToPos2Ms := 0, timeoutToPos3Ms := 0
          timeoutToPos1Ms := 0, cleanTotalTimeoutMs := 0, ops := none }
      out := [] }
  gHallState := logicHallInit
  boxUsed := 0
  gpio := g

/-- the state when `Sensor_Logic_Init` returns -/
def boot (g : Gpio) (i0 : Inputs) : Logic := (sensorLogicInit i0 (coldStart g)).drivePins

/-- **a run**: `Sensor_Logic_Init` with the inputs `i0`, then the calls `l` -/
def run (g : Gpio) (i0 : Inputs) (l : List Step) : Logic := Runs.run Logic.step (boot g i0) l

end LitterBox
