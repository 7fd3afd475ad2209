import LitterBox.Logic.Model

/-!
# What the other threads read

The names and numbers of states and fault codes (`fsm.h`, `fsm.c`), and the getters of `logic.c`
through which the MQTT thread and the shell see the context.
-/

namespace LitterBox

/-! ## fsm.c -/

def litterFsmStateName : LitterFsmState → String
  | .idle => "IDLE"
  | .occupied => "OCCUPIED"
  | .leaveConfirm => "LEAVE_CONFIRM"
  | .cleanDelay => "CLEAN_DELAY"
  | .cleaning => "CLEANING"
  | .safeStop => "SAFE_STOP"
  | .fault => "FAULT"

def litterFsmFaultName : LitterFsmFault → String
  | .none => "NONE"
  | .binFull => "BIN_FULL"
  | .cleanTimeout => "CLEAN_TIMEOUT"
  | .protectTrigger => "PROTECT_TRIGGER"

/-- the value of the enumeration constant -/
def LitterFsmState.toInt : LitterFsmState → Int
  | .idle => 0
  | .occupied => 1
  | .leaveConfirm => 2
  | .cleanDelay => 3
  | .cleaning => 4
  | .safeStop => 5
  | .fault => 6

def LitterFsmFault.toInt : LitterFsmFault → Int
  | .none => 0
  | .binFull => 1
  | .cleanTimeout => 2
  | .protectTrigger => 3

theorem litterFsmStateName_inj {s s' : LitterFsmState}
    (h : litterFsmStateName s = litterFsmStateName s') : s = s' := by
  cases s <;> cases s' <;> first | rfl | exact absurd h (by decide)

theorem litterFsmFaultName_inj {f f' : LitterFsmFault}
    (h : litterFsmFaultName f = litterFsmFaultName f') : f = f' := by
  cases f <;> cases f' <;> first | rfl | exact absurd h (by decide)

/-! ## logic.c -/

def sensorLogicGetState (s : Logic) : LitterFsmState := s.fsm.ctx.state

def sensorLogicGetFaultCode (s : Logic) : LitterFsmFault := s.fsm.ctx.faultCode

def sensorLogicStateName (s : Logic) : String := litterFsmStateName (sensorLogicGetState s)

def sensorLogicFaultName (s : Logic) : String := litterFsmFaultName (sensorLogicGetFaultCode s)

def sensorLogicIsBinFull (s : Logic) : Bool := s.fsm.ctx.binFull

def sensorLogicIsProtectActive (s : Logic) : Bool := s.fsm.ctx.protectActive

end LitterBox
