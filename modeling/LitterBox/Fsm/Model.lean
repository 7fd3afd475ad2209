import LitterBox.Lib.Clock

/-!
# The state machine of `app_logic/fsm.c`

`Fsm` is the context `litter_fsm_ctx_t` together with the log of what the code did: the lines it
prints under `[FSM]` and the calls it makes through the ops table, newest first.  Every line
carries the context at the moment it was written.  Each function below is the source function of
the same name on that pair; `now` is the value `rt_tick_get` returns during the call.

The context is never the null pointer here, so the tests against `RT_NULL` that remain are those
of the ops table and of its entries (`LitterFsmOps`).

`litter_fsm_dispatch` calls itself once, through `fsm_finish_cleaning`: `dispatchWith` is its body
with that call left open, `litterFsmDispatch` closes it, and `litterFsmDispatch_eq` is the
recursion equation of the source.
-/

set_option linter.unusedVariables false

namespace LitterBox

/-! ## fsm.h -/

/-- `litter_fsm_state_t` -/
inductive LitterFsmState where
  | idle
  | occupied
  | leaveConfirm
  | cleanDelay
  | cleaning
  | safeStop
  | fault
  deriving DecidableEq, Repr

/-- `litter_fsm_event_t` -/
inductive LitterFsmEvent where
  | none
  | occupiedOn
  | occupiedOff
  | delayTimeout
  | cleanStart
  | cleanDone
  | pos1Reached
  | pos2Reached
  | pos3Reached
  | protectTrigger
  | protectRelease
  | stallOrTimeout
  | binFull
  | reset
  deriving DecidableEq, Repr

/-- `litter_fsm_fault_t` -/
inductive LitterFsmFault where
  | none
  | binFull
  | cleanTimeout
  | protectTrigger
  deriving DecidableEq, Repr

/-- `litter_clean_phase_t` -/
inductive LitterCleanPhase where
  | none
  | toPos2
  | toPos3
  | toPos1
  deriving DecidableEq, Repr

/-- `rt_tick_t` -/
abbrev Tick := BitVec 32

/-- which entries of a `litter_fsm_ops_t` are not `RT_NULL` -/
structure LitterFsmOps where
  motorForwardStart : Bool
  motorReverseStart : Bool
  motorStop : Bool
  onFault : Bool
  deriving DecidableEq, Repr

/-- `litter_fsm_ctx_t` -/
structure LitterFsmCtx where
  state : LitterFsmState
  stateEnterTick : Tick
  lastEventTick : Tick
  cleanStartedTick : Tick
  phaseStartedTick : Tick
  deadlineTick : Tick
  occupied : Bool
  binFull : Bool
  protectActive : Bool
  cleaningActive : Bool
  cleanPhase : LitterCleanPhase
  faultCode : LitterFsmFault
  leaveConfirmMs : BitVec 32
  cleanDelayMs : BitVec 32
  timeoutToPos2Ms : BitVec 32
  timeoutToPos3Ms : BitVec 32
  timeoutToPos1Ms : BitVec 32
  cleanTotalTimeoutMs : BitVec 32
  ops : Option LitterFsmOps
  deriving DecidableEq, Repr

/-! ## the log -/

/-- one line of the log: a printed line, or a call through the ops table -/
inductive Act where
  /-- `EVT e @ s` -/
  | evt (e : LitterFsmEvent) (s : LitterFsmState)
  /-- `EXIT a`, and the assignment `ctx->state = b` that follows it -/
  | move (a b : LitterFsmState)
  /-- `ENTER s` -/
  | enter (s : LitterFsmState)
  /-- `CLEANING phase=p` -/
  | phase (p : LitterCleanPhase)
  | motorForwardStart
  | motorReverseStart
  | motorStop
  | onFault (code : LitterFsmFault)
  /-- a fixed text -/
  | say (text : String)
  /-- a text with the name and the number of a fault code -/
  | report (text : String) (code : LitterFsmFault)
  /-- `reason code -> s` -/
  | recover (reason : String) (code : LitterFsmFault) (s : LitterFsmState)
  deriving DecidableEq, Repr

/-- a line of the log and the context when it was written -/
structure Out where
  act : Act
  ctx : LitterFsmCtx
  deriving DecidableEq, Repr

/-- the context and the log of the calls so far, newest line first -/
structure Fsm where
  ctx : LitterFsmCtx
  out : List Out
  deriving DecidableEq, Repr

def Fsm.emit (a : Act) (m : Fsm) : Fsm := { m with out := ⟨a, m.ctx⟩ :: m.out }

def Fsm.set (c : LitterFsmCtx) (m : Fsm) : Fsm := { m with ctx := c }

/-! ## rt-thread/src/clock.c -/

/-- `RT_TICK_PER_SECOND` -/
def rtTickPerSecond : Int := 1000

/-- the parameter is an `rt_int32_t`; C division truncates -/
def rtTickFromMillisecond (ms : BitVec 32) : Tick :=
  if ms.toInt < 0 then BitVec.ofInt 32 (-1)
  else BitVec.ofInt 32 (rtTickPerSecond * ms.toInt.tdiv 1000) +
    BitVec.ofInt 32 ((rtTickPerSecond * ms.toInt.tmod 1000 + 999).tdiv 1000)

/-! ## fsm.c -/

/-- the ops table is there and its entry `sel` is not null -/
def LitterFsmCtx.hasOp (sel : LitterFsmOps → Bool) (c : LitterFsmCtx) : Bool :=
  match c.ops with
  | .none => false
  | .some o => sel o

def fsmMotorStop (m : Fsm) : Fsm :=
  if m.ctx.hasOp (·.motorStop) then m.emit .motorStop else m

def fsmResolveIdleOrOccupied (c : LitterFsmCtx) : LitterFsmState :=
  if c.occupied = true then .occupied else .idle

def fsmStartCleanPhase (now : Tick) (phase : LitterCleanPhase) (m : Fsm) : Fsm :=
  let m := m.set { m.ctx with cleanPhase := phase, phaseStartedTick := now }
  let m :=
    match phase with
    | .toPos2 => if m.ctx.hasOp (·.motorForwardStart) then m.emit .motorForwardStart else m
    | .toPos3 => if m.ctx.hasOp (·.motorReverseStart) then m.emit .motorReverseStart else m
    | .toPos1 => if m.ctx.hasOp (·.motorForwardStart) then m.emit .motorForwardStart else m
    | .none => fsmMotorStop m
  m.emit (.phase m.ctx.cleanPhase)

def fsmCleanPhaseTimeoutMs (c : LitterFsmCtx) : BitVec 32 :=
  match c.cleanPhase with
  | .toPos2 => c.timeoutToPos2Ms
  | .toPos3 => c.timeoutToPos3Ms
  | .toPos1 => c.timeoutToPos1Ms
  | .none => 0

/-- the `switch` of `fsm_enter_state` -/
def enterActions (now : Tick) (next : LitterFsmState) (m : Fsm) : Fsm :=
  match next with
  | .idle =>
    fsmMotorStop (m.set { m.ctx with
      cleanPhase := .none, cleaningActive := false, faultCode := .none })
  | .occupied =>
    fsmMotorStop (m.set { m.ctx with
      cleanPhase := .none, cleaningActive := false, faultCode := .none })
  | .leaveConfirm =>
    fsmMotorStop (m.set { m.ctx with
      cleanPhase := .none, cleaningActive := false, faultCode := .none,
      deadlineTick := now + rtTickFromMillisecond m.ctx.leaveConfirmMs })
  | .cleanDelay =>
    fsmMotorStop (m.set { m.ctx with
      cleanPhase := .none, cleaningActive := false, faultCode := .none,
      deadlineTick := now + rtTickFromMillisecond m.ctx.cleanDelayMs })
  | .cleaning =>
    fsmStartCleanPhase now .toPos2 (m.set { m.ctx with
      cleaningActive := true, faultCode := .none, cleanStartedTick := now })
  | .safeStop =>
    fsmMotorStop (m.set { m.ctx with cleanPhase := .none, cleaningActive := false })
  | .fault =>
    let m := fsmMotorStop (m.set { m.ctx with cleanPhase := .none, cleaningActive := false })
    if m.ctx.hasOp (·.onFault) then m.emit (.onFault m.ctx.faultCode) else m

/-- the lines `fsm_enter_state` ends with -/
def enterReport (next : LitterFsmState) (m : Fsm) : Fsm :=
  let m := m.emit (.enter next)
  if next = .fault then m.emit (.report "FAULT enter" m.ctx.faultCode)
  else if next = .safeStop ∧ m.ctx.faultCode ≠ .none then
    m.emit (.report "SAFE_STOP reason" m.ctx.faultCode)
  else m

def fsmEnterState (now : Tick) (next : LitterFsmState) (m : Fsm) : Fsm :=
  if m.ctx.state = next then m
  else
    let m := (m.emit (.move m.ctx.state next)).set { m.ctx with
      state := next, stateEnterTick := now, lastEventTick := now, deadlineTick := 0 }
    enterReport next (enterActions now next m)

def fsmRecoverToState (now : Tick) (next : LitterFsmState) (reason : String) (m : Fsm) : Fsm :=
  let m := m.emit (.recover reason m.ctx.faultCode next)
  fsmEnterState now next (m.set { m.ctx with faultCode := .none })

/-- no caller passes a `reason` -/
def fsmEnterFault (now : Tick) (faultCode : LitterFsmFault) (m : Fsm) : Fsm :=
  let m := m.set { m.ctx with faultCode := faultCode }
  if m.ctx.state = .fault then
    let m := fsmMotorStop m
    let m := if m.ctx.hasOp (·.onFault) then m.emit (.onFault m.ctx.faultCode) else m
    m.emit (.report "FAULT active" m.ctx.faultCode)
  else fsmEnterState now .fault m

def fsmLogBinFullActive (m : Fsm) : Fsm := m.emit (.say "BIN_FULL active")

def fsmLogCleanBlock (reason : String) (m : Fsm) : Fsm :=
  m.emit (.say ("INTERLOCK block clean: " ++ reason))

def fsmBlockCleanRequest (now : Tick) (reason : String) (m : Fsm) : Fsm :=
  let m := fsmLogCleanBlock reason m
  fsmEnterState now (fsmResolveIdleOrOccupied m.ctx) m

def fsmBlockCleanForBinFull (now : Tick) (m : Fsm) : Fsm :=
  fsmEnterFault now .binFull (m.emit (.say "BIN_FULL block clean"))

def fsmTryEnterCleaning (now : Tick) (m : Fsm) : Fsm :=
  if m.ctx.occupied = true then fsmBlockCleanRequest now "occupied" m
  else if m.ctx.binFull = true then fsmBlockCleanForBinFull now m
  else if m.ctx.protectActive = true then fsmBlockCleanRequest now "protect active" m
  else fsmEnterState now .cleaning m

def fsmStopCleaningForProtect (now : Tick) (m : Fsm) : Fsm :=
  let m := m.set { m.ctx with faultCode := .protectTrigger }
  fsmEnterState now .safeStop (m.emit (.say "PROTECT stop -> SAFE_STOP"))

def fsmRecoverFromSafeStop (now : Tick) (m : Fsm) : Fsm :=
  if m.ctx.binFull = true then
    fsmEnterFault now .binFull (m.emit (.say "SAFE_STOP release blocked: bin full"))
  else
    let next := if m.ctx.occupied = true then .occupied else .leaveConfirm
    fsmRecoverToState now next "SAFE_STOP recover" m

def fsmHandleResetRecover (now : Tick) (m : Fsm) : Fsm :=
  if m.ctx.protectActive = true then m.emit (.say "RESET blocked: protect active")
  else if m.ctx.binFull = true then m.emit (.say "RESET blocked: bin full")
  else fsmRecoverToState now (fsmResolveIdleOrOccupied m.ctx) "RESET recover" m

/-- `deadline == 0` stands for "no deadline" -/
def fsmDeadlineExpired (now deadline : Tick) : Bool :=
  if deadline = 0 then false else Clock.reached now deadline

def litterFsmInit (now : Tick) (ops : Option LitterFsmOps) (m : Fsm) : Fsm :=
  let m := m.set
    { state := .idle, stateEnterTick := now, lastEventTick := 0, cleanStartedTick := 0
      phaseStartedTick := 0, deadlineTick := 0, occupied := false, binFull := false
      protectActive := false, cleaningActive := false, cleanPhase := .none, faultCode := .none
      leaveConfirmMs := 2000, cleanDelayMs := 5000, timeoutToPos2Ms := 6000
      timeoutToPos3Ms := 5000, timeoutToPos1Ms := 6000, cleanTotalTimeoutMs := 20000
      ops := ops }
  (fsmMotorStop m).emit (.enter .idle)

def litterFsmSyncInputs (occupied binFull protectActive : Bool) (m : Fsm) : Fsm :=
  m.set { m.ctx with occupied := occupied, binFull := binFull, protectActive := protectActive }

/-- the `switch (ctx->state)` of `litter_fsm_dispatch` -/
def dispatchState (finish : Fsm → Fsm) (now : Tick) (event : LitterFsmEvent) (m : Fsm) : Fsm :=
  match m.ctx.state with
  | .idle =>
    if event = .occupiedOn then fsmEnterState now .occupied m
    else if event = .cleanStart then fsmTryEnterCleaning now m
    else if event = .binFull then fsmEnterFault now .binFull (fsmLogBinFullActive m)
    else m
  | .occupied =>
    if event = .occupiedOff then fsmEnterState now .leaveConfirm m
    else if event = .cleanStart then fsmTryEnterCleaning now m
    else if event = .binFull then fsmEnterFault now .binFull (fsmLogBinFullActive m)
    else m
  | .leaveConfirm =>
    if event = .occupiedOn then
      fsmEnterState now .occupied (m.emit (.say "INTERLOCK abort prep: occupied"))
    else if event = .delayTimeout then
      if m.ctx.binFull = true then fsmBlockCleanForBinFull now m
      else if m.ctx.protectActive = true then fsmBlockCleanRequest now "protect active" m
      else if m.ctx.occupied = true then
        fsmEnterState now .occupied (m.emit (.say "INTERLOCK abort prep: occupied"))
      else fsmEnterState now .cleanDelay m
    else if event = .reset then fsmHandleResetRecover now m
    else if event = .binFull then fsmBlockCleanForBinFull now m
    else m
  | .cleanDelay =>
    if event = .occupiedOn then
      fsmEnterState now .occupied (m.emit (.say "INTERLOCK abort prep: occupied"))
    else if event = .delayTimeout ∨ event = .cleanStart then fsmTryEnterCleaning now m
    else if event = .reset then fsmHandleResetRecover now m
    else if event = .binFull then fsmBlockCleanForBinFull now m
    else m
  | .cleaning =>
    if event = .occupiedOn ∨ event = .protectTrigger then fsmStopCleaningForProtect now m
    else if event = .binFull then fsmBlockCleanForBinFull now m
    else if event = .pos2Reached ∧ m.ctx.cleanPhase = .toPos2 then
      fsmStartCleanPhase now .toPos3 m
    else if event = .pos3Reached ∧ m.ctx.cleanPhase = .toPos3 then
      fsmStartCleanPhase now .toPos1 m
    else if event = .pos1Reached ∧ m.ctx.cleanPhase = .toPos1 then finish m
    else if event = .cleanDone then fsmEnterState now .idle m
    else if event = .reset then fsmEnterState now .idle m
    else m
  | .safeStop =>
    if event = .protectRelease then fsmRecoverFromSafeStop now m
    else if event = .binFull then fsmLogBinFullActive m
    else if event = .reset then fsmHandleResetRecover now m
    else m
  | .fault =>
    let m := if event = .binFull then fsmLogBinFullActive m else m
    if event = .reset then fsmHandleResetRecover now m else m

/-- the body of `litter_fsm_dispatch`; `finish` stands for `fsm_finish_cleaning` -/
def dispatchWith (finish : Fsm → Fsm) (now : Tick) (event : LitterFsmEvent) (m : Fsm) : Fsm :=
  if event = .none then m
  else
    let m := m.set { m.ctx with lastEventTick := now }
    let m := m.emit (.evt event m.ctx.state)
    match event with
    | .occupiedOn => dispatchState finish now event (m.set { m.ctx with occupied := true })
    | .occupiedOff => dispatchState finish now event (m.set { m.ctx with occupied := false })
    | .binFull => dispatchState finish now event (m.set { m.ctx with binFull := true })
    | .protectTrigger =>
      let m := m.set { m.ctx with protectActive := true }
      if m.ctx.state = .cleaning then fsmStopCleaningForProtect now m else m
    | .protectRelease =>
      dispatchState finish now event (m.set { m.ctx with protectActive := false })
    | .stallOrTimeout => fsmEnterFault now .cleanTimeout (m.emit (.say "CLEAN timeout"))
    | _ => dispatchState finish now event m

/-- the recursive call is the one for `EVT_CLEAN_DONE`, which makes none itself -/
def litterFsmDispatch (now : Tick) (event : LitterFsmEvent) (m : Fsm) : Fsm :=
  dispatchWith (fun m => dispatchWith id now .cleanDone (fsmMotorStop m)) now event m

def fsmFinishCleaning (now : Tick) (m : Fsm) : Fsm :=
  litterFsmDispatch now .cleanDone (fsmMotorStop m)

theorem dispatchWith_cleanDone (f g : Fsm → Fsm) (now : Tick) (m : Fsm) :
    dispatchWith f now .cleanDone m = dispatchWith g now .cleanDone m := by
  unfold dispatchWith dispatchState
  simp only [reduceCtorEq, if_false, false_and, false_or]

/-- **the recursion of the source**: dispatching runs the body with `fsm_finish_cleaning` -/
theorem litterFsmDispatch_eq (now : Tick) (event : LitterFsmEvent) (m : Fsm) :
    litterFsmDispatch now event m = dispatchWith (fsmFinishCleaning now) now event m := by
  have e : (fun m => dispatchWith id now .cleanDone (fsmMotorStop m)) = fsmFinishCleaning now := by
    funext m
    show _ = dispatchWith (fun m => dispatchWith id now .cleanDone (fsmMotorStop m)) now .cleanDone
      (fsmMotorStop m)
    exact dispatchWith_cleanDone id _ now (fsmMotorStop m)
  show dispatchWith (fun m => dispatchWith id now .cleanDone (fsmMotorStop m)) now event m = _
  rw [e]

def litterFsmTick (now : Tick) (m : Fsm) : Fsm :=
  if m.ctx.state = .cleaning ∧ m.ctx.protectActive = true then
    litterFsmDispatch now .protectTrigger m
  else if m.ctx.state = .safeStop ∧ m.ctx.protectActive = false then
    litterFsmDispatch now .protectRelease m
  else if m.ctx.state = .fault ∧ m.ctx.faultCode = .binFull ∧ m.ctx.binFull = false then
    fsmRecoverToState now (fsmResolveIdleOrOccupied m.ctx) "FAULT clear" m
  else
    match m.ctx.state with
    | .leaveConfirm | .cleanDelay =>
      if fsmDeadlineExpired now m.ctx.deadlineTick = true then
        litterFsmDispatch now .delayTimeout m
      else m
    | .cleaning =>
      let cleanTotalTimeoutTicks := rtTickFromMillisecond m.ctx.cleanTotalTimeoutMs
      let cleanPhaseTimeoutTicks := rtTickFromMillisecond (fsmCleanPhaseTimeoutMs m.ctx)
      if 0 < cleanTotalTimeoutTicks ∧ cleanTotalTimeoutTicks ≤ now - m.ctx.cleanStartedTick then
        litterFsmDispatch now .stallOrTimeout m
      else if 0 < cleanPhaseTimeoutTicks ∧
          cleanPhaseTimeoutTicks ≤ now - m.ctx.phaseStartedTick then
        litterFsmDispatch now .stallOrTimeout m
      else m
    | _ => m

end LitterBox
