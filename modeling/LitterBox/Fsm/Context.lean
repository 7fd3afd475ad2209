import LitterBox.Fsm.Motor

/-!
# What the context holds

* `Coherent c`           the fields of the context agree with each other;
* `context_coherent`     they do after every sequence of calls, with any ops tables;
* `dispatches e t c`     `litter_fsm_tick` at the time `t` dispatches the event `e`;
* `delay_fires_on_time`  when the two waiting states dispatch `EVT_DELAY_TIMEOUT`.

A deadline is stored as a tick, and `fsm_deadline_expired` takes the tick `0` for "no deadline".
-/

namespace LitterBox

/-! ## the fields agree -/

/-- a call into `fsm.c`; `litter_fsm_init` is given a table of its own -/
inductive AnyCall where
  | init (now : Tick) (ops : Option LitterFsmOps)
  | syncInputs (occupied binFull protectActive : Bool)
  | dispatch (now : Tick) (event : LitterFsmEvent)
  | tick (now : Tick)
  deriving DecidableEq, Repr

def AnyCall.exec (m : Fsm) : AnyCall → Fsm
  | .init now ops => litterFsmInit now ops m
  | .syncInputs o b p => litterFsmSyncInputs o b p m
  | .dispatch now e => litterFsmDispatch now e m
  | .tick now => litterFsmTick now m

/-- the state after `litter_fsm_init` on a context with any contents, and then `calls` -/
def anyRun (c : LitterFsmCtx) (now : Tick) (ops : Option LitterFsmOps) (calls : List AnyCall) :
    Fsm :=
  Runs.run AnyCall.exec (litterFsmInit now ops ⟨c, []⟩) calls

/-- the deadline that goes with a state entered at the tick `enter` -/
def stateDeadline (enter : Tick) : LitterFsmState → Tick
  | .leaveConfirm => enter + 2000
  | .cleanDelay => enter + 5000
  | _ => 0

/-- the fault codes that go with a state -/
def stateFaults : LitterFsmState → List LitterFsmFault
  | .fault => [.binFull, .cleanTimeout]
  | .safeStop => [.protectTrigger]
  | _ => [.none]

/-- **the fields of a context agree** -/
structure Coherent (c : LitterFsmCtx) : Prop where
  active : c.cleaningActive = true ↔ c.state = .cleaning
  phase : c.cleanPhase ≠ .none ↔ c.state = .cleaning
  started : c.state = .cleaning → c.cleanStartedTick = c.stateEnterTick
  deadline : c.deadlineTick = stateDeadline c.stateEnterTick c.state
  fault : c.faultCode ∈ stateFaults c.state

theorem Mode.phase_ne_none (μ : Mode) : μ.phase ≠ .none ↔ μ.state = .cleaning := by
  cases μ with
  | cleaning l => cases l <;> simp [Mode.phase, Mode.state, Leg.phase]
  | _ => simp [Mode.phase, Mode.state]

theorem Mode.stateDeadline_eq (μ : Mode) (enter : Tick) :
    stateDeadline enter μ.state = μ.deadline enter := by
  cases μ <;> rfl

theorem Mode.fault_mem (μ : Mode) : μ.fault ∈ stateFaults μ.state := by
  cases μ <;> simp [Mode.fault, Mode.state, stateFaults]

theorem Shows.coherent {c : LitterFsmCtx} {τ : Timed} (h : Shows c τ) : Coherent c where
  active := by rw [h.active, h.state, decide_eq_true_eq]
  phase := by
    rw [h.phase, h.state]
    exact τ.mode.phase_ne_none
  started := fun hs => by
    rw [h.started (h.state ▸ hs), h.entered]
  deadline := by rw [h.deadline, h.state, h.entered, Mode.stateDeadline_eq]
  fault := by
    rw [h.fault, h.state]
    exact τ.mode.fault_mem

theorem AnyCall.exec_shows {m : Fsm} {τ : Timed} (h : Shows m.ctx τ) (x : AnyCall) :
    ∃ τ', Shows (x.exec m).ctx τ' := by
  cases x with
  | init now ops =>
    have hi := litterFsmInit_shows now.toNat ops m
    rw [show LitterBox.tick now.toNat = now from Clock.tick_toNat now] at hi
    exact ⟨_, hi⟩
  | syncInputs o b p => exact ⟨τ, h.frame m.ctx.lastEventTick o b p⟩
  | dispatch now e =>
    have hg := litterFsmDispatch_goes (t := now.toNat) e h
    rw [show LitterBox.tick now.toNat = now from Clock.tick_toNat now] at hg
    exact ⟨_, hg.shows⟩
  | tick now =>
    have hg := litterFsmTick_goes (t := now.toNat) h
    rw [show LitterBox.tick now.toNat = now from Clock.tick_toNat now] at hg
    exact ⟨_, hg.shows⟩

theorem anyRun_shows (c : LitterFsmCtx) (now : Tick) (ops : Option LitterFsmOps)
    (calls : List AnyCall) : ∃ τ, Shows (anyRun c now ops calls).ctx τ := by
  refine Runs.run_inv (I := fun (m : Fsm) => ∃ τ, Shows m.ctx τ) (fun m x h => ?_) ?_ calls
  · obtain ⟨τ, h⟩ := h
    exact AnyCall.exec_shows h x
  · have hi := litterFsmInit_shows now.toNat ops ⟨c, []⟩
    rw [show tick now.toNat = now from Clock.tick_toNat now] at hi
    exact ⟨_, hi⟩

/-- **The representation invariant of the context.**  After `litter_fsm_init` and any calls its
fields agree. -/
theorem context_coherent (c : LitterFsmCtx) (now : Tick) (ops : Option LitterFsmOps)
    (calls : List AnyCall) : Coherent (anyRun c now ops calls).ctx := by
  obtain ⟨τ, h⟩ := anyRun_shows c now ops calls
  exact h.coherent

/-! ## the log only grows -/

/-- `m'` has logged what `m` has, and possibly more -/
def Fsm.Extends (m m' : Fsm) : Prop := m.out <:+ m'.out

namespace Fsm.Extends

theorem refl (m : Fsm) : m.Extends m := List.suffix_refl _

theorem trans {a b c : Fsm} (h : a.Extends b) (h' : b.Extends c) : a.Extends c :=
  List.IsSuffix.trans h h'

theorem emit (a : Act) (m : Fsm) : m.Extends (m.emit a) := List.suffix_cons _ _

theorem set (c : LitterFsmCtx) (m : Fsm) : m.Extends (m.set c) := List.suffix_refl _

end Fsm.Extends

open Fsm (Extends)

theorem fsmMotorStop_extends (m : Fsm) : m.Extends (fsmMotorStop m) := by
  unfold fsmMotorStop
  split
  · exact .emit _ m
  · exact .refl m

theorem fsmStartCleanPhase_extends (now : Tick) (p : LitterCleanPhase) (m : Fsm) :
    m.Extends (fsmStartCleanPhase now p m) := by
  have drive : ∀ (b : Prop) [Decidable b] (a : Act) (m : Fsm),
      m.Extends (if b then m.emit a else m) := by
    intro b _ a m
    split
    · exact .emit a m
    · exact .refl m
  unfold fsmStartCleanPhase
  dsimp only
  refine Extends.trans (.set { m.ctx with cleanPhase := p, phaseStartedTick := now } m) ?_
  refine Extends.trans ?_ (.emit _ _)
  cases p with
  | none => exact fsmMotorStop_extends _
  | _ => exact drive _ _ _

theorem enterActions_extends (now : Tick) (next : LitterFsmState) (m : Fsm) :
    m.Extends (enterActions now next m) := by
  unfold enterActions
  cases next with
  | cleaning => exact (Extends.set _ m).trans (fsmStartCleanPhase_extends now .toPos2 _)
  | fault =>
    have h := (Extends.set { m.ctx with cleanPhase := .none, cleaningActive := false } m).trans
      (fsmMotorStop_extends _)
    dsimp only
    split
    · exact h.trans (.emit _ _)
    · exact h
  | _ => exact (Extends.set _ m).trans (fsmMotorStop_extends _)

theorem enterReport_extends (next : LitterFsmState) (m : Fsm) :
    m.Extends (enterReport next m) := by
  have h : m.Extends (m.emit (.enter next)) := .emit _ m
  unfold enterReport
  dsimp only
  split
  · exact h.trans (.emit _ _)
  · split
    · exact h.trans (.emit _ _)
    · exact h

theorem fsmEnterState_extends (now : Tick) (next : LitterFsmState) (m : Fsm) :
    m.Extends (fsmEnterState now next m) := by
  unfold fsmEnterState
  split
  · exact .refl m
  · have h := (Extends.emit (.move m.ctx.state next) m).trans (.set { m.ctx with
      state := next, stateEnterTick := now, lastEventTick := now, deadlineTick := 0 } _)
    exact (h.trans (enterActions_extends now next _)).trans (enterReport_extends next _)

theorem fsmEnterFault_extends (now : Tick) (f : LitterFsmFault) (m : Fsm) :
    m.Extends (fsmEnterFault now f m) := by
  have h := Extends.set { m.ctx with faultCode := f } m
  unfold fsmEnterFault
  dsimp only
  split
  · have hs := h.trans (fsmMotorStop_extends _)
    refine Extends.trans ?_ (.emit _ _)
    split
    · exact hs.trans (.emit _ _)
    · exact hs
  · exact h.trans (fsmEnterState_extends now .fault _)

theorem fsmBlockCleanForBinFull_extends (now : Tick) (m : Fsm) :
    m.Extends (fsmBlockCleanForBinFull now m) :=
  (Extends.emit _ m).trans (fsmEnterFault_extends now .binFull _)

theorem fsmBlockCleanRequest_extends (now : Tick) (reason : String) (m : Fsm) :
    m.Extends (fsmBlockCleanRequest now reason m) :=
  (Extends.emit _ m).trans (fsmEnterState_extends now _ _)

theorem fsmTryEnterCleaning_extends (now : Tick) (m : Fsm) :
    m.Extends (fsmTryEnterCleaning now m) := by
  unfold fsmTryEnterCleaning
  split
  · exact fsmBlockCleanRequest_extends now _ m
  split
  · exact fsmBlockCleanForBinFull_extends now m
  split
  · exact fsmBlockCleanRequest_extends now _ m
  · exact fsmEnterState_extends now .cleaning m

theorem fsmRecoverToState_extends (now : Tick) (next : LitterFsmState) (reason : String)
    (m : Fsm) : m.Extends (fsmRecoverToState now next reason m) := by
  have h := Extends.emit (.recover reason m.ctx.faultCode next) m
  exact (h.trans (.set { m.ctx with faultCode := .none } _)).trans
    (fsmEnterState_extends now next _)

theorem fsmStopCleaningForProtect_extends (now : Tick) (m : Fsm) :
    m.Extends (fsmStopCleaningForProtect now m) := by
  have h := Extends.set { m.ctx with faultCode := .protectTrigger } m
  exact (h.trans (.emit (.say "PROTECT stop -> SAFE_STOP") _)).trans
    (fsmEnterState_extends now .safeStop _)

theorem fsmRecoverFromSafeStop_extends (now : Tick) (m : Fsm) :
    m.Extends (fsmRecoverFromSafeStop now m) := by
  unfold fsmRecoverFromSafeStop
  split
  · exact (Extends.emit _ m).trans (fsmEnterFault_extends now .binFull _)
  · exact fsmRecoverToState_extends now _ _ m

theorem fsmHandleResetRecover_extends (now : Tick) (m : Fsm) :
    m.Extends (fsmHandleResetRecover now m) := by
  unfold fsmHandleResetRecover
  split
  · exact .emit _ m
  split
  · exact .emit _ m
  · exact fsmRecoverToState_extends now _ _ m

theorem dispatchState_extends {finish : Fsm → Fsm} (hf : ∀ m : Fsm, m.Extends (finish m))
    (now : Tick) (e : LitterFsmEvent) (m : Fsm) : m.Extends (dispatchState finish now e m) := by
  have enter : ∀ next, m.Extends (fsmEnterState now next m) := fun next =>
    fsmEnterState_extends now next m
  have said : ∀ text next, m.Extends (fsmEnterState now next (m.emit (.say text))) :=
    fun text next => (Extends.emit _ m).trans (fsmEnterState_extends now next _)
  have full : m.Extends (fsmEnterFault now .binFull (fsmLogBinFullActive m)) :=
    (Extends.emit _ m).trans (fsmEnterFault_extends now .binFull _)
  have clean := fsmTryEnterCleaning_extends now m
  have block := fsmBlockCleanForBinFull_extends now m
  have reset := fsmHandleResetRecover_extends now m
  have stay := Extends.refl m
  unfold dispatchState
  cases m.ctx.state with
  | idle =>
    dsimp only
    split
    · exact enter _
    split
    · exact clean
    split
    · exact full
    · exact stay
  | occupied =>
    dsimp only
    split
    · exact enter _
    split
    · exact clean
    split
    · exact full
    · exact stay
  | leaveConfirm =>
    dsimp only
    split
    · exact said _ _
    split
    · split
      · exact block
      split
      · exact fsmBlockCleanRequest_extends now _ m
      split
      · exact said _ _
      · exact enter _
    split
    · exact reset
    split
    · exact block
    · exact stay
  | cleanDelay =>
    dsimp only
    split
    · exact said _ _
    split
    · exact clean
    split
    · exact reset
    split
    · exact block
    · exact stay
  | cleaning =>
    dsimp only
    split
    · exact fsmStopCleaningForProtect_extends now m
    split
    · exact block
    split
    · exact fsmStartCleanPhase_extends now _ m
    split
    · exact fsmStartCleanPhase_extends now _ m
    split
    · exact hf m
    split
    · exact enter _
    split
    · exact enter _
    · exact stay
  | safeStop =>
    dsimp only
    split
    · exact fsmRecoverFromSafeStop_extends now m
    split
    · exact .emit _ m
    split
    · exact reset
    · exact stay
  | fault =>
    dsimp only
    have hlog : m.Extends (if e = .binFull then fsmLogBinFullActive m else m) := by
      split
      · exact .emit _ m
      · exact stay
    split
    · exact hlog.trans (fsmHandleResetRecover_extends now _)
    · exact hlog

theorem dispatchWith_extends {finish : Fsm → Fsm} (hf : ∀ m : Fsm, m.Extends (finish m))
    (now : Tick) (e : LitterFsmEvent) (m : Fsm) : m.Extends (dispatchWith finish now e m) := by
  have h : m.Extends ((m.set { m.ctx with lastEventTick := now }).emit (.evt e m.ctx.state)) :=
    (Extends.set _ m).trans (.emit _ _)
  have on : ∀ c, m.Extends (dispatchState finish now e
      (((m.set { m.ctx with lastEventTick := now }).emit (.evt e m.ctx.state)).set c)) :=
    fun c => (h.trans (.set c _)).trans (dispatchState_extends hf now e _)
  unfold dispatchWith
  split
  · exact .refl m
  cases e with
  | protectTrigger =>
    dsimp only
    split
    · exact (h.trans (.set _ _)).trans (fsmStopCleaningForProtect_extends now _)
    · exact h.trans (.set _ _)
  | stallOrTimeout => exact (h.trans (.emit _ _)).trans (fsmEnterFault_extends now _ _)
  | occupiedOn => exact on _
  | occupiedOff => exact on _
  | binFull => exact on _
  | protectRelease => exact on _
  | _ => exact h.trans (dispatchState_extends hf now _ _)

/-- **no call of `litter_fsm_dispatch` takes a line away** -/
theorem litterFsmDispatch_extends (now : Tick) (e : LitterFsmEvent) (m : Fsm) :
    m.Extends (litterFsmDispatch now e m) :=
  dispatchWith_extends (fun m => (fsmMotorStop_extends m).trans
    (dispatchWith_extends Extends.refl now .cleanDone _)) now e m

theorem litterFsmTick_extends (now : Tick) (m : Fsm) : m.Extends (litterFsmTick now m) := by
  unfold litterFsmTick
  split
  · exact litterFsmDispatch_extends now _ m
  split
  · exact litterFsmDispatch_extends now _ m
  split
  · exact fsmRecoverToState_extends now _ _ m
  cases m.ctx.state with
  | leaveConfirm =>
    dsimp only
    split
    · exact litterFsmDispatch_extends now _ m
    · exact .refl m
  | cleanDelay =>
    dsimp only
    split
    · exact litterFsmDispatch_extends now _ m
    · exact .refl m
  | cleaning =>
    dsimp only
    split
    · exact litterFsmDispatch_extends now _ m
    split
    · exact litterFsmDispatch_extends now _ m
    · exact .refl m
  | _ => exact .refl m

/-! ## the deadline of a waiting state -/

/-- `litter_fsm_tick`, called at the time `t`, dispatches the event `e` -/
def dispatches (e : LitterFsmEvent) (t : Nat) (c : LitterFsmCtx) : Prop :=
  ∃ o ∈ (litterFsmTick (tick t) ⟨c, []⟩).out, ∃ s, o.act = .evt e s

/-- the context after calls of `litter_fsm_tick` at the times `ts` -/
def polls (c : LitterFsmCtx) (ts : List Nat) : LitterFsmCtx :=
  Runs.run (fun c t => (litterFsmTick (tick t) ⟨c, []⟩).ctx) c ts

/-- the states that wait -/
def waitingStates : List LitterFsmState := [.leaveConfirm, .cleanDelay]

/-- how long a state waits -/
def stateWindow : LitterFsmState → Nat
  | .leaveConfirm => 2000
  | .cleanDelay => 5000
  | _ => 0

/-- the first call at or after the time `d` dispatches `EVT_DELAY_TIMEOUT`, and no call before it
does -/
def firesAt (d : Nat) (c : LitterFsmCtx) (ts : List Nat) : Prop :=
  ∀ a t b, ts = a ++ t :: b → (∀ u ∈ a, u < d) → (dispatches .delayTimeout t (polls c a) ↔ d ≤ t)

/-- the first call at or after the time `d` leaves the state -/
def leavesAt (d : Nat) (c : LitterFsmCtx) (ts : List Nat) : Prop :=
  ∀ a t b, ts = a ++ t :: b → (∀ u ∈ a, u < d) → d ≤ t → (polls c (a ++ [t])).state ≠ c.state

theorem litterFsmTick_waiting (now : Tick) {c : LitterFsmCtx} (h : c.state ∈ waitingStates)
    (l : List Out) : litterFsmTick now ⟨c, l⟩ =
      if fsmDeadlineExpired now c.deadlineTick = true then
        litterFsmDispatch now .delayTimeout ⟨c, l⟩
      else ⟨c, l⟩ := by
  have hs : c.state = .leaveConfirm ∨ c.state = .cleanDelay := by
    simpa [waitingStates] using h
  unfold litterFsmTick
  rcases hs with hs | hs
  · simp only [hs, reduceCtorEq, false_and, if_false]
  · simp only [hs, reduceCtorEq, false_and, if_false]

/-! ### EVT_DELAY_TIMEOUT -/

theorem delayTimeout_logged (now : Tick) (c : LitterFsmCtx) :
    ∃ o ∈ (litterFsmDispatch now .delayTimeout ⟨c, []⟩).out,
      ∃ s, o.act = .evt .delayTimeout s := by
  let m1 : Fsm := (Fsm.set { c with lastEventTick := now } ⟨c, []⟩).emit (.evt .delayTimeout c.state)
  have hd : litterFsmDispatch now .delayTimeout ⟨c, []⟩ =
      dispatchState (fun m => dispatchWith id now .cleanDone (fsmMotorStop m)) now .delayTimeout
        m1 := rfl
  have hext : m1.Extends (litterFsmDispatch now .delayTimeout ⟨c, []⟩) := by
    rw [hd]
    exact dispatchState_extends (fun m => (fsmMotorStop_extends m).trans
      (dispatchWith_extends Extends.refl now .cleanDone _)) now .delayTimeout m1
  exact ⟨_, hext.subset List.mem_cons_self, _, rfl⟩

theorem fsmEnterState_state (now : Tick) (next : LitterFsmState) (m : Fsm) :
    (fsmEnterState now next m).ctx.state = next := by
  by_cases h : m.ctx.state = next
  · unfold fsmEnterState
    rw [if_pos h, h]
  · rw [fsmEnterState_ctx now next m h]
    cases next <;> rfl

theorem fsmEnterFault_state (now : Tick) (f : LitterFsmFault) {m : Fsm}
    (h : m.ctx.state ≠ .fault) : (fsmEnterFault now f m).ctx.state = .fault := by
  have h' : (m.set { m.ctx with faultCode := f }).ctx.state ≠ .fault := h
  unfold fsmEnterFault
  dsimp only
  rw [if_neg h', fsmEnterState_state]

theorem fsmBlockCleanRequest_state (now : Tick) (reason : String) (m : Fsm) :
    (fsmBlockCleanRequest now reason m).ctx.state = fsmResolveIdleOrOccupied m.ctx :=
  fsmEnterState_state now _ _

theorem fsmResolveIdleOrOccupied_not_waiting (c : LitterFsmCtx) :
    fsmResolveIdleOrOccupied c ∉ waitingStates := by
  unfold fsmResolveIdleOrOccupied
  split <;> simp [waitingStates]

theorem ne_of_not_waiting {s s' : LitterFsmState} (h : s ∈ waitingStates)
    (h' : s' ∉ waitingStates) : s' ≠ s := fun e => h' (e ▸ h)

theorem delayTimeout_leaves (now : Tick) {c : LitterFsmCtx} (h : c.state ∈ waitingStates)
    (l : List Out) : (litterFsmDispatch now .delayTimeout ⟨c, l⟩).ctx.state ≠ c.state := by
  let m1 : Fsm := (Fsm.set { c with lastEventTick := now } ⟨c, l⟩).emit (.evt .delayTimeout c.state)
  have hs : c.state = .leaveConfirm ∨ c.state = .cleanDelay := by
    simpa [waitingStates] using h
  have hd : litterFsmDispatch now .delayTimeout ⟨c, l⟩ =
      dispatchState (fun m => dispatchWith id now .cleanDone (fsmMotorStop m)) now .delayTimeout
        m1 := rfl
  have hm : m1.ctx.state = c.state := rfl
  have hfull : (fsmBlockCleanForBinFull now m1).ctx.state = .fault := by
    refine fsmEnterFault_state now .binFull ?_
    show c.state ≠ .fault
    rcases hs with hs | hs <;> rw [hs] <;> decide
  have hblock : ∀ reason, (fsmBlockCleanRequest now reason m1).ctx.state ≠ c.state := by
    intro reason
    rw [fsmBlockCleanRequest_state]
    exact ne_of_not_waiting h (fsmResolveIdleOrOccupied_not_waiting _)
  rw [hd]
  unfold dispatchState
  rw [hm]
  rcases hs with hs | hs
  · rw [hs] at hblock ⊢
    simp only [reduceCtorEq, if_false, if_true]
    split
    · rw [hfull]
      decide
    split
    · exact hblock _
    split
    · rw [fsmEnterState_state]
      decide
    · rw [fsmEnterState_state]
      decide
  · rw [hs] at hblock ⊢
    simp only [reduceCtorEq, if_false, true_or, if_true]
    unfold fsmTryEnterCleaning
    split
    · exact hblock _
    split
    · rw [hfull]
      decide
    split
    · exact hblock _
    · rw [fsmEnterState_state]
      decide

/-! ### the calls of `litter_fsm_tick` -/

theorem dispatches_iff (t : Nat) {c : LitterFsmCtx} (h : c.state ∈ waitingStates) :
    dispatches .delayTimeout t c ↔ fsmDeadlineExpired (tick t) c.deadlineTick = true := by
  unfold dispatches
  rw [litterFsmTick_waiting (tick t) h]
  constructor
  · rintro ⟨o, ho, -⟩
    by_contra he
    rw [if_neg he] at ho
    exact absurd ho List.not_mem_nil
  · intro he
    rw [if_pos he]
    exact delayTimeout_logged (tick t) c

/-- calls before the deadline change nothing -/
theorem polls_before {c : LitterFsmCtx} (h : c.state ∈ waitingStates) {ts : List Nat}
    (ht : ∀ t ∈ ts, fsmDeadlineExpired (tick t) c.deadlineTick = false) : polls c ts = c := by
  induction ts with
  | nil => rfl
  | cons t ts ih =>
    have h0 : (litterFsmTick (tick t) ⟨c, []⟩).ctx = c := by
      rw [litterFsmTick_waiting (tick t) h, ht t List.mem_cons_self]
      rfl
    unfold polls at ih ⊢
    rw [Runs.run_cons, h0]
    exact ih fun u hu => ht u (List.mem_cons_of_mem t hu)

theorem polls_snoc (c : LitterFsmCtx) (ts : List Nat) (t : Nat) :
    polls c (ts ++ [t]) = (litterFsmTick (tick t) ⟨polls c ts, []⟩).ctx :=
  Runs.run_snoc _ c ts t

/-- the deadline with which a waiting state is entered -/
theorem entered_waiting {m : Fsm} {st : LitterFsmState} (hst : st ∈ waitingStates)
    (hne : m.ctx.state ≠ st) (hl : m.ctx.leaveConfirmMs = 2000) (hc : m.ctx.cleanDelayMs = 5000)
    (t0 : Nat) :
    (fsmEnterState (tick t0) st m).ctx.state = st ∧
    (fsmEnterState (tick t0) st m).ctx.deadlineTick = tick (t0 + stateWindow st) := by
  have hs : st = .leaveConfirm ∨ st = .cleanDelay := by simpa [waitingStates] using hst
  refine ⟨fsmEnterState_state _ _ _, ?_⟩
  rw [fsmEnterState_ctx _ _ _ hne]
  rcases hs with rfl | rfl
  · show tick t0 + rtTickFromMillisecond m.ctx.leaveConfirmMs = tick (t0 + 2000)
    rw [hl, ticks_leaveConfirm]
    exact (Clock.tick_add t0 2000).symm
  · show tick t0 + rtTickFromMillisecond m.ctx.cleanDelayMs = tick (t0 + 5000)
    rw [hc, ticks_cleanDelay]
    exact (Clock.tick_add t0 5000).symm

theorem stateWindow_le (st : LitterFsmState) : stateWindow st ≤ 5000 := by
  cases st <;> decide

/-- a call is less than `2^30` ticks after the deadline if all before it were before the deadline -/
theorem paced_near {d t0 t : Nat} {a b : List Nat}
    (hp : Clock.Paced (2 ^ 30) (t0 :: (a ++ t :: b))) (h0 : t0 ≤ d) (ha : ∀ u ∈ a, u < d) :
    t0 ≤ t ∧ t < d + 2 ^ 30 := by
  induction a generalizing t0 with
  | nil =>
    obtain ⟨h, -⟩ := List.isChain_cons_cons.mp hp
    exact ⟨h.1, by omega⟩
  | cons u a ih =>
    obtain ⟨h, hp'⟩ := List.isChain_cons_cons.mp hp
    have hu : u < d := ha u List.mem_cons_self
    obtain ⟨h1, h2⟩ := ih hp' (Nat.le_of_lt hu) fun v hv => ha v (List.mem_cons_of_mem u hv)
    exact ⟨Nat.le_trans h.1 h1, h2⟩

theorem tick_eq_zero (t : Nat) : tick t = 0 ↔ t % 2 ^ 32 = 0 := by
  rw [← BitVec.toNat_inj]
  show (BitVec.ofNat 32 t).toNat = 0 ↔ _
  rw [BitVec.toNat_ofNat]

/-- the test of the deadline, where `0` stands for none -/
theorem expired_iff {t0 w t : Nat} (hw : w ≤ 5000) (h0 : t0 ≤ t) (ht : t < t0 + w + 2 ^ 30) :
    fsmDeadlineExpired (tick t) (tick (t0 + w)) = true ↔ tick (t0 + w) ≠ 0 ∧ t0 + w ≤ t := by
  unfold fsmDeadlineExpired
  by_cases hz : tick (t0 + w) = 0
  · rw [if_pos hz]
    exact ⟨fun h => absurd h Bool.false_ne_true, fun h => absurd hz h.1⟩
  · rw [if_neg hz, Clock.reached_tick (by omega) h0 (by omega), decide_eq_true_eq]
    exact ⟨fun h => ⟨hz, h⟩, fun h => h.2⟩

section wait

variable {c : LitterFsmCtx} {t0 w : Nat}

/-- up to the first call after the deadline nothing happens -/
theorem polls_waiting (h : c.state ∈ waitingStates) (hd : c.deadlineTick = tick (t0 + w))
    (hw : w ≤ 5000) {a b : List Nat} {t : Nat}
    (hp : Clock.Paced (2 ^ 30) (t0 :: (a ++ t :: b))) (ha : ∀ u ∈ a, u < t0 + w) :
    polls c a = c := by
  refine polls_before h fun u hu => ?_
  obtain ⟨a1, a2, rfl⟩ := List.append_of_mem hu
  rw [List.append_assoc, List.cons_append] at hp
  have hn := paced_near hp (Nat.le_add_right t0 w) fun v hv =>
    ha v (List.mem_append_left _ hv)
  rw [hd, Bool.eq_false_iff]
  intro he
  exact absurd ((expired_iff hw hn.1 hn.2).mp he).2 (Nat.not_le.mpr (ha u hu))

/-- what the first call after the deadline does -/
theorem dispatches_waiting (h : c.state ∈ waitingStates) (hd : c.deadlineTick = tick (t0 + w))
    (hw : w ≤ 5000) {a b : List Nat} {t : Nat}
    (hp : Clock.Paced (2 ^ 30) (t0 :: (a ++ t :: b))) (ha : ∀ u ∈ a, u < t0 + w) :
    dispatches .delayTimeout t (polls c a) ↔ tick (t0 + w) ≠ 0 ∧ t0 + w ≤ t := by
  have hn := paced_near hp (Nat.le_add_right t0 w) ha
  rw [polls_waiting h hd hw hp ha, dispatches_iff t h, hd]
  exact expired_iff hw hn.1 hn.2

end wait

theorem first_at {d : Nat} {ts : List Nat} (h : ∃ t ∈ ts, d ≤ t) :
    ∃ a t b, ts = a ++ t :: b ∧ (∀ u ∈ a, u < d) ∧ d ≤ t := by
  induction ts with
  | nil =>
    obtain ⟨t, ht, -⟩ := h
    exact absurd ht List.not_mem_nil
  | cons x ts ih =>
    by_cases hx : d ≤ x
    · exact ⟨[], x, ts, rfl, fun u hu => absurd hu List.not_mem_nil, hx⟩
    · obtain ⟨t, ht, hdt⟩ := h
      have htl : t ∈ ts := by
        rcases List.mem_cons.mp ht with rfl | ht
        · exact absurd hdt hx
        · exact ht
      obtain ⟨a, t', b, e, ha, ht'⟩ := ih ⟨t, htl, hdt⟩
      refine ⟨x :: a, t', b, by rw [e]; rfl, fun u hu => ?_, ht'⟩
      rcases List.mem_cons.mp hu with rfl | hu
      · exact Nat.lt_of_not_le hx
      · exact ha u hu

/-- **When the waiting states time out.**  `EVT_DELAY_TIMEOUT` comes with the first call at or
after the deadline, and ends the state, exactly if the deadline is not the tick `0` or no call is
that late. -/
theorem delay_fires_on_time (m : Fsm) (st : LitterFsmState) (hst : st ∈ waitingStates)
    (hne : m.ctx.state ≠ st) (hl : m.ctx.leaveConfirmMs = 2000) (hc : m.ctx.cleanDelayMs = 5000)
    (t0 : Nat) (ts : List Nat) (hp : Clock.Paced (2 ^ 30) (t0 :: ts)) :
    firesAt (t0 + stateWindow st) (fsmEnterState (tick t0) st m).ctx ts ∧
      leavesAt (t0 + stateWindow st) (fsmEnterState (tick t0) st m).ctx ts ↔
    (t0 + stateWindow st) % 2 ^ 32 ≠ 0 ∨ ∀ t ∈ ts, t < t0 + stateWindow st := by
  obtain ⟨hs, hd⟩ := entered_waiting hst hne hl hc t0
  have hw := stateWindow_le st
  have hz : tick (t0 + stateWindow st) ≠ 0 ↔ (t0 + stateWindow st) % 2 ^ 32 ≠ 0 :=
    not_congr (tick_eq_zero _)
  have hwait : (fsmEnterState (tick t0) st m).ctx.state ∈ waitingStates := by
    rw [hs]
    exact hst
  rw [← hz]
  constructor
  · rintro ⟨hf, -⟩
    by_contra hcon
    rw [not_or, not_not] at hcon
    obtain ⟨h0, hlate⟩ := hcon
    rw [not_forall] at hlate
    obtain ⟨t, ht⟩ := hlate
    rw [Classical.not_imp, Nat.not_lt] at ht
    obtain ⟨a, t, b, rfl, ha, hdt⟩ := first_at ⟨t, ht⟩
    have hfire := (hf a t b rfl ha).mpr hdt
    exact ((dispatches_waiting hwait hd hw hp ha).mp hfire).1 h0
  · intro hcond
    have hnz : ∀ {a b : List Nat} {t : Nat}, ts = a ++ t :: b → t0 + stateWindow st ≤ t →
        tick (t0 + stateWindow st) ≠ 0 := by
      intro a b t e hdt
      rcases hcond with h | h
      · exact h
      · refine absurd (h t ?_) (Nat.not_lt.mpr hdt)
        rw [e]
        exact List.mem_append_right a List.mem_cons_self
    refine ⟨fun a t b e ha => ?_, fun a t b e ha hdt => ?_⟩
    · have hp' := e ▸ hp
      rw [dispatches_waiting hwait hd hw hp' ha]
      exact ⟨fun h => h.2, fun h => ⟨hnz e h, h⟩⟩
    · have hp' := e ▸ hp
      have hn := paced_near hp' (Nat.le_add_right t0 _) ha
      rw [polls_snoc, polls_waiting hwait hd hw hp' ha, litterFsmTick_waiting _ hwait, hd,
        if_pos ((expired_iff hw hn.1 hn.2).mpr ⟨hnz e hdt, hdt⟩)]
      exact delayTimeout_leaves _ hwait []

/-- a context after `litter_fsm_init`, on storage full of zeros -/
def afterInit : Fsm :=
  litterFsmInit 0 none
    ⟨{ state := .idle, stateEnterTick := 0, lastEventTick := 0, cleanStartedTick := 0
       phaseStartedTick := 0, deadlineTick := 0, occupied := false, binFull := false
       protectActive := false, cleaningActive := false, cleanPhase := .none, faultCode := .none
       leaveConfirmMs := 0, cleanDelayMs := 0, timeoutToPos2Ms := 0, timeoutToPos3Ms := 0
       timeoutToPos1Ms := 0, cleanTotalTimeoutMs := 0, ops := none }, []⟩

/-- LEAVE_CONFIRM entered at the tick `100` and polled before and after its deadline -/
theorem delay_fires_on_time_at_100 :
    firesAt 2100 (fsmEnterState (tick 100) .leaveConfirm afterInit).ctx [1000, 3000] ∧
    leavesAt 2100 (fsmEnterState (tick 100) .leaveConfirm afterInit).ctx [1000, 3000] :=
  (delay_fires_on_time afterInit .leaveConfirm (by decide) (by decide) rfl rfl 100 [1000, 3000]
    (by decide)).mpr (Or.inl (by decide))

/-- LEAVE_CONFIRM entered `2000` ticks before the counter wraps round does not time out: the call
at the deadline dispatches nothing, and the state is kept `2^29` and `2^30` ticks after it -/
theorem delay_deadline_zero :
    let c := (fsmEnterState (tick (2 ^ 32 - 2000)) .leaveConfirm afterInit).ctx
    Clock.Paced (2 ^ 30) [2 ^ 32 - 2000, 2 ^ 32, 2 ^ 32 + 2 ^ 29, 2 ^ 32 + 2 ^ 29 + 2 ^ 29] ∧
    ¬ firesAt (2 ^ 32) c [2 ^ 32, 2 ^ 32 + 2 ^ 29, 2 ^ 32 + 2 ^ 29 + 2 ^ 29] ∧
    (polls c [2 ^ 32, 2 ^ 32 + 2 ^ 29, 2 ^ 32 + 2 ^ 29 + 2 ^ 29]).state = .leaveConfirm := by
  intro c
  have hs : c.state ∈ waitingStates := by decide
  have hd : c.deadlineTick = 0 := by decide
  have hnone : ∀ t, fsmDeadlineExpired (tick t) c.deadlineTick = false := by
    intro t
    unfold fsmDeadlineExpired
    rw [if_pos hd]
  refine ⟨by decide, fun hf => ?_, ?_⟩
  · have h := (hf [] (2 ^ 32) [2 ^ 32 + 2 ^ 29, 2 ^ 32 + 2 ^ 29 + 2 ^ 29] rfl
      (fun u hu => absurd hu List.not_mem_nil)).mpr (Nat.le_refl _)
    rw [show polls c [] = c from rfl, dispatches_iff _ hs, hnone] at h
    exact Bool.false_ne_true h
  · rw [polls_before hs fun t _ => hnone t]
    decide

end LitterBox
