import LitterBox.Fsm.Model

/-!
# What the state machine is for: modes, legs and times

The abstract machine has eight kinds of MODE.  A cleaning has one of three LEGS (destinations),
and a fault is one of the two locks; a context in which the state, the phase and the fault code
disagree has no mode.  `Timed` adds the true times at which the mode and the leg began.

* `Mode.on e f`       the mode after event `e` under the input flags `f`;
* `Mode.onTick`       the mode after one poll, given which time limits have passed;
* `Timed.goto t μ`    the same with the times: a new state or leg begins now;
* `Timed.due`, `Timed.late`   which limits have passed, as the 32-bit ticks show it.

`LitterBox.Fsm.Refine` proves that `fsm.c` computes this machine.
-/

namespace LitterBox

/-! ## modes -/

/-- destination of one stretch of the cleaning trajectory -/
inductive Leg where
  | toPos2
  | toPos3
  | toPos1
  deriving DecidableEq, Repr

inductive Mode where
  | idle
  | occupied
  | leaveConfirm
  | cleanDelay
  | cleaning (l : Leg)
  | safeStop
  | binFull
  | cleanTimeout
  deriving DecidableEq, Repr

/-- what the motor is told to do -/
inductive Motor where
  | stop
  | forward
  | reverse
  deriving DecidableEq, Repr

def Leg.phase : Leg → LitterCleanPhase
  | .toPos2 => .toPos2
  | .toPos3 => .toPos3
  | .toPos1 => .toPos1

def Leg.drive : Leg → Motor
  | .toPos2 => .forward
  | .toPos3 => .reverse
  | .toPos1 => .forward

/-- time allowed for a leg, in ticks -/
def Leg.budget : Leg → Nat
  | .toPos2 => 6000
  | .toPos3 => 5000
  | .toPos1 => 6000

/-- time allowed for a whole cleaning -/
def totalBudget : Nat := 20000

def Mode.state : Mode → LitterFsmState
  | .idle => .idle
  | .occupied => .occupied
  | .leaveConfirm => .leaveConfirm
  | .cleanDelay => .cleanDelay
  | .cleaning _ => .cleaning
  | .safeStop => .safeStop
  | .binFull => .fault
  | .cleanTimeout => .fault

def Mode.phase : Mode → LitterCleanPhase
  | .cleaning l => l.phase
  | _ => .none

def Mode.fault : Mode → LitterFsmFault
  | .safeStop => .protectTrigger
  | .binFull => .binFull
  | .cleanTimeout => .cleanTimeout
  | _ => .none

def Mode.drive : Mode → Motor
  | .cleaning l => l.drive
  | _ => .stop

/-- time a mode waits before it moves on by itself, `0` if it does not -/
def Mode.window : Mode → Nat
  | .leaveConfirm => 2000
  | .cleanDelay => 5000
  | _ => 0

/-- the stored deadline of a mode entered at `enter`; `0` stands for none -/
def Mode.deadline (enter : Tick) : Mode → Tick
  | .leaveConfirm => enter + 2000
  | .cleanDelay => enter + 5000
  | _ => 0

theorem Leg.phase_inj {l l' : Leg} (h : l.phase = l'.phase) : l = l' := by
  cases l <;> cases l' <;> first | rfl | cases h

/-- state, phase and fault code determine the mode -/
theorem Mode.ext_of {μ ν : Mode} (hs : μ.state = ν.state) (hp : μ.phase = ν.phase)
    (hf : μ.fault = ν.fault) : μ = ν := by
  cases μ <;> cases ν <;> try cases hs
  all_goals first | rfl | rw [Leg.phase_inj hp] | cases hf

theorem Mode.cleaning_of_state {μ : Mode} (h : μ.state = .cleaning) : ∃ l, μ = .cleaning l := by
  cases μ with
  | cleaning l => exact ⟨l, rfl⟩
  | _ => cases h

theorem Mode.idle_of_state {μ : Mode} (h : μ.state = .idle) : μ = .idle := by
  cases μ with
  | idle => rfl
  | _ => cases h

/-- a state with a window has one mode -/
theorem Mode.eq_of_window {μ ν : Mode} (hw : μ.window ≠ 0) (hs : μ.state = ν.state) : μ = ν := by
  cases μ with
  | leaveConfirm => cases ν <;> first | rfl | cases hs
  | cleanDelay => cases ν <;> first | rfl | cases hs
  | _ => exact absurd rfl hw

/-! ## the event table -/

/-- the three input flags of the context -/
structure Flags where
  occupied : Bool
  binFull : Bool
  protect : Bool
  deriving DecidableEq, Repr

/-- nobody in the box, room in the bin, no protection -/
def Flags.calm (f : Flags) : Prop := f.occupied = false ∧ f.binFull = false ∧ f.protect = false

instance (f : Flags) : Decidable f.calm := by unfold Flags.calm; infer_instance

/-- the flags after the event has been noted -/
def Flags.note (f : Flags) : LitterFsmEvent → Flags
  | .occupiedOn => { f with occupied := true }
  | .occupiedOff => { f with occupied := false }
  | .binFull => { f with binFull := true }
  | .protectTrigger => { f with protect := true }
  | .protectRelease => { f with protect := false }
  | _ => f

/-- where the machine rests -/
def restMode (f : Flags) : Mode := if f.occupied then .occupied else .idle

/-- a request to clean, where one is taken -/
def tryClean (f : Flags) : Mode :=
  if f.occupied then .occupied
  else if f.binFull then .binFull
  else if f.protect then .idle
  else .cleaning .toPos2

/-- recovery by RESET -/
def recoverMode (f : Flags) (μ : Mode) : Mode :=
  if f.protect then μ else if f.binFull then μ else restMode f

/-- the mode after event `e`; the flags are those after `Flags.note` -/
def Mode.on (e : LitterFsmEvent) (f : Flags) : Mode → Mode
  | .idle =>
    match e with
    | .occupiedOn => .occupied
    | .cleanStart => tryClean f
    | .binFull => .binFull
    | .stallOrTimeout => .cleanTimeout
    | _ => .idle
  | .occupied =>
    match e with
    | .occupiedOff => .leaveConfirm
    | .cleanStart => tryClean f
    | .binFull => .binFull
    | .stallOrTimeout => .cleanTimeout
    | _ => .occupied
  | .leaveConfirm =>
    match e with
    | .occupiedOn => .occupied
    | .delayTimeout =>
      if f.binFull then .binFull
      else if f.protect then restMode f
      else if f.occupied then .occupied
      else .cleanDelay
    | .reset => recoverMode f .leaveConfirm
    | .binFull => .binFull
    | .stallOrTimeout => .cleanTimeout
    | _ => .leaveConfirm
  | .cleanDelay =>
    match e with
    | .occupiedOn => .occupied
    | .delayTimeout => tryClean f
    | .cleanStart => tryClean f
    | .reset => recoverMode f .cleanDelay
    | .binFull => .binFull
    | .stallOrTimeout => .cleanTimeout
    | _ => .cleanDelay
  | .cleaning l =>
    match e with
    | .occupiedOn => .safeStop
    | .protectTrigger => .safeStop
    | .binFull => .binFull
    | .pos2Reached => if l = .toPos2 then .cleaning .toPos3 else .cleaning l
    | .pos3Reached => if l = .toPos3 then .cleaning .toPos1 else .cleaning l
    | .pos1Reached => if l = .toPos1 then .idle else .cleaning l
    | .cleanDone => .idle
    | .reset => .idle
    | .stallOrTimeout => .cleanTimeout
    | _ => .cleaning l
  | .safeStop =>
    match e with
    | .protectRelease =>
      if f.binFull then .binFull else if f.occupied then .occupied else .leaveConfirm
    | .reset => recoverMode f .safeStop
    | .stallOrTimeout => .cleanTimeout
    | _ => .safeStop
  | .binFull =>
    match e with
    | .reset => recoverMode f .binFull
    | .stallOrTimeout => .cleanTimeout
    | _ => .binFull
  | .cleanTimeout =>
    match e with
    | .reset => recoverMode f .cleanTimeout
    | _ => .cleanTimeout

/-- the mode after one poll: `due` when the window of the mode is over, `late` when a budget of
the cleaning is used up -/
def Mode.onTick (f : Flags) (due late : Bool) : Mode → Mode
  | .idle => .idle
  | .occupied => .occupied
  | .leaveConfirm => if due then Mode.on .delayTimeout f .leaveConfirm else .leaveConfirm
  | .cleanDelay => if due then Mode.on .delayTimeout f .cleanDelay else .cleanDelay
  | .cleaning l => if f.protect then .safeStop else if late then .cleanTimeout else .cleaning l
  | .safeStop =>
    if f.protect then .safeStop
    else Mode.on .protectRelease (f.note .protectRelease) .safeStop
  | .binFull => if f.binFull then .binFull else restMode f
  | .cleanTimeout => .cleanTimeout

/-! ## times -/

/-- a mode, the true time since when the state has been in it, and the true time since when the
leg has been under way (only read while cleaning) -/
structure Timed where
  mode : Mode
  since : Nat
  legSince : Nat
  deriving DecidableEq, Repr

/-- the tick shown at the true time `t` -/
abbrev tick (t : Nat) : Tick := Clock.tick 32 t

/-- to the mode `μ` at the time `t` -/
def Timed.goto (t : Nat) (μ : Mode) (τ : Timed) : Timed where
  mode := μ
  since := if μ.state = τ.mode.state then τ.since else t
  legSince := if μ = τ.mode then τ.legSince else t

/-- the window of the mode is over, as the ticks show it -/
def Timed.due (t : Nat) (τ : Timed) : Bool :=
  fsmDeadlineExpired (tick t) (τ.mode.deadline (tick τ.since))

/-- a budget of the cleaning is used up, as the ticks show it -/
def Timed.late (t : Nat) (τ : Timed) : Bool :=
  match τ.mode with
  | .cleaning l =>
    decide (BitVec.ofNat 32 totalBudget ≤ tick t - tick τ.since) ||
      decide (BitVec.ofNat 32 l.budget ≤ tick t - tick τ.legSince)
  | _ => false

theorem Timed.due_of_none (t : Nat) {τ : Timed} (h : τ.mode.window = 0) : τ.due t = false := by
  have hd : τ.mode.deadline (tick τ.since) = 0 := by
    cases hm : τ.mode with
    | leaveConfirm => rw [hm] at h; cases h
    | cleanDelay => rw [hm] at h; cases h
    | _ => rfl
  unfold Timed.due fsmDeadlineExpired
  rw [hd, if_pos rfl]

theorem Timed.late_of_ne (t : Nat) {τ : Timed} (h : τ.mode.state ≠ .cleaning) :
    τ.late t = false := by
  unfold Timed.late
  cases hm : τ.mode with
  | cleaning l => rw [hm] at h; exact absurd rfl h
  | _ => rfl

theorem Timed.goto_mode (t : Nat) (μ : Mode) (τ : Timed) : (τ.goto t μ).mode = μ := rfl

theorem Timed.goto_self (t : Nat) (τ : Timed) : τ.goto t τ.mode = τ := by
  simp [Timed.goto]

section goto

variable {t : Nat} {τ : Timed} {μ : Mode}

theorem Timed.goto_since (h : μ.state = τ.mode.state) : (τ.goto t μ).since = τ.since := if_pos h

theorem Timed.goto_since_of_ne (h : μ.state ≠ τ.mode.state) : (τ.goto t μ).since = t := if_neg h

theorem Timed.goto_legSince (h : μ = τ.mode) : (τ.goto t μ).legSince = τ.legSince := if_pos h

theorem Timed.goto_legSince_of_ne (h : μ ≠ τ.mode) : (τ.goto t μ).legSince = t := if_neg h

end goto

end LitterBox
