import LitterBox.Fsm.Refine
import LitterBox.Logic.Levels

/-!
# `logic.c` computes the call

`Good s τ` is the invariant between calls: the machine shows the timed mode `τ`, the mode fits the
last samples and the hall memory, and the motor pins are driven as the mode has it.

Each stage of `Sensor_Logic_Running` has a lemma `…_stage`: it takes the machine from one timed
mode of `Timed.call` to the next.  `Good.running` puts them together.
-/

namespace LitterBox

/-! ## events and levels -/

theorem Mode.on_binFull (f : Flags) (μ : Mode) : μ.on .binFull f = μ.seeFull true := by
  cases μ <;> rfl

theorem Mode.on_occupiedOn (f : Flags) (μ : Mode) : μ.on .occupiedOn f = μ.seeOccupied true := by
  cases μ <;> rfl

theorem Mode.on_occupiedOff (f : Flags) (μ : Mode) : μ.on .occupiedOff f = μ.seeOccupied false := by
  cases μ <;> rfl

theorem Mode.on_protectTrigger (f : Flags) {μ : Mode} (h : μ.state = .cleaning) :
    μ.on .protectTrigger f = μ.seeOccupied true := by
  cases μ with
  | cleaning l => rfl
  | _ => cases h

theorem tryClean_calm {f : Flags} (h : f.calm) : tryClean f = .cleaning .toPos2 := by
  obtain ⟨ho, hb, hp⟩ := h
  unfold tryClean
  rw [ho, hb, hp]
  rfl

theorem Mode.on_cleanStart {f : Flags} {μ : Mode} (h : μ.mid f) :
    μ.on .cleanStart f = μ.takeClean true := by
  cases μ with
  | idle => exact tryClean_calm h
  | cleanDelay => exact tryClean_calm h
  | occupied =>
    show tryClean f = .occupied
    unfold tryClean
    rw [h.1]
    rfl
  | _ => rfl

theorem recoverMode_calm {f : Flags} (h : f.calm) (μ : Mode) : recoverMode f μ = .idle := by
  obtain ⟨ho, hb, hp⟩ := h
  unfold recoverMode restMode
  rw [ho, hb, hp]
  rfl

theorem Mode.on_reset {f : Flags} {μ : Mode} (h : μ.mid f) :
    μ.on .reset f = μ.takeReset true f.occupied f.binFull := by
  obtain ⟨o, b, p⟩ := f
  cases μ with
  | leaveConfirm => exact recoverMode_calm h _
  | cleanDelay => exact recoverMode_calm h _
  | safeStop =>
    obtain rfl : p = o := h
    cases p <;> cases b <;> rfl
  | binFull => cases o <;> cases b <;> cases p <;> first | rfl | cases h rfl
  | cleanTimeout =>
    obtain rfl : p = false := h
    cases o <;> cases b <;> rfl
  | _ => rfl

theorem Mode.on_hall (f : Flags) (l : Leg) :
    (Mode.cleaning l).on (logicHallEventFromPosition l.target) f = l.next := by
  cases l <;> rfl

theorem Mode.onTick_poll {f : Flags} {μ : Mode} (due late : Bool) (h : μ.mid f) :
    μ.onTick f due late = μ.poll f.occupied f.binFull due late := by
  obtain ⟨o, b, p⟩ := f
  cases μ with
  | leaveConfirm =>
    obtain ⟨ho, hb, hp⟩ := h
    dsimp only at ho hb hp
    subst ho hb hp
    cases due <;> rfl
  | cleanDelay =>
    obtain ⟨ho, hb, hp⟩ := h
    dsimp only at ho hb hp
    subst ho hb hp
    cases due <;> rfl
  | cleaning l =>
    obtain rfl : p = false := h.2.2
    cases late <;> rfl
  | safeStop =>
    obtain rfl : p = o := h
    cases p <;> cases b <;> rfl
  | binFull => cases b <;> rfl
  | _ => rfl

/-! ## the motor pins -/

/-- the levels of (IN1, IN2) for a motor command -/
def Motor.levels : Motor → Level × Level
  | .stop => (.low, .low)
  | .forward => (.low, .high)
  | .reverse => (.high, .low)

/-- the motor pins are outputs and carry the command -/
def Gpio.drives (g : Gpio) (d : Motor) : Prop :=
  g.driven in1 = some d.levels.1 ∧ g.driven in2 = some d.levels.2

/-- carrying out one line of the log -/
theorem Gpio.drives_writes {g : Gpio} {d : Motor} (h : g.drives d) (a : Act) :
    (g.writeAll a.writes).drives (a.motor.getD d) := by
  obtain ⟨h1, h2⟩ := h
  have n1 : g.driven in1 ≠ none := by rw [h1]; nofun
  have n2 : g.driven in2 ≠ none := by rw [h2]; nofun
  have two : ∀ (v w : Level),
      (hc32PinWrite in2 w (hc32PinWrite in1 v g)).driven in1 = some v ∧
      (hc32PinWrite in2 w (hc32PinWrite in1 v g)).driven in2 = some w := by
    intro v w
    constructor
    · rw [hc32PinWrite_driven_of_ne _ _ (by decide), hc32PinWrite_driven_self _ _ (by decide) n1]
    · refine hc32PinWrite_driven_self _ _ (by decide) ?_
      rw [hc32PinWrite_driven_of_ne _ _ (by decide)]
      exact n2
  have frame : ∀ (g' : Gpio) (q : Nat), q ≠ buzzer → q ≠ o3 →
      (hc32PinWrite o3 .low (hc32PinWrite buzzer .low g')).driven q = g'.driven q := by
    intro g' q hb ho
    rw [hc32PinWrite_driven_of_ne _ _ ho, hc32PinWrite_driven_of_ne _ _ hb]
  cases a with
  | motorForwardStart => exact two .low .high
  | motorReverseStart => exact two .high .low
  | motorStop =>
    constructor
    · exact (frame _ in1 (by decide) (by decide)).trans (two .low .low).1
    · exact (frame _ in2 (by decide) (by decide)).trans (two .low .low).2
  | onFault c =>
    constructor
    · exact (frame g in1 (by decide) (by decide)).trans h1
    · exact (frame g in2 (by decide) (by decide)).trans h2
  | _ => exact ⟨h1, h2⟩

/-- **the pins follow the log** -/
theorem Gpio.drives_replay {g : Gpio} {d : Motor} (h : g.drives d) (l : List Out) :
    (g.replay l).drives (lastMotor d l) := by
  induction l with
  | nil => exact h
  | cons o l ih => exact Gpio.drives_writes ih o.act

/-! ## between calls and amid a call -/

/-- **the invariant between calls** -/
structure Good (s : Logic) (τ : Timed) : Prop where
  ready : s.gLogicReady = true
  shows : Shows s.fsm.ctx τ
  armed : s.fsm.ctx.armed
  fits : τ.mode.fits s.gPrevOccupied s.gPrevBinFull
  memory : τ.mode.memory s.gHallState.lastReportedPhase
  pins : s.gpio.drives τ.mode.drive

/-- what a call with the inputs `i` reads -/
def cue (i : Inputs) (s : Logic) : Cue where
  time := i.time
  occ := logicIsOccupied i
  full := logicIsBinFull i
  clean := s.gRemoteCleanRequest
  reset := s.gResetRequest
  pos := (logicHallPoll i s.gHallState).2.1

/-- in the middle of a call: the machine shows `τ` and works with the flags `f` -/
structure Amid (f : Flags) (s : Logic) (τ : Timed) : Prop where
  shows : Shows s.fsm.ctx τ
  flags : s.fsm.ctx.flags = f
  armed : s.fsm.ctx.armed

theorem Amid.goes {t : Nat} {f : Flags} {s s' : Logic} {τ : Timed} {μ' : Mode} (h : Amid f s τ)
    (g : Goes t f s.fsm s'.fsm τ μ') : Amid f s' (τ.goto t μ') :=
  ⟨g.shows, g.flags, g.ops.trans h.armed⟩

theorem Amid.stay {t : Nat} {f : Flags} {s s' : Logic} {τ : Timed} {μ' : Mode} (h : Amid f s τ)
    (hμ : μ' = τ.mode) (hs : s'.fsm = s.fsm) : Goes t f s.fsm s'.fsm τ μ' := by
  rw [hμ, hs, ← h.flags]
  exact (Ready.refl s.fsm τ.mode).goes h.shows h.shows.fault

/-- an event that the flags show already -/
theorem Amid.dispatch {f : Flags} {s s0 : Logic} {τ : Timed} (h : Amid f s τ) (hs : s0.fsm = s.fsm)
    (i : Inputs) {e : LitterFsmEvent} (he : f.note e = f) {μ' : Mode} (hμ : τ.mode.on e f = μ') :
    Goes i.time f s.fsm (s0.dispatch i.now e).fsm τ μ' := by
  have g := litterFsmDispatch_goes (t := i.time) e h.shows
  rw [h.flags, he, hμ] at g
  show Goes i.time f s.fsm (litterFsmDispatch i.now e s0.fsm) τ μ'
  rw [hs]
  exact g

theorem protectNow_eq {i : Inputs} {s : Logic} {τ : Timed} (h : Shows s.fsm.ctx τ) :
    protectNow i s = (τ.mode.flags (logicIsOccupied i) (logicIsBinFull i)).protect := by
  unfold protectNow logicIsProtectActive Mode.flags
  rw [h.state]
  cases logicIsOccupied i <;> cases τ.mode <;> rfl

theorem runningSync_amid {i : Inputs} {s : Logic} {τ : Timed} (h : Good s τ) :
    Amid (τ.mode.flags (cue i s).occ (cue i s).full) (runningSync i s) τ := by
  refine ⟨h.shows.frame s.fsm.ctx.lastEventTick _ _ _, ?_, h.armed⟩
  show (⟨logicIsOccupied i, logicIsBinFull i, protectNow i s⟩ : Flags) = _
  rw [protectNow_eq h.shows]
  rfl

/-! ## what the stages leave alone -/

theorem runningBinFull_frame (i : Inputs) (s : Logic) :
    ∃ m, runningBinFull i s = { s with fsm := m } := by
  unfold runningBinFull
  dsimp only
  split
  · exact ⟨_, rfl⟩
  · exact ⟨_, rfl⟩

theorem occupancyEdge_frame (now : Tick) (occ : Bool) (st : LitterFsmState) (s : Logic) :
    ∃ m b, occupancyEdge now occ st s = { s with fsm := m, boxUsed := b } := by
  unfold occupancyEdge
  split
  · split
    · dsimp only
      split <;> split <;> exact ⟨_, _, rfl⟩
    · exact ⟨_, _, rfl⟩
  · exact ⟨_, _, rfl⟩

theorem runningOccupancy_frame (i : Inputs) (s : Logic) :
    ∃ m b, runningOccupancy i s = { s with fsm := m, boxUsed := b } := by
  obtain ⟨m, e⟩ := runningBinFull_frame i s
  unfold runningOccupancy
  dsimp only
  split
  · obtain ⟨m', b, e'⟩ := occupancyEdge_frame i.now (logicIsOccupied i)
      (runningBinFull i s).fsm.ctx.state (runningBinFull i s)
    rw [e', e]
    exact ⟨_, _, rfl⟩
  · rw [e]
    exact ⟨_, _, rfl⟩

theorem runningClean_frame (i : Inputs) (s : Logic) :
    ∃ m b r, runningClean i s = { s with fsm := m, boxUsed := b, gRemoteCleanRequest := r } := by
  obtain ⟨m, b, e⟩ := runningOccupancy_frame i s
  unfold runningClean cleanRequest
  rw [e]
  split
  · split
    · exact ⟨_, _, _, rfl⟩
    · exact ⟨_, _, _, rfl⟩
  · exact ⟨_, _, _, rfl⟩

/-- after the reset stage no reset request is pending -/
theorem runningReset_frame (i : Inputs) (s : Logic) :
    ∃ m b r, runningReset i s =
      { s with fsm := m, boxUsed := b, gRemoteCleanRequest := r, gResetRequest := false } := by
  obtain ⟨m, b, r, e⟩ := runningClean_frame i s
  unfold runningReset resetRequest
  rw [e]
  split
  · exact ⟨_, _, _, rfl⟩
  next hr =>
    refine ⟨m, b, r, ?_⟩
    rw [show s.gResetRequest = false from Bool.eq_false_iff.mpr hr]

/-- a poll does not touch what has been reported -/
theorem logicHallPoll_frame (i : Inputs) (h : LitterHallState) :
    (logicHallPoll i h).2.2.lastReportedPhase = h.lastReportedPhase ∧
    (logicHallPoll i h).2.2.lastReportedPosition = h.lastReportedPosition ∧
    (logicHallPoll i h).2.1 = (logicHallPoll i h).2.2.stablePosition := by
  unfold logicHallPoll
  dsimp only
  split
  · exact ⟨rfl, rfl, rfl⟩
  · split
    · exact ⟨rfl, rfl, rfl⟩
    · split <;> exact ⟨rfl, rfl, rfl⟩

theorem logicDispatchHallEventIfNeeded_frame (now : Tick) (p : LitterHallPosition)
    (st : LitterFsmState) (ph : LitterCleanPhase) (b p' : Bool) (s : Logic) :
    ∃ m q x, logicDispatchHallEventIfNeeded now p st ph b p' s =
      { s with
        fsm := m
        gHallState := { s.gHallState with lastReportedPhase := q, lastReportedPosition := x } } := by
  unfold logicDispatchHallEventIfNeeded
  split
  · exact ⟨_, _, _, rfl⟩
  · split
    · exact ⟨_, _, _, rfl⟩
    · dsimp only
      split
      · exact ⟨_, _, _, rfl⟩
      · split <;> exact ⟨_, _, _, rfl⟩

/-- the hall stage touches the state machine and the hall state only -/
theorem runningHall_reset (i : Inputs) (s : Logic) :
    ∃ m h, runningHall i s = { runningReset i s with fsm := m, gHallState := h } := by
  obtain ⟨m, q, x, e⟩ := logicDispatchHallEventIfNeeded_frame i.now
    (logicHallPoll i (runningReset i s).gHallState).2.1 (runningReset i s).fsm.ctx.state
    (runningReset i s).fsm.ctx.cleanPhase (logicIsBinFull i) (protectNow i s)
    { runningReset i s with gHallState := (logicHallPoll i (runningReset i s).gHallState).2.2 }
  exact ⟨m, _, e⟩

/-- the stages up to the poll, less the context of the state machine -/
theorem runningHall_frame (i : Inputs) (s : Logic) :
    ∃ m b r h, runningHall i s =
      { s with
        fsm := m, boxUsed := b, gRemoteCleanRequest := r, gResetRequest := false
        gHallState := h } := by
  obtain ⟨m, b, r, e⟩ := runningReset_frame i s
  obtain ⟨m', h, e'⟩ := runningHall_reset i s
  rw [e', e]
  exact ⟨_, _, _, _, rfl⟩

/-! ## the stages -/

section stages

variable {i : Inputs} {s : Logic} {τ : Timed}

/-- the flags of the call -/
def callFlags (i : Inputs) (s : Logic) (τ : Timed) : Flags :=
  τ.mode.flags (cue i s).occ (cue i s).full

theorem binFull_stage (h : Good s τ) :
    Goes i.time (callFlags i s τ) (runningSync i s).fsm (runningBinFull i s).fsm τ
      (τ.mode.seeFull (cue i s).full) := by
  have ha : Amid (callFlags i s τ) (runningSync i s) τ := runningSync_amid h
  unfold runningBinFull
  dsimp only
  split
  next he =>
    have hf : (cue i s).full = true := he.1
    have hn : (callFlags i s τ).note .binFull = callFlags i s τ := by
      unfold callFlags
      rw [hf]
      rfl
    rw [hf]
    exact ha.dispatch rfl i hn (Mode.on_binFull _ _)
  next he =>
    have hp : (cue i s).full = true → s.gPrevBinFull = true := by
      intro hf
      by_contra hb
      exact he ⟨hf, Bool.eq_false_iff.mpr hb⟩
    exact ha.stay (Mode.seeFull_of_fits h.fits hp) rfl

theorem binFull_amid (h : Good s τ) :
    Amid (callFlags i s τ) (runningBinFull i s) (τ.binFull (cue i s)) :=
  (runningSync_amid h).goes (binFull_stage h)

theorem seeOccupied_fault {μ : Mode} (h : μ.state = .fault) (occ : Bool) :
    μ.seeOccupied occ = μ := by
  cases μ with
  | binFull => rfl
  | cleanTimeout => rfl
  | _ => cases h

theorem occupancy_stage (h : Good s τ) :
    Goes i.time (callFlags i s τ) (runningBinFull i s).fsm (runningOccupancy i s).fsm
      (τ.binFull (cue i s)) ((τ.binFull (cue i s)).mode.seeOccupied (cue i s).occ) := by
  have ha : Amid (callFlags i s τ) (runningBinFull i s) (τ.binFull (cue i s)) := binFull_amid h
  have hst : (runningBinFull i s).fsm.ctx.state = (τ.binFull (cue i s)).mode.state := ha.shows.state
  unfold runningOccupancy
  dsimp only
  by_cases hf : (runningBinFull i s).fsm.ctx.state = .fault
  · rw [if_neg (not_not.mpr hf)]
    exact ha.stay (seeOccupied_fault (hst.symm.trans hf) _) rfl
  rw [if_pos hf]
  have hμ : (τ.binFull (cue i s)).mode = τ.mode := (Mode.seeFull_not_fault (hst ▸ hf)).1
  have hprev : (runningBinFull i s).gPrevOccupied = s.gPrevOccupied := by
    obtain ⟨m, e⟩ := runningBinFull_frame i s
    rw [e]
  unfold occupancyEdge
  rw [hprev]
  by_cases he : logicIsOccupied i = s.gPrevOccupied
  · rw [if_neg (not_not.mpr he)]
    refine ha.stay ?_ rfl
    rw [hμ]
    show τ.mode.seeOccupied (logicIsOccupied i) = _
    rw [he]
    exact Mode.seeOccupied_of_fits h.fits
  rw [if_pos he]
  by_cases ho : logicIsOccupied i = true
  · have hocc : (cue i s).occ = true := ho
    rw [if_pos ho, hocc]
    dsimp only
    by_cases hc : (runningBinFull i s).fsm.ctx.state = .cleaning
    · have hτ : τ.mode.state = .cleaning := by rw [← hμ, ← hst, hc]
      have hn : (callFlags i s τ).note .protectTrigger = callFlags i s τ := by
        refine note_protectTrigger ?_
        unfold callFlags Mode.flags
        rw [hocc, hτ]
        rfl
      rw [if_pos hc]
      refine ha.dispatch ?_ i hn (Mode.on_protectTrigger _ (hst.symm.trans hc))
      split <;> rfl
    · have hn : (callFlags i s τ).note .occupiedOn = callFlags i s τ := by
        unfold callFlags
        rw [hocc]
        rfl
      rw [if_neg hc]
      refine ha.dispatch ?_ i hn (Mode.on_occupiedOn _ _)
      split <;> rfl
  · have hocc : (cue i s).occ = false := Bool.eq_false_iff.mpr ho
    have hn : (callFlags i s τ).note .occupiedOff = callFlags i s τ := by
      unfold callFlags
      rw [hocc]
      rfl
    rw [if_neg ho, hocc]
    exact ha.dispatch rfl i hn (Mode.on_occupiedOff _ _)

theorem occupancy_amid (h : Good s τ) :
    Amid (callFlags i s τ) (runningOccupancy i s) (τ.occupancy (cue i s)) :=
  (binFull_amid h).goes (occupancy_stage h)

theorem occupancy_mid (h : Good s τ) : (τ.occupancy (cue i s)).mode.mid (callFlags i s τ) :=
  Mode.mid_seen _ _ h.fits

/-- a machine in FAULT after the bin-full stage is there after the occupancy stage -/
theorem occupancy_fault (q : Cue) (hf : (τ.binFull q).mode.state = .fault) (clean : Bool) :
    (τ.occupancy q).mode.takeClean clean = (τ.occupancy q).mode := by
  have e : (τ.occupancy q).mode = (τ.binFull q).mode := seeOccupied_fault hf _
  rw [e]
  cases hm : (τ.binFull q).mode <;> rw [hm] at hf <;> first | rfl | cases hf

theorem clean_stage (h : Good s τ) :
    Goes i.time (callFlags i s τ) (runningOccupancy i s).fsm (runningClean i s).fsm
      (τ.occupancy (cue i s)) ((τ.occupancy (cue i s)).mode.takeClean (cue i s).clean) := by
  have ha : Amid (callFlags i s τ) (runningOccupancy i s) (τ.occupancy (cue i s)) :=
    occupancy_amid h
  have hst := (binFull_amid (i := i) h).shows.state
  have hreq : (runningOccupancy i s).gRemoteCleanRequest = (cue i s).clean := by
    obtain ⟨m, b, e⟩ := runningOccupancy_frame i s
    rw [e]
    rfl
  unfold runningClean
  by_cases hf : (runningBinFull i s).fsm.ctx.state = .fault
  · rw [if_neg (not_not.mpr hf)]
    exact ha.stay (occupancy_fault _ (hst.symm.trans hf) _) rfl
  rw [if_pos hf]
  unfold cleanRequest
  rw [hreq]
  split
  next hc =>
    rw [hc]
    exact ha.dispatch rfl i rfl (Mode.on_cleanStart (occupancy_mid h))
  next hc =>
    rw [Bool.eq_false_iff.mpr hc]
    exact ha.stay (by cases (τ.occupancy (cue i s)).mode <;> rfl) rfl

theorem clean_amid (h : Good s τ) :
    Amid (callFlags i s τ) (runningClean i s) (τ.clean (cue i s)) :=
  (occupancy_amid h).goes (clean_stage h)

theorem clean_mid (h : Good s τ) : (τ.clean (cue i s)).mode.mid (callFlags i s τ) :=
  Mode.mid_takeClean _ (occupancy_mid h)

theorem reset_stage (h : Good s τ) :
    Goes i.time (callFlags i s τ) (runningClean i s).fsm (runningReset i s).fsm
      (τ.clean (cue i s))
      ((τ.clean (cue i s)).mode.takeReset (cue i s).reset (cue i s).occ (cue i s).full) := by
  have ha : Amid (callFlags i s τ) (runningClean i s) (τ.clean (cue i s)) := clean_amid h
  have hreq : (runningClean i s).gResetRequest = (cue i s).reset := by
    obtain ⟨m, b, r, e⟩ := runningClean_frame i s
    rw [e]
    rfl
  unfold runningReset resetRequest
  rw [hreq]
  split
  next hc =>
    rw [hc]
    exact ha.dispatch rfl i rfl (Mode.on_reset (clean_mid h))
  next hc =>
    rw [Bool.eq_false_iff.mpr hc]
    exact ha.stay (by cases (τ.clean (cue i s)).mode <;> rfl) rfl

theorem reset_amid (h : Good s τ) :
    Amid (callFlags i s τ) (runningReset i s) (τ.reset (cue i s)) :=
  (clean_amid h).goes (reset_stage h)

theorem reset_mid (h : Good s τ) : (τ.reset (cue i s)).mode.mid (callFlags i s τ) :=
  Mode.mid_takeReset _ (clean_mid h)

/-- a cleaning at the hall stage has its leg still to report -/
theorem reset_memory (h : Good s τ) {l : Leg} (hl : (τ.reset (cue i s)).mode = .cleaning l) :
    (Mode.cleaning l).memory s.gHallState.lastReportedPhase := by
  have hm := Mode.memory_takeClean (cue i s).clean
    (Mode.memory_seen (cue i s).occ (cue i s).full h.memory)
  have e : (τ.clean (cue i s)).mode = .cleaning l := Mode.takeReset_cleaning hl
  rw [← e]
  exact hm

/-! ### the hall stage -/

theorem reset_hall (i : Inputs) (s : Logic) : (runningReset i s).gHallState = s.gHallState := by
  obtain ⟨m, b, r, e⟩ := runningReset_frame i s
  rw [e]

/-- outside a cleaning the hall stage forgets what was reported -/
theorem runningHall_outside (h : Good s τ) (hc : (τ.reset (cue i s)).mode.state ≠ .cleaning) :
    runningHall i s = { runningReset i s with
      gHallState := { (logicHallPoll i s.gHallState).2.2 with lastReportedPhase := .none } } := by
  have hst : (runningReset i s).fsm.ctx.state ≠ .cleaning := by
    rw [(reset_amid h).shows.state]
    exact hc
  unfold runningHall logicDispatchHallEventIfNeeded
  dsimp only
  rw [if_pos hst, reset_hall]

/-- in a cleaning the hall stage reports the leg exactly when its target is reached -/
theorem runningHall_cleaning (h : Good s τ) {l : Leg}
    (hl : (τ.reset (cue i s)).mode = .cleaning l) :
    runningHall i s =
      if (cue i s).pos = l.target then
        ({ runningReset i s with
          gHallState := { (logicHallPoll i s.gHallState).2.2 with
            lastReportedPhase := l.phase, lastReportedPosition := l.target } }).dispatch i.now
          (logicHallEventFromPosition l.target)
      else { runningReset i s with gHallState := (logicHallPoll i s.gHallState).2.2 } := by
  have hs := (reset_amid (i := i) h).shows
  have hst : (runningReset i s).fsm.ctx.state = .cleaning := by rw [hs.state, hl]; rfl
  have hph : (runningReset i s).fsm.ctx.cleanPhase = l.phase := by rw [hs.phase, hl]; rfl
  have hmid := reset_mid (i := i) h
  rw [hl] at hmid
  have hfull : logicIsBinFull i ≠ true := by
    rw [show logicIsBinFull i = false from hmid.2.1]
    nofun
  have hprot : protectNow i s ≠ true := by
    rw [protectNow_eq h.shows]
    exact Bool.eq_false_iff.mp hmid.2.2
  have hne := Mode.memory_ne (reset_memory h hl)
  obtain ⟨f1, -, -⟩ := logicHallPoll_frame i s.gHallState
  unfold runningHall logicDispatchHallEventIfNeeded
  dsimp only
  rw [if_neg (not_not.mpr hst), if_neg (not_or.mpr ⟨hfull, hprot⟩), hph, Leg.phase_target,
    reset_hall]
  show (if l.target = .unknown ∨ (cue i s).pos ≠ l.target then _ else _) = _
  by_cases hp : (cue i s).pos = l.target
  · have hp' : (logicHallPoll i s.gHallState).2.1 = l.target := hp
    rw [if_neg (not_or.mpr ⟨by cases l <;> nofun, not_not.mpr hp⟩), if_pos hp, hp', f1,
      if_neg (not_or.mpr ⟨by cases l <;> nofun, fun e => hne e.1⟩)]
  · rw [if_pos (Or.inr hp), if_neg hp]

theorem hall_stage (h : Good s τ) :
    Goes i.time (callFlags i s τ) (runningReset i s).fsm (runningHall i s).fsm (τ.reset (cue i s))
      ((τ.reset (cue i s)).mode.takeHall (cue i s).pos) := by
  have ha : Amid (callFlags i s τ) (runningReset i s) (τ.reset (cue i s)) := reset_amid h
  cases hm : (τ.reset (cue i s)).mode with
  | cleaning l =>
    rw [runningHall_cleaning h hm]
    unfold Mode.takeHall
    dsimp only
    split
    · refine ha.dispatch rfl i (by cases l <;> rfl) ?_
      rw [hm]
      exact Mode.on_hall _ l
    · exact ha.stay hm.symm rfl
  | _ =>
    have hc : (τ.reset (cue i s)).mode.state ≠ .cleaning := by rw [hm]; nofun
    rw [runningHall_outside h hc]
    exact ha.stay hm.symm rfl

theorem hall_amid (h : Good s τ) :
    Amid (callFlags i s τ) (runningHall i s) (τ.hall (cue i s)) :=
  (reset_amid h).goes (hall_stage h)

theorem hall_mid (h : Good s τ) : (τ.hall (cue i s)).mode.mid (callFlags i s τ) :=
  Mode.mid_takeHall _ (reset_mid h)

theorem tick_stage (h : Good s τ) :
    Goes i.time (callFlags i s τ) (runningHall i s).fsm (runningTick i s).fsm (τ.hall (cue i s))
      (τ.call (cue i s)).mode := by
  have ha : Amid (callFlags i s τ) (runningHall i s) (τ.hall (cue i s)) := hall_amid h
  have g := litterFsmTick_goes (t := i.time) ha.shows
  rw [ha.flags, Mode.onTick_poll _ _ (hall_mid h)] at g
  exact g

theorem tick_amid (h : Good s τ) :
    Amid (callFlags i s τ) (runningTick i s) (τ.call (cue i s)) :=
  (hall_amid h).goes (tick_stage h)

theorem call_memory (h : Good s τ) :
    (τ.call (cue i s)).mode.memory (runningTick i s).gHallState.lastReportedPhase := by
  show ((τ.hall (cue i s)).mode.poll _ _ _ _).memory (runningHall i s).gHallState.lastReportedPhase
  by_cases hc : (τ.reset (cue i s)).mode.state = .cleaning
  · obtain ⟨l, hl⟩ := Mode.cleaning_of_state hc
    have hh : (τ.hall (cue i s)).mode =
        if (cue i s).pos = l.target then l.next else .cleaning l := by
      show (τ.reset (cue i s)).mode.takeHall _ = _
      rw [hl]
      rfl
    rw [runningHall_cleaning h hl, hh]
    split
    · have hn := l.memory_next
      cases l with
      | toPos1 => exact hn
      | _ => exact Mode.memory_poll hn
    · refine Mode.memory_poll ?_
      rw [show ({ runningReset i s with gHallState := (logicHallPoll i s.gHallState).2.2 } :
        Logic).gHallState.lastReportedPhase = s.gHallState.lastReportedPhase from
          (logicHallPoll_frame i s.gHallState).1]
      exact reset_memory h hl
  · have hh : (τ.hall (cue i s)).mode = (τ.reset (cue i s)).mode := Mode.takeHall_outside _ hc
    rw [runningHall_outside h hc, hh]
    exact Mode.memory_poll_none hc

/-! ### the log of a call -/

/-- logs of consecutive stages; the moves and the legs of the stages are read off one by one -/
structure Follows (μ μ' : Mode) (l l' : List Out) : Prop where
  motor : ∀ d, lastMotor d l = μ.drive → lastMotor d l' = μ'.drive
  starts : (∀ o ∈ l, o.startOk) → ∀ o ∈ l', o.startOk
  settled : Settled l → Settled l'

theorem Logged.follows {armed : Prop} {μ μ' : Mode} {l l' : List Out} (ha : armed)
    (h : Logged armed μ μ' l l') : Follows μ μ' l l' :=
  ⟨fun d hd => h.motor ha d fun _ => hd, h.starts, h.settled ha⟩

theorem Follows.trans {μ μ' μ'' : Mode} {l l' l'' : List Out} (h : Follows μ μ' l l')
    (h' : Follows μ' μ'' l' l'') : Follows μ μ'' l l'' :=
  ⟨fun d hd => h'.motor d (h.motor d hd), fun hd => h'.starts (h.starts hd),
    fun hd => h'.settled (h.settled hd)⟩

theorem call_follows (h : Good s τ) :
    Follows τ.mode (τ.call (cue i s)).mode s.fsm.out (runningTick i s).fsm.out := by
  have h1 := (binFull_stage (i := i) h).log.follows h.armed
  have h2 := (occupancy_stage (i := i) h).log.follows (binFull_amid h).armed
  have h3 := (clean_stage (i := i) h).log.follows (occupancy_amid h).armed
  have h4 := (reset_stage (i := i) h).log.follows (clean_amid h).armed
  have h5 := (hall_stage (i := i) h).log.follows (reset_amid h).armed
  have h6 := (tick_stage (i := i) h).log.follows (hall_amid h).armed
  exact ((((h1.trans h2).trans h3).trans h4).trans h5).trans h6

/-- the state changes up to the poll, newest first -/
theorem hall_moves (h : Good s τ) :
    moves (runningHall i s).fsm.out =
      (τ.reset (cue i s)).mode.hop (τ.hall (cue i s)).mode ++
      ((τ.clean (cue i s)).mode.hop (τ.reset (cue i s)).mode ++
      ((τ.occupancy (cue i s)).mode.hop (τ.clean (cue i s)).mode ++
      ((τ.binFull (cue i s)).mode.hop (τ.occupancy (cue i s)).mode ++
      (τ.mode.hop (τ.binFull (cue i s)).mode ++ moves s.fsm.out)))) := by
  have h1 := (binFull_stage (i := i) h).log.moves_eq
  have h2 := (occupancy_stage (i := i) h).log.moves_eq
  have h3 := (clean_stage (i := i) h).log.moves_eq
  have h4 := (reset_stage (i := i) h).log.moves_eq
  have h5 := (hall_stage (i := i) h).log.moves_eq
  rw [h4, h3, h2, h1] at h5
  exact h5

/-- the legs begun up to the poll, newest first -/
theorem hall_phases (h : Good s τ) :
    phases (runningHall i s).fsm.out =
      (τ.reset (cue i s)).mode.legHop (τ.hall (cue i s)).mode ++
      ((τ.clean (cue i s)).mode.legHop (τ.reset (cue i s)).mode ++
      ((τ.occupancy (cue i s)).mode.legHop (τ.clean (cue i s)).mode ++
      ((τ.binFull (cue i s)).mode.legHop (τ.occupancy (cue i s)).mode ++
      (τ.mode.legHop (τ.binFull (cue i s)).mode ++ phases s.fsm.out)))) := by
  have h1 := (binFull_stage (i := i) h).log.phases_eq
  have h2 := (occupancy_stage (i := i) h).log.phases_eq
  have h3 := (clean_stage (i := i) h).log.phases_eq
  have h4 := (reset_stage (i := i) h).log.phases_eq
  have h5 := (hall_stage (i := i) h).log.phases_eq
  rw [h4, h3, h2, h1] at h5
  exact h5

theorem call_moves (h : Good s τ) :
    moves (runningTick i s).fsm.out =
      (τ.hall (cue i s)).mode.hop (τ.call (cue i s)).mode ++
      ((τ.reset (cue i s)).mode.hop (τ.hall (cue i s)).mode ++
      ((τ.clean (cue i s)).mode.hop (τ.reset (cue i s)).mode ++
      ((τ.occupancy (cue i s)).mode.hop (τ.clean (cue i s)).mode ++
      ((τ.binFull (cue i s)).mode.hop (τ.occupancy (cue i s)).mode ++
      (τ.mode.hop (τ.binFull (cue i s)).mode ++ moves s.fsm.out))))) := by
  rw [(tick_stage (i := i) h).log.moves_eq, hall_moves h]

/-- with an empty log before it, every change of a call is made by one of its stages -/
theorem mem_call_moves (h : Good s τ) (ho : s.fsm.out = [])
    {e : LitterFsmState × LitterFsmState} :
    e ∈ moves (runningTick i s).fsm.out ↔
      e ∈ (τ.hall (cue i s)).mode.hop (τ.call (cue i s)).mode ∨
      e ∈ (τ.reset (cue i s)).mode.hop (τ.hall (cue i s)).mode ∨
      e ∈ (τ.clean (cue i s)).mode.hop (τ.reset (cue i s)).mode ∨
      e ∈ (τ.occupancy (cue i s)).mode.hop (τ.clean (cue i s)).mode ∨
      e ∈ (τ.binFull (cue i s)).mode.hop (τ.occupancy (cue i s)).mode ∨
      e ∈ τ.mode.hop (τ.binFull (cue i s)).mode := by
  have hnil : moves s.fsm.out = [] := by
    rw [ho]
    rfl
  rw [call_moves h, hnil, List.append_nil]
  simp only [List.mem_append]

end stages

end LitterBox
