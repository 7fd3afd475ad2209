import LitterBox.Fsm.Motor
import LitterBox.Logic.Call

/-!
# Steps and runs

`Timed.after` is one step of the abstract machine, and `Good.step` says that `logic.c` follows it;
`boot_good` is `Sensor_Logic_Init`.  `timed g i0 l` is the abstract machine after the run `l`, and
`run_good` says that the state after the run shows it.
-/

namespace LitterBox

/-! ## steps -/

/-- one step of the abstract machine -/
def Timed.after (s : Logic) (τ : Timed) : Step → Timed
  | .running i => τ.call (cue i s)
  | .requestClean => τ
  | .requestReset => τ
  | .litterTimeout t => if τ.mode.state = .cleaning then τ.goto t .cleanTimeout else τ

theorem Timed.after_litterTimeout {s : Logic} {τ : Timed} (t : Nat) (h : τ.mode.state = .cleaning) :
    τ.after s (.litterTimeout t) = τ.goto t .cleanTimeout :=
  if_pos h

theorem Timed.after_litterTimeout_of_ne {s : Logic} {τ : Timed} (t : Nat)
    (h : τ.mode.state ≠ .cleaning) : τ.after s (.litterTimeout t) = τ :=
  if_neg h

/-- what survives the end of a cleaning survives the debug command -/
theorem Timed.litterTimeout_inv {Q : Timed → Prop} {s : Logic} {τ : Timed} (t : Nat) (h : Q τ)
    (ht : Q (τ.goto t .cleanTimeout)) : Q (τ.after s (.litterTimeout t)) := by
  by_cases hc : τ.mode.state = .cleaning
  · rw [Timed.after_litterTimeout t hc]
    exact ht
  · rw [Timed.after_litterTimeout_of_ne t hc]
    exact h

theorem Good.fresh {s : Logic} {τ : Timed} (h : Good s τ) : Good s.fresh τ :=
  ⟨h.ready, h.shows, h.armed, h.fits, h.memory, h.pins⟩

theorem step_running {s : Logic} {τ : Timed} (i : Inputs) (h : Good s τ) :
    s.step (.running i) = ({ runningTick i s.fresh with
      gPrevOccupied := logicIsOccupied i, gPrevBinFull := logicIsBinFull i }).drivePins := by
  show (sensorLogicRunning i s.fresh).drivePins = _
  rw [sensorLogicRunning_eq i s.fresh h.ready]

theorem runningTick_frame (i : Inputs) (s : Logic) :
    ∃ m b r h, runningTick i s =
      { s with
        fsm := m, boxUsed := b, gRemoteCleanRequest := r, gResetRequest := false
        gHallState := h } := by
  obtain ⟨m, b, r, h, e⟩ := runningHall_frame i s
  unfold runningTick
  rw [e]
  exact ⟨_, _, _, _, rfl⟩

/-- **a call of `Sensor_Logic_Running` is `Timed.call`** -/
theorem Good.running {s : Logic} {τ : Timed} (h : Good s τ) (i : Inputs) :
    Good (s.step (.running i)) (τ.call (cue i s)) := by
  have h0 := h.fresh
  have ha : Amid (callFlags i s.fresh τ) (runningTick i s.fresh) (τ.call (cue i s)) :=
    tick_amid h0
  obtain ⟨m, b, r, hs, e⟩ := runningTick_frame i s.fresh
  rw [step_running i h]
  refine ⟨?_, ha.shows, ha.armed, Mode.fits_poll _ _ (hall_mid h0), call_memory h0, ?_⟩
  · rw [e]
    exact h.ready
  · show (Gpio.replay (runningTick i s.fresh).gpio (runningTick i s.fresh).fsm.out).drives _
    have hg : (runningTick i s.fresh).gpio = s.gpio := by rw [e]; rfl
    have hm := (call_follows (i := i) h0).motor τ.mode.drive rfl
    rw [hg, show (τ.call (cue i s)).mode.drive = _ from hm.symm]
    exact Gpio.drives_replay h.pins _

theorem Good.litterTimeout {s : Logic} {τ : Timed} (h : Good s τ) (t : Nat) :
    Good (s.step (.litterTimeout t)) (τ.after s (.litterTimeout t)) := by
  show Good (LitterBox.litterTimeout (tick t) s.fresh).drivePins (τ.after s (.litterTimeout t))
  have hst : s.fresh.fsm.ctx.state = τ.mode.state := h.shows.state
  unfold LitterBox.litterTimeout
  rw [hst]
  by_cases hc : τ.mode.state = .cleaning
  · rw [if_neg (not_not.mpr hc), Timed.after_litterTimeout t hc]
    have g := litterFsmDispatch_goes (t := t) (m := s.fresh.fsm) .stallOrTimeout h.shows
    rw [show τ.mode.on .stallOrTimeout (s.fresh.fsm.ctx.flags.note .stallOrTimeout) =
      .cleanTimeout by cases τ.mode <;> rfl] at g
    refine ⟨h.ready, g.shows, g.ops.trans h.armed, trivial, trivial, ?_⟩
    have hm := g.log.motor h.armed τ.mode.drive fun _ => rfl
    show (Gpio.replay s.gpio (litterFsmDispatch (tick t) .stallOrTimeout s.fresh.fsm).out).drives
      (Mode.drive .cleanTimeout)
    rw [← hm]
    exact Gpio.drives_replay h.pins _
  · rw [if_pos hc, Timed.after_litterTimeout_of_ne t hc]
    exact h.fresh

/-- **one step keeps the invariant** -/
theorem Good.step {s : Logic} {τ : Timed} (h : Good s τ) (x : Step) :
    Good (s.step x) (τ.after s x) := by
  cases x with
  | running i => exact h.running i
  | requestClean => exact ⟨h.ready, h.shows, h.armed, h.fits, h.memory, h.pins⟩
  | requestReset => exact ⟨h.ready, h.shows, h.armed, h.fits, h.memory, h.pins⟩
  | litterTimeout t => exact h.litterTimeout t

/-! ## Sensor_Logic_Init -/

theorem initPins_drives (g : Gpio) : (initPins g).drives .stop := by
  unfold initPins
  constructor
  · iterate 6 rw [hc32PinMode_driven_of_ne _ _ (by decide)]
    exact hc32PinMode_output _ (by decide)
  · iterate 5 rw [hc32PinMode_driven_of_ne _ _ (by decide)]
    exact hc32PinMode_output _ (by decide)

/-- the mode `Sensor_Logic_Init` ends in -/
def bootMode (occ full : Bool) : Mode := if full then .binFull else rest occ

/-- the calls into `fsm.c` made by `Sensor_Logic_Init` -/
def bootFsm (i0 : Inputs) (m : Fsm) : Fsm :=
  let m := litterFsmInit i0.now (some gFsmOps) m
  let m := litterFsmSyncInputs (logicIsOccupied i0) (logicIsBinFull i0) false m
  let m := if logicIsOccupied i0 = true then litterFsmDispatch i0.now .occupiedOn m else m
  if logicIsBinFull i0 = true then litterFsmDispatch i0.now .binFull m else m

theorem sensorLogicInit_coldStart (g : Gpio) (i0 : Inputs) :
    sensorLogicInit i0 (coldStart g) = { coldStart g with
      gLogicReady := true, gPrevOccupied := logicIsOccupied i0, gPrevBinFull := logicIsBinFull i0
      fsm := bootFsm i0 (coldStart g).fsm, gpio := initPins g } := by
  unfold sensorLogicInit bootFsm
  rw [if_neg (show ¬ (coldStart g).gLogicReady = true from nofun)]
  dsimp only
  by_cases ho : logicIsOccupied i0 = true <;> by_cases hb : logicIsBinFull i0 = true
  · rw [if_pos ho, if_pos ho, if_pos hb, if_pos hb]
    rfl
  · rw [if_pos ho, if_pos ho, if_neg hb, if_neg hb]
    rfl
  · rw [if_neg ho, if_neg ho, if_pos hb, if_pos hb]
    rfl
  · rw [if_neg ho, if_neg ho, if_neg hb, if_neg hb]
    rfl

/-- the abstract machine after `Sensor_Logic_Init` -/
def bootTimed (i0 : Inputs) : Timed where
  mode := bootMode (logicIsOccupied i0) (logicIsBinFull i0)
  since := i0.time
  legSince := i0.time

theorem Timed.goto_now (t : Nat) (μ μ' : Mode) : Timed.goto t μ' ⟨μ, t, t⟩ = ⟨μ', t, t⟩ := by
  simp [Timed.goto]

theorem bootFsm_tracks (g : Gpio) (i0 : Inputs) :
    Tracks (bootFsm i0 (coldStart g).fsm) (bootTimed i0) := by
  have h0 := Tracks.init (m := (coldStart g).fsm) i0.time
    (fun o ho => absurd ho List.not_mem_nil) .nil
  have h1 : Tracks (litterFsmSyncInputs (logicIsOccupied i0) (logicIsBinFull i0) false
      (litterFsmInit i0.now (some gFsmOps) (coldStart g).fsm)) ⟨.idle, i0.time, i0.time⟩ :=
    ⟨h0.shows.frame _ _ _ _, h0.armed, h0.motor, h0.starts, h0.settled⟩
  have step : ∀ {m : Fsm} {μ : Mode} (e : LitterFsmEvent) (c : Bool) (μ' : Mode),
      Tracks m ⟨μ, i0.time, i0.time⟩ → (c = true → μ.on e (m.ctx.flags.note e) = μ') →
      (c = false → μ = μ') →
      Tracks (if c = true then litterFsmDispatch i0.now e m else m) ⟨μ', i0.time, i0.time⟩ := by
    intro m μ e c μ' h ht hf
    cases c with
    | true =>
      have g := h.goes (litterFsmDispatch_goes (t := i0.time) e h.shows)
      rw [ht rfl, Timed.goto_now] at g
      exact g
    | false =>
      rw [← hf rfl]
      exact h
  have h2 := step .occupiedOn (logicIsOccupied i0) (rest (logicIsOccupied i0)) h1
    (fun hc => by rw [hc]; rfl) (fun hc => by rw [hc]; rfl)
  refine step .binFull (logicIsBinFull i0) _ h2 (fun hc => ?_) (fun hc => ?_)
  · rw [hc, Mode.on_binFull]
    cases logicIsOccupied i0 <;> rfl
  · rw [hc]
    rfl

/-- **`Sensor_Logic_Init` establishes the invariant** -/
theorem boot_good (g : Gpio) (i0 : Inputs) : Good (boot g i0) (bootTimed i0) := by
  have h := bootFsm_tracks g i0
  unfold boot
  rw [sensorLogicInit_coldStart]
  refine ⟨rfl, h.shows, h.armed, ?_, ?_, ?_⟩
  · show (bootMode (logicIsOccupied i0) (logicIsBinFull i0)).fits (logicIsOccupied i0)
      (logicIsBinFull i0)
    cases logicIsOccupied i0 <;> cases logicIsBinFull i0 <;> simp [bootMode, rest, Mode.fits]
  · show (bootMode (logicIsOccupied i0) (logicIsBinFull i0)).memory .none
    cases logicIsOccupied i0 <;> cases logicIsBinFull i0 <;>
      first | exact Or.inl rfl | exact trivial
  · rw [← h.motor .stop]
    exact Gpio.drives_replay (initPins_drives g) _

/-! ## runs -/

/-- the abstract machine after a run -/
def timed (g : Gpio) (i0 : Inputs) (l : List Step) : Timed :=
  Runs.observe Logic.step (fun s x τ => τ.after s x) (boot g i0) (bootTimed i0) l

theorem run_snoc (g : Gpio) (i0 : Inputs) (l : List Step) (x : Step) :
    run g i0 (l ++ [x]) = (run g i0 l).step x :=
  Runs.run_snoc _ _ l x

theorem timed_snoc (g : Gpio) (i0 : Inputs) (l : List Step) (x : Step) :
    timed g i0 (l ++ [x]) = (timed g i0 l).after (run g i0 l) x :=
  Runs.observe_snoc _ _ _ _ l x

theorem timed_running (g : Gpio) (i0 : Inputs) (l : List Step) (i : Inputs) :
    timed g i0 (l ++ [.running i]) = (timed g i0 l).call (cue i (run g i0 l)) :=
  timed_snoc g i0 l (.running i)

/-- **every state of a run shows the abstract machine** -/
theorem run_good (g : Gpio) (i0 : Inputs) (l : List Step) : Good (run g i0 l) (timed g i0 l) :=
  Runs.observe_inv (I := Good) (fun _ _ x h => h.step x) (boot_good g i0) l

/-! ## what a call leaves behind -/

theorem running_out (g : Gpio) (i0 : Inputs) (l : List Step) (i : Inputs) :
    (run g i0 (l ++ [.running i])).fsm = (runningTick i (run g i0 l).fresh).fsm := by
  rw [run_snoc, step_running i (run_good g i0 l)]
  rfl

theorem running_prev (g : Gpio) (i0 : Inputs) (l : List Step) (i : Inputs) :
    (run g i0 (l ++ [.running i])).gPrevOccupied = logicIsOccupied i ∧
    (run g i0 (l ++ [.running i])).gPrevBinFull = logicIsBinFull i := by
  rw [run_snoc, step_running i (run_good g i0 l)]
  exact ⟨rfl, rfl⟩

theorem running_reset (g : Gpio) (i0 : Inputs) (l : List Step) (i : Inputs) :
    (run g i0 (l ++ [.running i])).gResetRequest = false := by
  obtain ⟨m, b, r, h, e⟩ := runningTick_frame i (run g i0 l).fresh
  rw [run_snoc, step_running i (run_good g i0 l)]
  show (runningTick i (run g i0 l).fresh).gResetRequest = false
  rw [e]

theorem litterTimeout_requests (s : Logic) (t : Nat) :
    (s.step (.litterTimeout t)).gRemoteCleanRequest = s.gRemoteCleanRequest ∧
    (s.step (.litterTimeout t)).gResetRequest = s.gResetRequest := by
  show (LitterBox.litterTimeout (tick t) s.fresh).gRemoteCleanRequest = _ ∧
    (LitterBox.litterTimeout (tick t) s.fresh).gResetRequest = _
  unfold LitterBox.litterTimeout
  split <;> exact ⟨rfl, rfl⟩

/-- a debug command that finds no cleaning does nothing -/
theorem litterTimeout_out {s : Logic} {τ : Timed} (h : Good s τ) (t : Nat) :
    moves (s.step (.litterTimeout t)).fsm.out = τ.mode.hop (τ.after s (.litterTimeout t)).mode := by
  have hst : s.fresh.fsm.ctx.state = τ.mode.state := h.shows.state
  show moves (LitterBox.litterTimeout (tick t) s.fresh).fsm.out = _
  unfold LitterBox.litterTimeout
  rw [hst]
  by_cases hc : τ.mode.state = .cleaning
  · rw [if_neg (not_not.mpr hc), Timed.after_litterTimeout t hc]
    have g := (litterFsmDispatch_goes (t := t) (m := s.fresh.fsm) .stallOrTimeout
      h.shows).log.moves_eq
    rw [show τ.mode.on .stallOrTimeout (s.fresh.fsm.ctx.flags.note .stallOrTimeout) =
      .cleanTimeout by cases τ.mode <;> rfl] at g
    exact g.trans (List.append_nil _)
  · rw [if_pos hc, Timed.after_litterTimeout_of_ne t hc, Mode.hop_self]
    rfl

/-! ## the log of a step -/

/-- the changes of a log, newest first, lead from `a` to `b` -/
def leads (a : LitterFsmState) : List (LitterFsmState × LitterFsmState) → LitterFsmState → Prop
  | [], b => a = b
  | e :: l, b => e.2 = b ∧ leads a l e.1

theorem leads_hop {a : LitterFsmState} {l : List (LitterFsmState × LitterFsmState)} {μ : Mode}
    (μ' : Mode) (h : leads a l μ.state) : leads a (μ.hop μ' ++ l) μ'.state := by
  unfold Mode.hop
  split
  next he => rw [← he]; exact h
  · exact ⟨rfl, h⟩

/-- **the log misses no change**: those of a step lead from the state before it to the one after -/
theorem step_leads {s : Logic} {τ : Timed} (h : Good s τ) (x : Step) :
    leads s.fsm.ctx.state (moves (s.step x).fsm.out) (s.step x).fsm.ctx.state := by
  rw [(h.step x).shows.state, h.shows.state]
  cases x with
  | running i =>
    rw [step_running i h]
    show leads _ (moves (runningTick i s.fresh).fsm.out) _
    rw [call_moves h.fresh]
    exact leads_hop _ (leads_hop _ (leads_hop _ (leads_hop _ (leads_hop _ (leads_hop _ rfl)))))
  | requestClean => exact rfl
  | requestReset => exact rfl
  | litterTimeout t =>
    rw [litterTimeout_out h t, ← List.append_nil (Mode.hop _ _)]
    exact leads_hop _ rfl

/-! ## inputs for examples -/

/-- quiet pins, nobody in the box, an empty bin, no hall sensor active -/
def calmAt (t : Nat) : Inputs := ⟨t, .high, 0, .high, .high, .high⟩

def occupiedAt (t : Nat) : Inputs := { calmAt t with hongwai := .low }

def fullAt (t : Nat) : Inputs := { calmAt t with curWeight := 500 }

/-- pin registers with every output latch low -/
def lowPins : Gpio := ⟨fun _ => 0⟩

/-- a run that leaves the box at the tick `20` -/
def leaving : List Step := [.running (occupiedAt 10), .running (calmAt 20)]

/-- a run that cleans on request from the tick `10` on -/
def cleaningOnRequest : List Step := [.requestClean, .running (calmAt 10)]

end LitterBox
