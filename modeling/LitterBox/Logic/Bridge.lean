import LitterBox.Fsm.Context
import LitterBox.Logic.Reach

/-!
# The two inputs of the H-bridge

A motor operation writes IN1 and then IN2, so between the two writes the bridge sees a pair of its
own.  `Gpio.replayEach` lists the pin registers after every single write of a log, and `motorTable`
the three pairs that the table of motor actions has.

* `Act.pairs_documented`   every operation passes through pairs of the table, but for a reverse
                           start after a forward one;
* `hall_out_reverses`      the log of the call that turns the direction;
* `bridge_documented`      which runs never leave the table.
-/

namespace LitterBox

/-! ## single writes -/

/-- the pin registers after each of the writes -/
def Gpio.writeEach : List (Nat × Level) → Gpio → List Gpio
  | [], _ => []
  | w :: l, g => hc32PinWrite w.1 w.2 g :: (hc32PinWrite w.1 w.2 g).writeEach l

/-- the pin registers after each single write of a log, newest line first -/
def Gpio.replayEach (g : Gpio) : List Out → List Gpio
  | [] => []
  | o :: l => g.replayEach l ++ (g.replay l).writeEach o.act.writes

/-- IN1 and IN2 are outputs with the levels `p` -/
def Gpio.bridges (g : Gpio) (p : Level × Level) : Prop :=
  g.driven in1 = some p.1 ∧ g.driven in2 = some p.2

instance (g : Gpio) (p : Level × Level) : Decidable (g.bridges p) := by
  unfold Gpio.bridges
  infer_instance

/-- the pairs (IN1, IN2) of the motor actions: forward, reverse, stop -/
def motorTable : List (Level × Level) := [(.low, .high), (.high, .low), (.low, .low)]

/-- the motor pins show a pair of the table -/
def Gpio.documented (g : Gpio) : Prop := ∃ p ∈ motorTable, g.bridges p

theorem Gpio.not_documented {g : Gpio} (h : g.bridges (.high, .high)) : ¬ g.documented := by
  rintro ⟨q, hq, hg⟩
  have e1 : q.1 = .high := Option.some.inj (hg.1.symm.trans h.1)
  have e2 : q.2 = .high := Option.some.inj (hg.2.symm.trans h.2)
  have e : q = (.high, .high) := Prod.ext e1 e2
  exact absurd (e ▸ hq) (by decide)

/-- what a write makes of the pair -/
def bridgeWrite (w : Nat × Level) (p : Level × Level) : Level × Level :=
  if w.1 = in1 then (w.2, p.2) else if w.1 = in2 then (p.1, w.2) else p

def bridgeEach : List (Nat × Level) → Level × Level → List (Level × Level)
  | [], _ => []
  | w :: l, p => bridgeWrite w p :: bridgeEach l (bridgeWrite w p)

theorem Gpio.bridges_write {g : Gpio} {p : Level × Level} (h : g.bridges p) (w : Nat × Level) :
    (hc32PinWrite w.1 w.2 g).bridges (bridgeWrite w p) := by
  have n1 : g.driven in1 ≠ none := by rw [h.1]; nofun
  have n2 : g.driven in2 ≠ none := by rw [h.2]; nofun
  obtain ⟨pin, v⟩ := w
  unfold bridgeWrite
  dsimp only
  split
  next h1 =>
    rw [h1]
    exact ⟨hc32PinWrite_driven_self g v (by decide) n1,
      (hc32PinWrite_driven_of_ne g v (by decide)).trans h.2⟩
  split
  next h2 =>
    rw [h2]
    exact ⟨(hc32PinWrite_driven_of_ne g v (by decide)).trans h.1,
      hc32PinWrite_driven_self g v (by decide) n2⟩
  next h1 h2 =>
    exact ⟨(hc32PinWrite_driven_of_ne g v (Ne.symm h1)).trans h.1,
      (hc32PinWrite_driven_of_ne g v (Ne.symm h2)).trans h.2⟩

theorem Gpio.writeEach_bridges {g : Gpio} {p : Level × Level} (h : g.bridges p)
    (l : List (Nat × Level)) :
    List.Forall₂ Gpio.bridges (g.writeEach l) (bridgeEach l p) := by
  induction l generalizing g p with
  | nil => exact .nil
  | cons w l ih =>
    have hw := Gpio.bridges_write h w
    exact .cons hw (ih hw)

theorem Gpio.writeEach_documented {g : Gpio} {p : Level × Level} (h : g.bridges p)
    {l : List (Nat × Level)} (hl : ∀ q ∈ bridgeEach l p, q ∈ motorTable) :
    ∀ g' ∈ g.writeEach l, g'.documented := by
  intro g' hg
  obtain ⟨i, hi, rfl⟩ := List.getElem_of_mem hg
  have hf := Gpio.writeEach_bridges h l
  have hi' : i < (bridgeEach l p).length := hf.length_eq ▸ hi
  exact ⟨_, hl _ (List.getElem_mem hi'), hf.get hi hi'⟩

/-! ## operations -/

/-- **all operations but one** -/
theorem Act.pairs_documented {a : Act} {d : Motor}
    (h : a = .motorReverseStart → d ≠ .forward) :
    ∀ q ∈ bridgeEach a.writes d.levels, q ∈ motorTable := by
  cases a with
  | motorReverseStart =>
    cases d with
    | forward => exact absurd rfl (h rfl)
    | _ => decide
  | motorForwardStart => cases d <;> decide
  | motorStop => cases d <;> decide
  | onFault c =>
    have hw : (Act.onFault c).writes = logicFaultHandler := rfl
    rw [hw]
    cases d <;> decide
  | _ => exact fun q hq => absurd hq List.not_mem_nil

/-- the log starts the motor in reverse -/
def reversesIn (l : List Out) : Prop := ∃ o ∈ l, o.act = .motorReverseStart

/-- a log without a reverse start -/
theorem Gpio.replayEach_documented {g : Gpio} {d : Motor} (h : g.drives d) {l : List Out}
    (hl : ¬ reversesIn l) : ∀ g' ∈ g.replayEach l, g'.documented := by
  induction l with
  | nil => exact fun g' hg => absurd hg List.not_mem_nil
  | cons o l ih =>
    intro g' hg
    rcases List.mem_append.mp hg with hg | hg
    · exact ih (fun ⟨o', ho', ha⟩ => hl ⟨o', List.mem_cons_of_mem o ho', ha⟩) g' hg
    · refine Gpio.writeEach_documented (Gpio.drives_replay h l) (Act.pairs_documented ?_) g' hg
      exact fun ha => absurd ⟨o, List.mem_cons_self, ha⟩ hl

theorem Gpio.replayEach_suffix (g : Gpio) {l l' : List Out} (h : l <:+ l') :
    ∀ g' ∈ g.replayEach l, g' ∈ g.replayEach l' := by
  obtain ⟨pre, rfl⟩ := h
  induction pre with
  | nil => exact fun g' hg => hg
  | cons o pre ih => exact fun g' hg => List.mem_append_left _ (ih g' hg)

/-! ## the call that turns the direction -/

/-- the leg to POS3 is begun with a reverse start -/
theorem dispatch_pos2Reached_out (now : Tick) {m : Fsm} (hst : m.ctx.state = .cleaning)
    (hph : m.ctx.cleanPhase = .toPos2) (ha : m.ctx.armed) :
    ∃ e r p : Out, e.act = .evt .pos2Reached .cleaning ∧ r.act = .motorReverseStart ∧
      (litterFsmDispatch now .pos2Reached m).out = p :: r :: e :: m.out := by
  let m1 : Fsm := (m.set { m.ctx with lastEventTick := now }).emit (.evt .pos2Reached m.ctx.state)
  have hs1 : m1.ctx.state = .cleaning := hst
  have hp1 : m1.ctx.cleanPhase = .toPos2 := hph
  have hd : litterFsmDispatch now .pos2Reached m = fsmStartCleanPhase now .toPos3 m1 := by
    show dispatchState (fun m => dispatchWith id now .cleanDone (fsmMotorStop m)) now .pos2Reached
      m1 = _
    unfold dispatchState
    rw [hs1]
    dsimp only
    rw [if_neg (by decide), if_neg (by decide), if_pos ⟨rfl, hp1⟩]
  have hop : m1.ctx.hasOp Leg.toPos3.op = true := armed_hasOp ha rfl
  have hout := fsmStartCleanPhase_out now .toPos3 m1
  dsimp only at hout
  rw [if_pos hop] at hout
  refine ⟨_, _, _, ?_, rfl, (congrArg Fsm.out hd).trans hout⟩
  show Act.evt _ m.ctx.state = _
  rw [hst]

/-- the call begins the leg to POS3: it finds the leg to POS2 under way, or begins it, and the
hall sensors show POS2 -/
def turnsBack (i : Inputs) (s : Logic) : Prop :=
  logicIsOccupied i = false ∧ logicIsBinFull i = false ∧ s.gResetRequest = false ∧
    (logicHallPoll i s.gHallState).2.1 = .pos2Dump ∧
    (s.fsm.ctx.state = .cleaning ∧ s.fsm.ctx.cleanPhase = .toPos2 ∨
      (s.fsm.ctx.state = .idle ∨ s.fsm.ctx.state = .cleanDelay) ∧ s.gRemoteCleanRequest = true)

instance (i : Inputs) (s : Logic) : Decidable (turnsBack i s) := by
  unfold turnsBack
  infer_instance

/-- the leg to POS2 is under way at the hall stage -/
theorem Mode.reset_toPos2 (μ : Mode) (occ full clean reset : Bool) :
    ((((μ.seeFull full).seeOccupied occ).takeClean clean).takeReset reset occ full) =
        .cleaning .toPos2 ↔
      occ = false ∧ full = false ∧ reset = false ∧
        (μ = .cleaning .toPos2 ∨ (μ = .idle ∨ μ = .cleanDelay) ∧ clean = true) := by
  cases μ with
  | cleaning l =>
    cases l <;> cases occ <;> cases full <;> cases clean <;> cases reset <;> decide
  | _ => cases occ <;> cases full <;> cases clean <;> cases reset <;> decide

section turn

variable {i : Inputs} {s : Logic} {τ : Timed}

theorem turnsBack_iff (h : Good s τ) : turnsBack i s ↔
    (τ.reset (cue i s)).mode = .cleaning .toPos2 ∧ (cue i s).pos = .pos2Dump := by
  have hcl : s.fsm.ctx.state = .cleaning ∧ s.fsm.ctx.cleanPhase = .toPos2 ↔
      τ.mode = .cleaning .toPos2 := by
    rw [h.shows.state, h.shows.phase]
    cases τ.mode with
    | cleaning l => cases l <;> decide
    | _ => decide
  have hw : s.fsm.ctx.state = .idle ∨ s.fsm.ctx.state = .cleanDelay ↔
      τ.mode = .idle ∨ τ.mode = .cleanDelay := by
    rw [h.shows.state]
    cases τ.mode with
    | cleaning l => cases l <;> decide
    | _ => decide
  have hr : (τ.reset (cue i s)).mode = .cleaning .toPos2 ↔ _ :=
    Mode.reset_toPos2 τ.mode (cue i s).occ (cue i s).full (cue i s).clean (cue i s).reset
  unfold turnsBack
  rw [hcl, hw, hr]
  constructor
  · rintro ⟨h1, h2, h3, h4, h5⟩
    exact ⟨⟨h1, h2, h3, h5⟩, h4⟩
  · rintro ⟨⟨h1, h2, h3, h5⟩, h4⟩
    exact ⟨h1, h2, h3, h4, h5⟩

/-- a stage that does not begin the leg to POS3 -/
theorem Logged.not_reversesIn {armed : Prop} {μ μ' : Mode} {l l' : List Out}
    (h : Logged armed μ μ' l l') (hμ : μ' = .cleaning .toPos3 → μ = .cleaning .toPos3)
    (hl : ¬ reversesIn l) : ¬ reversesIn l' := by
  rintro ⟨o, ho, ha⟩
  rcases h.given o ho with hold | hnew
  · exact hl ⟨o, hold, ha⟩
  · rcases hnew .reverse (by rw [ha]; rfl) with e | ⟨hne, e⟩
    · cases e
    · have hμ' : μ' = .cleaning .toPos3 := by
        cases μ' with
        | cleaning l => cases l <;> first | rfl | cases e
        | _ => cases e
      exact hne ((hμ hμ').trans hμ'.symm)

/-- up to the hall stage no reverse start is given -/
theorem reset_not_reversesIn (h : Good s τ) (ho : s.fsm.out = []) :
    ¬ reversesIn (runningReset i s).fsm.out := by
  have h0 : ¬ reversesIn (runningSync i s).fsm.out := by
    rintro ⟨o, hmem, -⟩
    rw [show (runningSync i s).fsm.out = [] from ho] at hmem
    exact absurd hmem List.not_mem_nil
  have h1 := (binFull_stage (i := i) h).log.not_reversesIn Mode.seeFull_cleaning h0
  have h2 := (occupancy_stage (i := i) h).log.not_reversesIn Mode.seeOccupied_cleaning h1
  have h3 := (clean_stage (i := i) h).log.not_reversesIn (fun e =>
    (Mode.takeClean_cleaning e).resolve_right fun hn => by cases hn.1) h2
  exact (reset_stage (i := i) h).log.not_reversesIn Mode.takeReset_cleaning h3

/-- a call that does not turn the direction gives no reverse start -/
theorem call_not_reversesIn (h : Good s τ) (ho : s.fsm.out = []) (ht : ¬ turnsBack i s) :
    ¬ reversesIn (runningTick i s).fsm.out := by
  have h5 := (hall_stage (i := i) h).log.not_reversesIn (fun e => ?_) (reset_not_reversesIn h ho)
  · refine (tick_stage (i := i) h).log.not_reversesIn (fun e => ?_) h5
    exact (Mode.poll_begins e).resolve_right fun hn => by cases hn.1
  · refine (Mode.takeHall_cleaning e).resolve_right ?_
    rintro ⟨l, hl, hp, hn⟩
    cases l with
    | toPos2 => exact ht ((turnsBack_iff h).mpr ⟨hl, hp⟩)
    | toPos3 => cases hn
    | toPos1 => cases hn

theorem reset_lastMotor (h : Good s τ) (ho : s.fsm.out = []) :
    lastMotor τ.mode.drive (runningReset i s).fsm.out = (τ.reset (cue i s)).mode.drive := by
  have h1 := (binFull_stage (i := i) h).log.follows h.armed
  have h2 := (occupancy_stage (i := i) h).log.follows (binFull_amid h).armed
  have h3 := (clean_stage (i := i) h).log.follows (occupancy_amid h).armed
  have h4 := (reset_stage (i := i) h).log.follows (clean_amid h).armed
  refine (((h1.trans h2).trans h3).trans h4).motor τ.mode.drive ?_
  rw [show (runningSync i s).fsm.out = [] from ho]
  rfl

/-- the log of the hall stage that begins the leg to POS3 -/
theorem hall_out_reverses (h : Good s τ) (ht : turnsBack i s) :
    ∃ e r p : Out, e.act = .evt .pos2Reached .cleaning ∧ r.act = .motorReverseStart ∧
      (runningHall i s).fsm.out = p :: r :: e :: (runningReset i s).fsm.out := by
  obtain ⟨hl, hp⟩ := (turnsBack_iff h).mp ht
  have hp' : (cue i s).pos = Leg.toPos2.target := hp
  have hs := (reset_amid (i := i) h).shows
  have hst : (runningReset i s).fsm.ctx.state = .cleaning := by rw [hs.state, hl]; rfl
  have hph : (runningReset i s).fsm.ctx.cleanPhase = .toPos2 := by rw [hs.phase, hl]; rfl
  rw [runningHall_cleaning h hl, if_pos hp']
  exact dispatch_pos2Reached_out i.now hst hph (reset_amid (i := i) h).armed

/-- the call that turns the direction passes through (HIGH, HIGH) -/
theorem call_shorts (h : Good s τ) (ho : s.fsm.out = []) (ht : turnsBack i s) :
    ∃ p ∈ s.gpio.replayEach (runningTick i s).fsm.out, p.bridges (.high, .high) := by
  obtain ⟨e, r, p, he, hr, hout⟩ := hall_out_reverses h ht
  have hfwd : (s.gpio.replay (runningReset i s).fsm.out).drives .forward := by
    have hd := Gpio.drives_replay h.pins (runningReset i s).fsm.out
    rwa [reset_lastMotor h ho, ((turnsBack_iff h).mp ht).1] at hd
  have hevt : (s.gpio.replay (e :: (runningReset i s).fsm.out)).bridges (.low, .high) := by
    show ((s.gpio.replay (runningReset i s).fsm.out).writeAll e.act.writes).bridges _
    rw [he]
    exact hfwd
  refine ⟨_, Gpio.replayEach_suffix _ (litterFsmTick_extends i.now (runningHall i s).fsm) _ ?_,
    Gpio.bridges_write hevt (in1, .high)⟩
  rw [hout]
  refine List.mem_append_left _ (List.mem_append_right _ ?_)
  rw [hr]
  exact List.mem_cons_self

end turn

/-! ## runs -/

/-- after every single write of a motor operation, from `Sensor_Logic_Init` on, the motor pins show
a pair of the table -/
def bridgeDocumented (g : Gpio) (i0 : Inputs) (l : List Step) : Prop :=
  (∀ p ∈ (initPins g).replayEach (boot g i0).fsm.out, p.documented) ∧
  ∀ a x b, l = a ++ x :: b →
    ∀ p ∈ (run g i0 a).gpio.replayEach (run g i0 (a ++ [x])).fsm.out, p.documented

theorem boot_not_reversesIn (g : Gpio) (i0 : Inputs) : ¬ reversesIn (boot g i0).fsm.out := by
  have hout : (boot g i0).fsm.out = (bootFsm i0 (coldStart g).fsm).out := by
    unfold boot
    rw [sensorLogicInit_coldStart]
    rfl
  rw [hout]
  have h0 := Tracks.init (m := (coldStart g).fsm) i0.time
    (fun o ho => absurd ho List.not_mem_nil) .nil
  let m1 := litterFsmSyncInputs (logicIsOccupied i0) (logicIsBinFull i0) false
    (litterFsmInit i0.now (some gFsmOps) (coldStart g).fsm)
  have h1 : ∃ τ, Shows m1.ctx τ ∧ ¬ reversesIn m1.out := by
    refine ⟨_, h0.shows.frame _ _ _ _, ?_⟩
    obtain ⟨c1, c2, hi⟩ := litterFsmInit_out i0.now (coldStart g).fsm
    have hm : m1.out = [⟨.enter .idle, c1⟩, ⟨.motorStop, c2⟩] := hi
    rw [hm]
    rintro ⟨o, ho, ha⟩
    rcases List.mem_cons.mp ho with rfl | ho
    · cases ha
    · rw [List.mem_singleton.mp ho] at ha
      cases ha
  have step : ∀ {m : Fsm} (e : LitterFsmEvent) (c : Bool),
      (∀ (μ : Mode) f, μ.on e f = .cleaning .toPos3 → μ = .cleaning .toPos3) →
      (∃ τ, Shows m.ctx τ ∧ ¬ reversesIn m.out) →
      ∃ τ, Shows (if c = true then litterFsmDispatch i0.now e m else m).ctx τ ∧
        ¬ reversesIn (if c = true then litterFsmDispatch i0.now e m else m).out := by
    rintro m e c he ⟨τ, hs, hn⟩
    cases c with
    | true =>
      have g := litterFsmDispatch_goes (t := i0.time) e hs
      exact ⟨_, g.shows, g.log.not_reversesIn (he τ.mode _) hn⟩
    | false => exact ⟨τ, hs, hn⟩
  have h2 := step .occupiedOn (logicIsOccupied i0) (fun μ f e => by
    rw [Mode.on_occupiedOn] at e
    exact Mode.seeOccupied_cleaning e) h1
  obtain ⟨τ, -, h3⟩ := step .binFull (logicIsBinFull i0) (fun μ f e => by
    rw [Mode.on_binFull] at e
    exact Mode.seeFull_cleaning e) h2
  exact h3

theorem litterTimeout_not_reversesIn {s : Logic} {τ : Timed} (h : Good s τ) (t : Nat) :
    ¬ reversesIn (s.step (.litterTimeout t)).fsm.out := by
  have hnil : ¬ reversesIn s.fresh.fsm.out := fun ⟨o, ho, _⟩ => absurd ho List.not_mem_nil
  show ¬ reversesIn (LitterBox.litterTimeout (tick t) s.fresh).fsm.out
  unfold LitterBox.litterTimeout
  split
  · exact hnil
  · refine (litterFsmDispatch_goes (t := t) (m := s.fresh.fsm) .stallOrTimeout
      h.shows).log.not_reversesIn (fun e => ?_) hnil
    cases hm : τ.mode <;> rw [hm] at e <;> cases e

theorem step_documented {s : Logic} {τ : Timed} (h : Good s τ) (x : Step) :
    (∀ p ∈ s.gpio.replayEach (s.step x).fsm.out, p.documented) ↔
      ∀ i, x = .running i → ¬ turnsBack i s := by
  cases x with
  | running i =>
    have hout : (s.step (.running i)).fsm.out = (runningTick i s.fresh).fsm.out := by
      rw [step_running i h]
      rfl
    rw [hout]
    constructor
    · rintro hd j hj ht
      obtain rfl : i = j := Step.running.inj hj
      obtain ⟨p, hp, hb⟩ := call_shorts h.fresh rfl ht
      exact Gpio.not_documented hb (hd p hp)
    · intro ht
      exact Gpio.replayEach_documented h.pins
        (call_not_reversesIn h.fresh rfl (ht i rfl))
  | requestClean =>
    refine ⟨fun _ i e => ?_, fun _ p hp => ?_⟩
    · cases e
    · exact absurd hp List.not_mem_nil
  | requestReset =>
    refine ⟨fun _ i e => ?_, fun _ p hp => ?_⟩
    · cases e
    · exact absurd hp List.not_mem_nil
  | litterTimeout t =>
    refine ⟨fun _ i e => ?_, fun _ => ?_⟩
    · cases e
    · exact Gpio.replayEach_documented h.pins (litterTimeout_not_reversesIn h t)

/-- **The two inputs of the H-bridge.**  They show a pair of the table after every single write,
exactly if no call turns the direction from the leg to POS2 to the leg to POS3. -/
theorem bridge_documented (g : Gpio) (i0 : Inputs) (l : List Step) :
    bridgeDocumented g i0 l ↔ ∀ a i b, l = a ++ .running i :: b → ¬ turnsBack i (run g i0 a) := by
  constructor
  · rintro ⟨-, h⟩ a i b e
    refine (step_documented (run_good g i0 a) (.running i)).mp ?_ i rfl
    rw [← run_snoc]
    exact h a _ b e
  · intro h
    refine ⟨?_, fun a x b e => ?_⟩
    · exact Gpio.replayEach_documented (initPins_drives g) (boot_not_reversesIn g i0)
    · rw [run_snoc]
      refine (step_documented (run_good g i0 a) x).mpr fun i hx => h a i b ?_
      rw [e, hx]

/-- a cleaning on request that reaches POS2 -/
def cleaningToPos2 : List Step :=
  cleaningOnRequest ++ [.running { calmAt 20 with pos2 := .low },
    .running { calmAt 30 with pos2 := .low }, .running { calmAt 40 with pos2 := .low }]

/-- between the two writes of the reverse start both inputs are HIGH -/
theorem cleaningToPos2_shorts :
    (∃ p ∈ (run lowPins (calmAt 0) (cleaningToPos2.take 4)).gpio.replayEach
      (run lowPins (calmAt 0) cleaningToPos2).fsm.out, p.bridges (.high, .high)) ∧
    ¬ bridgeDocumented lowPins (calmAt 0) cleaningToPos2 := by
  have hs : ∃ p ∈ (run lowPins (calmAt 0) (cleaningToPos2.take 4)).gpio.replayEach
      (run lowPins (calmAt 0) cleaningToPos2).fsm.out, p.bridges (.high, .high) := by
    decide
  refine ⟨hs, fun h => ?_⟩
  obtain ⟨p, hp, hb⟩ := hs
  exact Gpio.not_documented hb (h.2 (cleaningToPos2.take 4) _ [] rfl p hp)

end LitterBox
