import LitterBox.Fsm.Log

/-!
# Entering a state

* `Shows c τ`           the context `c` is in the timed mode `τ`, with every field as that mode has
                        it;
* `Goes t f m m' τ μ'`  a piece of code run at the time `t` took `m`, which showed `τ`, to `m'`,
                        which shows `μ'` and has the flags `f`; the ops table is as before and the
                        log was kept (`Logged`);
* `Ready m0 m μ`        what a function of `fsm.c` does before it enters a state.

`fsmEnterState_goes` is the specification of `fsm_enter_state`, on which every other function of
`fsm.c` rests.
-/

set_option linter.unusedSimpArgs false

namespace LitterBox

/-! ## contexts and modes -/

/-- the time limits are those of `litter_fsm_init` -/
structure Configured (c : LitterFsmCtx) : Prop where
  leaveConfirm : c.leaveConfirmMs = 2000
  cleanDelay : c.cleanDelayMs = 5000
  toPos2 : c.timeoutToPos2Ms = 6000
  toPos3 : c.timeoutToPos3Ms = 5000
  toPos1 : c.timeoutToPos1Ms = 6000
  total : c.cleanTotalTimeoutMs = 20000

/-- **representation invariant**: the context is in the timed mode `τ` -/
structure Shows (c : LitterFsmCtx) (τ : Timed) : Prop where
  state : c.state = τ.mode.state
  phase : c.cleanPhase = τ.mode.phase
  fault : c.faultCode = τ.mode.fault
  active : c.cleaningActive = decide (τ.mode.state = .cleaning)
  entered : c.stateEnterTick = tick τ.since
  deadline : c.deadlineTick = τ.mode.deadline (tick τ.since)
  started : τ.mode.state = .cleaning → c.cleanStartedTick = tick τ.since
  leg : τ.mode.state = .cleaning → c.phaseStartedTick = tick τ.legSince
  config : Configured c

/-- the context shows at most one mode -/
theorem Shows.mode_unique {c : LitterFsmCtx} {τ τ' : Timed} (h : Shows c τ) (h' : Shows c τ') :
    τ.mode = τ'.mode :=
  Mode.ext_of (h.state.symm.trans h'.state) (h.phase.symm.trans h'.phase)
    (h.fault.symm.trans h'.fault)

/-- what `Shows` does not read -/
theorem Shows.frame {c : LitterFsmCtx} {τ : Timed} (h : Shows c τ) (e : Tick) (o b p : Bool) :
    Shows { c with lastEventTick := e, occupied := o, binFull := b, protectActive := p } τ where
  state := h.state
  phase := h.phase
  fault := h.fault
  active := h.active
  entered := h.entered
  deadline := h.deadline
  started := h.started
  leg := h.leg
  config := ⟨h.config.1, h.config.2, h.config.3, h.config.4, h.config.5, h.config.6⟩

structure Goes (t : Nat) (f : Flags) (m m' : Fsm) (τ : Timed) (μ' : Mode) : Prop where
  shows : Shows m'.ctx (τ.goto t μ')
  flags : m'.ctx.flags = f
  ops : m'.ctx.ops = m.ctx.ops
  log : Logged m.ctx.armed τ.mode μ' m.out m'.out

/-- `m` is `m0` with quiet lines logged and the fault code possibly set: what a function of
`fsm.c` does before it enters a state -/
structure Ready (m0 m : Fsm) (μ : Mode) : Prop where
  ctx : m.ctx = { m0.ctx with faultCode := m.ctx.faultCode }
  log : Logged m0.ctx.armed μ μ m0.out m.out

theorem Ready.refl (m : Fsm) (μ : Mode) : Ready m m μ := ⟨rfl, Logged.refl _ _ _⟩

theorem Ready.emit {m0 m : Fsm} {μ : Mode} (h : Ready m0 m μ) {a : Act} (ha : a.quiet) :
    Ready m0 (m.emit a) μ :=
  ⟨h.ctx, h.log.trans (Logged.quiet ha _ _)⟩

theorem Ready.setFault {m0 m : Fsm} {μ : Mode} (h : Ready m0 m μ) (f : LitterFsmFault) :
    Ready m0 (m.set { m.ctx with faultCode := f }) μ := by
  refine ⟨?_, h.log⟩
  show { m.ctx with faultCode := f } = { m0.ctx with faultCode := f }
  rw [h.ctx]

theorem quiet_say (s : String) : (Act.say s).quiet := ⟨rfl, rfl, rfl⟩
theorem quiet_report (s : String) (f : LitterFsmFault) : (Act.report s f).quiet := ⟨rfl, rfl, rfl⟩
theorem quiet_recover (s : String) (f : LitterFsmFault) (x : LitterFsmState) :
    (Act.recover s f x).quiet := ⟨rfl, rfl, rfl⟩
theorem quiet_evt (e : LitterFsmEvent) (x : LitterFsmState) : (Act.evt e x).quiet := ⟨rfl, rfl, rfl⟩
theorem quiet_onFault (f : LitterFsmFault) : (Act.onFault f).quiet := ⟨rfl, rfl, rfl⟩
theorem quiet_enter (x : LitterFsmState) : (Act.enter x).quiet := ⟨rfl, rfl, rfl⟩

/-- code that stayed in its mode -/
theorem Ready.goes {t : Nat} {m0 m : Fsm} {τ : Timed} (hs : Shows m0.ctx τ)
    (h : Ready m0 m τ.mode) (hf : m.ctx.faultCode = τ.mode.fault) :
    Goes t m0.ctx.flags m0 m τ τ.mode := by
  have hc : m.ctx = m0.ctx := by rw [h.ctx, hf, ← hs.fault]
  refine ⟨?_, ?_, ?_, h.log⟩
  · rw [hc, Timed.goto_self]; exact hs
  · rw [hc]
  · rw [hc]

/-! ## the millisecond table -/

theorem ticks_leaveConfirm : rtTickFromMillisecond 2000 = 2000 := by decide
theorem ticks_cleanDelay : rtTickFromMillisecond 5000 = 5000 := by decide
theorem ticks_toPos : rtTickFromMillisecond 6000 = 6000 := by decide
theorem ticks_total : rtTickFromMillisecond 20000 = 20000 := by decide

/-! ## entering a state -/

theorem fsmMotorStop_ctx (m : Fsm) : (fsmMotorStop m).ctx = m.ctx := by
  unfold fsmMotorStop
  split <;> rfl

theorem fsmStartCleanPhase_ctx (now : Tick) (p : LitterCleanPhase) (m : Fsm) :
    (fsmStartCleanPhase now p m).ctx
      = { m.ctx with cleanPhase := p, phaseStartedTick := now } := by
  unfold fsmStartCleanPhase
  cases p
  case none => exact fsmMotorStop_ctx _
  all_goals
    dsimp only
    split <;> rfl

theorem enterReport_ctx (next : LitterFsmState) (m : Fsm) : (enterReport next m).ctx = m.ctx := by
  unfold enterReport
  dsimp only
  split
  · rfl
  · split <;> rfl

/-- the context after `fsm_enter_state` from another state -/
def enteredCtx (now : Tick) (next : LitterFsmState) (c : LitterFsmCtx) : LitterFsmCtx :=
  let c := { c with
    state := next, stateEnterTick := now, lastEventTick := now, deadlineTick := 0 }
  match next with
  | .idle => { c with cleanPhase := .none, cleaningActive := false, faultCode := .none }
  | .occupied => { c with cleanPhase := .none, cleaningActive := false, faultCode := .none }
  | .leaveConfirm => { c with
      cleanPhase := .none, cleaningActive := false, faultCode := .none
      deadlineTick := now + rtTickFromMillisecond c.leaveConfirmMs }
  | .cleanDelay => { c with
      cleanPhase := .none, cleaningActive := false, faultCode := .none
      deadlineTick := now + rtTickFromMillisecond c.cleanDelayMs }
  | .cleaning => { c with
      cleaningActive := true, faultCode := .none, cleanStartedTick := now
      cleanPhase := .toPos2, phaseStartedTick := now }
  | .safeStop => { c with cleanPhase := .none, cleaningActive := false }
  | .fault => { c with cleanPhase := .none, cleaningActive := false }

theorem fsmEnterState_ctx (now : Tick) (next : LitterFsmState) (m : Fsm)
    (h : m.ctx.state ≠ next) :
    (fsmEnterState now next m).ctx = enteredCtx now next m.ctx := by
  unfold fsmEnterState
  rw [if_neg h]
  dsimp only
  rw [enterReport_ctx]
  cases next
  case cleaning =>
    show (fsmStartCleanPhase _ _ _).ctx = _
    rw [fsmStartCleanPhase_ctx]
    rfl
  case fault =>
    unfold enterActions
    dsimp only
    split <;> simp only [Fsm.emit, fsmMotorStop_ctx] <;> rfl
  all_goals
    show (fsmMotorStop _).ctx = _
    rw [fsmMotorStop_ctx]
    rfl

theorem enteredCtx_shows {t : Nat} {c : LitterFsmCtx} {τ : Timed} {μ' : Mode}
    (hc : Configured c) (hne : μ'.state ≠ τ.mode.state)
    (hf : μ'.state = .safeStop ∨ μ'.state = .fault → c.faultCode = μ'.fault)
    (hl : ∀ l, μ' = .cleaning l → l = .toPos2) :
    Shows (enteredCtx (tick t) μ'.state c) (τ.goto t μ') := by
  have hm : μ' ≠ τ.mode := fun e => hne (by rw [e])
  have hsince : (τ.goto t μ').since = t := Timed.goto_since_of_ne hne
  have hleg : (τ.goto t μ').legSince = t := Timed.goto_legSince_of_ne hm
  obtain ⟨c1, c2, c3, c4, c5, c6⟩ := hc
  cases μ' with
  | cleaning l =>
    obtain rfl := hl l rfl
    exact ⟨rfl, rfl, rfl, rfl, by rw [hsince]; rfl, rfl, fun _ => by rw [hsince]; rfl,
      fun _ => by rw [hleg]; rfl, ⟨c1, c2, c3, c4, c5, c6⟩⟩
  | leaveConfirm =>
    refine ⟨rfl, rfl, rfl, rfl, by rw [hsince]; rfl, ?_, nofun, nofun, ⟨c1, c2, c3, c4, c5, c6⟩⟩
    show tick t + rtTickFromMillisecond c.leaveConfirmMs = _
    rw [c1, ticks_leaveConfirm, hsince]
    rfl
  | cleanDelay =>
    refine ⟨rfl, rfl, rfl, rfl, by rw [hsince]; rfl, ?_, nofun, nofun, ⟨c1, c2, c3, c4, c5, c6⟩⟩
    show tick t + rtTickFromMillisecond c.cleanDelayMs = _
    rw [c2, ticks_cleanDelay, hsince]
    rfl
  | idle =>
    exact ⟨rfl, rfl, rfl, rfl, by rw [hsince]; rfl, rfl, nofun, nofun, ⟨c1, c2, c3, c4, c5, c6⟩⟩
  | occupied =>
    exact ⟨rfl, rfl, rfl, rfl, by rw [hsince]; rfl, rfl, nofun, nofun, ⟨c1, c2, c3, c4, c5, c6⟩⟩
  | safeStop =>
    exact ⟨rfl, rfl, hf (Or.inl rfl), rfl, by rw [hsince]; rfl, rfl, nofun, nofun,
      ⟨c1, c2, c3, c4, c5, c6⟩⟩
  | binFull =>
    exact ⟨rfl, rfl, hf (Or.inr rfl), rfl, by rw [hsince]; rfl, rfl, nofun, nofun,
      ⟨c1, c2, c3, c4, c5, c6⟩⟩
  | cleanTimeout =>
    exact ⟨rfl, rfl, hf (Or.inr rfl), rfl, by rw [hsince]; rfl, rfl, nofun, nofun,
      ⟨c1, c2, c3, c4, c5, c6⟩⟩

/-! ## the log of entering a state -/

theorem armed_hasOp {c : LitterFsmCtx} (h : c.armed) {sel : LitterFsmOps → Bool}
    (hsel : sel ⟨true, true, true, true⟩ = true) : c.hasOp sel = true := by
  unfold LitterFsmCtx.hasOp
  rw [h]
  exact hsel

theorem Mode.legHop_of_ne {μ μ' : Mode} (h : μ'.state ≠ .cleaning) : μ.legHop μ' = [] := by
  cases μ' with
  | cleaning l => exact absurd rfl h
  | _ => rfl

theorem Mode.ne_cleaning_of_stop {μ : Mode} (h : μ.drive = .stop) : μ.state ≠ .cleaning := by
  intro e
  cases μ with
  | cleaning l => cases l <;> cases h
  | _ => cases e

/-- a state other than CLEANING is entered with a stop -/
theorem fsmMotorStop_logged {μ μ' : Mode} (hne : μ.state ≠ μ'.state) (hd : μ'.drive = .stop)
    {m : Fsm} {c : LitterFsmCtx} {l : List Out}
    (hl : m.out = ⟨.move μ.state μ'.state, c⟩ :: l) :
    Logged m.ctx.armed μ μ' l (fsmMotorStop m).out := by
  have hcl := Mode.ne_cleaning_of_stop hd
  have hb : ¬ (⟨.move μ.state μ'.state, c⟩ : Out).begins := by
    rintro ⟨a, ha⟩
    exact hcl (Act.move.inj ha).2
  have hm : (⟨.move μ.state μ'.state, c⟩ : Out).startOk := startOk_quiet rfl
  unfold fsmMotorStop
  by_cases ho : m.ctx.hasOp (·.motorStop) = true
  · rw [if_pos ho]
    show Logged _ _ _ _ (_ :: m.out)
    rw [hl]
    refine ⟨?_, ?_, fun _ _ _ => hd.symm, ?_, fun h => ?_, fun _ h => ?_⟩
    · rw [Mode.hop_of_ne hne]; rfl
    · rw [Mode.legHop_of_ne hcl]; rfl
    · exact given_cons (fun _ h => Or.inl (Option.some.inj h).symm)
        (given_quiet rfl fun _ h => Or.inl h)
    · exact startOk_cons (startOk_stop rfl) (startOk_cons hm h)
    · exact .cons (not_begins_of_moves rfl) (.cons hb h)
  · rw [if_neg ho, hl]
    have hna : ¬ m.ctx.armed := fun ha => ho (armed_hasOp ha rfl)
    refine ⟨?_, ?_, fun ha => absurd ha hna, ?_, startOk_cons hm, fun ha => absurd ha hna⟩
    · rw [Mode.hop_of_ne hne]; rfl
    · rw [Mode.legHop_of_ne hcl]; rfl
    · exact given_quiet rfl fun _ h => Or.inl h

/-- the call of the ops table that drives towards the end of a leg -/
def Leg.act : Leg → Act
  | .toPos2 => .motorForwardStart
  | .toPos3 => .motorReverseStart
  | .toPos1 => .motorForwardStart

/-- the entry of the ops table that makes this call -/
def Leg.op : Leg → LitterFsmOps → Bool
  | .toPos2 => (·.motorForwardStart)
  | .toPos3 => (·.motorReverseStart)
  | .toPos1 => (·.motorForwardStart)

theorem Leg.act_motor (l : Leg) : l.act.motor = some l.drive := by
  cases l <;> rfl

theorem Leg.act_moves (l : Leg) : l.act.moves = [] := by
  cases l <;> rfl

theorem Leg.act_phases (l : Leg) : l.act.phases = [] := by
  cases l <;> rfl

/-- beginning a leg: the motor is driven, if the entry is there, and the leg is reported -/
theorem fsmStartCleanPhase_out (now : Tick) (leg : Leg) (m : Fsm) :
    (fsmStartCleanPhase now leg.phase m).out =
      let c := { m.ctx with cleanPhase := leg.phase, phaseStartedTick := now }
      ⟨.phase leg.phase, c⟩ :: (if m.ctx.hasOp leg.op then ⟨leg.act, c⟩ :: m.out else m.out) := by
  have push : ∀ (m' : Fsm) (a : Act) (b : Bool),
      (let x := if b = true then m'.emit a else m'
       x.emit (.phase x.ctx.cleanPhase)).out =
      ⟨.phase m'.ctx.cleanPhase, m'.ctx⟩ :: (if b = true then ⟨a, m'.ctx⟩ :: m'.out else m'.out) := by
    intro m' a b
    cases b <;> rfl
  cases leg
  · exact push (m.set { m.ctx with cleanPhase := .toPos2, phaseStartedTick := now }) _ _
  · exact push (m.set { m.ctx with cleanPhase := .toPos3, phaseStartedTick := now }) _ _
  · exact push (m.set { m.ctx with cleanPhase := .toPos1, phaseStartedTick := now }) _ _

/-- the first leg of a cleaning is begun right after CLEANING was entered -/
theorem fsmStartCleanPhase_logged_entry (now : Tick) {μ : Mode} (hne : μ.state ≠ .cleaning)
    {m : Fsm} {c : LitterFsmCtx} {l : List Out} (hs : m.ctx.state = .cleaning)
    (hf : m.ctx.flags.calm) (hl : m.out = ⟨.move μ.state .cleaning, c⟩ :: l) :
    Logged m.ctx.armed μ (.cleaning .toPos2) l (fsmStartCleanPhase now .toPos2 m).out := by
  have hhop : μ.hop (.cleaning .toPos2) = [(μ.state, .cleaning)] := Mode.hop_of_ne hne
  have hleg : μ.legHop (.cleaning .toPos2) = [.toPos2] := by
    refine Mode.legHop_leg fun e => hne ?_
    rw [e]; rfl
  have hnew : μ ≠ .cleaning .toPos2 := by
    intro e
    rw [e] at hne
    exact hne rfl
  have hmv : (⟨.move μ.state .cleaning, c⟩ : Out).startOk := startOk_quiet rfl
  have hph : ∀ c', (⟨.phase .toPos2, c'⟩ : Out).startOk := fun c' => startOk_quiet rfl
  have hout := fsmStartCleanPhase_out now .toPos2 m
  dsimp only [Leg.phase] at hout
  rw [hout, hl]
  by_cases ho : m.ctx.hasOp Leg.toPos2.op = true
  · rw [if_pos ho]
    refine ⟨?_, ?_, fun _ _ _ => rfl, ?_, fun h => ?_, fun _ h => ?_⟩
    · rw [hhop]; rfl
    · rw [hleg]; rfl
    · exact given_quiet rfl (given_cons (fun _ h => Or.inr ⟨hnew, (Option.some.inj h).symm⟩)
        (given_quiet rfl fun _ h => Or.inl h))
    · exact startOk_cons (hph _) (startOk_cons (fun _ => ⟨hs, fun _ => hf⟩) (startOk_cons hmv h))
    · exact .cons (not_begins_of_moves rfl) (.start ⟨rfl, hf⟩ h)
  · rw [if_neg ho]
    have hna : ¬ m.ctx.armed := fun ha => ho (armed_hasOp ha rfl)
    refine ⟨?_, ?_, fun ha => absurd ha hna, ?_, fun h => ?_, fun ha => absurd ha hna⟩
    · rw [hhop]; rfl
    · rw [hleg]; rfl
    · exact given_quiet rfl (given_quiet rfl fun _ h => Or.inl h)
    · exact startOk_cons (hph _) (startOk_cons hmv h)

/-- the next leg is begun while CLEANING -/
theorem fsmStartCleanPhase_logged (now : Tick) {leg leg' : Leg} (hne : leg ≠ leg')
    (h2 : leg' ≠ .toPos2) {m : Fsm} (hs : m.ctx.state = .cleaning) :
    Logged m.ctx.armed (.cleaning leg) (.cleaning leg') m.out
      (fsmStartCleanPhase now leg'.phase m).out := by
  have hleg : (Mode.cleaning leg).legHop (.cleaning leg') = [leg'.phase] :=
    if_neg fun e => hne (Mode.cleaning.inj e)
  have hp2 : leg'.phase ≠ .toPos2 := fun e => h2 (Leg.phase_inj (e.trans rfl))
  have hph : ∀ c', (⟨.phase leg'.phase, c'⟩ : Out).startOk :=
    fun c' => startOk_quiet rfl
  rw [fsmStartCleanPhase_out]
  dsimp only
  by_cases ho : m.ctx.hasOp leg'.op = true
  · rw [if_pos ho]
    refine ⟨?_, ?_, fun _ _ _ => ?_, ?_, fun h => ?_, fun _ h => ?_⟩
    · rw [moves_cons, moves_cons, Leg.act_moves]; rfl
    · rw [hleg, phases_cons, phases_cons, Leg.act_phases]; rfl
    · rw [lastMotor_cons, lastMotor_cons, Leg.act_motor]; rfl
    · refine given_quiet rfl (given_cons (fun x h => ?_) fun _ h => Or.inl h)
      rw [Leg.act_motor] at h
      exact Or.inr ⟨fun e => hne (Mode.cleaning.inj e), (Option.some.inj h).symm⟩
    · exact startOk_cons (hph _) (startOk_cons (fun _ => ⟨hs, fun e => absurd e hp2⟩) h)
    · exact .cons (not_begins_of_moves rfl) (.cons (not_begins_of_moves (Leg.act_moves _)) h)
  · rw [if_neg ho]
    have hna : ¬ m.ctx.armed := by
      intro ha
      exact ho (armed_hasOp ha (by cases leg' <;> rfl))
    refine ⟨?_, ?_, fun ha => absurd ha hna, ?_, fun h => ?_, fun ha => absurd ha hna⟩
    · rfl
    · rw [hleg]; rfl
    · exact given_quiet rfl fun _ h => Or.inl h
    · exact startOk_cons (hph _) h

theorem enterReport_logged {armed : Prop} {μ : Mode} (next : LitterFsmState) (m : Fsm) :
    Logged armed μ μ m.out (enterReport next m).out := by
  have he : Logged armed μ μ m.out (m.emit (.enter next)).out := Logged.quiet (quiet_enter _) _ _
  unfold enterReport
  dsimp only
  split
  · exact he.trans (Logged.quiet (quiet_report _ _) _ _)
  · split
    · exact he.trans (Logged.quiet (quiet_report _ _) _ _)
    · exact he

/-- the actions of a state extend the log in which the change to it is the newest line -/
theorem enterActions_logged (now : Tick) {armed : Prop} {μ μ' : Mode} (hne : μ.state ≠ μ'.state)
    (hl : ∀ l, μ' = .cleaning l → l = .toPos2) {m : Fsm} {c : LitterFsmCtx} {l : List Out}
    (ha : m.ctx.armed = armed) (hs : m.ctx.state = μ'.state)
    (hf : μ'.state = .cleaning → m.ctx.flags.calm)
    (ho : m.out = ⟨.move μ.state μ'.state, c⟩ :: l) :
    Logged armed μ μ' l (enterActions now μ'.state m).out := by
  rw [← ha]
  have stop : ∀ c', c'.armed = m.ctx.armed → μ'.drive = .stop →
      Logged m.ctx.armed μ μ' l (fsmMotorStop (m.set c')).out := by
    intro c' hc' hd
    rw [← hc']
    exact fsmMotorStop_logged (m := m.set c') hne hd ho
  cases μ' with
  | cleaning leg =>
    obtain rfl := hl leg rfl
    exact fsmStartCleanPhase_logged_entry (m := m.set { m.ctx with
      cleaningActive := true, faultCode := .none, cleanStartedTick := now }) now hne hs (hf rfl) ho
  | idle => exact stop _ rfl rfl
  | occupied => exact stop _ rfl rfl
  | leaveConfirm => exact stop _ rfl rfl
  | cleanDelay => exact stop _ rfl rfl
  | safeStop => exact stop _ rfl rfl
  | binFull =>
    have h := stop { m.ctx with cleanPhase := .none, cleaningActive := false } rfl rfl
    show Logged _ _ _ _ (enterActions now .fault m).out
    unfold enterActions
    dsimp only
    split
    · exact h.trans' (Logged.quiet (quiet_onFault _) _ _)
    · exact h
  | cleanTimeout =>
    have h := stop { m.ctx with cleanPhase := .none, cleaningActive := false } rfl rfl
    show Logged _ _ _ _ (enterActions now .fault m).out
    unfold enterActions
    dsimp only
    split
    · exact h.trans' (Logged.quiet (quiet_onFault _) _ _)
    · exact h

theorem enteredCtx_frame (now : Tick) (next : LitterFsmState) (c : LitterFsmCtx) :
    (enteredCtx now next c).flags = c.flags ∧ (enteredCtx now next c).ops = c.ops := by
  cases next <;> exact ⟨rfl, rfl⟩

theorem Ready.frame {m0 m : Fsm} {μ : Mode} (h : Ready m0 m μ) :
    m.ctx.state = m0.ctx.state ∧ m.ctx.flags = m0.ctx.flags ∧ m.ctx.ops = m0.ctx.ops ∧
      (Configured m0.ctx → Configured m.ctx) := by
  rw [h.ctx]
  exact ⟨rfl, rfl, rfl, fun ⟨c1, c2, c3, c4, c5, c6⟩ => ⟨c1, c2, c3, c4, c5, c6⟩⟩

/-- **`fsm_enter_state`** from another state -/
theorem fsmEnterState_goes {t : Nat} {τ : Timed} {m0 m : Fsm} (μ' : Mode) (hs : Shows m0.ctx τ)
    (hr : Ready m0 m τ.mode) (hne : μ'.state ≠ τ.mode.state)
    (hf : μ'.state = .safeStop ∨ μ'.state = .fault → m.ctx.faultCode = μ'.fault)
    (hl : ∀ l, μ' = .cleaning l → l = .toPos2 ∧ m0.ctx.flags.calm) :
    Goes t m0.ctx.flags m0 (fsmEnterState (tick t) μ'.state m) τ μ' := by
  obtain ⟨hst, hfl, hops, hcfg⟩ := hr.frame
  have hst' : m.ctx.state = τ.mode.state := hst.trans hs.state
  have hne' : m.ctx.state ≠ μ'.state := fun e => hne (e.symm.trans hst')
  have harm : m.ctx.armed = m0.ctx.armed := by unfold LitterFsmCtx.armed; rw [hops]
  have hctx := fsmEnterState_ctx (tick t) μ'.state m hne'
  obtain ⟨hf2, ho2⟩ := enteredCtx_frame (tick t) μ'.state m.ctx
  refine ⟨?_, ?_, ?_, hr.log.trans ?_⟩
  · rw [hctx]
    exact enteredCtx_shows (hcfg hs.config) hne hf fun l e => (hl l e).1
  · rw [hctx, hf2, hfl]
  · rw [hctx, ho2, hops]
  · unfold fsmEnterState
    rw [if_neg hne', ← harm]
    refine Logged.trans' ?_ (enterReport_logged _ _)
    refine enterActions_logged (c := m.ctx) (tick t) hne.symm (fun l e => (hl l e).1) ?_ ?_
      (fun e => ?_) ?_
    · rfl
    · rfl
    · show m.ctx.flags.calm
      rw [hfl]
      cases μ' with
      | cleaning l => exact (hl l rfl).2
      | _ => cases e
    · show _ :: m.out = _
      rw [hst']

/-- entering the state one is in does nothing -/
theorem fsmEnterState_stay {t : Nat} {τ : Timed} {m0 m : Fsm} {next : LitterFsmState}
    (hs : Shows m0.ctx τ) (hr : Ready m0 m τ.mode) (he : τ.mode.state = next)
    (hf : m.ctx.faultCode = τ.mode.fault) :
    Goes t m0.ctx.flags m0 (fsmEnterState (tick t) next m) τ τ.mode := by
  have hst : m.ctx.state = next := hr.frame.1.trans (hs.state.trans he)
  unfold fsmEnterState
  rw [if_pos hst]
  exact hr.goes hs hf

/-- to a mode that is neither a cleaning nor marked by a fault code -/
theorem fsmEnterState_plain {t : Nat} {τ : Timed} {m0 m : Fsm} (μ' : Mode) (hs : Shows m0.ctx τ)
    (hr : Ready m0 m τ.mode) (hne : μ'.state ≠ τ.mode.state) (hp : μ'.fault = .none)
    (hc : μ'.state ≠ .cleaning) :
    Goes t m0.ctx.flags m0 (fsmEnterState (tick t) μ'.state m) τ μ' := by
  refine fsmEnterState_goes μ' hs hr hne (fun h => ?_) (fun l e => ?_)
  · cases μ' with
    | safeStop => cases hp
    | binFull => cases hp
    | cleanTimeout => cases hp
    | _ => exact absurd h (by simp [Mode.state])
  · rw [e] at hc
    exact absurd rfl hc

end LitterBox
