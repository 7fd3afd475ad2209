import LitterBox.Fsm.Enter

/-!
# `fsm.c` computes the mode machine

One lemma for each function of `fsm.c` above `fsm_enter_state`, following its own case
distinctions; the last ones are the refinement:

* `litterFsmDispatch_goes`   dispatching `e` is `Mode.on e`;
* `litterFsmTick_goes`       a poll is `Mode.onTick`.
-/

namespace LitterBox

/-! ## the helpers of `litter_fsm_dispatch` -/

theorem restMode_cases (f : Flags) : restMode f = .idle ∨ restMode f = .occupied := by
  unfold restMode
  cases f.occupied
  · exact Or.inl rfl
  · exact Or.inr rfl

theorem fsmResolveIdleOrOccupied_eq (c : LitterFsmCtx) :
    fsmResolveIdleOrOccupied c = (restMode c.flags).state := by
  unfold fsmResolveIdleOrOccupied restMode LitterFsmCtx.flags
  cases c.occupied <;> rfl

/-- where the code rests, seen from a machine that may rest already -/
theorem fsmEnterState_rest {t : Nat} {τ : Timed} {m0 m : Fsm} (hs : Shows m0.ctx τ)
    (hr : Ready m0 m τ.mode) (hf : m.ctx.faultCode = τ.mode.fault) :
    Goes t m0.ctx.flags m0 (fsmEnterState (tick t) (fsmResolveIdleOrOccupied m.ctx) m) τ
      (restMode m0.ctx.flags) := by
  rw [fsmResolveIdleOrOccupied_eq, hr.frame.2.1]
  by_cases he : τ.mode.state = (restMode m0.ctx.flags).state
  · have hμ : τ.mode = restMode m0.ctx.flags := by
      rcases restMode_cases m0.ctx.flags with h | h <;> rw [h] at he ⊢ <;>
        cases hm : τ.mode <;> rw [hm] at he <;> first | rfl | cases he
    have h := fsmEnterState_stay (t := t) hs hr he hf
    rw [hμ] at h
    exact h
  · rcases restMode_cases m0.ctx.flags with h | h <;> rw [h] at he ⊢
    · exact fsmEnterState_plain .idle hs hr (Ne.symm he) rfl nofun
    · exact fsmEnterState_plain .occupied hs hr (Ne.symm he) rfl nofun

theorem fsmRecoverToState_goes {t : Nat} {τ : Timed} {m0 m : Fsm} (μ' : Mode)
    (hs : Shows m0.ctx τ) (hr : Ready m0 m τ.mode) (hne : μ'.state ≠ τ.mode.state)
    (hp : μ'.fault = .none) (hc : μ'.state ≠ .cleaning) (reason : String) :
    Goes t m0.ctx.flags m0 (fsmRecoverToState (tick t) μ'.state reason m) τ μ' :=
  fsmEnterState_plain μ' hs ((hr.emit (quiet_recover _ _ _)).setFault .none) hne hp hc

/-- another name for the mode of a machine that neither changed its state nor moved -/
theorem Logged.relabel {armed : Prop} {μ μ' : Mode} {l l' : List Out} (hs : μ.state = μ'.state)
    (hd : μ'.drive = .stop) (h : Logged armed μ μ l l') : Logged armed μ μ' l l' where
  moves_eq := by rw [h.moves_eq, Mode.hop_self, Mode.hop_of_eq hs]
  phases_eq := by
    rw [h.phases_eq, Mode.legHop_self, Mode.legHop_of_ne (Mode.ne_cleaning_of_stop hd)]
  motor := fun ha d hl => by
    have hμ : μ.drive = .stop := by
      cases μ with
      | cleaning l => exact absurd hs.symm (Mode.ne_cleaning_of_stop hd)
      | _ => rfl
    rw [hd, ← hμ]
    exact h.motor ha d fun _ => hl hs
  given := fun o ho => (h.given o ho).imp id fun h' x hx =>
    (h' x hx).imp id fun e => absurd rfl e.1
  starts := h.starts
  settled := h.settled

theorem Mode.of_fault {μ : Mode} (h : μ.state = .fault) :
    μ.drive = .stop ∧ μ.phase = .none ∧ ∀ enter, μ.deadline enter = 0 := by
  cases μ with
  | binFull => exact ⟨rfl, rfl, fun _ => rfl⟩
  | cleanTimeout => exact ⟨rfl, rfl, fun _ => rfl⟩
  | _ => cases h

/-- a new code for a machine in FAULT -/
theorem Shows.refault {c : LitterFsmCtx} {τ : Timed} {μ' : Mode} (t : Nat) (hs : Shows c τ)
    (hτ : τ.mode.state = .fault) (hμ : μ'.state = .fault) :
    Shows { c with faultCode := μ'.fault } (τ.goto t μ') := by
  have hsince : (τ.goto t μ').since = τ.since := Timed.goto_since (hμ.trans hτ.symm)
  obtain ⟨c1, c2, c3, c4, c5, c6⟩ := hs.config
  refine ⟨?_, ?_, rfl, ?_, ?_, ?_, fun h => ?_, fun h => ?_, ⟨c1, c2, c3, c4, c5, c6⟩⟩
  · exact hs.state.trans (hτ.trans hμ.symm)
  · exact hs.phase.trans ((Mode.of_fault hτ).2.1.trans (Mode.of_fault hμ).2.1.symm)
  · show c.cleaningActive = decide (μ'.state = .cleaning)
    rw [hs.active, hτ, hμ]
  · rw [hsince]
    exact hs.entered
  · exact hs.deadline.trans (((Mode.of_fault hτ).2.2 _).trans ((Mode.of_fault hμ).2.2 _).symm)
  · exact absurd (hμ.symm.trans h) nofun
  · exact absurd (hμ.symm.trans h) nofun

theorem Ready.refault {t : Nat} {m0 m : Fsm} {τ : Timed} {μ' : Mode} (hs : Shows m0.ctx τ)
    (hr : Ready m0 m τ.mode) (hτ : τ.mode.state = .fault) (hμ : μ'.state = .fault)
    (hf : m.ctx.faultCode = μ'.fault) : Goes t m0.ctx.flags m0 m τ μ' := by
  refine ⟨?_, hr.frame.2.1, hr.frame.2.2.1,
    hr.log.relabel (hτ.trans hμ.symm) (Mode.of_fault hμ).1⟩
  rw [hr.ctx, hf]
  exact hs.refault t hτ hμ

theorem Ready.stop {m0 m : Fsm} {μ : Mode} (hr : Ready m0 m μ) (hd : μ.drive = .stop) :
    Ready m0 (fsmMotorStop m) μ := by
  unfold fsmMotorStop
  split
  · exact ⟨hr.ctx, hr.log.trans (Logged.stop hd _ _)⟩
  · exact hr

/-- **`fsm_enter_fault`**, also from FAULT, where it overwrites the code -/
theorem fsmEnterFault_goes {t : Nat} {τ : Timed} {m0 m : Fsm} (μ' : Mode)
    (hs : Shows m0.ctx τ) (hr : Ready m0 m τ.mode) (hμ : μ'.state = .fault) :
    Goes t m0.ctx.flags m0 (fsmEnterFault (tick t) μ'.fault m) τ μ' := by
  have hset := hr.setFault μ'.fault
  have hst : m.ctx.state = τ.mode.state := hr.frame.1.trans hs.state
  unfold fsmEnterFault
  dsimp only
  split
  next he =>
    have hτ : τ.mode.state = .fault := hst.symm.trans he
    have hstop := hset.stop (Mode.of_fault hτ).1
    refine Ready.refault hs (Ready.emit ?_ (quiet_report _ _)) hτ hμ ?_
    · split
      · exact hstop.emit (quiet_onFault _)
      · exact hstop
    · have hc : (fsmMotorStop (m.set { m.ctx with faultCode := μ'.fault })).ctx.faultCode
          = μ'.fault := by
        rw [fsmMotorStop_ctx]
        rfl
      split <;> exact hc
  next he =>
    have hne : μ'.state ≠ τ.mode.state := fun e => he (hst.trans (e.symm.trans hμ))
    have h := fsmEnterState_goes (t := t) μ' hs hset hne (fun _ => rfl)
      (fun l e => by rw [e] at hμ; cases hμ)
    rw [hμ] at h
    exact h

theorem fsmBlockCleanRequest_goes {t : Nat} {τ : Timed} {m0 m : Fsm} (hs : Shows m0.ctx τ)
    (hr : Ready m0 m τ.mode) (hf : m.ctx.faultCode = τ.mode.fault) (reason : String) :
    Goes t m0.ctx.flags m0 (fsmBlockCleanRequest (tick t) reason m) τ (restMode m0.ctx.flags) :=
  fsmEnterState_rest hs (hr.emit (quiet_say _)) hf

theorem fsmBlockCleanForBinFull_goes {t : Nat} {τ : Timed} {m0 m : Fsm} (hs : Shows m0.ctx τ)
    (hr : Ready m0 m τ.mode) :
    Goes t m0.ctx.flags m0 (fsmBlockCleanForBinFull (tick t) m) τ .binFull :=
  fsmEnterFault_goes .binFull hs (hr.emit (quiet_say _)) rfl

/-- **`fsm_try_enter_cleaning`** -/
theorem fsmTryEnterCleaning_goes {t : Nat} {τ : Timed} {m : Fsm} (hs : Shows m.ctx τ)
    (hne : τ.mode.state ≠ .cleaning) :
    Goes t m.ctx.flags m (fsmTryEnterCleaning (tick t) m) τ (tryClean m.ctx.flags) := by
  have hr := Ready.refl m τ.mode
  have hrest := fun reason => fsmBlockCleanRequest_goes (t := t) hs hr hs.fault reason
  unfold restMode at hrest
  unfold fsmTryEnterCleaning tryClean
  by_cases ho : m.ctx.occupied = true
  · rw [if_pos ho, if_pos (show m.ctx.flags.occupied = true from ho)]
    have h := hrest "occupied"
    rw [if_pos (show m.ctx.flags.occupied = true from ho)] at h
    exact h
  rw [if_neg ho, if_neg (show ¬ m.ctx.flags.occupied = true from ho)]
  by_cases hb : m.ctx.binFull = true
  · rw [if_pos hb, if_pos (show m.ctx.flags.binFull = true from hb)]
    exact fsmBlockCleanForBinFull_goes hs hr
  rw [if_neg hb, if_neg (show ¬ m.ctx.flags.binFull = true from hb)]
  by_cases hp : m.ctx.protectActive = true
  · rw [if_pos hp, if_pos (show m.ctx.flags.protect = true from hp)]
    have h := hrest "protect active"
    rw [if_neg (show ¬ m.ctx.flags.occupied = true from ho)] at h
    exact h
  · rw [if_neg hp, if_neg (show ¬ m.ctx.flags.protect = true from hp)]
    have hcalm : m.ctx.flags.calm :=
      ⟨Bool.eq_false_iff.mpr ho, Bool.eq_false_iff.mpr hb, Bool.eq_false_iff.mpr hp⟩
    exact fsmEnterState_goes (.cleaning .toPos2) hs hr (Ne.symm hne) (by simp [Mode.state])
      fun l e => ⟨(Mode.cleaning.inj e).symm, hcalm⟩

theorem fsmStopCleaningForProtect_goes {t : Nat} {τ : Timed} {m : Fsm} (hs : Shows m.ctx τ)
    (hne : τ.mode.state ≠ .safeStop) :
    Goes t m.ctx.flags m (fsmStopCleaningForProtect (tick t) m) τ .safeStop := by
  have hr := ((Ready.refl m τ.mode).setFault .protectTrigger).emit
    (quiet_say "PROTECT stop -> SAFE_STOP")
  exact fsmEnterState_goes .safeStop hs hr (Ne.symm hne) (fun _ => rfl) nofun

/-- **`fsm_recover_from_safe_stop`** -/
theorem fsmRecoverFromSafeStop_goes {t : Nat} {τ : Timed} {m : Fsm} (hs : Shows m.ctx τ)
    (hμ : τ.mode = .safeStop) :
    Goes t m.ctx.flags m (fsmRecoverFromSafeStop (tick t) m) τ
      (Mode.on .protectRelease m.ctx.flags .safeStop) := by
  have hr := Ready.refl m τ.mode
  have hst : τ.mode.state = .safeStop := by rw [hμ]; rfl
  unfold fsmRecoverFromSafeStop Mode.on
  dsimp only
  by_cases hb : m.ctx.binFull = true
  · rw [if_pos hb, if_pos (show m.ctx.flags.binFull = true from hb)]
    exact fsmEnterFault_goes .binFull hs (hr.emit (quiet_say _)) rfl
  rw [if_neg hb, if_neg (show ¬ m.ctx.flags.binFull = true from hb)]
  by_cases ho : m.ctx.occupied = true
  · rw [if_pos ho, if_pos (show m.ctx.flags.occupied = true from ho)]
    exact fsmRecoverToState_goes .occupied hs hr (by rw [hst]; nofun) rfl nofun _
  · rw [if_neg ho, if_neg (show ¬ m.ctx.flags.occupied = true from ho)]
    exact fsmRecoverToState_goes .leaveConfirm hs hr (by rw [hst]; nofun) rfl nofun _

/-- recovery to where the code rests -/
theorem fsmRecoverToRest_goes {t : Nat} {τ : Timed} {m0 m : Fsm} (hs : Shows m0.ctx τ)
    (hr : Ready m0 m τ.mode) (hi : τ.mode.state ≠ .idle) (ho : τ.mode.state ≠ .occupied)
    (reason : String) :
    Goes t m0.ctx.flags m0
      (fsmRecoverToState (tick t) (fsmResolveIdleOrOccupied m.ctx) reason m) τ
      (restMode m0.ctx.flags) := by
  rw [fsmResolveIdleOrOccupied_eq, hr.frame.2.1]
  rcases restMode_cases m0.ctx.flags with h | h <;> rw [h]
  · exact fsmRecoverToState_goes .idle hs hr (Ne.symm hi) rfl nofun _
  · exact fsmRecoverToState_goes .occupied hs hr (Ne.symm ho) rfl nofun _

/-- **`fsm_handle_reset_recover`** -/
theorem fsmHandleResetRecover_goes {t : Nat} {τ : Timed} {m0 m : Fsm} (hs : Shows m0.ctx τ)
    (hr : Ready m0 m τ.mode) (hf : m.ctx.faultCode = τ.mode.fault)
    (hi : τ.mode.state ≠ .idle) (ho : τ.mode.state ≠ .occupied) :
    Goes t m0.ctx.flags m0 (fsmHandleResetRecover (tick t) m) τ
      (recoverMode m0.ctx.flags τ.mode) := by
  have hfl : m.ctx.flags = m0.ctx.flags := hr.frame.2.1
  unfold fsmHandleResetRecover recoverMode
  rw [← hfl]
  by_cases hp : m.ctx.protectActive = true
  · rw [if_pos hp, if_pos (show m.ctx.flags.protect = true from hp), hfl]
    exact (hr.emit (quiet_say _)).goes hs hf
  rw [if_neg hp, if_neg (show ¬ m.ctx.flags.protect = true from hp)]
  by_cases hb : m.ctx.binFull = true
  · rw [if_pos hb, if_pos (show m.ctx.flags.binFull = true from hb), hfl]
    exact (hr.emit (quiet_say _)).goes hs hf
  · rw [if_neg hb, if_neg (show ¬ m.ctx.flags.binFull = true from hb), hfl]
    exact fsmRecoverToRest_goes hs hr hi ho _

/-! ## `litter_fsm_dispatch`

One lemma for each branch of the `switch (ctx->state)`; the event has been noted in the flags. -/

theorem dispatch_idle {t : Nat} {s l : Nat} {m : Fsm} (finish : Fsm → Fsm) (e : LitterFsmEvent)
    (he : e ≠ .stallOrTimeout) (hs : Shows m.ctx ⟨.idle, s, l⟩) :
    Goes t m.ctx.flags m (dispatchState finish (tick t) e m) ⟨.idle, s, l⟩
      (Mode.on e m.ctx.flags .idle) := by
  have hr := Ready.refl m .idle
  unfold dispatchState
  rw [show m.ctx.state = .idle from hs.state]
  cases e with
  | occupiedOn => exact fsmEnterState_plain .occupied hs hr nofun rfl nofun
  | cleanStart => exact fsmTryEnterCleaning_goes hs nofun
  | binFull => exact fsmEnterFault_goes .binFull hs (hr.emit (quiet_say _)) rfl
  | stallOrTimeout => exact absurd rfl he
  | _ => exact hr.goes hs hs.fault

theorem dispatch_occupied {t : Nat} {s l : Nat} {m : Fsm} (finish : Fsm → Fsm)
    (e : LitterFsmEvent) (he : e ≠ .stallOrTimeout) (hs : Shows m.ctx ⟨.occupied, s, l⟩) :
    Goes t m.ctx.flags m (dispatchState finish (tick t) e m) ⟨.occupied, s, l⟩
      (Mode.on e m.ctx.flags .occupied) := by
  have hr := Ready.refl m .occupied
  unfold dispatchState
  rw [show m.ctx.state = .occupied from hs.state]
  cases e with
  | occupiedOff => exact fsmEnterState_plain .leaveConfirm hs hr nofun rfl nofun
  | cleanStart => exact fsmTryEnterCleaning_goes hs nofun
  | binFull => exact fsmEnterFault_goes .binFull hs (hr.emit (quiet_say _)) rfl
  | stallOrTimeout => exact absurd rfl he
  | _ => exact hr.goes hs hs.fault

theorem dispatch_leaveConfirm {t : Nat} {s l : Nat} {m : Fsm} (finish : Fsm → Fsm)
    (e : LitterFsmEvent) (he : e ≠ .stallOrTimeout) (hs : Shows m.ctx ⟨.leaveConfirm, s, l⟩) :
    Goes t m.ctx.flags m (dispatchState finish (tick t) e m) ⟨.leaveConfirm, s, l⟩
      (Mode.on e m.ctx.flags .leaveConfirm) := by
  have hr := Ready.refl m .leaveConfirm
  have habort := fsmEnterState_plain (t := t) .occupied hs
    (hr.emit (quiet_say "INTERLOCK abort prep: occupied")) nofun rfl nofun
  unfold dispatchState
  rw [show m.ctx.state = .leaveConfirm from hs.state]
  cases e with
  | occupiedOn => exact habort
  | delayTimeout =>
    show Goes t m.ctx.flags m (if m.ctx.binFull = true then _ else _) _
      (if m.ctx.flags.binFull = true then _ else _)
    by_cases hb : m.ctx.binFull = true
    · rw [if_pos hb, if_pos (show m.ctx.flags.binFull = true from hb)]
      exact fsmBlockCleanForBinFull_goes hs hr
    rw [if_neg hb, if_neg (show ¬ m.ctx.flags.binFull = true from hb)]
    by_cases hp : m.ctx.protectActive = true
    · rw [if_pos hp, if_pos (show m.ctx.flags.protect = true from hp)]
      exact fsmBlockCleanRequest_goes hs hr hs.fault _
    rw [if_neg hp, if_neg (show ¬ m.ctx.flags.protect = true from hp)]
    by_cases ho : m.ctx.occupied = true
    · rw [if_pos ho, if_pos (show m.ctx.flags.occupied = true from ho)]
      exact habort
    · rw [if_neg ho, if_neg (show ¬ m.ctx.flags.occupied = true from ho)]
      exact fsmEnterState_plain .cleanDelay hs hr nofun rfl nofun
  | reset => exact fsmHandleResetRecover_goes hs hr hs.fault nofun nofun
  | binFull => exact fsmBlockCleanForBinFull_goes hs hr
  | stallOrTimeout => exact absurd rfl he
  | _ => exact hr.goes hs hs.fault

theorem dispatch_cleanDelay {t : Nat} {s l : Nat} {m : Fsm} (finish : Fsm → Fsm)
    (e : LitterFsmEvent) (he : e ≠ .stallOrTimeout) (hs : Shows m.ctx ⟨.cleanDelay, s, l⟩) :
    Goes t m.ctx.flags m (dispatchState finish (tick t) e m) ⟨.cleanDelay, s, l⟩
      (Mode.on e m.ctx.flags .cleanDelay) := by
  have hr := Ready.refl m .cleanDelay
  unfold dispatchState
  rw [show m.ctx.state = .cleanDelay from hs.state]
  cases e with
  | occupiedOn => exact fsmEnterState_plain .occupied hs (hr.emit (quiet_say _)) nofun rfl nofun
  | delayTimeout => exact fsmTryEnterCleaning_goes hs nofun
  | cleanStart => exact fsmTryEnterCleaning_goes hs nofun
  | reset => exact fsmHandleResetRecover_goes hs hr hs.fault nofun nofun
  | binFull => exact fsmBlockCleanForBinFull_goes hs hr
  | stallOrTimeout => exact absurd rfl he
  | _ => exact hr.goes hs hs.fault

/-- the next leg of a cleaning -/
theorem fsmStartCleanPhase_goes {t s l : Nat} {leg : Leg} {m : Fsm}
    (hs : Shows m.ctx ⟨.cleaning leg, s, l⟩) (leg' : Leg) (hne : leg ≠ leg') (h2 : leg' ≠ .toPos2) :
    Goes t m.ctx.flags m (fsmStartCleanPhase (tick t) leg'.phase m) ⟨.cleaning leg, s, l⟩
      (.cleaning leg') := by
  have hleg : (Timed.goto t (.cleaning leg') ⟨.cleaning leg, s, l⟩).legSince = t :=
    Timed.goto_legSince_of_ne fun e => hne (Mode.cleaning.inj e).symm
  have hsince : (Timed.goto t (.cleaning leg') ⟨.cleaning leg, s, l⟩).since = s :=
    Timed.goto_since rfl
  obtain ⟨c1, c2, c3, c4, c5, c6⟩ := hs.config
  refine ⟨?_, ?_, ?_, fsmStartCleanPhase_logged (tick t) hne h2 hs.state⟩
  · rw [fsmStartCleanPhase_ctx]
    refine ⟨hs.state, rfl, hs.fault, hs.active, ?_, hs.deadline, fun _ => ?_, fun _ => ?_,
      ⟨c1, c2, c3, c4, c5, c6⟩⟩
    · rw [hsince]; exact hs.entered
    · rw [hsince]; exact hs.started rfl
    · rw [hleg]
  · rw [fsmStartCleanPhase_ctx]; rfl
  · rw [fsmStartCleanPhase_ctx]

theorem dispatch_cleaning {t s l : Nat} {leg : Leg} {m : Fsm} (finish : Fsm → Fsm)
    (e : LitterFsmEvent) (he : e ≠ .stallOrTimeout) (hs : Shows m.ctx ⟨.cleaning leg, s, l⟩)
    (hfin : e = .pos1Reached → leg = .toPos1 →
      Goes t m.ctx.flags m (finish m) ⟨.cleaning leg, s, l⟩ .idle) :
    Goes t m.ctx.flags m (dispatchState finish (tick t) e m) ⟨.cleaning leg, s, l⟩
      (Mode.on e m.ctx.flags (.cleaning leg)) := by
  have hr := Ready.refl m (.cleaning leg)
  have hph : m.ctx.cleanPhase = leg.phase := hs.phase
  have hss : LitterFsmState.cleaning ≠ .safeStop := by decide
  have hid : LitterFsmState.idle ≠ .cleaning := by decide
  unfold dispatchState
  rw [show m.ctx.state = .cleaning from hs.state]
  cases e with
  | occupiedOn => exact fsmStopCleaningForProtect_goes hs hss
  | protectTrigger => exact fsmStopCleaningForProtect_goes hs hss
  | binFull => exact fsmBlockCleanForBinFull_goes hs hr
  | pos2Reached =>
    cases leg with
    | toPos2 =>
      have g := fsmStartCleanPhase_goes (t := t) hs .toPos3 (by decide) (by decide)
      simpa [hph, Leg.phase, Mode.on] using g
    | toPos3 => simpa [hph, Leg.phase, Mode.on] using hr.goes hs hs.fault
    | toPos1 => simpa [hph, Leg.phase, Mode.on] using hr.goes hs hs.fault
  | pos3Reached =>
    cases leg with
    | toPos2 => simpa [hph, Leg.phase, Mode.on] using hr.goes hs hs.fault
    | toPos3 =>
      have g := fsmStartCleanPhase_goes (t := t) hs .toPos1 (by decide) (by decide)
      simpa [hph, Leg.phase, Mode.on] using g
    | toPos1 => simpa [hph, Leg.phase, Mode.on] using hr.goes hs hs.fault
  | pos1Reached =>
    cases leg with
    | toPos2 => simpa [hph, Leg.phase, Mode.on] using hr.goes hs hs.fault
    | toPos3 => simpa [hph, Leg.phase, Mode.on] using hr.goes hs hs.fault
    | toPos1 => simpa [hph, Leg.phase, Mode.on] using hfin rfl rfl
  | cleanDone => exact fsmEnterState_plain .idle hs hr hid rfl hid
  | reset => exact fsmEnterState_plain .idle hs hr hid rfl hid
  | stallOrTimeout => exact absurd rfl he
  | _ => exact hr.goes hs hs.fault

theorem dispatch_safeStop {t s l : Nat} {m : Fsm} (finish : Fsm → Fsm) (e : LitterFsmEvent)
    (he : e ≠ .stallOrTimeout) (hs : Shows m.ctx ⟨.safeStop, s, l⟩) :
    Goes t m.ctx.flags m (dispatchState finish (tick t) e m) ⟨.safeStop, s, l⟩
      (Mode.on e m.ctx.flags .safeStop) := by
  have hr := Ready.refl m .safeStop
  unfold dispatchState
  rw [show m.ctx.state = .safeStop from hs.state]
  cases e with
  | protectRelease => exact fsmRecoverFromSafeStop_goes hs rfl
  | binFull => exact (hr.emit (quiet_say _)).goes hs hs.fault
  | reset => exact fsmHandleResetRecover_goes hs hr hs.fault nofun nofun
  | stallOrTimeout => exact absurd rfl he
  | _ => exact hr.goes hs hs.fault

theorem dispatch_fault {t : Nat} {τ : Timed} {m : Fsm} (finish : Fsm → Fsm) (e : LitterFsmEvent)
    (he : e ≠ .stallOrTimeout) (hs : Shows m.ctx τ) (hμ : τ.mode.state = .fault) :
    Goes t m.ctx.flags m (dispatchState finish (tick t) e m) τ
      (τ.mode.on e m.ctx.flags) := by
  have hr := Ready.refl m τ.mode
  have hi : τ.mode.state ≠ .idle := by rw [hμ]; nofun
  have ho : τ.mode.state ≠ .occupied := by rw [hμ]; nofun
  have hon : e ≠ .reset → τ.mode.on e m.ctx.flags = τ.mode := by
    intro hne
    cases hm : τ.mode <;> rw [hm] at hμ <;> cases hμ <;> cases e <;>
      first | rfl | exact absurd rfl hne | exact absurd rfl he
  have hreset : τ.mode.on .reset m.ctx.flags = recoverMode m.ctx.flags τ.mode := by
    cases hm : τ.mode <;> rw [hm] at hμ <;> first | rfl | cases hμ
  unfold dispatchState
  rw [hs.state.trans hμ]
  cases e with
  | binFull =>
    rw [hon nofun]
    exact (hr.emit (quiet_say _)).goes hs hs.fault
  | reset =>
    rw [hreset]
    exact fsmHandleResetRecover_goes hs hr hs.fault hi ho
  | stallOrTimeout => exact absurd rfl he
  | _ =>
    rw [hon nofun]
    exact hr.goes hs hs.fault

theorem dispatchState_goes {t : Nat} {τ : Timed} {m : Fsm} (finish : Fsm → Fsm)
    (e : LitterFsmEvent) (he : e ≠ .stallOrTimeout) (hs : Shows m.ctx τ)
    (hfin : e = .pos1Reached → τ.mode = .cleaning .toPos1 →
      Goes t m.ctx.flags m (finish m) τ .idle) :
    Goes t m.ctx.flags m (dispatchState finish (tick t) e m) τ (τ.mode.on e m.ctx.flags) := by
  obtain ⟨μ, s, l⟩ := τ
  cases μ with
  | idle => exact dispatch_idle finish e he hs
  | occupied => exact dispatch_occupied finish e he hs
  | leaveConfirm => exact dispatch_leaveConfirm finish e he hs
  | cleanDelay => exact dispatch_cleanDelay finish e he hs
  | cleaning leg => exact dispatch_cleaning finish e he hs fun h1 h2 => hfin h1 (by rw [h2])
  | safeStop => exact dispatch_safeStop finish e he hs
  | binFull => exact dispatch_fault finish e he hs rfl
  | cleanTimeout => exact dispatch_fault finish e he hs rfl

/-- the machine once `litter_fsm_dispatch` has logged the event and noted it in the flags -/
def noted (now : Tick) (e : LitterFsmEvent) (f : Flags) (m : Fsm) : Fsm where
  ctx := { m.ctx with
    lastEventTick := now, occupied := f.occupied, binFull := f.binFull, protectActive := f.protect }
  out := ⟨.evt e m.ctx.state, { m.ctx with lastEventTick := now }⟩ :: m.out

theorem noted_shows {m : Fsm} {τ : Timed} (now : Tick) (e : LitterFsmEvent) (f : Flags)
    (hs : Shows m.ctx τ) : Shows (noted now e f m).ctx τ :=
  hs.frame now f.occupied f.binFull f.protect

theorem Goes.noted {t : Nat} {now : Tick} {e : LitterFsmEvent} {f0 f : Flags} {m m' : Fsm}
    {τ : Timed} {μ' : Mode} (h : Goes t f (noted now e f0 m) m' τ μ') : Goes t f m m' τ μ' :=
  ⟨h.shows, h.flags, h.ops, (Logged.quiet (quiet_evt _ _) _ _).trans h.log⟩

theorem Mode.on_none (f : Flags) (μ : Mode) : μ.on .none f = μ := by
  cases μ <;> rfl

theorem dispatchWith_goes {t : Nat} {τ : Timed} {m : Fsm} (finish : Fsm → Fsm)
    (e : LitterFsmEvent) (hs : Shows m.ctx τ)
    (hfin : e = .pos1Reached → τ.mode = .cleaning .toPos1 → ∀ m1 : Fsm, Shows m1.ctx τ →
      Goes t m1.ctx.flags m1 (finish m1) τ .idle) :
    Goes t (m.ctx.flags.note e) m (dispatchWith finish (tick t) e m) τ
      (τ.mode.on e (m.ctx.flags.note e)) := by
  have go : ∀ f : Flags, e ≠ .stallOrTimeout →
      Goes t f m (dispatchState finish (tick t) e (noted (tick t) e f m)) τ (τ.mode.on e f) := by
    intro f he
    have hs' := noted_shows (tick t) e f hs
    exact (dispatchState_goes finish e he hs' fun h1 h2 => hfin h1 h2 _ hs').noted
  unfold dispatchWith
  cases e with
  | none =>
    rw [Mode.on_none]
    exact (Ready.refl m τ.mode).goes hs hs.fault
  | occupiedOn => exact go (m.ctx.flags.note .occupiedOn) nofun
  | occupiedOff => exact go (m.ctx.flags.note .occupiedOff) nofun
  | binFull => exact go (m.ctx.flags.note .binFull) nofun
  | protectRelease => exact go (m.ctx.flags.note .protectRelease) nofun
  | protectTrigger =>
    have hs' := noted_shows (tick t) .protectTrigger (m.ctx.flags.note .protectTrigger) hs
    have hst : m.ctx.state = τ.mode.state := hs.state
    suffices h : Goes t (m.ctx.flags.note .protectTrigger)
        (noted (tick t) .protectTrigger (m.ctx.flags.note .protectTrigger) m)
        (if m.ctx.state = .cleaning then
          fsmStopCleaningForProtect (tick t)
            (noted (tick t) .protectTrigger (m.ctx.flags.note .protectTrigger) m)
        else noted (tick t) .protectTrigger (m.ctx.flags.note .protectTrigger) m) τ
        (τ.mode.on .protectTrigger (m.ctx.flags.note .protectTrigger)) from h.noted
    by_cases hc : m.ctx.state = .cleaning
    · rw [if_pos hc]
      have hμ : τ.mode.on .protectTrigger (m.ctx.flags.note .protectTrigger) = .safeStop := by
        rw [hst] at hc
        cases hm : τ.mode <;> rw [hm] at hc <;> first | rfl | cases hc
      rw [hμ]
      exact fsmStopCleaningForProtect_goes hs' (by rw [← hst, hc]; nofun)
    · rw [if_neg hc]
      have hμ : τ.mode.on .protectTrigger (m.ctx.flags.note .protectTrigger) = τ.mode := by
        rw [hst] at hc
        cases hm : τ.mode <;> rw [hm] at hc <;> first | rfl | exact absurd rfl hc
      rw [hμ]
      exact (Ready.refl _ τ.mode).goes hs' hs'.fault
  | stallOrTimeout =>
    have hs' := noted_shows (tick t) .stallOrTimeout m.ctx.flags hs
    have hμ : τ.mode.on .stallOrTimeout (m.ctx.flags.note .stallOrTimeout) = .cleanTimeout := by
      cases τ.mode <;> rfl
    rw [hμ]
    exact (fsmEnterFault_goes .cleanTimeout hs' ((Ready.refl _ _).emit (quiet_say _)) rfl).noted
  | _ => exact go m.ctx.flags nofun

/-- the nested dispatch of `fsm_finish_cleaning` -/
theorem finish_goes {t : Nat} {τ : Timed} {m : Fsm} (hs : Shows m.ctx τ)
    (hμ : τ.mode = .cleaning .toPos1) :
    Goes t m.ctx.flags m (dispatchWith id (tick t) .cleanDone (fsmMotorStop m)) τ .idle := by
  have hc := fsmMotorStop_ctx m
  have h := dispatchWith_goes (t := t) (m := fsmMotorStop m) id .cleanDone (by rw [hc]; exact hs)
    nofun
  rw [hc, show τ.mode.on .cleanDone (m.ctx.flags.note .cleanDone) = .idle by rw [hμ]; rfl] at h
  refine ⟨h.shows, h.flags, h.ops.trans (by rw [hc]), ?_⟩
  have hl := h.log
  rw [hc] at hl
  have hne : τ.mode.state ≠ Mode.idle.state := by rw [hμ]; nofun
  by_cases ho : m.ctx.hasOp (·.motorStop) = true
  · rw [show (fsmMotorStop m).out = ⟨.motorStop, m.ctx⟩ :: m.out by
      unfold fsmMotorStop; rw [if_pos ho]; rfl] at hl
    exact hl.after_stop hne
  · rw [show (fsmMotorStop m).out = m.out by unfold fsmMotorStop; rw [if_neg ho]] at hl
    exact hl

/-- **`litter_fsm_dispatch` is the event table**: any event, in any state -/
theorem litterFsmDispatch_goes {t : Nat} {τ : Timed} {m : Fsm} (e : LitterFsmEvent)
    (hs : Shows m.ctx τ) :
    Goes t (m.ctx.flags.note e) m (litterFsmDispatch (tick t) e m) τ
      (τ.mode.on e (m.ctx.flags.note e)) :=
  dispatchWith_goes _ e hs fun _ hμ _ hs' => finish_goes hs' hμ

/-! ## `litter_fsm_tick` -/

theorem note_protectTrigger {f : Flags} (h : f.protect = true) : f.note .protectTrigger = f := by
  obtain ⟨o, b, p⟩ := f
  obtain rfl : p = true := h
  rfl

theorem note_protectRelease {f : Flags} (h : f.protect = false) : f.note .protectRelease = f := by
  obtain ⟨o, b, p⟩ := f
  obtain rfl : p = false := h
  rfl

/-- the deadline branch of the poll -/
theorem tick_waiting {t : Nat} {τ : Timed} {m : Fsm} (hs : Shows m.ctx τ) :
    Goes t m.ctx.flags m
      (if fsmDeadlineExpired (tick t) m.ctx.deadlineTick = true then
        litterFsmDispatch (tick t) .delayTimeout m
      else m) τ
      (if τ.due t = true then τ.mode.on .delayTimeout m.ctx.flags else τ.mode) := by
  have hd : fsmDeadlineExpired (tick t) m.ctx.deadlineTick = τ.due t := by
    rw [hs.deadline]; rfl
  rw [hd]
  by_cases h : τ.due t = true
  · rw [if_pos h, if_pos h]
    exact litterFsmDispatch_goes .delayTimeout hs
  · rw [if_neg h, if_neg h]
    exact (Ready.refl m τ.mode).goes hs hs.fault

theorem Leg.budget_pos (l : Leg) :
    (0 : Tick) < BitVec.ofNat 32 totalBudget ∧ (0 : Tick) < BitVec.ofNat 32 l.budget := by
  cases l <;> decide

/-- the timeouts of a cleaning, in ticks -/
theorem Shows.budgets {c : LitterFsmCtx} {τ : Timed} {leg : Leg} (hs : Shows c τ)
    (hμ : τ.mode = .cleaning leg) :
    rtTickFromMillisecond c.cleanTotalTimeoutMs = BitVec.ofNat 32 totalBudget ∧
    rtTickFromMillisecond (fsmCleanPhaseTimeoutMs c) = BitVec.ofNat 32 leg.budget := by
  constructor
  · rw [hs.config.total]
    exact ticks_total
  · unfold fsmCleanPhaseTimeoutMs
    rw [hs.phase, hμ]
    cases leg with
    | toPos2 => exact (congrArg _ hs.config.toPos2).trans ticks_toPos
    | toPos3 => exact (congrArg _ hs.config.toPos3).trans ticks_cleanDelay
    | toPos1 => exact (congrArg _ hs.config.toPos1).trans ticks_toPos

/-- the budget branch of the poll -/
theorem tick_budgets {t : Nat} {τ : Timed} {leg : Leg} {m : Fsm} (hs : Shows m.ctx τ)
    (hμ : τ.mode = .cleaning leg) :
    Goes t m.ctx.flags m
      (if 0 < rtTickFromMillisecond m.ctx.cleanTotalTimeoutMs ∧
          rtTickFromMillisecond m.ctx.cleanTotalTimeoutMs ≤ tick t - m.ctx.cleanStartedTick then
        litterFsmDispatch (tick t) .stallOrTimeout m
      else if 0 < rtTickFromMillisecond (fsmCleanPhaseTimeoutMs m.ctx) ∧
          rtTickFromMillisecond (fsmCleanPhaseTimeoutMs m.ctx) ≤
            tick t - m.ctx.phaseStartedTick then
        litterFsmDispatch (tick t) .stallOrTimeout m
      else m) τ
      (if τ.late t = true then .cleanTimeout else .cleaning leg) := by
  have hst : τ.mode.state = .cleaning := by rw [hμ]; rfl
  obtain ⟨htot, hleg⟩ := hs.budgets hμ
  have hpos := leg.budget_pos
  have hlate : τ.late t = true ↔ BitVec.ofNat 32 totalBudget ≤ tick t - tick τ.since ∨
      BitVec.ofNat 32 leg.budget ≤ tick t - tick τ.legSince := by
    unfold Timed.late
    rw [hμ]
    dsimp only
    rw [Bool.or_eq_true, decide_eq_true_eq, decide_eq_true_eq]
  have hto : Goes t m.ctx.flags m (litterFsmDispatch (tick t) .stallOrTimeout m) τ
      .cleanTimeout := by
    have h := litterFsmDispatch_goes (t := t) .stallOrTimeout hs
    rw [hμ] at h
    exact h
  rw [htot, hleg, hs.started hst, hs.leg hst]
  by_cases h1 : BitVec.ofNat 32 totalBudget ≤ tick t - tick τ.since
  · rw [if_pos ⟨hpos.1, h1⟩, if_pos (hlate.mpr (Or.inl h1))]
    exact hto
  rw [if_neg fun h => h1 h.2]
  by_cases h2 : BitVec.ofNat 32 leg.budget ≤ tick t - tick τ.legSince
  · rw [if_pos ⟨hpos.2, h2⟩, if_pos (hlate.mpr (Or.inr h2))]
    exact hto
  · rw [if_neg fun h => h2 h.2, if_neg fun h => (hlate.mp h).elim h1 h2, ← hμ]
    exact (Ready.refl m τ.mode).goes hs hs.fault

/-- **`litter_fsm_tick` is the poll of the mode machine** -/
theorem litterFsmTick_goes {t : Nat} {τ : Timed} {m : Fsm} (hs : Shows m.ctx τ) :
    Goes t m.ctx.flags m (litterFsmTick (tick t) m) τ
      (τ.mode.onTick m.ctx.flags (τ.due t) (τ.late t)) := by
  have stay : Goes t m.ctx.flags m m τ τ.mode := (Ready.refl m τ.mode).goes hs hs.fault
  have hst : m.ctx.state = τ.mode.state := hs.state
  have hfc : m.ctx.faultCode = τ.mode.fault := hs.fault
  unfold litterFsmTick
  rw [hst, hfc]
  cases hμ : τ.mode with
  | idle =>
    rw [hμ] at stay
    exact stay
  | occupied =>
    rw [hμ] at stay
    exact stay
  | leaveConfirm =>
    have h := tick_waiting (t := t) hs
    rw [hμ] at h
    exact h
  | cleanDelay =>
    have h := tick_waiting (t := t) hs
    rw [hμ] at h
    exact h
  | cleaning leg =>
    simp only [Mode.state, Mode.onTick, true_and, false_and, reduceCtorEq, if_false]
    by_cases hp : m.ctx.protectActive = true
    · rw [if_pos hp, if_pos (show m.ctx.flags.protect = true from hp)]
      have h := litterFsmDispatch_goes (t := t) .protectTrigger hs
      rw [hμ, note_protectTrigger hp] at h
      exact h
    · rw [if_neg hp, if_neg (show ¬ m.ctx.flags.protect = true from hp)]
      exact tick_budgets hs hμ
  | safeStop =>
    simp only [Mode.state, Mode.onTick, true_and, false_and, reduceCtorEq, if_false]
    by_cases hp : m.ctx.protectActive = true
    · rw [if_pos (show m.ctx.flags.protect = true from hp), if_neg (by rw [hp]; decide)]
      rw [hμ] at stay
      exact stay
    · rw [if_neg (show ¬ m.ctx.flags.protect = true from hp), if_pos (Bool.eq_false_iff.mpr hp)]
      have h := litterFsmDispatch_goes (t := t) .protectRelease hs
      have hn := note_protectRelease (f := m.ctx.flags) (Bool.eq_false_iff.mpr hp)
      rw [hμ, hn] at h
      rw [hn]
      exact h
  | binFull =>
    simp only [Mode.state, Mode.fault, Mode.onTick, true_and, false_and, reduceCtorEq, if_false]
    by_cases hb : m.ctx.binFull = true
    · rw [if_pos (show m.ctx.flags.binFull = true from hb), if_neg (by rw [hb]; decide)]
      rw [hμ] at stay
      exact stay
    · rw [if_neg (show ¬ m.ctx.flags.binFull = true from hb), if_pos (Bool.eq_false_iff.mpr hb)]
      exact fsmRecoverToRest_goes hs (Ready.refl m τ.mode) (by rw [hμ]; decide)
        (by rw [hμ]; decide) _
  | cleanTimeout =>
    rw [hμ] at stay
    exact stay

/-! ## `litter_fsm_init` -/

theorem litterFsmInit_shows (t : Nat) (ops : Option LitterFsmOps) (m : Fsm) :
    Shows (litterFsmInit (tick t) ops m).ctx ⟨.idle, t, t⟩ := by
  unfold litterFsmInit
  dsimp only
  show Shows (fsmMotorStop _).ctx _
  rw [fsmMotorStop_ctx]
  exact ⟨rfl, rfl, rfl, rfl, rfl, rfl, nofun, nofun, ⟨rfl, rfl, rfl, rfl, rfl, rfl⟩⟩

end LitterBox
