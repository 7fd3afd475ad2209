import LitterBox.Logic.Timing

/-!
# The total budget behind the budgets of the legs

A leg that ends in time is over at most one gap between two calls after its budget, and then the
next leg begins.  With gaps of at most `1000` ticks a cleaning takes less than `20000` ticks in all.

* `Timed.Spare`                 how far a cleaning can have come, an invariant of paced runs;
* `Timed.Spare.not_total`       it has not used up the total budget;
* `total_never_taken`          `litter_fsm_tick` never takes the branch of the total budget.
-/

namespace LitterBox

open Clock (Paced Next)

/-! ## the two tests of `litter_fsm_tick` -/

/-- the test of `clean_total_timeout_ms` -/
def totalUsedUp (now : Tick) (c : LitterFsmCtx) : Prop :=
  0 < rtTickFromMillisecond c.cleanTotalTimeoutMs ∧
    rtTickFromMillisecond c.cleanTotalTimeoutMs ≤ now - c.cleanStartedTick

/-- the test of the timeout of the phase -/
def phaseUsedUp (now : Tick) (c : LitterFsmCtx) : Prop :=
  0 < rtTickFromMillisecond (fsmCleanPhaseTimeoutMs c) ∧
    rtTickFromMillisecond (fsmCleanPhaseTimeoutMs c) ≤ now - c.phaseStartedTick

instance (now : Tick) (c : LitterFsmCtx) : Decidable (totalUsedUp now c) := by
  unfold totalUsedUp
  infer_instance

instance (now : Tick) (c : LitterFsmCtx) : Decidable (phaseUsedUp now c) := by
  unfold phaseUsedUp
  infer_instance

/-- **`litter_fsm_tick` in CLEANING** -/
theorem litterFsmTick_cleaning (now : Tick) {m : Fsm} (h : m.ctx.state = .cleaning) :
    litterFsmTick now m =
      if m.ctx.protectActive = true then litterFsmDispatch now .protectTrigger m
      else if totalUsedUp now m.ctx then litterFsmDispatch now .stallOrTimeout m
      else if phaseUsedUp now m.ctx then litterFsmDispatch now .stallOrTimeout m
      else m := by
  unfold litterFsmTick totalUsedUp phaseUsedUp
  simp only [h, true_and, reduceCtorEq, false_and, if_false]

/-! ## how far a cleaning can have come -/

/-- the time the legs before it can have taken, with gaps of `1000` ticks -/
def Leg.slack : Leg → Nat
  | .toPos2 => 0
  | .toPos3 => 6999
  | .toPos1 => 12998

/-- a leg that has begun in time is over in time for the next one -/
theorem Leg.slack_next {l l' : Leg} (h : l.next = .cleaning l') :
    l'.slack = l.slack + l.budget + 999 := by
  cases l with
  | toPos2 =>
    obtain rfl := Mode.cleaning.inj h
    rfl
  | toPos3 =>
    obtain rfl := Mode.cleaning.inj h
    rfl
  | toPos1 => cases h

theorem Leg.slack_total (l : Leg) : l.slack + l.budget + 1000 ≤ totalBudget := by
  cases l <;> decide

/-- at the time `t` of a call the leg of a cleaning began in time, and its budget was over less than
`1000` ticks ago -/
def Timed.Spare (t : Nat) (τ : Timed) : Prop :=
  ∀ l, τ.mode = .cleaning l → τ.since ≤ τ.legSince ∧ τ.legSince ≤ τ.since + l.slack ∧
    τ.legSince ≤ t ∧ t < τ.legSince + l.budget + 1000

theorem Timed.Spare.of_ne {t : Nat} {τ : Timed} (h : τ.mode.state ≠ .cleaning) : τ.Spare t :=
  fun l hl => absurd (by rw [hl]; rfl) h

theorem Timed.Spare.not_total {t : Nat} {τ : Timed} (h : τ.Spare t) {l : Leg}
    (hl : τ.mode = .cleaning l) : ¬ totalBudget ≤ t - τ.since := by
  obtain ⟨h1, h2, h3, h4⟩ := h l hl
  have htot := l.slack_total
  omega

theorem Timed.Spare.first (t : Nat) {τ : Timed} (h : τ.mode.state ≠ .cleaning) {t' : Nat}
    (h1 : t ≤ t') (h2 : t' < t + 7000) : (τ.goto t (.cleaning .toPos2)).Spare t' := by
  intro l hl
  obtain rfl := Mode.cleaning.inj hl
  have e1 : (τ.goto t (.cleaning .toPos2)).since = t :=
    Timed.goto_since_of_ne fun e => h e.symm
  have e2 : (τ.goto t (.cleaning .toPos2)).legSince = t :=
    Timed.goto_legSince_of_ne fun e => h (by rw [← e]; rfl)
  rw [e1, e2]
  exact ⟨Nat.le_refl t, Nat.le_add_right t _, h1, h2⟩

/-- a stage that goes on with a leg, or begins the first one -/
theorem Timed.Spare.goto {t : Nat} {τ : Timed} (h : τ.Spare t) {μ : Mode}
    (hμ : ∀ l, μ = .cleaning l → τ.mode = .cleaning l ∨ l = .toPos2 ∧ τ.mode.state ≠ .cleaning) :
    (τ.goto t μ).Spare t := by
  by_cases hc : μ.state = .cleaning
  · obtain ⟨l, rfl⟩ := Mode.cleaning_of_state hc
    rcases hμ l rfl with hl | ⟨rfl, hne⟩
    · rw [← hl, Timed.goto_self]
      exact h
    · exact .first t hne (Nat.le_refl t) (by omega)
  · exact .of_ne hc

theorem Timed.Spare.takeHall {t : Nat} {τ : Timed} (h : τ.Spare t) (pos : LitterHallPosition) :
    (τ.goto t (τ.mode.takeHall pos)).Spare t := by
  intro l hl
  rcases Mode.takeHall_cleaning hl with he | ⟨l', hl', -, hn⟩
  · have hm : τ.mode.takeHall pos = τ.mode := (show _ = Mode.cleaning l from hl).trans he.symm
    rw [hm, Timed.goto_self]
    exact h l he
  · obtain ⟨h1, h2, h3, h4⟩ := h l' hl'
    have hs := Leg.slack_next hn
    have hst : (τ.mode.takeHall pos).state = τ.mode.state := by
      rw [show τ.mode.takeHall pos = .cleaning l from hl, hl']
      rfl
    have hne : τ.mode.takeHall pos ≠ τ.mode := by
      rw [show τ.mode.takeHall pos = .cleaning l from hl, hl']
      intro e
      obtain rfl := Mode.cleaning.inj e
      cases l <;> cases hn
    rw [Timed.goto_since hst, Timed.goto_legSince_of_ne hne]
    have hb : 1000 ≤ l.budget := by cases l <;> decide
    exact ⟨by omega, by omega, Nat.le_refl t, by omega⟩

theorem Timed.Spare.hall {τ : Timed} {q : Cue} (h : τ.Spare q.time) : (τ.hall q).Spare q.time := by
  have h1 : (τ.binFull q).Spare q.time := h.goto fun l e => Or.inl (Mode.seeFull_cleaning e)
  have h2 : (τ.occupancy q).Spare q.time := h1.goto fun l e => Or.inl (Mode.seeOccupied_cleaning e)
  have h3 : (τ.clean q).Spare q.time := h2.goto fun l e => Mode.takeClean_cleaning e
  have h4 : (τ.reset q).Spare q.time := h3.goto fun l e => Or.inl (Mode.takeReset_cleaning e)
  exact h4.takeHall q.pos

/-- a call, and then less than `1001` ticks -/
theorem Timed.Spare.call {t : Nat} {τ : Timed} {q : Cue} (h : τ.Spare q.time)
    (hn : (τ.hall q).Near q.time) (h1 : q.time ≤ t) (h2 : t < q.time + 1001) :
    (τ.call q).Spare t := by
  intro l hl
  obtain ⟨-, hleg⟩ := call_in_time hn hl
  have hl' : (τ.hall q).mode.poll q.occ q.full ((τ.hall q).due q.time) ((τ.hall q).late q.time) =
    .cleaning l := hl
  rcases Mode.poll_begins hl' with he | ⟨rfl, hd⟩
  · have e : τ.call q = τ.hall q := by
      show (τ.hall q).goto q.time _ = _
      rw [hl', ← he, Timed.goto_self]
    rw [e] at hleg ⊢
    obtain ⟨a1, a2, a3, a4⟩ := h.hall l he
    exact ⟨a1, a2, by omega, by omega⟩
  · have hf := Timed.Spare.first q.time (τ := τ.hall q) (by rw [hd]; decide) h1 (by omega)
    have e : τ.call q = (τ.hall q).goto q.time (.cleaning .toPos2) := by
      show (τ.hall q).goto q.time _ = _
      rw [hl']
    rw [e]
    exact hf .toPos2 rfl

/-- **in a run with gaps of at most `1000` ticks** -/
theorem timed_lean (g : Gpio) (i0 : Inputs) (l : List Step) (hp : Paced 1001 (times l)) (t : Nat)
    (ht : Next 1001 (times l) t) : (timed g i0 l).Spare t := by
  refine paced_inv (Q := fun l t => (timed g i0 l).Spare t) (fun t => ?_)
    (fun l i t hp hn h h1 h2 => ?_) (fun l x t hx h => ?_) l hp t ht
  · exact .of_ne (bootTimed_rests i0).2
  · have hnear := timed_near g i0 l (hp.mono (by decide)) i.time (hn.mono (by decide))
    rw [timed_running]
    exact h.call (q := cue i (run g i0 l)) hnear.hall h1 h2
  · rw [timed_snoc]
    cases x with
    | running i => cases hx
    | requestClean => exact h
    | requestReset => exact h
    | litterTimeout a =>
      refine Timed.litterTimeout_inv (Q := fun τ => τ.Spare t) a h (.of_ne ?_)
      rw [Timed.goto_mode]
      decide

/-- the tests of `litter_fsm_tick` on a context that shows a cleaning -/
theorem Shows.usedUp {c : LitterFsmCtx} {τ : Timed} (h : Shows c τ) {t : Nat} (hn : τ.Near t)
    {l : Leg} (hl : τ.mode = .cleaning l) :
    (totalUsedUp (tick t) c ↔ totalBudget ≤ t - τ.since) ∧
    (phaseUsedUp (tick t) c ↔ l.budget ≤ t - τ.legSince) := by
  have hc : τ.mode.state = .cleaning := by
    rw [hl]
    rfl
  obtain ⟨e1, e2⟩ := hn.elapsed hl
  obtain ⟨b1, b2⟩ := h.budgets hl
  obtain ⟨p1, p2⟩ := l.budget_pos
  unfold totalUsedUp phaseUsedUp
  rw [b1, b2, h.started hc, h.leg hc, e1, e2]
  exact ⟨and_iff_right p1, and_iff_right p2⟩

/-- **The total budget never pre-empts the budgets of the phases.**  In a run whose calls of
`Sensor_Logic_Running` are at most `1000` ticks apart, `litter_fsm_tick` never finds the total
budget used up, and raises `CLEAN_TIMEOUT` only when the budget of the phase is. -/
theorem total_never_taken (g : Gpio) (i0 : Inputs) (l : List Step) (i : Inputs)
    (hp : Paced 1001 (times (l ++ [.running i]))) :
    let x := (runningHall i (run g i0 l).fresh).fsm
    (run g i0 (l ++ [.running i])).fsm = litterFsmTick i.now x ∧
    (x.ctx.state = .cleaning → ¬ totalUsedUp i.now x.ctx) ∧
    ((litterFsmTick i.now x).ctx.faultCode = .cleanTimeout → x.ctx.faultCode ≠ .cleanTimeout →
      x.ctx.state = .cleaning ∧ phaseUsedUp i.now x.ctx) := by
  intro x
  let q := cue i (run g i0 l).fresh
  let τ := (timed g i0 l).hall q
  obtain ⟨hpl, hn⟩ := paced_running hp
  have h : Good (run g i0 l).fresh (timed g i0 l) := (run_good g i0 l).fresh
  have hnear : τ.Near i.time :=
    (timed_near g i0 l (hpl.mono (by decide)) i.time (hn.mono (by decide))).hall (q := q)
  have hlean : τ.Spare i.time := (timed_lean g i0 l hpl i.time hn).hall (q := q)
  have hx : Shows x.ctx τ := (hall_amid (i := i) h).shows
  have htotal : ∀ leg, τ.mode = .cleaning leg → ¬ totalBudget ≤ i.time - τ.since :=
    fun leg hl => hlean.not_total hl
  refine ⟨running_out g i0 l i, fun hc ht => ?_, fun hf hnf => ?_⟩
  · obtain ⟨leg, hl⟩ := Mode.cleaning_of_state (hx.state.symm.trans hc)
    exact htotal leg hl ((hx.usedUp hnear hl).1.mp ht)
  · have hcall : τ.mode.poll q.occ q.full (τ.due i.time) (τ.late i.time) = .cleanTimeout := by
      have hs := (tick_amid (i := i) h).shows.fault
      exact Mode.fault_cleanTimeout.mp (hs.symm.trans hf)
    have hlate : τ.late i.time = true := by
      by_contra hn
      rw [Bool.eq_false_iff.mpr hn] at hcall
      refine hnf ?_
      rw [hx.fault, Mode.poll_cleanTimeout hcall]
      rfl
    have hc : τ.mode.state = .cleaning := by
      by_contra hne
      rw [Timed.late_of_ne i.time hne] at hlate
      cases hlate
    obtain ⟨leg, hl⟩ := Mode.cleaning_of_state hc
    refine ⟨hx.state.trans hc, (hx.usedUp hnear hl).2.mpr ?_⟩
    exact ((Timed.late_iff hnear hl).mp hlate).resolve_left (htotal leg hl)

/-- a cleaning polled with the largest gaps, across a turn of the tick counter -/
theorem total_never_taken_wrap :
    let l : List Step :=
      [.requestClean, .running (calmAt 4294966290), .running (calmAt 4294967290)]
    let x := (runningHall (calmAt 4294968290) (run lowPins (calmAt 0) l).fresh).fsm
    ¬ totalUsedUp (calmAt 4294968290).now x.ctx :=
  (total_never_taken lowPins (calmAt 0)
    [.requestClean, .running (calmAt 4294966290), .running (calmAt 4294967290)]
    (calmAt 4294968290) (by decide)).2.1 (by decide)

end LitterBox
