import LitterBox.Logic.Hall

/-!
# Time limits

`rt_tick_get` shows the true time modulo `2^32`.  As long as the calls of `Sensor_Logic_Running`
follow each other by less than half a turn of it (`Clock.Paced`), every time limit is met exactly:

* `paced_inv`          invariants of runs whose calls are so paced;
* `Timed.Near`         no time limit of the mode was passed half a turn ago, an invariant;
* `Timed.due_iff`, `Timed.late_iff`   the tests on ticks are then comparisons of true times.

`chronicle` keeps the true times of all state changes and of all legs begun, and
`clean_time_exact` compares them with what the calls do.
-/

namespace LitterBox

open Clock (Paced Next paced_snoc next_snoc)

/-! ## the times of the calls -/

/-- the true time of a call of `Sensor_Logic_Running` -/
def Step.callTime : Step → Option Nat
  | .running i => some i.time
  | _ => none

/-- the true times of the calls of `Sensor_Logic_Running`, oldest first -/
def times (l : List Step) : List Nat := l.filterMap Step.callTime

theorem times_running (l : List Step) (i : Inputs) :
    times (l ++ [.running i]) = times l ++ [i.time] := by
  unfold times
  rw [List.filterMap_append]
  rfl

theorem times_other (l : List Step) {x : Step} (h : x.callTime = none) :
    times (l ++ [x]) = times l := by
  unfold times
  rw [List.filterMap_append, List.filterMap_cons, h]
  exact List.append_nil _

/-- **invariant rule for paced runs**: `Q l t` says something about the run `l` when the next call
is at the time `t` -/
theorem paced_inv {d : Nat} {Q : List Step → Nat → Prop} (h0 : ∀ t, Q [] t)
    (hr : ∀ l i t, Paced d (times l) → Next d (times l) i.time → Q l i.time → i.time ≤ t →
      t < i.time + d → Q (l ++ [.running i]) t)
    (ho : ∀ l x t, x.callTime = none → Q l t → Q (l ++ [x]) t)
    (l : List Step) (hp : Paced d (times l)) (t : Nat) (ht : Next d (times l) t) : Q l t := by
  induction l using List.reverseRecOn generalizing t with
  | nil => exact h0 t
  | append_singleton l x ih =>
    cases hx : x.callTime with
    | none =>
      rw [times_other l hx] at hp ht
      exact ho l x t hx (ih hp t ht)
    | some a =>
      cases x with
      | running i =>
        rw [times_running] at hp ht
        obtain ⟨hp, hn⟩ := paced_snoc.mp hp
        obtain ⟨h1, h2⟩ := next_snoc.mp ht
        exact hr l i t hp hn (ih hp i.time hn) h1 h2
      | _ => cases hx

theorem paced_running {d : Nat} {l : List Step} {i : Inputs}
    (h : Paced d (times (l ++ [.running i]))) : Paced d (times l) ∧ Next d (times l) i.time := by
  rw [times_running] at h
  exact paced_snoc.mp h

/-! ## exact time limits -/

/-- at the time `t`, no time limit of the mode has been over for half a turn of the tick -/
structure Timed.Near (t : Nat) (τ : Timed) : Prop where
  waiting : τ.mode.window ≠ 0 → τ.since ≤ t ∧
    (τ.mode.deadline (tick τ.since) = 0 ∨ t < τ.since + τ.mode.window + 2^31)
  cleaning : ∀ l, τ.mode = .cleaning l → τ.since ≤ t ∧ τ.legSince ≤ t ∧
    t < τ.since + totalBudget + 2^31 ∧ t < τ.legSince + l.budget + 2^31

theorem Mode.deadline_eq {μ : Mode} (h : μ.window ≠ 0) (a : Nat) :
    μ.deadline (tick a) = tick (a + μ.window) := by
  cases μ with
  | leaveConfirm => exact (Clock.tick_add a 2000).symm
  | cleanDelay => exact (Clock.tick_add a 5000).symm
  | _ => exact absurd rfl h

theorem Mode.window_le (μ : Mode) : μ.window ≤ 5000 := by
  cases μ <;> simp [Mode.window]

theorem Leg.budget_le (l : Leg) : l.budget ≤ 6000 := by
  cases l <;> simp [Leg.budget]

/-- **the deadline test is exact**; a deadline of tick `0` is none -/
theorem Timed.due_iff {t : Nat} {τ : Timed} (h : τ.Near t) (hw : τ.mode.window ≠ 0) :
    τ.due t = true ↔
      τ.mode.deadline (tick τ.since) ≠ 0 ∧ τ.since + τ.mode.window ≤ t := by
  obtain ⟨ha, hlt⟩ := h.waiting hw
  have hle := τ.mode.window_le
  unfold Timed.due fsmDeadlineExpired
  by_cases hd : τ.mode.deadline (tick τ.since) = 0
  · rw [if_pos hd]
    exact ⟨nofun, fun hh => absurd hd hh.1⟩
  · have hnear := hlt.resolve_left hd
    rw [if_neg hd, Mode.deadline_eq hw,
      Clock.reached_tick (by omega) ha (by omega), decide_eq_true_eq]
    exact ⟨fun hh => ⟨by rwa [Mode.deadline_eq hw] at hd, hh⟩, fun hh => hh.2⟩

/-- the two comparisons with a budget are exact -/
theorem Timed.Near.elapsed {t : Nat} {τ : Timed} (h : τ.Near t) {l : Leg}
    (hl : τ.mode = .cleaning l) :
    (BitVec.ofNat 32 totalBudget ≤ tick t - tick τ.since ↔ totalBudget ≤ t - τ.since) ∧
    (BitVec.ofNat 32 l.budget ≤ tick t - tick τ.legSince ↔ l.budget ≤ t - τ.legSince) := by
  obtain ⟨h1, h2, h3, h4⟩ := h.cleaning l hl
  have hb := l.budget_le
  have htot : totalBudget = 20000 := rfl
  refine ⟨Clock.le_elapsed_iff _ h1 (by omega), ?_⟩
  have e := Clock.le_elapsed_iff (BitVec.ofNat 32 l.budget) h2 (by omega)
  rw [BitVec.toNat_ofNat, Nat.mod_eq_of_lt (by omega)] at e
  exact e

/-- **the budget test is exact** -/
theorem Timed.late_iff {t : Nat} {τ : Timed} (h : τ.Near t) {l : Leg} (hl : τ.mode = .cleaning l) :
    τ.late t = true ↔ totalBudget ≤ t - τ.since ∨ l.budget ≤ t - τ.legSince := by
  obtain ⟨e1, e2⟩ := h.elapsed hl
  unfold Timed.late
  rw [hl]
  dsimp only
  rw [Bool.or_eq_true, decide_eq_true_eq, decide_eq_true_eq, e1, e2]

/-! ## the invariant -/

theorem Timed.Near.of_none {t : Nat} {τ : Timed} (hw : τ.mode.window = 0)
    (hc : τ.mode.state ≠ .cleaning) : τ.Near t :=
  ⟨fun h => absurd hw h, fun l hl => absurd (by rw [hl]; rfl) hc⟩

theorem Timed.Near.fresh {t t' : Nat} {τ : Timed} {μ' : Mode} (hs : μ'.state ≠ τ.mode.state)
    (h1 : t ≤ t') (h2 : t' < t + 2^31) : (τ.goto t μ').Near t' := by
  have hm : μ' ≠ τ.mode := fun e => hs (by rw [e])
  have e1 : (τ.goto t μ').since = t := Timed.goto_since_of_ne hs
  have e2 : (τ.goto t μ').legSince = t := Timed.goto_legSince_of_ne hm
  refine ⟨fun _ => ?_, fun l _ => ?_⟩
  · rw [e1]
    exact ⟨h1, Or.inr (by omega)⟩
  · rw [e1, e2]
    exact ⟨h1, h1, by omega, by omega⟩

theorem Timed.Near.goto {t : Nat} {τ : Timed} (h : τ.Near t) (μ' : Mode) : (τ.goto t μ').Near t := by
  by_cases hs : μ'.state = τ.mode.state
  · have e1 : (τ.goto t μ').since = τ.since := Timed.goto_since hs
    refine ⟨fun hw => ?_, fun l hl => ?_⟩
    · have hμ : μ' = τ.mode := Mode.eq_of_window (show μ'.window ≠ 0 from hw) hs
      rw [hμ, Timed.goto_self] at hw ⊢
      exact h.waiting hw
    · obtain ⟨l', hl'⟩ := Mode.cleaning_of_state (hs.symm.trans (congrArg Mode.state hl))
      obtain ⟨h1, h2, h3, h4⟩ := h.cleaning l' hl'
      rw [e1]
      by_cases hm : μ' = τ.mode
      · obtain rfl : l = l' := Mode.cleaning.inj (hl.symm.trans (hm.trans hl'))
        rw [Timed.goto_legSince hm]
        exact ⟨h1, h2, h3, h4⟩
      · rw [Timed.goto_legSince_of_ne hm]
        exact ⟨h1, Nat.le_refl t, h3, by omega⟩
  · exact .fresh hs (Nat.le_refl t) (by omega)

theorem Timed.Near.later {t t' : Nat} {τ : Timed} (h : τ.Near t) (hd : τ.due t = false)
    (hl : τ.late t = false) (h1 : t ≤ t') (h2 : t' < t + 2^31) : τ.Near t' := by
  refine ⟨fun hw => ?_, fun l hτ => ?_⟩
  · obtain ⟨ha, -⟩ := h.waiting hw
    refine ⟨Nat.le_trans ha h1, ?_⟩
    by_cases hz : τ.mode.deadline (tick τ.since) = 0
    · exact Or.inl hz
    · right
      have hn : ¬ τ.since + τ.mode.window ≤ t := by
        intro hle
        rw [(Timed.due_iff h hw).mpr ⟨hz, hle⟩] at hd
        cases hd
      omega
  · obtain ⟨ha, hb, -, -⟩ := h.cleaning l hτ
    have hn : ¬ (totalBudget ≤ t - τ.since ∨ l.budget ≤ t - τ.legSince) := by
      intro hle
      rw [(Timed.late_iff h hτ).mpr hle] at hl
      cases hl
    have hn1 := fun hle => hn (Or.inl hle)
    have hn2 := fun hle => hn (Or.inr hle)
    exact ⟨by omega, by omega, by omega, by omega⟩

theorem Timed.Near.poll {t t' : Nat} {τ : Timed} (h : τ.Near t) (occ full : Bool)
    (h1 : t ≤ t') (h2 : t' < t + 2^31) :
    (τ.goto t (τ.mode.poll occ full (τ.due t) (τ.late t))).Near t' := by
  have stay : τ.mode.poll occ full (τ.due t) (τ.late t) = τ.mode → τ.due t = false →
      τ.late t = false → (τ.goto t (τ.mode.poll occ full (τ.due t) (τ.late t))).Near t' := by
    intro e hd hl
    rw [e, Timed.goto_self]
    exact h.later hd hl h1 h2
  by_cases hc : τ.mode.state = .cleaning
  · obtain ⟨l, hm⟩ := Mode.cleaning_of_state hc
    cases hl : τ.late t with
    | true => exact .fresh (by rw [hm]; nofun) h1 h2
    | false =>
      rw [hl] at stay
      exact stay (by rw [hm]; rfl) (Timed.due_of_none t (by rw [hm]; rfl)) rfl
  have hl := Timed.late_of_ne t hc
  by_cases hw : τ.mode.window = 0
  · by_cases hs : (τ.mode.poll occ full (τ.due t) (τ.late t)).state = τ.mode.state
    · refine .of_none ?_ (fun e => hc (hs.symm.trans e))
      by_contra hn
      have hμ : τ.mode.poll occ full (τ.due t) (τ.late t) = τ.mode := Mode.eq_of_window hn hs
      exact hn (by rw [Timed.goto_mode, hμ]; exact hw)
    · exact .fresh hs h1 h2
  · cases hd : τ.due t with
    | true =>
      refine .fresh ?_ h1 h2
      cases hm : τ.mode with
      | leaveConfirm => nofun
      | cleanDelay => nofun
      | _ => rw [hm] at hw; exact absurd rfl hw
    | false =>
      rw [hd] at stay
      exact stay (Mode.poll_waiting hw occ full _) rfl hl

theorem Timed.Near.hall {τ : Timed} {q : Cue} (h : τ.Near q.time) : (τ.hall q).Near q.time :=
  ((((h.goto _).goto _).goto _).goto _).goto _

theorem Timed.Near.call {t : Nat} {τ : Timed} {q : Cue} (h : τ.Near q.time) (h1 : q.time ≤ t)
    (h2 : t < q.time + 2^31) : (τ.call q).Near t :=
  h.hall.poll q.occ q.full h1 h2

theorem bootTimed_rests (i0 : Inputs) :
    (bootTimed i0).mode.window = 0 ∧ (bootTimed i0).mode.state ≠ .cleaning := by
  show (bootMode (logicIsOccupied i0) (logicIsBinFull i0)).window = 0 ∧
    (bootMode (logicIsOccupied i0) (logicIsBinFull i0)).state ≠ .cleaning
  cases logicIsOccupied i0 <;> cases logicIsBinFull i0 <;> exact ⟨rfl, nofun⟩

/-- **in a paced run no time limit is ever missed by half a turn** -/
theorem timed_near (g : Gpio) (i0 : Inputs) (l : List Step) (hp : Paced (2^31) (times l)) (t : Nat)
    (ht : Next (2^31) (times l) t) : (timed g i0 l).Near t := by
  refine paced_inv (Q := fun l t => (timed g i0 l).Near t) (fun t => ?_)
    (fun l i t _ _ h h1 h2 => ?_)
    (fun l x t hx h => ?_) l hp t ht
  · exact .of_none (bootTimed_rests i0).1 (bootTimed_rests i0).2
  · rw [timed_running]
    exact h.call h1 h2
  · rw [timed_snoc]
    cases x with
    | running i => cases hx
    | requestClean => exact h
    | requestReset => exact h
    | litterTimeout a =>
      exact Timed.litterTimeout_inv (Q := fun τ => τ.Near t) a h (.of_none rfl nofun)

/-! ## the chronicle of a run -/

/-- the true times of the state changes and of the legs begun, newest first -/
structure Chronicle where
  moves : List (Nat × LitterFsmState × LitterFsmState)
  phases : List (Nat × LitterCleanPhase)
  deriving DecidableEq, Repr

/-- the log `out`, written at the time `t` -/
def Chronicle.add (t : Nat) (out : List Out) (c : Chronicle) : Chronicle where
  moves := (LitterBox.moves out).map (t, ·) ++ c.moves
  phases := (LitterBox.phases out).map (t, ·) ++ c.phases

/-- when CLEANING was last entered -/
def Chronicle.entered (c : Chronicle) : Option Nat :=
  (c.moves.find? fun e => e.2.2 = .cleaning).map (·.1)

/-- when a leg was last begun -/
def Chronicle.phaseStarted (c : Chronicle) : Option Nat := c.phases.head?.map (·.1)

/-- the true time of a step; a request logs nothing -/
def Step.time : Step → Nat
  | .running i => i.time
  | .litterTimeout t => t
  | _ => 0

/-- the chronicle of a run -/
def chronicle (g : Gpio) (i0 : Inputs) (l : List Step) : Chronicle :=
  Runs.observe Logic.step (fun s x c => c.add x.time (s.step x).fsm.out) (boot g i0)
    (Chronicle.add i0.time (boot g i0).fsm.out ⟨[], []⟩) l

theorem chronicle_snoc (g : Gpio) (i0 : Inputs) (l : List Step) (x : Step) :
    chronicle g i0 (l ++ [x]) = (chronicle g i0 l).add x.time (run g i0 (l ++ [x])).fsm.out := by
  rw [run_snoc]
  exact Runs.observe_snoc _ _ _ _ l x

/-- during a cleaning the chronicle has the times of the timed mode -/
def Recorded (c : Chronicle) (τ : Timed) : Prop :=
  τ.mode.state = .cleaning → c.entered = some τ.since ∧ c.phaseStarted = some τ.legSince

theorem Recorded.of_ne {c : Chronicle} {τ : Timed} (h : τ.mode.state ≠ .cleaning) : Recorded c τ :=
  fun e => absurd e h

/-- a step and its log keep the chronicle right -/
theorem Recorded.goes {c : Chronicle} {τ : Timed} {t : Nat} {armed : Prop} {μ' : Mode}
    {out out' : List Out} (h : Recorded (c.add t out) τ) (g : Logged armed τ.mode μ' out out') :
    Recorded (c.add t out') (τ.goto t μ') := by
  have hmv : (c.add t out').moves = (τ.mode.hop μ').map (t, ·) ++ (c.add t out).moves := by
    show (LitterBox.moves out').map (t, ·) ++ _ = _
    rw [g.moves_eq, List.map_append, List.append_assoc]
    rfl
  have hph : (c.add t out').phases = (τ.mode.legHop μ').map (t, ·) ++ (c.add t out).phases := by
    show (LitterBox.phases out').map (t, ·) ++ _ = _
    rw [g.phases_eq, List.map_append, List.append_assoc]
    rfl
  intro hc
  obtain ⟨l, hl⟩ : ∃ l, μ' = .cleaning l := Mode.cleaning_of_state hc
  unfold Chronicle.entered Chronicle.phaseStarted
  rw [hmv, hph]
  by_cases hs : τ.mode.state = .cleaning
  · obtain ⟨he, hp⟩ := h hs
    have hss : μ'.state = τ.mode.state := by rw [hl, hs]; rfl
    rw [Mode.hop_of_eq hss.symm, Timed.goto_since hss]
    refine ⟨he, ?_⟩
    by_cases hm : μ' = τ.mode
    · rw [hm, Mode.legHop_self, Timed.goto_self]
      exact hp
    · rw [Timed.goto_legSince_of_ne hm, hl, Mode.legHop_leg fun e => hm (hl.trans e.symm)]
      rfl
  · have hss : μ'.state ≠ τ.mode.state := by rw [hl]; exact fun e => hs e.symm
    have hm : μ' ≠ τ.mode := fun e => hss (by rw [e])
    rw [Mode.hop_of_ne hss.symm, Timed.goto_since_of_ne hss, Timed.goto_legSince_of_ne hm, hl,
      Mode.legHop_leg fun e => hm (hl.trans e.symm)]
    exact ⟨rfl, rfl⟩

theorem hall_recorded {i : Inputs} {s : Logic} {τ : Timed} {c : Chronicle} (h : Good s τ)
    (ho : s.fsm.out = []) (hc : Recorded c τ) :
    Recorded (c.add i.time (runningHall i s).fsm.out) (τ.hall (cue i s)) := by
  have h0 : Recorded (c.add i.time (runningSync i s).fsm.out) τ := by
    rw [show (runningSync i s).fsm.out = [] from ho]
    exact hc
  exact ((((h0.goes (binFull_stage h).log).goes (occupancy_stage h).log).goes
    (clean_stage h).log).goes (reset_stage h).log).goes (hall_stage h).log

theorem call_recorded {i : Inputs} {s : Logic} {τ : Timed} {c : Chronicle} (h : Good s τ)
    (ho : s.fsm.out = []) (hc : Recorded c τ) :
    Recorded (c.add i.time (runningTick i s).fsm.out) (τ.call (cue i s)) :=
  (hall_recorded h ho hc).goes (tick_stage h).log

/-- **the chronicle of every run is right** -/
theorem run_recorded (g : Gpio) (i0 : Inputs) (l : List Step) :
    Recorded (chronicle g i0 l) (timed g i0 l) := by
  induction l using List.reverseRecOn with
  | nil => exact .of_ne (bootTimed_rests i0).2
  | append_singleton l x ih =>
    have h := run_good g i0 l
    rw [chronicle_snoc]
    cases x with
    | running i =>
      rw [running_out, timed_running]
      exact call_recorded h.fresh rfl ih
    | requestClean =>
      rw [timed_snoc, run_snoc]
      exact ih
    | requestReset =>
      rw [timed_snoc, run_snoc]
      exact ih
    | litterTimeout t =>
      rw [timed_snoc]
      by_cases hc : (timed g i0 l).mode.state = .cleaning
      · rw [Timed.after_litterTimeout t hc]
        exact .of_ne nofun
      · rw [Timed.after_litterTimeout_of_ne t hc]
        exact .of_ne hc

/-! ## the budgets of a cleaning -/

/-- the time allowed for a phase, in ticks -/
def phaseBudget : LitterCleanPhase → Nat
  | .toPos2 => 6000
  | .toPos3 => 5000
  | .toPos1 => 6000
  | .none => 0

theorem Leg.phaseBudget_eq (l : Leg) : phaseBudget l.phase = l.budget := by
  cases l <;> rfl

theorem call_poll {τ : Timed} {q : Cue} {l : Leg} (hl : (τ.hall q).mode = .cleaning l) :
    (τ.call q).mode = if (τ.hall q).late q.time = true then .cleanTimeout else .cleaning l := by
  show (τ.hall q).mode.poll _ _ _ _ = _
  rw [hl]
  rfl

/-- a call that ends in a cleaning leaves time for it -/
theorem call_in_time {τ : Timed} {q : Cue} {l : Leg} (h : (τ.hall q).Near q.time)
    (hl : (τ.call q).mode = .cleaning l) :
    q.time - (τ.call q).since < totalBudget ∧ q.time - (τ.call q).legSince < l.budget := by
  have hs : (τ.call q).mode.state = .cleaning := by rw [hl]; rfl
  by_cases hd : (τ.hall q).mode = .cleanDelay
  · have e : τ.call q = (τ.hall q).goto q.time (.cleaning l) := by rw [← hl]; rfl
    have e1 : (τ.call q).since = q.time := by
      rw [e]
      exact Timed.goto_since_of_ne (by rw [hd]; nofun)
    have e2 : (τ.call q).legSince = q.time := by
      rw [e]
      exact Timed.goto_legSince_of_ne (by rw [hd]; nofun)
    rw [e1, e2, Nat.sub_self]
    exact ⟨by decide, by cases l <;> decide⟩
  · have hp : (τ.call q).mode = (τ.hall q).mode := (Mode.poll_cleaning hs hd).1
    have e : τ.call q = τ.hall q := by
      show (τ.hall q).goto q.time (τ.call q).mode = _
      rw [hp, Timed.goto_self]
    rw [e] at hl ⊢
    have hlate : ¬ (τ.hall q).late q.time = true := by
      intro hlate
      rw [call_poll hl, if_pos hlate] at hs
      cases hs
    rw [Timed.late_iff h hl] at hlate
    exact ⟨by omega, by omega⟩

/-- from one moment of a cleaning, `c`, to a later one, `c'`, with the log `out` between them: the
phase and its timer stayed as they were, or the next phase was begun -/
structure Advances (c c' : LitterFsmCtx) (out : List Out) : Prop where
  moves : LitterBox.moves out = []
  total : c'.cleanStartedTick = c.cleanStartedTick
  phase : (c'.cleanPhase = c.cleanPhase ∧ LitterBox.phases out = [] ∧
      c'.phaseStartedTick = c.phaseStartedTick) ∨
    (phaseStep c.cleanPhase = (.cleaning, c'.cleanPhase) ∧ LitterBox.phases out = [c'.cleanPhase])

theorem hall_advances {i : Inputs} {s : Logic} {τ : Timed} (h : Good s τ) (ho : s.fsm.out = [])
    (h0 : s.fsm.ctx.state = .cleaning) (h1 : (runningHall i s).fsm.ctx.state = .cleaning) :
    Advances s.fsm.ctx (runningHall i s).fsm.ctx (runningHall i s).fsm.out := by
  have hx := (hall_amid (i := i) h).shows
  rw [h.shows.state] at h0
  rw [hx.state] at h1
  obtain ⟨l, hm⟩ := Mode.cleaning_of_state h0
  obtain ⟨l', hm'⟩ := Mode.cleaning_of_state h1
  obtain ⟨e1, e2, e3, e4⟩ := reset_cleaning hm h1
  have hmoves := hall_moves (i := i) h
  have hphases := hall_phases (i := i) h
  rw [e4, e3, e2, e1, ho] at hmoves hphases
  rw [Mode.hop_self] at hmoves
  rw [Mode.legHop_self] at hphases
  have eh : τ.hall (cue i s) = τ.goto i.time (τ.hall (cue i s)).mode := by
    have e : τ.hall (cue i s) =
      (τ.reset (cue i s)).goto i.time (τ.hall (cue i s)).mode := rfl
    rwa [e4] at e
  have hss : (τ.hall (cue i s)).mode.state = τ.mode.state := h1.trans h0.symm
  refine ⟨?_, ?_, ?_⟩
  · rw [hmoves, Mode.hop_of_eq hss.symm]
    rfl
  · rw [hx.started h1, h.shows.started h0, eh]
    exact congrArg tick (Timed.goto_since hss)
  · rw [hx.phase, h.shows.phase, hphases]
    by_cases hmm : (τ.hall (cue i s)).mode = τ.mode
    · left
      rw [hmm, Mode.legHop_self, hx.leg h1, h.shows.leg h0, eh, hmm, Timed.goto_self]
      exact ⟨rfl, rfl, rfl⟩
    · right
      have hn : (τ.hall (cue i s)).mode = l.next := by
        have e : (τ.hall (cue i s)).mode = (τ.reset (cue i s)).mode.takeHall (cue i s).pos := rfl
        rw [e4, hm] at e
        unfold Mode.takeHall at e
        dsimp only at e
        split at e
        · exact e
        · exact absurd (e.trans hm.symm) hmm
      rw [hm'] at hmm ⊢
      rw [hm'] at hn
      rw [hm, Mode.legHop_leg fun e => hmm (e.symm.trans hm.symm)]
      refine ⟨?_, rfl⟩
      show phaseStep l.phase = _
      rw [Leg.phaseStep_next, ← hn]
      rfl

theorem step_advances {s : Logic} {τ : Timed} (h : Good s τ) (x : Step)
    (h0 : s.fsm.ctx.state = .cleaning) (h1 : (s.step x).fsm.ctx.state = .cleaning) :
    Advances s.fsm.ctx (s.step x).fsm.ctx (s.step x).fsm.out := by
  cases x with
  | requestClean => exact ⟨rfl, rfl, Or.inl ⟨rfl, rfl, rfl⟩⟩
  | requestReset => exact ⟨rfl, rfl, Or.inl ⟨rfl, rfl, rfl⟩⟩
  | litterTimeout t =>
    rw [h.shows.state] at h0
    rw [(h.litterTimeout t).shows.state, Timed.after_litterTimeout t h0] at h1
    cases h1
  | running i =>
    have hf := h.fresh
    have hs0 : τ.mode.state = .cleaning := h.shows.state.symm.trans h0
    rw [step_running i h] at h1 ⊢
    have hs1 : (τ.call (cue i s.fresh)).mode.state = .cleaning :=
      (tick_amid hf).shows.state.symm.trans h1
    obtain ⟨l, hm⟩ := Mode.cleaning_of_state hs0
    obtain ⟨hc, e⟩ := call_of_cleaning hm hs1
    have hx : (runningHall i s.fresh).fsm.ctx.state = .cleaning := by
      rw [(hall_amid hf).shows.state]
      exact hc
    -- the poll of a cleaning that goes on leaves the context and the log as they are
    have hadv := hall_advances hf rfl h0 hx
    have ht := (tick_amid (i := i) hf).shows
    have hh := (hall_amid (i := i) hf).shows
    have hlog := (tick_stage (i := i) hf).log
    have hmoves := hlog.moves_eq
    have hphases := hlog.phases_eq
    rw [e, Mode.hop_self] at hmoves
    rw [e, Mode.legHop_self] at hphases
    rw [e] at ht
    have ph := ht.phase.trans hh.phase.symm
    have htotal := (ht.started hc).trans (hh.started hc).symm
    refine ⟨hmoves.trans hadv.moves, htotal.trans hadv.total, ?_⟩
    show ((runningTick i s.fresh).fsm.ctx.cleanPhase = _ ∧
      phases (runningTick i s.fresh).fsm.out = _ ∧
      (runningTick i s.fresh).fsm.ctx.phaseStartedTick = _) ∨
      (_ = (_, (runningTick i s.fresh).fsm.ctx.cleanPhase) ∧
        phases (runningTick i s.fresh).fsm.out = [(runningTick i s.fresh).fsm.ctx.cleanPhase])
    rw [ph, (ht.leg hc).trans (hh.leg hc).symm, show phases _ = _ from hphases]
    exact hadv.phase

/-- **Cleaning is time-bounded exactly**, whatever the tick shows: a call that reaches its poll in
CLEANING ends in CLEAN_TIMEOUT exactly when a budget is used up; a call that ends in CLEANING
leaves time; and within a cleaning only the next phase restarts the phase timer. -/
theorem clean_time_exact (g : Gpio) (i0 : Inputs) (l : List Step) (i : Inputs)
    (hp : Paced (2^31) (times (l ++ [.running i]))) :
    let s := (run g i0 l).fresh
    let x := runningHall i s
    let s' := run g i0 (l ++ [.running i])
    let c := (chronicle g i0 l).add i.time x.fsm.out
    let c' := chronicle g i0 (l ++ [.running i])
    (x.fsm.ctx.state = .cleaning → ∃ te tp, c.entered = some te ∧ c.phaseStarted = some tp ∧
      te ≤ i.time ∧ tp ≤ i.time ∧
      (s'.fsm.ctx.state = .fault ∧ s'.fsm.ctx.faultCode = .cleanTimeout ↔
        20000 ≤ i.time - te ∨ phaseBudget x.fsm.ctx.cleanPhase ≤ i.time - tp)) ∧
    (s'.fsm.ctx.state = .cleaning → ∃ te tp, c'.entered = some te ∧ c'.phaseStarted = some tp ∧
      i.time - te < 20000 ∧ i.time - tp < phaseBudget s'.fsm.ctx.cleanPhase) ∧
    (s.fsm.ctx.state = .cleaning → x.fsm.ctx.state = .cleaning →
      Advances s.fsm.ctx x.fsm.ctx x.fsm.out) ∧
    (∀ y : Step, s.fsm.ctx.state = .cleaning →
      (run g i0 (l ++ [y])).fsm.ctx.state = .cleaning →
      Advances s.fsm.ctx (run g i0 (l ++ [y])).fsm.ctx (run g i0 (l ++ [y])).fsm.out) := by
  intro s x s' c c'
  obtain ⟨hpl, hn⟩ := paced_running hp
  have h : Good s (timed g i0 l) := (run_good g i0 l).fresh
  have hnear : ((timed g i0 l).hall (cue i s)).Near i.time :=
    Timed.Near.hall (q := cue i s) (timed_near g i0 l hpl i.time hn)
  have hx := (hall_amid (i := i) h).shows
  have hs' : Shows s'.fsm.ctx ((timed g i0 l).call (cue i s)) := by
    have hg := (run_good g i0 (l ++ [.running i])).shows
    rwa [timed_running] at hg
  refine ⟨fun hc => ?_, fun hc => ?_, fun h0 h1 => hall_advances h rfl h0 h1, fun y h0 h1 => ?_⟩
  · rw [hx.state] at hc
    obtain ⟨leg, hl⟩ := Mode.cleaning_of_state hc
    obtain ⟨he, hps⟩ := hall_recorded (i := i) h rfl (run_recorded g i0 l) hc
    obtain ⟨hle, hlp, -, -⟩ := hnear.cleaning leg hl
    refine ⟨_, _, he, hps, hle, hlp, ?_⟩
    have hph : x.fsm.ctx.cleanPhase = leg.phase := by rw [hx.phase, hl]; rfl
    have hlate := Timed.late_iff hnear hl
    rw [hs'.state, hs'.fault, call_poll hl, hph, Leg.phaseBudget_eq]
    refine Iff.trans ?_ hlate
    by_cases hb : ((timed g i0 l).hall (cue i s)).late (cue i s).time = true
    · rw [if_pos hb]
      exact ⟨fun _ => hb, fun _ => ⟨rfl, rfl⟩⟩
    · rw [if_neg hb]
      exact ⟨fun hh => absurd hh.1 nofun, fun hh => absurd hh hb⟩
  · rw [hs'.state] at hc
    obtain ⟨leg, hl⟩ := Mode.cleaning_of_state hc
    have hrec := run_recorded g i0 (l ++ [.running i])
    rw [timed_running] at hrec
    obtain ⟨he, hps⟩ := hrec hc
    have hph : s'.fsm.ctx.cleanPhase = leg.phase := by rw [hs'.phase, hl]; rfl
    rw [hph, Leg.phaseBudget_eq]
    exact ⟨_, _, he, hps, call_in_time hnear hl⟩
  · rw [run_snoc] at h1 ⊢
    exact step_advances (run_good g i0 l) y h0 h1

/-- a cleaning whose first leg takes `6000` ticks, across a turn of the tick counter -/
theorem clean_time_exact_wrap :
    let l : List Step := [.requestClean, .running (calmAt 4294967290)]
    (run lowPins (calmAt 0) (l ++ [.running (calmAt 4294973290)])).fsm.ctx.state = .fault ∧
    (run lowPins (calmAt 0) (l ++ [.running (calmAt 4294973290)])).fsm.ctx.faultCode =
      .cleanTimeout := by
  intro l
  obtain ⟨te, tp, -, hps, -, -, h⟩ := (clean_time_exact lowPins (calmAt 0) l (calmAt 4294973290)
    (by decide)).1 (by decide)
  have hstart : ((chronicle lowPins (calmAt 0) l).add (calmAt 4294973290).time
    (runningHall (calmAt 4294973290) (run lowPins (calmAt 0) l).fresh).fsm.out).phaseStarted =
    some 4294967290 := by decide
  have htp : tp = 4294967290 := Option.some.inj (hps.symm.trans hstart)
  have hphase : (runningHall (calmAt 4294973290)
    (run lowPins (calmAt 0) l).fresh).fsm.ctx.cleanPhase = .toPos2 := by decide
  refine h.mpr (Or.inr ?_)
  rw [hphase, htp]
  decide

end LitterBox
