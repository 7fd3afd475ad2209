import LitterBox.Logic.Reach

/-!
# A cleaning and the hall positions

How a call begins a cleaning (`call_enters`), what it does in one (`call_cleaning`) and how it ends
it at home (`call_finishes`); from these `hall_progress`: the hall stage loses and repeats nothing,
and a cleaning that ends in IDLE by itself has seen the three positions in order.
-/

namespace LitterBox

theorem Mode.mem_hop {μ μ' : Mode} {e : LitterFsmState × LitterFsmState} (h : e ∈ μ.hop μ') :
    e = (μ.state, μ'.state) ∧ μ.state ≠ μ'.state := by
  unfold Mode.hop at h
  split at h
  · exact absurd h List.not_mem_nil
  next hne => exact ⟨List.mem_singleton.mp h, hne⟩

/-! ## a call and a cleaning, on the modes -/

/-- a clean request is granted -/
def Cue.grants (q : Cue) (μ : Mode) : Prop :=
  q.occ = false ∧ q.full = false ∧ q.clean = true ∧ (μ = .idle ∨ μ = .cleanDelay)

/-- the clean delay ends in a cleaning -/
def Cue.elapses (q : Cue) (τ : Timed) : Prop :=
  q.occ = false ∧ q.full = false ∧ q.clean = false ∧ q.reset = false ∧ τ.mode = .cleanDelay ∧
    (τ.hall q).due q.time = true

theorem clean_hop {q : Cue} {τ : Timed} {a : LitterFsmState}
    (h : (a, .cleaning) ∈ (τ.occupancy q).mode.hop (τ.clean q).mode) :
    q.grants τ.mode ∧ a = τ.mode.state := by
  obtain ⟨he, hne⟩ := Mode.mem_hop h
  obtain ⟨ha, hs⟩ := Prod.mk.inj he
  have hbegins : (τ.occupancy q).mode.state ≠ .cleaning ∧ (τ.clean q).mode.state = .cleaning :=
    ⟨fun e => hne (e.trans hs), hs.symm⟩
  obtain ⟨hc, ho, hf, hm⟩ := Mode.begins_iff.mp hbegins
  have e : (τ.occupancy q).mode = (τ.mode.seeFull q.full).seeOccupied q.occ := rfl
  refine ⟨⟨ho, hf, hc, hm⟩, ha.trans ?_⟩
  rw [e, ho, hf]
  rcases hm with hm | hm <;> rw [hm] <;> rfl

/-- the hall stage does not lead into a waiting mode -/
theorem Mode.takeHall_waiting {μ : Mode} {pos : LitterHallPosition}
    (h : (μ.takeHall pos).window ≠ 0) : μ.takeHall pos = μ := by
  cases μ with
  | cleaning l =>
    refine absurd ?_ h
    unfold Mode.takeHall
    dsimp only
    split
    · cases l <;> rfl
    · rfl
  | _ => rfl

theorem Mode.takeHall_cleanDelay {μ : Mode} {pos : LitterHallPosition}
    (h : μ.takeHall pos = .cleanDelay) : μ = .cleanDelay := by
  rw [← h]
  exact (Mode.takeHall_waiting (by rw [h]; nofun)).symm

/-- what the poll makes of the mode after the hall stage, when a cleaning comes out -/
theorem Mode.poll_cleaning {μ : Mode} {occ full due late : Bool}
    (h : (μ.poll occ full due late).state = .cleaning) (hμ : μ ≠ .cleanDelay) :
    μ.poll occ full due late = μ ∧ μ.state = .cleaning := by
  revert h
  cases μ with
  | cleanDelay => exact absurd rfl hμ
  | cleaning l =>
    cases late
    · exact fun _ => ⟨rfl, rfl⟩
    · nofun
  | _ =>
    cases occ <;> cases full <;> cases due <;> nofun

/-- the poll enters a cleaning from CLEAN_DELAY only, when its window is over -/
theorem tick_enters {q : Cue} {τ : Timed} (h0 : (τ.hall q).mode.state ≠ .cleaning)
    (h1 : (τ.call q).mode.state = .cleaning) :
    (τ.hall q).mode = .cleanDelay ∧ (τ.hall q).due q.time = true := by
  have hcall : (τ.call q).mode = (τ.hall q).mode.poll q.occ q.full ((τ.hall q).due q.time)
    ((τ.hall q).late q.time) := rfl
  have hm : (τ.hall q).mode = .cleanDelay := by
    by_contra hne
    rw [hcall] at h1
    exact h0 (Mode.poll_cleaning h1 hne).2
  refine ⟨hm, ?_⟩
  by_contra hd
  rw [hcall, hm, Bool.eq_false_iff.mpr hd] at h1
  cases h1

theorem tick_hop {q : Cue} {τ : Timed} {a : LitterFsmState}
    (h : (a, .cleaning) ∈ (τ.hall q).mode.hop (τ.call q).mode) :
    q.elapses τ ∧ a = τ.mode.state := by
  obtain ⟨he, hne⟩ := Mode.mem_hop h
  have hs : (τ.call q).mode.state = .cleaning := (Prod.mk.inj he).2.symm
  have ha : a = (τ.hall q).mode.state := (Prod.mk.inj he).1
  obtain ⟨hm, hdue⟩ := tick_enters (hs ▸ hne) hs
  have h4 : (τ.reset q).mode = .cleanDelay := Mode.takeHall_cleanDelay hm
  obtain ⟨h3, hr⟩ := Mode.takeReset_cleanDelay (μ := (τ.clean q).mode) h4
  obtain ⟨h2, hc⟩ := Mode.takeClean_cleanDelay (μ := (τ.occupancy q).mode) h3
  obtain ⟨h1, ho⟩ := Mode.seeOccupied_calm (μ := (τ.binFull q).mode) h2 (Or.inr rfl)
  obtain ⟨h0, hf⟩ := Mode.seeFull_calm (μ := τ.mode) h1 (Or.inr rfl)
  rw [ha, hm, h0]
  exact ⟨⟨ho, hf, hc, hr, h0, hdue⟩, rfl⟩

/-- **a call begins a cleaning** on a granted request, or when the clean delay has elapsed -/
theorem call_enters {i : Inputs} {s : Logic} {τ : Timed} (h : Good s τ) (ho : s.fsm.out = [])
    {a : LitterFsmState} (he : (a, .cleaning) ∈ moves (runningTick i s).fsm.out) :
    ((cue i s).grants τ.mode ∨ (cue i s).elapses τ) ∧ a = τ.mode.state := by
  have no : ∀ {μ μ' : Mode}, (∀ l, μ' = .cleaning l → μ.state = .cleaning) →
      (a, .cleaning) ∉ μ.hop μ' := by
    intro μ μ' hμ hmem
    obtain ⟨e, hne⟩ := Mode.mem_hop hmem
    have hs : μ'.state = .cleaning := (Prod.mk.inj e).2.symm
    obtain ⟨l, hl⟩ := Mode.cleaning_of_state hs
    exact hne ((hμ l hl).trans hs.symm)
  rcases (mem_call_moves h ho).mp he with he | he | he | he | he | he
  · exact (tick_hop he).imp Or.inr id
  · refine absurd he (no fun l hl => ?_)
    rcases Mode.takeHall_cleaning (μ := (τ.reset (cue i s)).mode) hl with e | ⟨l', e, -⟩
    · rw [e]; rfl
    · rw [e]; rfl
  · refine absurd he (no fun l hl => ?_)
    rw [Mode.takeReset_cleaning (μ := (τ.clean (cue i s)).mode) hl]
    rfl
  · exact (clean_hop he).imp Or.inl id
  · refine absurd he (no fun l hl => ?_)
    rw [Mode.seeOccupied_cleaning (μ := (τ.binFull (cue i s)).mode) hl]
    rfl
  · refine absurd he (no fun l hl => ?_)
    rw [Mode.seeFull_cleaning (μ := τ.mode) hl]
    rfl

/-- a cleaning at the reset stage: it goes on, or it was interrupted -/
theorem reset_from_cleaning (q : Cue) {τ : Timed} {l : Leg} (hm : τ.mode = .cleaning l) :
    ((τ.reset q).mode = .cleaning l ∧ q.occ = false ∧ q.full = false ∧ q.reset = false) ∨
      ((τ.reset q).mode = .idle ∧ q.reset = true) ∨
      (τ.reset q).mode = .safeStop ∨ (τ.reset q).mode = .binFull := by
  have e : (τ.reset q).mode = (((τ.mode.seeFull q.full).seeOccupied q.occ).takeClean
    q.clean).takeReset q.reset q.occ q.full := rfl
  rw [e, hm]
  cases q.full <;> cases q.occ <;> cases q.clean <;> cases q.reset <;>
    simp [Mode.seeFull, Mode.seeOccupied, Mode.takeClean, Mode.takeReset]

/-- from a running leg at the hall stage to the end of the call -/
theorem call_of_reset {q : Cue} {τ : Timed} {l : Leg} (hr : (τ.reset q).mode = .cleaning l)
    (hs : (τ.call q).mode.state = .cleaning) :
    (τ.call q).mode = if q.pos = l.target then l.next else .cleaning l := by
  have hh : (τ.hall q).mode = if q.pos = l.target then l.next else .cleaning l := by
    show (τ.reset q).mode.takeHall q.pos = _
    rw [hr]
    rfl
  have hne : (τ.hall q).mode ≠ .cleanDelay := by
    rw [hh]
    split
    · cases l <;> nofun
    · nofun
  rw [← hh]
  exact (Mode.poll_cleaning hs hne).1

/-- a cleaning at the poll was not interrupted before -/
theorem reset_goes_on {q : Cue} {τ : Timed} {l : Leg} (hm : τ.mode = .cleaning l)
    (hs : (τ.hall q).mode.state = .cleaning) :
    (τ.reset q).mode = .cleaning l ∧ q.occ = false ∧ q.full = false ∧ q.reset = false := by
  have hr : (τ.reset q).mode.state = .cleaning := by
    by_contra hc
    have e : (τ.hall q).mode = (τ.reset q).mode := Mode.takeHall_outside _ hc
    exact hc (e ▸ hs)
  rcases reset_from_cleaning q hm with h | h | h | h
  · exact h
  · rw [h.1] at hr; cases hr
  · rw [h] at hr; cases hr
  · rw [h] at hr; cases hr

/-- stages that leave the mode alone leave the times alone -/
theorem reset_self {q : Cue} {τ : Timed} (hf : τ.mode.seeFull q.full = τ.mode)
    (ho : τ.mode.seeOccupied q.occ = τ.mode) (hc : τ.mode.takeClean q.clean = τ.mode)
    (hr : τ.mode.takeReset q.reset q.occ q.full = τ.mode) :
    τ.binFull q = τ ∧ τ.occupancy q = τ ∧ τ.clean q = τ ∧ τ.reset q = τ := by
  have e1 : τ.binFull q = τ := by
    unfold Timed.binFull
    rw [hf, Timed.goto_self]
  have e2 : τ.occupancy q = τ := by
    unfold Timed.occupancy
    rw [e1, ho, Timed.goto_self]
  have e3 : τ.clean q = τ := by
    unfold Timed.clean
    rw [e2, hc, Timed.goto_self]
  have e4 : τ.reset q = τ := by
    unfold Timed.reset
    rw [e3, hr, Timed.goto_self]
  exact ⟨e1, e2, e3, e4⟩

/-- the stages of a call in a cleaning that goes on: up to the hall stage they do nothing -/
theorem reset_cleaning {q : Cue} {τ : Timed} {l : Leg} (hm : τ.mode = .cleaning l)
    (hs : (τ.hall q).mode.state = .cleaning) :
    τ.binFull q = τ ∧ τ.occupancy q = τ ∧ τ.clean q = τ ∧ τ.reset q = τ := by
  obtain ⟨-, ho, hf, hq⟩ := reset_goes_on hm hs
  refine reset_self ?_ ?_ ?_ ?_
  · rw [hf, hm]; rfl
  · rw [ho, hm]; rfl
  · rw [hm]; rfl
  · rw [hq, hm]; rfl

/-- a call that leaves a cleaning running does nothing at its poll -/
theorem call_of_cleaning {q : Cue} {τ : Timed} {l : Leg} (hm : τ.mode = .cleaning l)
    (hs : (τ.call q).mode.state = .cleaning) :
    (τ.hall q).mode.state = .cleaning ∧ τ.call q = τ.hall q := by
  have hne : (τ.hall q).mode ≠ .cleanDelay := by
    intro h
    have hr : (τ.reset q).mode = .cleanDelay := Mode.takeHall_cleanDelay h
    rcases reset_from_cleaning q hm with e | e | e | e
    · rw [e.1] at hr; cases hr
    · rw [e.1] at hr; cases hr
    · rw [e] at hr; cases hr
    · rw [e] at hr; cases hr
  have hp : (τ.call q).mode = (τ.hall q).mode ∧ (τ.hall q).mode.state = .cleaning :=
    Mode.poll_cleaning hs hne
  refine ⟨hp.2, ?_⟩
  show (τ.hall q).goto q.time (τ.call q).mode = τ.hall q
  rw [hp.1, Timed.goto_self]

/-- **a call in a cleaning** that goes on: the leg ends exactly when its target is reached -/
theorem call_cleaning {q : Cue} {τ : Timed} {l : Leg} (hm : τ.mode = .cleaning l)
    (hs : (τ.call q).mode.state = .cleaning) :
    (τ.call q).mode = if q.pos = l.target then l.next else .cleaning l :=
  call_of_reset (reset_goes_on hm (call_of_cleaning hm hs).1).1 hs

/-- **a call that begins a cleaning** and leaves the machine in it -/
theorem call_begins {q : Cue} {τ : Timed} (h : q.grants τ.mode ∨ q.elapses τ)
    (hs : (τ.call q).mode.state = .cleaning) :
    (τ.call q).mode = .cleaning .toPos2 ∨
      ((τ.call q).mode = .cleaning .toPos3 ∧ q.pos = .pos2Dump) := by
  rcases h with ⟨ho, hf, hc, hμ⟩ | ⟨ho, hf, hc, hr, hμ, hdue⟩
  · have e : (τ.reset q).mode = if q.reset = true then .idle else .cleaning .toPos2 := by
      show (((τ.mode.seeFull q.full).seeOccupied q.occ).takeClean q.clean).takeReset
        q.reset q.occ q.full = _
      rw [ho, hf, hc]
      rcases hμ with hμ | hμ <;> rw [hμ] <;> cases q.reset <;> rfl
    by_cases hr : q.reset = true
    · rw [if_pos hr] at e
      have hh : (τ.hall q).mode = .idle := by
        show (τ.reset q).mode.takeHall q.pos = _
        rw [e]
        rfl
      have hp : (τ.call q).mode = .idle := by
        show (τ.hall q).mode.poll _ _ _ _ = _
        rw [hh]
        rfl
      rw [hp] at hs
      cases hs
    · rw [if_neg hr] at e
      have hcall := call_of_reset e hs
      by_cases hp : q.pos = Leg.toPos2.target
      · rw [if_pos hp] at hcall
        exact Or.inr ⟨hcall, hp⟩
      · rw [if_neg hp] at hcall
        exact Or.inl hcall
  · left
    have hh : (τ.hall q).mode = .cleanDelay := by
      rw [Timed.hall_mode, hμ, ho, hf, hc, hr]
      rfl
    show (τ.hall q).mode.poll _ _ _ _ = _
    rw [hdue, hh]
    rfl

/-- without a reset, only the hall stage leads from CLEANING to IDLE, at the end of the last leg -/
theorem call_ends_idle {i : Inputs} {s : Logic} {τ : Timed} (h : Good s τ)
    (ho : s.fsm.out = []) (hr : s.gResetRequest = false)
    (he : (.cleaning, .idle) ∈ moves (runningTick i s).fsm.out) :
    (τ.reset (cue i s)).mode = .cleaning .toPos1 ∧ (cue i s).pos = .pos1Home := by
  have same : ∀ {μ μ' : Mode}, (μ' = .idle → μ = .idle) →
      (LitterFsmState.cleaning, LitterFsmState.idle) ∉ μ.hop μ' := by
    intro μ μ' hμ hmem
    obtain ⟨e, hne⟩ := Mode.mem_hop hmem
    have hi := Mode.idle_of_state (Prod.mk.inj e).2.symm
    exact hne (by rw [hμ hi, hi])
  rcases (mem_call_moves h ho).mp he with he | he | he | he | he | he
  · obtain ⟨e, -⟩ := Mode.mem_hop he
    have h1 : (τ.hall (cue i s)).mode.state = .cleaning := (Prod.mk.inj e).1.symm
    have h2 : ((τ.hall (cue i s)).mode.poll _ _ _ _).state = .idle := (Prod.mk.inj e).2.symm
    cases hh : (τ.hall (cue i s)).mode with
    | cleaning l' =>
      rw [hh] at h2
      unfold Mode.poll at h2
      dsimp only at h2
      split at h2 <;> cases h2
    | _ => rw [hh] at h1; cases h1
  · obtain ⟨e, -⟩ := Mode.mem_hop he
    have h1 : (τ.reset (cue i s)).mode.state = .cleaning := (Prod.mk.inj e).1.symm
    have h2 : ((τ.reset (cue i s)).mode.takeHall (cue i s).pos).state = .idle :=
      (Prod.mk.inj e).2.symm
    obtain ⟨l, hl⟩ := Mode.cleaning_of_state h1
    rw [hl] at h2 ⊢
    unfold Mode.takeHall at h2
    dsimp only at h2
    split at h2
    next hp =>
      cases l with
      | toPos1 => exact ⟨rfl, hp⟩
      | _ => cases h2
    · cases h2
  · have stays : (τ.clean (cue i s)).mode.takeReset s.gResetRequest (cue i s).occ (cue i s).full =
        (τ.clean (cue i s)).mode := by
      rw [hr]
      cases (τ.clean (cue i s)).mode <;> rfl
    exact absurd he (same fun hi => stays.symm.trans hi)
  · exact absurd he (same Mode.takeClean_idle)
  · exact absurd he (same fun hi =>
      (Mode.seeOccupied_calm (μ := (τ.binFull (cue i s)).mode) hi (Or.inl rfl)).1)
  · exact absurd he (same fun hi => (Mode.seeFull_calm (μ := τ.mode) hi (Or.inl rfl)).1)

/-- **a call that ends a cleaning in IDLE** without a reset -/
theorem call_finishes {i : Inputs} {s : Logic} {τ : Timed} {l : Leg} (h : Good s τ)
    (ho : s.fsm.out = []) (hm : τ.mode = .cleaning l) (hr : s.gResetRequest = false)
    (he : (.cleaning, .idle) ∈ moves (runningTick i s).fsm.out) :
    l = .toPos1 ∧ (cue i s).pos = .pos1Home := by
  obtain ⟨hl, hp⟩ := call_ends_idle h ho hr he
  refine ⟨?_, hp⟩
  rcases reset_from_cleaning (cue i s) hm with e | e | e | e
  · exact Mode.cleaning.inj (e.1.symm.trans hl)
  · rw [e.1] at hl; cases hl
  · rw [e] at hl; cases hl
  · rw [e] at hl; cases hl

/-- a call that enters CLEANING does not end that cleaning in IDLE without a reset -/
theorem call_enters_not_ends {i : Inputs} {s : Logic} {τ : Timed} (h : Good s τ)
    (ho : s.fsm.out = []) (hr : s.gResetRequest = false) {a : LitterFsmState}
    (he : (a, .cleaning) ∈ moves (runningTick i s).fsm.out) :
    (.cleaning, .idle) ∉ moves (runningTick i s).fsm.out := by
  intro hend
  obtain ⟨hl, -⟩ := call_ends_idle h ho hr hend
  have e : (τ.reset (cue i s)).mode = (((τ.mode.seeFull (cue i s).full).seeOccupied
    (cue i s).occ).takeClean (cue i s).clean).takeReset (cue i s).reset (cue i s).occ
    (cue i s).full := rfl
  have hq : (cue i s).reset = false := hr
  rcases (call_enters h ho he).1 with ⟨h1, h2, h3, hμ⟩ | ⟨h1, h2, h3, -, hμ, -⟩
  · rw [h1, h2, h3, hq] at e
    rcases hμ with hμ | hμ <;> rw [hμ, hl] at e <;> cases e
  · rw [h1, h2, h3, hq, hμ, hl] at e
    cases e

/-! ## the hall stage of a run -/

theorem runningHall_stable {i : Inputs} {s : Logic} {τ : Timed} (h : Good s τ) :
    (runningHall i s).gHallState.stablePosition = (cue i s).pos := by
  have hp : (cue i s).pos = (logicHallPoll i s.gHallState).2.2.stablePosition :=
    (logicHallPoll_frame i s.gHallState).2.2
  rw [hp]
  by_cases hc : (τ.reset (cue i s)).mode.state = .cleaning
  · obtain ⟨l, hl⟩ := Mode.cleaning_of_state hc
    rw [runningHall_cleaning h hl]
    split <;> rfl
  · rw [runningHall_outside h hc]

/-- the debounced position after a step -/
def stableAfter (g : Gpio) (i0 : Inputs) (l : List Step) : LitterHallPosition :=
  (run g i0 l).gHallState.stablePosition

theorem stableAfter_running (g : Gpio) (i0 : Inputs) (l : List Step) (i : Inputs) :
    stableAfter g i0 (l ++ [.running i]) = (cue i (run g i0 l)).pos := by
  have h := runningHall_stable (i := i) (run_good g i0 l).fresh
  unfold stableAfter
  rw [run_snoc, step_running i (run_good g i0 l)]
  exact h

/-- one step along TO_POS2, TO_POS3, TO_POS1, IDLE -/
def phaseStep : LitterCleanPhase → LitterFsmState × LitterCleanPhase
  | .toPos2 => (.cleaning, .toPos3)
  | .toPos3 => (.cleaning, .toPos1)
  | .toPos1 => (.idle, .none)
  | .none => (.idle, .none)

theorem Leg.phaseStep_next (l : Leg) : phaseStep l.phase = (l.next.state, l.next.phase) := by
  cases l <;> rfl

theorem hall_stage_exact {i : Inputs} {s : Logic} {τ : Timed} (h : Good s τ) :
    let r := runningReset i s
    let x := runningHall i s
    (x.fsm.ctx.state, x.fsm.ctx.cleanPhase) =
      if r.fsm.ctx.state = .cleaning ∧
          x.gHallState.stablePosition = logicHallTargetPositionFromPhase r.fsm.ctx.cleanPhase then
        phaseStep r.fsm.ctx.cleanPhase
      else (r.fsm.ctx.state, r.fsm.ctx.cleanPhase) := by
  have hr := (reset_amid (i := i) h).shows
  have hx := (hall_amid (i := i) h).shows
  dsimp only
  rw [hr.state, hr.phase, hx.state, hx.phase, runningHall_stable h]
  show (((τ.reset (cue i s)).mode.takeHall (cue i s).pos).state,
    ((τ.reset (cue i s)).mode.takeHall (cue i s).pos).phase) = _
  cases hm : (τ.reset (cue i s)).mode with
  | cleaning l =>
    show ((Mode.takeHall _ (.cleaning l)).state, _) = if LitterFsmState.cleaning = .cleaning ∧
      (cue i s).pos = logicHallTargetPositionFromPhase l.phase then phaseStep l.phase else _
    rw [Leg.phase_target, Leg.phaseStep_next]
    by_cases hp : (cue i s).pos = l.target
    · rw [if_pos ⟨rfl, hp⟩]
      unfold Mode.takeHall
      dsimp only
      rw [if_pos hp]
    · rw [if_neg fun hh => hp hh.2]
      unfold Mode.takeHall
      dsimp only
      rw [if_neg hp]
  | _ => exact (if_neg fun hh => absurd hh.1 nofun).symm

/-! ## a whole cleaning -/

section stay

variable (g : Gpio) (i0 : Inputs) (a : List Step)

/-- in the steps `p` after the run `a`, a call found the drum at position 2 -/
def seenPos2 (p : List Step) : Prop :=
  ∃ b1 y b2, p = b1 ++ .running y :: b2 ∧ stableAfter g i0 (a ++ b1 ++ [.running y]) = .pos2Dump

/-- a call found it at position 2, and a later call at position 3 -/
def seenPos3 (p : List Step) : Prop :=
  ∃ b1 y b2 z b3, p = b1 ++ .running y :: b2 ++ .running z :: b3 ∧
    stableAfter g i0 (a ++ b1 ++ [.running y]) = .pos2Dump ∧
    stableAfter g i0 (a ++ (b1 ++ .running y :: b2) ++ [.running z]) = .pos3SandReturn

/-- what a leg has behind it -/
def legSeen (p : List Step) : Leg → Prop
  | .toPos2 => True
  | .toPos3 => seenPos2 g i0 a p
  | .toPos1 => seenPos3 g i0 a p

variable {g i0 a}

theorem legSeen_snoc {p : List Step} {l : Leg} (h : legSeen g i0 a p l) (x : Step) :
    legSeen g i0 a (p ++ [x]) l := by
  cases l with
  | toPos2 => exact trivial
  | toPos3 =>
    obtain ⟨b1, y, b2, e, hy⟩ := h
    refine ⟨b1, y, b2 ++ [x], ?_, hy⟩
    rw [e, List.append_assoc]
    rfl
  | toPos1 =>
    obtain ⟨b1, y, b2, z, b3, e, hy, hz⟩ := h
    refine ⟨b1, y, b2, z, b3 ++ [x], ?_, hy, hz⟩
    rw [e, List.append_assoc]
    rfl

/-- a call that finds the drum at the end of a leg -/
theorem legSeen_next {p : List Step} {l l' : Leg} (h : legSeen g i0 a p l) (i : Inputs)
    (hp : stableAfter g i0 (a ++ p ++ [.running i]) = l.target) (hl : l.next = .cleaning l') :
    legSeen g i0 a (p ++ [.running i]) l' := by
  cases l with
  | toPos2 =>
    cases hl
    exact ⟨p, i, [], rfl, hp⟩
  | toPos3 =>
    cases hl
    obtain ⟨b1, y, b2, rfl, hy⟩ := h
    exact ⟨b1, y, b2, i, [], rfl, hy, hp⟩
  | toPos1 => cases hl

/-- **run lemma**: as long as a cleaning lasts, its leg has the earlier positions behind it -/
theorem stay_seen (x0 : Inputs)
    (henter : ∃ st, (st, .cleaning) ∈ moves (run g i0 (a ++ [.running x0])).fsm.out)
    (hin : (run g i0 (a ++ [.running x0])).fsm.ctx.state = .cleaning) (b : List Step)
    (hstay : ∀ b1 x b2, b = b1 ++ x :: b2 →
      moves (run g i0 (a ++ .running x0 :: b1 ++ [x])).fsm.out = []) :
    ∃ l, (timed g i0 (a ++ .running x0 :: b)).mode = .cleaning l ∧
      legSeen g i0 a (.running x0 :: b) l := by
  induction b using List.reverseRecOn with
  | nil =>
    obtain ⟨st, hmem⟩ := henter
    have h := run_good g i0 a
    rw [running_out] at hmem
    have hs : ((timed g i0 a).call (cue x0 (run g i0 a))).mode.state = .cleaning := by
      rw [← timed_running, ← (run_good g i0 _).shows.state]
      exact hin
    have hpos := stableAfter_running g i0 a x0
    show ∃ l : Leg, (timed g i0 (a ++ [Step.running x0])).mode = Mode.cleaning l ∧ _
    rw [timed_running]
    rcases call_begins (call_enters h.fresh rfl hmem).1 hs with hm | ⟨hm, hp⟩
    · exact ⟨.toPos2, hm, trivial⟩
    · refine ⟨.toPos3, hm, [], x0, [], rfl, ?_⟩
      rw [List.append_nil, hpos]
      exact hp
  | append_singleton b x ih =>
    have hstay' : ∀ b1 y b2, b = b1 ++ y :: b2 →
        moves (run g i0 (a ++ .running x0 :: b1 ++ [y])).fsm.out = [] := by
      intro b1 y b2 e
      exact hstay b1 y (b2 ++ [x]) (by rw [e, List.append_assoc]; rfl)
    obtain ⟨l, hm, hl⟩ := ih hstay'
    have hmoves := hstay b x [] rfl
    have happ : a ++ .running x0 :: (b ++ [x]) = (a ++ .running x0 :: b) ++ [x] := by
      rw [List.append_assoc]
      rfl
    rw [happ]
    have h := run_good g i0 (a ++ .running x0 :: b)
    have hlead := step_leads h x
    rw [run_snoc] at hmoves
    rw [hmoves, (h.step x).shows.state, h.shows.state, hm] at hlead
    have hs : ((timed g i0 (a ++ .running x0 :: b)).after
      (run g i0 (a ++ .running x0 :: b)) x).mode.state = .cleaning := hlead.symm
    rw [timed_snoc]
    show ∃ l : Leg, _ = Mode.cleaning l ∧ legSeen g i0 a ((Step.running x0 :: b) ++ [x]) l
    cases x with
    | requestClean => exact ⟨l, hm, legSeen_snoc hl _⟩
    | requestReset => exact ⟨l, hm, legSeen_snoc hl _⟩
    | litterTimeout t =>
      rw [Timed.after_litterTimeout t (by rw [hm]; rfl)] at hs
      cases hs
    | running i =>
      have hcall := call_cleaning hm hs
      have hpos := stableAfter_running g i0 (a ++ .running x0 :: b) i
      by_cases hp : (cue i (run g i0 (a ++ .running x0 :: b))).pos = l.target
      · rw [if_pos hp] at hcall
        have hs' : l.next.state = .cleaning := by rw [← hcall]; exact hs
        obtain ⟨l', hl'⟩ := Mode.cleaning_of_state hs'
        exact ⟨l', hcall.trans hl', legSeen_next hl i (hpos.trans hp) hl'⟩
      · rw [if_neg hp] at hcall
        exact ⟨l, hcall, legSeen_snoc hl _⟩

end stay

/-- **The hall stage loses and repeats nothing.**  It makes a step exactly when the machine cleans
and the debounced position is the target of the phase; a cleaning that ends in IDLE in a call
without a reset contains calls that found the positions 2, 3 and 1, in this order; and it does not
end so in the call that began it. -/
theorem hall_progress (g : Gpio) (i0 : Inputs) :
    (∀ (l : List Step) (i : Inputs),
      let r := runningReset i (run g i0 l)
      let x := runningHall i (run g i0 l)
      (x.fsm.ctx.state, x.fsm.ctx.cleanPhase) =
        if r.fsm.ctx.state = .cleaning ∧
            x.gHallState.stablePosition = logicHallTargetPositionFromPhase r.fsm.ctx.cleanPhase then
          phaseStep r.fsm.ctx.cleanPhase
        else (r.fsm.ctx.state, r.fsm.ctx.cleanPhase)) ∧
    (∀ (a : List Step) (x0 : Inputs) (b : List Step) (x1 : Inputs),
      (∃ st, (st, .cleaning) ∈ moves (run g i0 (a ++ [.running x0])).fsm.out) →
      (run g i0 (a ++ [.running x0])).fsm.ctx.state = .cleaning →
      (∀ b1 x b2, b = b1 ++ x :: b2 →
        moves (run g i0 (a ++ .running x0 :: b1 ++ [x])).fsm.out = []) →
      (run g i0 (a ++ .running x0 :: b)).gResetRequest = false →
      (.cleaning, .idle) ∈ moves (run g i0 (a ++ .running x0 :: b ++ [.running x1])).fsm.out →
      ∃ b1 y b2 z b3, .running x0 :: b = b1 ++ .running y :: b2 ++ .running z :: b3 ∧
        stableAfter g i0 (a ++ b1 ++ [.running y]) = .pos2Dump ∧
        stableAfter g i0 (a ++ (b1 ++ .running y :: b2) ++ [.running z]) = .pos3SandReturn ∧
        stableAfter g i0 (a ++ .running x0 :: b ++ [.running x1]) = .pos1Home) ∧
    (∀ (a : List Step) (x : Inputs) (st : LitterFsmState),
      (st, .cleaning) ∈ moves (run g i0 (a ++ [.running x])).fsm.out →
      (run g i0 a).gResetRequest = false →
      (.cleaning, .idle) ∉ moves (run g i0 (a ++ [.running x])).fsm.out) := by
  refine ⟨fun l i => hall_stage_exact (run_good g i0 l),
    fun a x0 b x1 henter hin hstay hr hend => ?_, fun a x st henter hr => ?_⟩
  · obtain ⟨l, hm, hl⟩ := stay_seen x0 henter hin b hstay
    have h := run_good g i0 (a ++ .running x0 :: b)
    rw [running_out] at hend
    obtain ⟨rfl, hp⟩ := call_finishes h.fresh rfl hm hr hend
    obtain ⟨b1, y, b2, z, b3, e, hy, hz⟩ := hl
    exact ⟨b1, y, b2, z, b3, e, hy, hz, (stableAfter_running g i0 _ x1).trans hp⟩
  · rw [running_out] at henter ⊢
    exact call_enters_not_ends (run_good g i0 a).fresh rfl hr henter

/-- the drum at one of its positions -/
def pos1At (t : Nat) : Inputs := { calmAt t with pos1 := .low }
def pos2At (t : Nat) : Inputs := { calmAt t with pos2 := .low }
def pos3At (t : Nat) : Inputs := { calmAt t with pos3 := .low }

/-- a whole cleaning on request, up to the call before its last -/
def wholeCleaning : List Step :=
  [.running (pos2At 20), .running (pos2At 40), .running (pos3At 60), .running (pos3At 80),
    .running (pos1At 100)]

/-- the three positions of that cleaning -/
theorem hall_progress_wholeCleaning :
    ∃ b1 y b2 z b3, .running (calmAt 10) :: wholeCleaning =
        b1 ++ .running y :: b2 ++ .running z :: b3 ∧
      stableAfter lowPins (calmAt 0) ([.requestClean] ++ b1 ++ [.running y]) = .pos2Dump ∧
      stableAfter lowPins (calmAt 0) ([.requestClean] ++ (b1 ++ .running y :: b2) ++ [.running z]) =
        .pos3SandReturn ∧
      stableAfter lowPins (calmAt 0) ([.requestClean] ++ .running (calmAt 10) :: wholeCleaning ++
        [.running (pos1At 120)]) = .pos1Home := by
  refine (hall_progress lowPins (calmAt 0)).2.1 [.requestClean] (calmAt 10) wholeCleaning (pos1At 120)
    ⟨.idle, by decide⟩ (by decide) (fun b1 x b2 e => ?_) (by decide) (by decide)
  rcases b1 with _ | ⟨_, _ | ⟨_, _ | ⟨_, _ | ⟨_, _ | ⟨_, b1⟩⟩⟩⟩⟩ <;>
    simp only [wholeCleaning, List.nil_append, List.cons_append, List.cons.injEq] at e
  · obtain ⟨rfl, rfl⟩ := e
    decide
  · obtain ⟨rfl, rfl, rfl⟩ := e
    decide
  · obtain ⟨rfl, rfl, rfl, rfl⟩ := e
    decide
  · obtain ⟨rfl, rfl, rfl, rfl, rfl⟩ := e
    decide
  · obtain ⟨rfl, rfl, rfl, rfl, rfl, rfl⟩ := e
    decide
  · simp at e

end LitterBox
