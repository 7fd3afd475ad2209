import LitterBox.Logic.Requests
import LitterBox.Logic.Timing
import LitterBox.Logic.Uses

/-!
# What the future depends on

Two machines are ALIKE with a shift `k` of the tick if they are in the same mode, have the same
requests open and the same positions in the debouncer of the hall sensors, and every tick that is
still to be compared with the current one differs by `k`.  Alike machines stay alike under the same
inputs, `k` ticks later.  Ticks are compared by subtraction, so neither the start of the counter
nor its wrap matters, except where the tick `0` stands for "none": the last sample of the hall
sensors, and a deadline.

* `Alike.step`            one step, and its state changes;
* `future_alike`          what a run can still bring, and what it has forgotten;
* `uptime_irrelevant`     the same from the start on, for any shift.
-/

namespace LitterBox

/-! ## shifted calls -/

/-- the same call, `k` ticks later -/
def Inputs.later (k : Nat) (i : Inputs) : Inputs := { i with time := i.time + k }

def Step.later (k : Nat) : Step → Step
  | .running i => .running (i.later k)
  | .requestClean => .requestClean
  | .requestReset => .requestReset
  | .litterTimeout t => .litterTimeout (t + k)

/-- no tick of the call, and no deadline set in it, is the tick `0` that stands for none -/
def Inputs.plain (i : Inputs) : Prop :=
  i.now ≠ 0 ∧ tick (i.time + 2000) ≠ 0 ∧ tick (i.time + 5000) ≠ 0

instance (i : Inputs) : Decidable i.plain := by
  unfold Inputs.plain
  infer_instance

def Step.plain : Step → Prop
  | .running i => i.plain
  | _ => True

instance : DecidablePred Step.plain := fun x =>
  match x with
  | .running i => inferInstanceAs (Decidable i.plain)
  | .requestClean => .isTrue trivial
  | .requestReset => .isTrue trivial
  | .litterTimeout _ => .isTrue trivial

theorem Inputs.later_now (k : Nat) (i : Inputs) : (i.later k).now = i.now + tick k :=
  Clock.tick_add i.time k

/-! ## the timed mode -/

/-- the same mode, with every time still to be read `k` ticks later -/
structure Timed.Alike (k : Tick) (τ τ' : Timed) : Prop where
  mode : τ'.mode = τ.mode
  since : τ.mode.window ≠ 0 ∨ τ.mode.state = .cleaning → tick τ'.since = tick τ.since + k
  leg : τ.mode.state = .cleaning → tick τ'.legSince = tick τ.legSince + k
  deadline : τ.mode.window ≠ 0 → τ.mode.deadline (tick τ.since) ≠ 0 ∧
    τ.mode.deadline (tick τ'.since) ≠ 0

section goto

variable {k : Tick} {τ τ' : Timed} {t t' : Nat} {μ : Mode}

/-- a timed mode without limits -/
theorem Timed.Alike.of_none (hm : τ'.mode = τ.mode) (hw : τ.mode.window = 0)
    (hc : τ.mode.state ≠ .cleaning) : τ.Alike k τ' :=
  ⟨hm, fun h => absurd h (not_or.mpr ⟨not_not.mpr hw, hc⟩), fun h => absurd h hc,
    fun h => absurd hw h⟩

theorem Timed.Alike.goto (h : τ.Alike k τ') (ht : tick t' = tick t + k)
    (hp : μ.window ≠ 0 → μ.deadline (tick t) ≠ 0 ∧ μ.deadline (tick t') ≠ 0) :
    (τ.goto t μ).Alike k (τ'.goto t' μ) := by
  by_cases hs : μ.state = τ.mode.state
  · have hs' : μ.state = τ'.mode.state := by rw [h.mode]; exact hs
    refine ⟨rfl, fun hw => ?_, fun hc => ?_, fun hw => ?_⟩
    · rw [Timed.goto_since hs, Timed.goto_since hs']
      refine h.since ?_
      rcases hw with hw | hc
      · have hμ : μ = τ.mode := Mode.eq_of_window hw hs
        rw [Timed.goto_mode, hμ] at hw
        exact Or.inl hw
      · exact Or.inr (hs.symm.trans hc)
    · by_cases hm : μ = τ.mode
      · rw [Timed.goto_legSince hm, Timed.goto_legSince (hm.trans h.mode.symm)]
        exact h.leg (hs.symm.trans hc)
      · rw [Timed.goto_legSince_of_ne hm, Timed.goto_legSince_of_ne (by rw [h.mode]; exact hm)]
        exact ht
    · rw [Timed.goto_since hs, Timed.goto_since hs', Timed.goto_mode]
      rw [Timed.goto_mode] at hw
      have hμ : μ = τ.mode := Mode.eq_of_window hw hs
      rw [hμ] at hw ⊢
      exact h.deadline hw
  · have hs' : μ.state ≠ τ'.mode.state := by rw [h.mode]; exact hs
    have hm : μ ≠ τ.mode := fun e => hs (by rw [e])
    have hm' : μ ≠ τ'.mode := fun e => hs' (by rw [e])
    refine ⟨rfl, fun _ => ?_, fun _ => ?_, fun hw => ?_⟩
    · rw [Timed.goto_since_of_ne hs, Timed.goto_since_of_ne hs']
      exact ht
    · rw [Timed.goto_legSince_of_ne hm, Timed.goto_legSince_of_ne hm']
      exact ht
    · rw [Timed.goto_since_of_ne hs, Timed.goto_since_of_ne hs']
      exact hp hw

/-- the difference of two shifted ticks -/
theorem tick_shift {a b a' b' : Tick} (ha : a' = a + k) (hb : b' = b + k) : a' - b' = a - b := by
  rw [ha, hb]
  bv_omega

theorem Timed.Alike.due (h : τ.Alike k τ') (ht : tick t' = tick t + k) : τ'.due t' = τ.due t := by
  by_cases hw : τ.mode.window = 0
  · rw [Timed.due_of_none t hw, Timed.due_of_none t' (by rw [h.mode]; exact hw)]
  · obtain ⟨h1, h2⟩ := h.deadline hw
    unfold Timed.due fsmDeadlineExpired
    rw [h.mode, if_neg h1, if_neg h2]
    have hd : τ.mode.deadline (tick τ'.since) = τ.mode.deadline (tick τ.since) + k := by
      have e (a : Nat) : tick (a + τ.mode.window) = tick a + tick τ.mode.window :=
        Clock.tick_add a _
      rw [Mode.deadline_eq hw, Mode.deadline_eq hw, e, e, h.since (Or.inl hw)]
      bv_omega
    unfold Clock.reached
    rw [tick_shift ht hd]

theorem Timed.Alike.late (h : τ.Alike k τ') (ht : tick t' = tick t + k) :
    τ'.late t' = τ.late t := by
  by_cases hc : τ.mode.state = .cleaning
  · obtain ⟨l, hl⟩ := Mode.cleaning_of_state hc
    unfold Timed.late
    rw [h.mode, hl]
    dsimp only
    rw [tick_shift ht (h.since (Or.inr hc)), tick_shift ht (h.leg hc)]
  · rw [Timed.late_of_ne t hc, Timed.late_of_ne t' (by rw [h.mode]; exact hc)]

end goto

/-! ## the debouncer of the hall sensors -/

/-- the same candidate and the same stable position, with the ticks that are still to be read `k`
ticks later; the tick `0` of the last sample stands for none -/
structure LitterHallState.Alike (k : Tick) (h h' : LitterHallState) : Prop where
  candidate : h'.candidatePosition = h.candidatePosition
  stable : h'.stablePosition = h.stablePosition
  sampled : (h.lastSampleTick = 0 ∧ h'.lastSampleTick = 0) ∨
    h.lastSampleTick ≠ 0 ∧ h'.lastSampleTick ≠ 0 ∧ h'.lastSampleTick = h.lastSampleTick + k
  started : h.candidatePosition ≠ .unknown →
    h'.candidateStartedTick = h.candidateStartedTick + k

theorem logicHallDecodePosition_known (b : BitVec 8) : logicHallDecodePosition b ≠ .unknown := by
  unfold logicHallDecodePosition
  split
  · nofun
  · split
    · nofun
    · split
      · nofun
      · split <;> nofun

/-- what the dispatcher notes about the reports is not read by the poll -/
theorem LitterHallState.Alike.reported {k : Tick} {h h' : LitterHallState} (a : h.Alike k h')
    (p p' : LitterCleanPhase) (x x' : LitterHallPosition) :
    ({ h with lastReportedPhase := p, lastReportedPosition := x } : LitterHallState).Alike k
      { h' with lastReportedPhase := p', lastReportedPosition := x' } :=
  ⟨a.candidate, a.stable, a.sampled, a.started⟩

/-- **a poll** of alike debouncers shows the same position and keeps them alike -/
theorem LitterHallState.Alike.poll {n : Nat} {h h' : LitterHallState} {i : Inputs}
    (a : h.Alike (tick n) h') (hi : i.now ≠ 0) (hi' : (i.later n).now ≠ 0) :
    (logicHallPoll (i.later n) h').2.1 = (logicHallPoll i h).2.1 ∧
    (logicHallPoll i h).2.2.Alike (tick n) (logicHallPoll (i.later n) h').2.2 := by
  have hread : logicHallReadActiveBits (i.later n) = logicHallReadActiveBits i := rfl
  have hnow := Inputs.later_now n i
  -- both polls are due for a sample, or neither
  have hdue : (h'.lastSampleTick ≠ 0 ∧ 0 < rtTickFromMillisecond gHallCfg.samplePeriodMs ∧
      ((i.later n).now - h'.lastSampleTick).toInt <
        (rtTickFromMillisecond gHallCfg.samplePeriodMs).toInt) ↔
      (h.lastSampleTick ≠ 0 ∧ 0 < rtTickFromMillisecond gHallCfg.samplePeriodMs ∧
      (i.now - h.lastSampleTick).toInt <
        (rtTickFromMillisecond gHallCfg.samplePeriodMs).toInt) := by
    rcases a.sampled with ⟨e1, e2⟩ | ⟨h1, h2, e⟩
    · exact ⟨fun hh => absurd e2 hh.1, fun hh => absurd e1 hh.1⟩
    · rw [tick_shift hnow e]
      exact ⟨fun hh => ⟨h1, hh.2⟩, fun hh => ⟨h2, hh.2⟩⟩
  have hsampled : (i.now = 0 ∧ (i.later n).now = 0) ∨
      i.now ≠ 0 ∧ (i.later n).now ≠ 0 ∧ (i.later n).now = i.now + tick n := Or.inr ⟨hi, hi', hnow⟩
  unfold logicHallPoll
  dsimp only
  rw [hread, if_congr hdue rfl rfl, a.stable]
  split
  · exact ⟨rfl, a⟩
  · generalize hraw : logicHallDecodePosition (logicHallReadActiveBits i) = raw
    have hknown : raw ≠ .unknown := by
      rw [← hraw]
      exact logicHallDecodePosition_known _
    rw [a.candidate]
    by_cases hc : h.candidatePosition ≠ raw
    · rw [if_pos hc, if_pos hc]
      exact ⟨rfl, rfl, rfl, hsampled, fun _ => hnow⟩
    · rw [if_neg hc, if_neg hc]
      have hstarted := a.started (by rw [not_not.mp hc]; exact hknown)
      rw [tick_shift hnow hstarted]
      split
      · exact ⟨rfl, rfl, rfl, hsampled, fun _ => hstarted⟩
      · exact ⟨rfl, rfl, rfl, hsampled, fun _ => hstarted⟩

/-! ## the call -/

theorem Timed.Alike.plain {n : Nat} {τ τ' : Timed} {q : Cue} {μ : Mode} (h : τ.Alike (tick n) τ')
    (hp : tick (q.time + 2000) ≠ 0 ∧ tick (q.time + 5000) ≠ 0)
    (hp' : tick (q.time + n + 2000) ≠ 0 ∧ tick (q.time + n + 5000) ≠ 0) :
    (τ.goto q.time μ).Alike (tick n) (τ'.goto (q.time + n) μ) := by
  refine h.goto (Clock.tick_add q.time n) fun hw => ?_
  rw [Mode.deadline_eq hw, Mode.deadline_eq hw]
  cases μ with
  | leaveConfirm => exact ⟨hp.1, hp'.1⟩
  | cleanDelay => exact ⟨hp.2, hp'.2⟩
  | _ => exact absurd rfl hw

/-- the stages of two alike calls -/
structure SameStages (k : Tick) (τ τ' : Timed) (q q' : Cue) : Prop where
  binFull : (τ'.binFull q').mode = (τ.binFull q).mode
  occupancy : (τ'.occupancy q').mode = (τ.occupancy q).mode
  clean : (τ'.clean q').mode = (τ.clean q).mode
  reset : (τ'.reset q').mode = (τ.reset q).mode
  hall : (τ'.hall q').mode = (τ.hall q).mode
  call : (τ.call q).Alike k (τ'.call q')

theorem Timed.Alike.call {n : Nat} {τ τ' : Timed} {q : Cue} (h : τ.Alike (tick n) τ')
    (hp : tick (q.time + 2000) ≠ 0 ∧ tick (q.time + 5000) ≠ 0)
    (hp' : tick (q.time + n + 2000) ≠ 0 ∧ tick (q.time + n + 5000) ≠ 0) :
    SameStages (tick n) τ τ' q { q with time := q.time + n } := by
  generalize hq : ({ q with time := q.time + n } : Cue) = q'
  have h1 : (τ.binFull q).Alike (tick n) (τ'.binFull q') := by
    subst hq
    unfold Timed.binFull
    rw [h.mode]
    exact h.plain hp hp'
  have h2 : (τ.occupancy q).Alike (tick n) (τ'.occupancy q') := by
    unfold Timed.occupancy
    rw [h1.mode]
    subst hq
    exact h1.plain hp hp'
  have h3 : (τ.clean q).Alike (tick n) (τ'.clean q') := by
    unfold Timed.clean
    rw [h2.mode]
    subst hq
    exact h2.plain hp hp'
  have h4 : (τ.reset q).Alike (tick n) (τ'.reset q') := by
    unfold Timed.reset
    rw [h3.mode]
    subst hq
    exact h3.plain hp hp'
  have h5 : (τ.hall q).Alike (tick n) (τ'.hall q') := by
    unfold Timed.hall
    rw [h4.mode]
    subst hq
    exact h4.plain hp hp'
  refine ⟨h1.mode, h2.mode, h3.mode, h4.mode, h5.mode, ?_⟩
  have ht : tick q'.time = tick q.time + tick n := by
    subst hq
    exact Clock.tick_add q.time n
  unfold Timed.call
  rw [h5.mode, h5.due ht, h5.late ht]
  subst hq
  exact h5.plain hp hp'

/-! ## two machines -/

/-- **alike machines**; `c` is what `box_used` of the second one is ahead by -/
structure Alike (n : Nat) (c : Int) (s s' : Logic) (τ τ' : Timed) : Prop where
  good : Good s τ
  good' : Good s' τ'
  timed : τ.Alike (tick n) τ'
  clean : s'.gRemoteCleanRequest = s.gRemoteCleanRequest
  reset : s'.gResetRequest = s.gResetRequest
  hall : s.gHallState.Alike (tick n) s'.gHallState
  used : s'.boxUsed = s.boxUsed + c

/-- the hall state after a call is that of its poll, with a note of what was reported -/
theorem step_hall {s : Logic} {τ : Timed} (h : Good s τ) (i : Inputs) :
    ∃ p x, (s.step (.running i)).gHallState =
      { (logicHallPoll i s.gHallState).2.2 with
        lastReportedPhase := p, lastReportedPosition := x } := by
  obtain ⟨m, p, x, e⟩ := logicDispatchHallEventIfNeeded_frame i.now
    (logicHallPoll i (runningReset i s.fresh).gHallState).2.1 (runningReset i s.fresh).fsm.ctx.state
    (runningReset i s.fresh).fsm.ctx.cleanPhase (logicIsBinFull i) (protectNow i s.fresh)
    { runningReset i s.fresh with
      gHallState := (logicHallPoll i (runningReset i s.fresh).gHallState).2.2 }
  refine ⟨p, x, ?_⟩
  rw [step_running i h]
  show (runningHall i s.fresh).gHallState = _
  rw [show runningHall i s.fresh = _ from e, reset_hall]
  rfl

/-- a clean request outlasts a call that finds FAULT, and no other -/
theorem step_clean {s : Logic} {τ : Timed} (h : Good s τ) (i : Inputs) :
    (s.step (.running i)).gRemoteCleanRequest =
      if (τ.binFull (cue i s)).mode.state = .fault then s.gRemoteCleanRequest else false := by
  have hs : (runningBinFull i s.fresh).fsm.ctx.state = (τ.binFull (cue i s)).mode.state :=
    (binFull_amid h.fresh).shows.state
  have ho : (runningOccupancy i s.fresh).gRemoteCleanRequest = s.gRemoteCleanRequest := by
    obtain ⟨m, b, e⟩ := runningOccupancy_frame i s.fresh
    rw [e]
    rfl
  rw [step_running i h]
  show (runningTick i s.fresh).gRemoteCleanRequest = _
  rw [runningTick_request, ← hs]
  unfold runningClean cleanRequest
  by_cases hf : (runningBinFull i s.fresh).fsm.ctx.state = .fault
  · rw [if_neg (not_not.mpr hf), if_pos hf, ho]
  · rw [if_pos hf, if_neg hf]
    split
    · rfl
    next hr => exact Bool.eq_false_iff.mpr hr

theorem Alike.cue {n : Nat} {c : Int} {s s' : Logic} {τ τ' : Timed} {i : Inputs}
    (a : Alike n c s s' τ τ') (hi : i.plain) (hi' : (i.later n).plain) :
    cue (i.later n) s' = { cue i s with time := i.time + n } := by
  unfold LitterBox.cue
  rw [a.clean, a.reset, (a.hall.poll hi.1 hi'.1).1]
  rfl

/-- **one call** -/
theorem Alike.running {n : Nat} {c : Int} {s s' : Logic} {τ τ' : Timed} {i : Inputs}
    (a : Alike n c s s' τ τ') (hi : i.plain) (hi' : (i.later n).plain) :
    Alike n c (s.step (.running i)) (s'.step (.running (i.later n))) (τ.call (LitterBox.cue i s))
      (τ'.call (LitterBox.cue (i.later n) s')) ∧
    moves (s'.step (.running (i.later n))).fsm.out = moves (s.step (.running i)).fsm.out := by
  have hq := a.cue hi hi'
  have st : SameStages (tick n) τ τ' (LitterBox.cue i s) (LitterBox.cue (i.later n) s') := by
    rw [hq]
    exact a.timed.call hi.2 hi'.2
  have hstate : (s.step (.running i)).fsm.ctx.state =
      (s'.step (.running (i.later n))).fsm.ctx.state := by
    rw [(a.good.running i).shows.state, (a.good'.running (i.later n)).shows.state, st.call.mode]
  have hstate0 : s.fsm.ctx.state = s'.fsm.ctx.state := by
    rw [a.good.shows.state, a.good'.shows.state, a.timed.mode]
  refine ⟨⟨a.good.running i, a.good'.running (i.later n), st.call, ?_, ?_, ?_, ?_⟩, ?_⟩
  · rw [step_clean a.good, step_clean a.good', st.binFull, a.clean]
  · rw [step_running i a.good, step_running (i.later n) a.good']
    obtain ⟨m, b, r, h, e⟩ := runningTick_frame i s.fresh
    obtain ⟨m', b', r', h', e'⟩ := runningTick_frame (i.later n) s'.fresh
    show (runningTick (i.later n) s'.fresh).gResetRequest = (runningTick i s.fresh).gResetRequest
    rw [e, e']
  · obtain ⟨p, x, e⟩ := step_hall a.good i
    obtain ⟨p', x', e'⟩ := step_hall a.good' (i.later n)
    rw [e, e']
    exact (a.hall.poll hi.1 hi'.1).2.reported p p' x x'
  · have hused : usedBetween s' (s'.step (.running (i.later n))) ↔
        usedBetween s (s.step (.running i)) := by
      unfold usedBetween
      rw [hstate, hstate0]
    rw [(step_uses a.good (.running i)).1, (step_uses a.good' (.running (i.later n))).1, a.used,
      if_congr hused rfl rfl]
    omega
  · have h1 := call_moves (i := i) a.good.fresh
    have h2 := call_moves (i := i.later n) a.good'.fresh
    rw [step_running i a.good, step_running (i.later n) a.good']
    show moves (runningTick (i.later n) s'.fresh).fsm.out = moves (runningTick i s.fresh).fsm.out
    rw [h1, h2]
    show (τ'.hall (LitterBox.cue (i.later n) s')).mode.hop
        (τ'.call (LitterBox.cue (i.later n) s')).mode ++
      ((τ'.reset (LitterBox.cue (i.later n) s')).mode.hop
        (τ'.hall (LitterBox.cue (i.later n) s')).mode ++
      ((τ'.clean (LitterBox.cue (i.later n) s')).mode.hop
        (τ'.reset (LitterBox.cue (i.later n) s')).mode ++
      ((τ'.occupancy (LitterBox.cue (i.later n) s')).mode.hop
        (τ'.clean (LitterBox.cue (i.later n) s')).mode ++
      ((τ'.binFull (LitterBox.cue (i.later n) s')).mode.hop
        (τ'.occupancy (LitterBox.cue (i.later n) s')).mode ++
      (τ'.mode.hop (τ'.binFull (LitterBox.cue (i.later n) s')).mode ++ []))))) = _
    rw [st.call.mode, st.hall, st.reset, st.clean, st.occupancy, st.binFull, a.timed.mode]
    rfl

/-- **one step** -/
theorem Alike.step {n : Nat} {c : Int} {s s' : Logic} {τ τ' : Timed} {x : Step}
    (a : Alike n c s s' τ τ') (hx : x.plain) (hx' : (x.later n).plain) :
    Alike n c (s.step x) (s'.step (x.later n)) (τ.after s x) (τ'.after s' (x.later n)) ∧
    moves (s'.step (x.later n)).fsm.out = moves (s.step x).fsm.out := by
  have g := a.good.step x
  have g' := a.good'.step (x.later n)
  cases x with
  | running i => exact a.running hx hx'
  | requestClean => exact ⟨⟨g, g', a.timed, rfl, a.reset, a.hall, a.used⟩, rfl⟩
  | requestReset => exact ⟨⟨g, g', a.timed, a.clean, rfl, a.hall, a.used⟩, rfl⟩
  | litterTimeout t =>
    have hm : (τ'.after s' (.litterTimeout (t + n))).mode =
        (τ.after s (.litterTimeout t)).mode := by
      by_cases hc : τ.mode.state = .cleaning
      · rw [Timed.after_litterTimeout t hc,
          Timed.after_litterTimeout (t + n) (by rw [a.timed.mode]; exact hc)]
        rfl
      · rw [Timed.after_litterTimeout_of_ne t hc,
          Timed.after_litterTimeout_of_ne (t + n) (by rw [a.timed.mode]; exact hc), a.timed.mode]
    obtain ⟨r1, r2⟩ := litterTimeout_requests s t
    obtain ⟨r1', r2'⟩ := litterTimeout_requests s' (t + n)
    refine ⟨⟨g, g', ?_, ?_, ?_, ?_, ?_⟩, ?_⟩
    · show (τ.after s (.litterTimeout t)).Alike (tick n) (τ'.after s' (.litterTimeout (t + n)))
      by_cases hc : τ.mode.state = .cleaning
      · rw [Timed.after_litterTimeout t hc,
          Timed.after_litterTimeout (t + n) (by rw [a.timed.mode]; exact hc)]
        exact .of_none rfl rfl nofun
      · rw [Timed.after_litterTimeout_of_ne t hc,
          Timed.after_litterTimeout_of_ne (t + n) (by rw [a.timed.mode]; exact hc)]
        exact a.timed
    · exact r1'.trans (a.clean.trans r1.symm)
    · exact r2'.trans (a.reset.trans r2.symm)
    · have e (u : Logic) (v : Nat) : (u.step (.litterTimeout v)).gHallState = u.gHallState := by
        show (LitterBox.litterTimeout (tick v) u.fresh).gHallState = _
        unfold LitterBox.litterTimeout
        split <;> rfl
      show (s.step (.litterTimeout t)).gHallState.Alike _
        (s'.step (.litterTimeout (t + n))).gHallState
      rw [e, e]
      exact a.hall
    · show (s'.step (.litterTimeout (t + n))).boxUsed = (s.step (.litterTimeout t)).boxUsed + c
      rw [(not_used a.good (x := .litterTimeout t) nofun).2.1,
        (not_used a.good' (x := .litterTimeout (t + n)) nofun).2.1]
      exact a.used
    · show moves (s'.step (.litterTimeout (t + n))).fsm.out = _
      rw [litterTimeout_out a.good' (t + n), litterTimeout_out a.good t, hm, a.timed.mode]

/-! ## runs -/

/-- one step of a run and the same step of the other one, as they are seen from outside -/
structure SameRun (s s' : Logic) : Prop where
  state : s'.fsm.ctx.state = s.fsm.ctx.state
  phase : s'.fsm.ctx.cleanPhase = s.fsm.ctx.cleanPhase
  fault : s'.fsm.ctx.faultCode = s.fsm.ctx.faultCode
  pins : s'.gpio.driven in1 = s.gpio.driven in1 ∧ s'.gpio.driven in2 = s.gpio.driven in2

theorem Alike.seen {n : Nat} {c : Int} {s s' : Logic} {τ τ' : Timed} (a : Alike n c s s' τ τ') :
    SameRun s s' where
  state := by rw [a.good.shows.state, a.good'.shows.state, a.timed.mode]
  phase := by rw [a.good.shows.phase, a.good'.shows.phase, a.timed.mode]
  fault := by rw [a.good.shows.fault, a.good'.shows.fault, a.timed.mode]
  pins := by
    obtain ⟨h1, h2⟩ := a.good.pins
    obtain ⟨h1', h2'⟩ := a.good'.pins
    rw [h1, h2, h1', h2', a.timed.mode]
    exact ⟨rfl, rfl⟩

/-- **alike machines stay alike**, step by step -/
theorem Alike.run {n : Nat} {c : Int} {s s' : Logic} {τ τ' : Timed} (a : Alike n c s s' τ τ')
    (m : List Step) (hm : ∀ x ∈ m, x.plain) (hm' : ∀ x ∈ m, (x.later n).plain) :
    ∃ σ σ', Alike n c (Runs.run Logic.step s m) (Runs.run Logic.step s' (m.map (Step.later n)))
      σ σ' := by
  induction m generalizing s s' τ τ' with
  | nil => exact ⟨τ, τ', a⟩
  | cons x m ih =>
    have h := (a.step (hm x List.mem_cons_self) (hm' x List.mem_cons_self)).1
    exact ih h (fun y hy => hm y (List.mem_cons_of_mem x hy))
      fun y hy => hm' y (List.mem_cons_of_mem x hy)

/-- what two runs that go on from alike machines show -/
theorem Alike.future {n : Nat} {c : Int} {s s' : Logic} {τ τ' : Timed} (a : Alike n c s s' τ τ')
    (m : List Step) (x : Step) (hm : ∀ y ∈ m ++ [x], y.plain ∧ (y.later n).plain) :
    let r := Runs.run Logic.step s (m ++ [x])
    let r' := Runs.run Logic.step s' ((m ++ [x]).map (Step.later n))
    SameRun r r' ∧ moves r'.fsm.out = moves r.fsm.out ∧ r'.boxUsed = r.boxUsed + c := by
  intro r r'
  obtain ⟨σ, σ', h⟩ := a.run m (fun y hy => (hm y (List.mem_append_left _ hy)).1)
    fun y hy => (hm y (List.mem_append_left _ hy)).2
  obtain ⟨hx, hx'⟩ := hm x (List.mem_append_right _ List.mem_cons_self)
  obtain ⟨h1, h2⟩ := h.step hx hx'
  have e : r = (Runs.run Logic.step s m).step x := Runs.run_snoc Logic.step s m x
  have e' : r' = (Runs.run Logic.step s' (m.map (Step.later n))).step (x.later n) := by
    show Runs.run Logic.step s' ((m ++ [x]).map (Step.later n)) = _
    rw [List.map_append]
    exact Runs.run_snoc Logic.step s' _ _
  rw [e, e']
  exact ⟨h1.seen, h2, h1.used⟩

/-- **what the future depends on**: the state, the phase, the fault code, the open requests, the
debouncer, and the ticks that are still to be read, which may all be shifted by `n` -/
structure SameView (n : Nat) (s s' : Logic) : Prop where
  state : s'.fsm.ctx.state = s.fsm.ctx.state
  phase : s'.fsm.ctx.cleanPhase = s.fsm.ctx.cleanPhase
  fault : s'.fsm.ctx.faultCode = s.fsm.ctx.faultCode
  entered : s.fsm.ctx.state ∈ [.leaveConfirm, .cleanDelay, .cleaning] →
    s'.fsm.ctx.stateEnterTick = s.fsm.ctx.stateEnterTick + tick n
  leg : s.fsm.ctx.state = .cleaning →
    s'.fsm.ctx.phaseStartedTick = s.fsm.ctx.phaseStartedTick + tick n
  deadline : s.fsm.ctx.state ∈ [.leaveConfirm, .cleanDelay] →
    s.fsm.ctx.deadlineTick ≠ 0 ∧ s'.fsm.ctx.deadlineTick ≠ 0
  clean : s'.gRemoteCleanRequest = s.gRemoteCleanRequest
  reset : s'.gResetRequest = s.gResetRequest
  hall : s.gHallState.Alike (tick n) s'.gHallState

theorem Mode.waiting_state {μ : Mode} (h : μ.window ≠ 0) :
    μ.state = .leaveConfirm ∨ μ.state = .cleanDelay := by
  cases μ with
  | leaveConfirm => exact Or.inl rfl
  | cleanDelay => exact Or.inr rfl
  | _ => exact absurd rfl h

theorem SameView.alike {n : Nat} {s s' : Logic} {τ τ' : Timed} (v : SameView n s s')
    (h : Good s τ) (h' : Good s' τ') : Alike n (s'.boxUsed - s.boxUsed) s s' τ τ' := by
  have hm : τ'.mode = τ.mode :=
    Mode.ext_of (h'.shows.state.symm.trans (v.state.trans h.shows.state))
      (h'.shows.phase.symm.trans (v.phase.trans h.shows.phase))
      (h'.shows.fault.symm.trans (v.fault.trans h.shows.fault))
  refine ⟨h, h', ⟨hm, fun hw => ?_, fun hc => ?_, fun hw => ?_⟩, v.clean, v.reset, v.hall, ?_⟩
  · rw [← h.shows.entered, ← h'.shows.entered]
    refine v.entered ?_
    rw [h.shows.state]
    rcases hw with hw | hc
    · rcases Mode.waiting_state hw with e | e <;> rw [e] <;> decide
    · rw [hc]
      decide
  · rw [← h.shows.leg hc, ← h'.shows.leg (by rw [hm]; exact hc)]
    exact v.leg (h.shows.state.trans hc)
  · have hd := h'.shows.deadline
    rw [hm] at hd
    rw [← h.shows.deadline, ← hd]
    refine v.deadline ?_
    rw [h.shows.state]
    rcases Mode.waiting_state hw with e | e <;> rw [e] <;> decide
  · omega

/-- **The future depends on the view alone.**  Two reachable machines with the same view go through
the same states, make the same state changes, drive the motor alike and count the same uses,
whatever else is in their variables and however the boxes have come there, as long as the steps of
both are plain. -/
theorem future_alike (g g' : Gpio) (i0 i0' : Inputs) (l l' m : List Step) (x : Step) (n : Nat)
    (hv : SameView n (run g i0 l) (run g' i0' l'))
    (hm : ∀ y ∈ m ++ [x], y.plain ∧ (y.later n).plain) :
    let s := run g i0 (l ++ (m ++ [x]))
    let s' := run g' i0' (l' ++ (m ++ [x]).map (Step.later n))
    SameRun s s' ∧ moves s'.fsm.out = moves s.fsm.out ∧
      s'.boxUsed - (run g' i0' l').boxUsed = s.boxUsed - (run g i0 l).boxUsed := by
  intro s s'
  have a := hv.alike (run_good g i0 l) (run_good g' i0' l')
  have e : s = Runs.run Logic.step (run g i0 l) (m ++ [x]) := Runs.run_append _ _ _ _
  have e' : s' = Runs.run Logic.step (run g' i0' l') ((m ++ [x]).map (Step.later n)) :=
    Runs.run_append _ _ _ _
  rw [e, e']
  obtain ⟨h1, h2, h3⟩ := a.future m x hm
  refine ⟨h1, h2, ?_⟩
  rw [h3]
  omega

/-- a box that was used and reset, a box that was not, and the same cleaning in both -/
theorem future_alike_reset :
    moves (run lowPins (occupiedAt 5) ([.running (calmAt 35), .running (calmAt 55),
        .requestReset, .running (calmAt 75)] ++
      ([Step.requestClean] ++ [Step.running (calmAt 95)]).map (Step.later 0))).fsm.out =
    moves (run lowPins (calmAt 5) ([.running (calmAt 35), .running (calmAt 55),
        .running (calmAt 75)] ++ ([.requestClean] ++ [.running (calmAt 95)]))).fsm.out :=
  (future_alike lowPins lowPins (calmAt 5) (occupiedAt 5)
    [.running (calmAt 35), .running (calmAt 55), .running (calmAt 75)]
    [.running (calmAt 35), .running (calmAt 55), .requestReset, .running (calmAt 75)]
    [.requestClean] (.running (calmAt 95)) 0
    ⟨by decide, by decide, by decide, by decide, by decide, by decide, by decide, by decide,
      ⟨by decide, by decide, by decide, by decide⟩⟩ (by decide)).2.1

theorem boot_view (g g' : Gpio) (i0 : Inputs) (n : Nat) :
    SameView n (boot g i0) (boot g' (i0.later n)) := by
  have h := (boot_good g i0).shows
  have h' := (boot_good g' (i0.later n)).shows
  have hm : (bootTimed (i0.later n)).mode = (bootTimed i0).mode := rfl
  obtain ⟨hw, hc⟩ := bootTimed_rests i0
  have hhall : (boot g i0).gHallState = logicHallInit ∧
      (boot g' (i0.later n)).gHallState = logicHallInit := by
    unfold boot
    rw [sensorLogicInit_coldStart, sensorLogicInit_coldStart]
    exact ⟨rfl, rfl⟩
  have hreq : ∀ (u : Gpio) (j : Inputs), (boot u j).gRemoteCleanRequest = false ∧
      (boot u j).gResetRequest = false := by
    intro u j
    unfold boot
    rw [sensorLogicInit_coldStart]
    exact ⟨rfl, rfl⟩
  have hrest : (boot g i0).fsm.ctx.state ∉ [.leaveConfirm, .cleanDelay, .cleaning] := by
    rw [h.state]
    intro hmem
    rcases List.mem_cons.mp hmem with e | hmem
    · exact absurd (Mode.eq_of_window (μ := .leaveConfirm) nofun e.symm)
        fun e => by rw [← e] at hw; cases hw
    rcases List.mem_cons.mp hmem with e | hmem
    · exact absurd (Mode.eq_of_window (μ := .cleanDelay) nofun e.symm)
        fun e => by rw [← e] at hw; cases hw
    · exact hc (List.mem_singleton.mp hmem)
  refine ⟨?_, ?_, ?_, fun hs => absurd hs hrest, fun hs => ?_, fun hs => ?_, ?_, ?_, ?_⟩
  · rw [h.state, h'.state, hm]
  · rw [h.phase, h'.phase, hm]
  · rw [h.fault, h'.fault, hm]
  · exact absurd (h.state.symm.trans hs) hc
  · have hmem : (boot g i0).fsm.ctx.state ∈ [.leaveConfirm, .cleanDelay, .cleaning] :=
      List.mem_append_left [LitterFsmState.cleaning] hs
    exact absurd hmem hrest
  · rw [(hreq g i0).1, (hreq g' (i0.later n)).1]
  · rw [(hreq g i0).2, (hreq g' (i0.later n)).2]
  · rw [hhall.1, hhall.2]
    exact ⟨rfl, rfl, Or.inl ⟨rfl, rfl⟩, fun hu => absurd rfl hu⟩

/-- **It does not matter when the box was switched on**: two boxes that see the same inputs, one of
them `n` ticks later, do the same in every step, also past a wrap of the tick, as long as the steps
of both are plain. -/
theorem uptime_irrelevant (g g' : Gpio) (i0 : Inputs) (m : List Step) (x : Step) (n : Nat)
    (hm : ∀ y ∈ m ++ [x], y.plain ∧ (y.later n).plain) :
    let s := run g i0 (m ++ [x])
    let s' := run g' (i0.later n) ((m ++ [x]).map (Step.later n))
    SameRun s s' ∧ moves s'.fsm.out = moves s.fsm.out ∧ s'.boxUsed = s.boxUsed := by
  intro s s'
  have a := (boot_view g g' i0 n).alike (boot_good g i0) (boot_good g' (i0.later n))
  obtain ⟨h1, h2, h3⟩ := a.future m x hm
  rw [boot_boxUsed, boot_boxUsed, Int.sub_zero, Int.add_zero] at h3
  exact ⟨h1, h2, h3⟩

/-- a visit shortly before the tick wraps, and the same visit in a box just switched on -/
theorem uptime_irrelevant_wrap :
    (run lowPins (calmAt 4294967291) ([.running (occupiedAt 4294967301),
      .running (calmAt 4294967311), .running (calmAt 4294969311)])).fsm.ctx.state =
    (run lowPins (calmAt 5) ([.running (occupiedAt 15), .running (calmAt 25)] ++
      [.running (calmAt 2025)])).fsm.ctx.state :=
  (uptime_irrelevant lowPins lowPins (calmAt 5) [.running (occupiedAt 15), .running (calmAt 25)]
    (.running (calmAt 2025)) 4294967286 (by decide)).1.state

end LitterBox
