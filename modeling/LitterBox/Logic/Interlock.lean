import LitterBox.Logic.Reach

/-!
# Safety over whole runs

* `interlock`      what a call may leave the machine in, given what it sampled;
* `system_edges`   the state changes that the running system makes;
* `fault_lock`     when a call leaves FAULT, and what becomes of it.
-/

namespace LitterBox

/-! ## the interlock -/

/-- **Safety interlock.**  After a call that sampled the box and the bin. -/
theorem interlock (g : Gpio) (i0 : Inputs) (l : List Step) (i : Inputs) :
    let s := run g i0 (l ++ [.running i])
    let st := s.fsm.ctx.state
    let occ := logicIsOccupied i
    let full := logicIsBinFull i
    (occ = true → st = .occupied ∨ st = .safeStop ∨ st = .fault) ∧
    (full = true → st = .fault ∨ st = .safeStop) ∧
    (st = .occupied ∨ st = .safeStop → occ = true) ∧
    (st = .idle ∨ st = .leaveConfirm ∨ st = .cleanDelay ∨ st = .cleaning →
      occ = false ∧ full = false) ∧
    (st = .fault → s.fsm.ctx.faultCode = .binFull → full = true) ∧
    (occ = true ∨ full = true →
      s.gpio.driven in1 = some .low ∧ s.gpio.driven in2 = some .low) := by
  intro s st occ full
  have h : Good s (timed g i0 (l ++ [.running i])) := run_good g i0 _
  have hfits := h.fits
  rw [show s.gPrevOccupied = occ from (running_prev g i0 l i).1,
    show s.gPrevBinFull = full from (running_prev g i0 l i).2] at hfits
  have hst : st = (timed g i0 (l ++ [.running i])).mode.state := h.shows.state
  have hfc : s.fsm.ctx.faultCode = (timed g i0 (l ++ [.running i])).mode.fault := h.shows.fault
  have hpins := h.pins
  rw [hst, hfc]
  cases hm : (timed g i0 (l ++ [.running i])).mode with
  | idle =>
    rw [hm] at hfits
    simp [Mode.state, hfits.1, hfits.2]
  | leaveConfirm =>
    rw [hm] at hfits
    simp [Mode.state, hfits.1, hfits.2]
  | cleanDelay =>
    rw [hm] at hfits
    simp [Mode.state, hfits.1, hfits.2]
  | cleaning leg =>
    rw [hm] at hfits
    simp [Mode.state, hfits.1, hfits.2]
  | occupied =>
    rw [hm] at hfits hpins
    simp [Mode.state, hfits.1, hfits.2]
    exact hpins
  | safeStop =>
    rw [hm] at hfits hpins
    simp [Mode.state, show occ = true from hfits]
    exact hpins
  | binFull =>
    rw [hm] at hfits hpins
    simp [Mode.state, show full = true from hfits]
    exact hpins
  | cleanTimeout =>
    rw [hm] at hpins
    simp [Mode.state, Mode.fault]
    exact fun _ => hpins

/-! ## the state graph -/

/-- the state changes the running system can make -/
def systemEdges : List (LitterFsmState × LitterFsmState) :=
  [(.idle, .occupied), (.idle, .cleaning), (.idle, .fault),
   (.occupied, .leaveConfirm), (.occupied, .fault),
   (.leaveConfirm, .occupied), (.leaveConfirm, .cleanDelay), (.leaveConfirm, .idle),
   (.leaveConfirm, .fault),
   (.cleanDelay, .occupied), (.cleanDelay, .cleaning), (.cleanDelay, .idle), (.cleanDelay, .fault),
   (.cleaning, .idle), (.cleaning, .safeStop), (.cleaning, .fault),
   (.safeStop, .leaveConfirm), (.safeStop, .idle), (.safeStop, .fault),
   (.fault, .idle), (.fault, .occupied)]

/-- a change of mode that the graph allows -/
def Mode.allows (μ μ' : Mode) : Prop :=
  μ.state = μ'.state ∨ (μ.state, μ'.state) ∈ systemEdges

theorem Mode.hop_edges {μ μ' : Mode} (h : μ.allows μ') : ∀ e ∈ μ.hop μ', e ∈ systemEdges := by
  intro e he
  unfold Mode.hop at he
  split at he
  · exact absurd he List.not_mem_nil
  next hne =>
    rw [List.mem_singleton.mp he]
    exact h.resolve_left hne

theorem Mode.allows_self (μ : Mode) : μ.allows μ := Or.inl rfl

theorem Mode.allows_ite {c : Prop} [Decidable c] {μ μ₁ μ₂ : Mode} (h₁ : μ.allows μ₁)
    (h₂ : μ.allows μ₂) : μ.allows (if c then μ₁ else μ₂) := by
  split
  · exact h₁
  · exact h₂

/-- an edge of the graph between the states of two modes -/
theorem Mode.allows_edge {a b : LitterFsmState} {μ μ' : Mode} (ha : μ.state = a)
    (hb : μ'.state = b) (h : (a, b) ∈ systemEdges) : μ.allows μ' := by
  refine Or.inr ?_
  rw [ha, hb]
  exact h

theorem Mode.allows_rest {μ : Mode} (h : μ.state = .fault) (occ : Bool) : μ.allows (rest occ) := by
  unfold rest
  exact Mode.allows_ite (Mode.allows_edge h rfl (by decide)) (Mode.allows_edge h rfl (by decide))

theorem Mode.allows_seeFull (μ : Mode) (full : Bool) : μ.allows (μ.seeFull full) := by
  have stays := μ.allows_self
  cases μ with
  | safeStop => exact stays
  | cleanTimeout => exact stays
  | binFull => exact Mode.allows_ite stays stays
  | idle => exact Mode.allows_ite (Mode.allows_edge rfl rfl (by decide)) stays
  | occupied => exact Mode.allows_ite (Mode.allows_edge rfl rfl (by decide)) stays
  | leaveConfirm => exact Mode.allows_ite (Mode.allows_edge rfl rfl (by decide)) stays
  | cleanDelay => exact Mode.allows_ite (Mode.allows_edge rfl rfl (by decide)) stays
  | cleaning l =>
    exact Mode.allows_ite (Mode.allows_edge (a := .cleaning) (b := .fault) rfl rfl (by decide)) stays

theorem Mode.allows_seeOccupied (μ : Mode) (occ : Bool) : μ.allows (μ.seeOccupied occ) := by
  have stays := μ.allows_self
  cases μ with
  | idle => exact Mode.allows_ite (Mode.allows_edge rfl rfl (by decide)) stays
  | occupied => exact Mode.allows_ite stays (Mode.allows_edge rfl rfl (by decide))
  | leaveConfirm => exact Mode.allows_ite (Mode.allows_edge rfl rfl (by decide)) stays
  | cleanDelay => exact Mode.allows_ite (Mode.allows_edge rfl rfl (by decide)) stays
  | cleaning l =>
    exact Mode.allows_ite (Mode.allows_edge (a := .cleaning) (b := .safeStop) rfl rfl (by decide))
      stays
  | _ => exact stays

theorem Mode.allows_takeClean (μ : Mode) (clean : Bool) : μ.allows (μ.takeClean clean) := by
  have stays := μ.allows_self
  cases μ with
  | idle => exact Mode.allows_ite (Mode.allows_edge rfl rfl (by decide)) stays
  | cleanDelay => exact Mode.allows_ite (Mode.allows_edge rfl rfl (by decide)) stays
  | _ => exact stays

theorem Mode.allows_takeReset (μ : Mode) (reset occ full : Bool) :
    μ.allows (μ.takeReset reset occ full) := by
  have stays := μ.allows_self
  cases μ with
  | idle => exact stays
  | occupied => exact stays
  | leaveConfirm => exact Mode.allows_ite (Mode.allows_edge rfl rfl (by decide)) stays
  | cleanDelay => exact Mode.allows_ite (Mode.allows_edge rfl rfl (by decide)) stays
  | cleaning l =>
    exact Mode.allows_ite (Mode.allows_edge (a := .cleaning) (b := .idle) rfl rfl (by decide)) stays
  | safeStop => exact Mode.allows_ite (Mode.allows_edge rfl rfl (by decide)) stays
  | binFull => exact Mode.allows_ite (Mode.allows_rest rfl occ) stays
  | cleanTimeout => exact Mode.allows_ite (Mode.allows_rest rfl occ) stays

theorem Leg.allows_next (l : Leg) : (Mode.cleaning l).allows l.next := by
  cases l with
  | toPos2 => exact Or.inl rfl
  | toPos3 => exact Or.inl rfl
  | toPos1 => exact Mode.allows_edge rfl rfl (by decide)

theorem Mode.allows_takeHall (μ : Mode) (pos : LitterHallPosition) : μ.allows (μ.takeHall pos) := by
  have stays := μ.allows_self
  cases μ with
  | cleaning l => exact Mode.allows_ite l.allows_next stays
  | _ => exact stays

theorem Mode.allows_poll (μ : Mode) (occ full due late : Bool) :
    μ.allows (μ.poll occ full due late) := by
  have stays := μ.allows_self
  cases μ with
  | idle => exact stays
  | occupied => exact stays
  | leaveConfirm => exact Mode.allows_ite (Mode.allows_edge rfl rfl (by decide)) stays
  | cleanDelay => exact Mode.allows_ite (Mode.allows_edge rfl rfl (by decide)) stays
  | cleaning l =>
    exact Mode.allows_ite (Mode.allows_edge (a := .cleaning) (b := .fault) rfl rfl (by decide)) stays
  | safeStop =>
    have full : Mode.safeStop.allows .binFull := Mode.allows_edge rfl rfl (by decide)
    have leaves : Mode.safeStop.allows .leaveConfirm := Mode.allows_edge rfl rfl (by decide)
    exact Mode.allows_ite stays (Mode.allows_ite full leaves)
  | binFull => exact Mode.allows_ite stays (Mode.allows_rest rfl occ)
  | cleanTimeout => exact stays

theorem call_edges {i : Inputs} {s : Logic} {τ : Timed} (h : Good s τ) (ho : s.fsm.out = []) :
    ∀ e ∈ moves (runningTick i s).fsm.out, e ∈ systemEdges := by
  intro e he
  rcases (mem_call_moves h ho).mp he with he | he | he | he | he | he
  · exact Mode.hop_edges (Mode.allows_poll _ _ _ _ _) e he
  · exact Mode.hop_edges (Mode.allows_takeHall _ _) e he
  · exact Mode.hop_edges (Mode.allows_takeReset _ _ _ _) e he
  · exact Mode.hop_edges (Mode.allows_takeClean _ _) e he
  · exact Mode.hop_edges (Mode.allows_seeOccupied _ _) e he
  · exact Mode.hop_edges (Mode.allows_seeFull _ _) e he

theorem step_edges {s : Logic} {τ : Timed} (h : Good s τ) (x : Step) :
    ∀ e ∈ moves (s.step x).fsm.out, e ∈ systemEdges := by
  cases x with
  | running i =>
    have hc := call_edges (i := i) h.fresh rfl
    rw [step_running i h]
    exact hc
  | requestClean => exact fun e he => absurd he List.not_mem_nil
  | requestReset => exact fun e he => absurd he List.not_mem_nil
  | litterTimeout t =>
    rw [litterTimeout_out h t]
    refine Mode.hop_edges ?_
    by_cases hc : τ.mode.state = .cleaning
    · rw [Timed.after_litterTimeout t hc]
      exact Or.inr (by rw [hc]; simp [Timed.goto, Mode.state, systemEdges])
    · rw [Timed.after_litterTimeout_of_ne t hc]
      exact Or.inl rfl

/-- for every edge a run whose last step takes it -/
def edgeRuns : List ((LitterFsmState × LitterFsmState) × List Step × Step) :=
  [((.idle, .occupied), [], .running (occupiedAt 10)),
   ((.idle, .cleaning), [.requestClean], .running (calmAt 10)),
   ((.idle, .fault), [], .running (fullAt 10)),
   ((.occupied, .leaveConfirm), [.running (occupiedAt 10)], .running (calmAt 20)),
   ((.occupied, .fault), [.running (occupiedAt 10)], .running (fullAt 20)),
   ((.leaveConfirm, .occupied), leaving, .running (occupiedAt 30)),
   ((.leaveConfirm, .cleanDelay), leaving, .running (calmAt 2020)),
   ((.leaveConfirm, .idle), leaving ++ [.requestReset], .running (calmAt 30)),
   ((.leaveConfirm, .fault), leaving, .running (fullAt 30)),
   ((.cleanDelay, .occupied), leaving ++ [.running (calmAt 2020)], .running (occupiedAt 2030)),
   ((.cleanDelay, .cleaning), leaving ++ [.running (calmAt 2020)], .running (calmAt 7020)),
   ((.cleanDelay, .idle), leaving ++ [.running (calmAt 2020), .requestReset],
    .running (calmAt 2030)),
   ((.cleanDelay, .fault), leaving ++ [.running (calmAt 2020)], .running (fullAt 2030)),
   ((.cleaning, .idle), cleaningOnRequest ++ [.requestReset], .running (calmAt 20)),
   ((.cleaning, .safeStop), cleaningOnRequest, .running (occupiedAt 20)),
   ((.cleaning, .fault), cleaningOnRequest, .litterTimeout 20),
   ((.safeStop, .leaveConfirm), cleaningOnRequest ++ [.running (occupiedAt 20)],
    .running (calmAt 30)),
   ((.safeStop, .idle), cleaningOnRequest ++ [.running (occupiedAt 20), .requestReset],
    .running (calmAt 30)),
   ((.safeStop, .fault), cleaningOnRequest ++ [.running (occupiedAt 20)], .running (fullAt 30)),
   ((.fault, .idle), [.running (fullAt 10)], .running (calmAt 20)),
   ((.fault, .occupied), [.running (fullAt 10)], .running (occupiedAt 20))]

theorem edgeRuns_take : ∀ r ∈ edgeRuns,
    r.1 ∈ moves (run lowPins (calmAt 0) (r.2.1 ++ [r.2.2])).fsm.out := by
  decide

/-- **The state graph of the running system**: its edges are exactly `systemEdges`, and cleaning
starts from IDLE and CLEAN_DELAY only. -/
theorem system_edges :
    (∀ (g : Gpio) (i0 : Inputs) (l : List Step) (x : Step),
      ∀ e ∈ moves (run g i0 (l ++ [x])).fsm.out, e ∈ systemEdges) ∧
    (∀ e ∈ systemEdges, ∃ (g : Gpio) (i0 : Inputs) (l : List Step) (x : Step),
      e ∈ moves (run g i0 (l ++ [x])).fsm.out) ∧
    (∀ (g : Gpio) (i0 : Inputs) (l : List Step) (x : Step) (a : LitterFsmState),
      (a, .cleaning) ∈ moves (run g i0 (l ++ [x])).fsm.out → a = .idle ∨ a = .cleanDelay) := by
  have hall : ∀ (g : Gpio) (i0 : Inputs) (l : List Step) (x : Step),
      ∀ e ∈ moves (run g i0 (l ++ [x])).fsm.out, e ∈ systemEdges := by
    intro g i0 l x
    rw [run_snoc]
    exact step_edges (run_good g i0 l) x
  refine ⟨hall, fun e he => ?_, fun g i0 l x a ha => ?_⟩
  · have hmem : ∀ e ∈ systemEdges, ∃ r ∈ edgeRuns, r.1 = e := by decide
    obtain ⟨r, hr, rfl⟩ := hmem e he
    exact ⟨lowPins, calmAt 0, r.2.1, r.2.2, edgeRuns_take r hr⟩
  · have he := hall g i0 l x _ ha
    revert he
    cases a <;> decide

/-! ## the fault lock -/

theorem call_cleanTimeout {τ : Timed} (q : Cue) (h : τ.mode = .cleanTimeout) :
    (τ.call q).mode = if q.reset && !q.full then rest q.occ else .cleanTimeout := by
  show (τ.hall q).mode.poll _ _ _ _ = _
  rw [Timed.hall_mode, h]
  cases q.reset <;> cases q.full <;> cases q.occ <;> rfl

theorem call_binFull {τ : Timed} (q : Cue) (h : τ.mode = .binFull) :
    (τ.call q).mode = if q.full then .binFull else rest q.occ := by
  show (τ.hall q).mode.poll _ _ _ _ = _
  rw [Timed.hall_mode, h]
  cases q.reset <;> cases q.full <;> cases q.occ <;> rfl

theorem rest_ne_fault (occ : Bool) : (rest occ).state ≠ .fault := by
  cases occ <;> nofun

theorem Mode.fault_modes {μ : Mode} (h : μ.state = .fault) : μ = .cleanTimeout ∨ μ = .binFull := by
  cases μ with
  | cleanTimeout => exact Or.inl rfl
  | binFull => exact Or.inr rfl
  | _ => cases h

/-- a call either stays in FAULT as it was or recovers to rest -/
theorem fault_call {τ : Timed} (q : Cue) (hf : τ.mode.state = .fault) :
    (τ.call q).mode = τ.mode ∨ (τ.call q).mode = rest q.occ := by
  rcases Mode.fault_modes hf with hm | hm
  · rw [call_cleanTimeout q hm, hm]
    split
    · exact Or.inr rfl
    · exact Or.inl rfl
  · rw [call_binFull q hm, hm]
    split
    · exact Or.inl rfl
    · exact Or.inr rfl

theorem cleanTimeout_leaves {τ : Timed} (q : Cue) (hm : τ.mode = .cleanTimeout) :
    (τ.call q).mode.state ≠ .fault ↔ q.reset = true ∧ q.full = false := by
  rw [call_cleanTimeout q hm]
  cases q.reset <;> cases q.full <;> cases q.occ <;> simp [Mode.state, rest]

theorem binFull_leaves {τ : Timed} (q : Cue) (hm : τ.mode = .binFull) :
    (τ.call q).mode.state ≠ .fault ↔ q.full = false := by
  rw [call_binFull q hm]
  cases q.full <;> cases q.occ <;> simp [Mode.state, rest]

/-- a call that stays in FAULT took no reset -/
theorem call_stays_reset {τ : Timed} (q : Cue) (hf : τ.mode.state = .fault)
    (hs : (τ.call q).mode = τ.mode) : (q.reset && !q.full) = false := by
  rcases Mode.fault_modes hf with hm | hm
  · rw [call_cleanTimeout q hm, hm] at hs
    by_contra hb
    rw [if_pos (eq_true_of_ne_false hb)] at hs
    exact rest_ne_fault q.occ (by rw [hs]; rfl)
  · rw [call_binFull q hm, hm] at hs
    cases hq : q.full with
    | true => cases q.reset <;> rfl
    | false =>
      rw [hq] at hs
      exact absurd (by rw [show rest q.occ = .binFull from hs]; rfl) (rest_ne_fault q.occ)

/-- a call that stays in FAULT makes no change and gives the motor no start -/
theorem call_stays {i : Inputs} {s : Logic} {τ : Timed} (h : Good s τ) (hf : τ.mode.state = .fault)
    (hs : (τ.call (cue i s)).mode = τ.mode) :
    Logged s.fsm.ctx.armed τ.mode τ.mode s.fsm.out (runningTick i s).fsm.out := by
  have hq := call_stays_reset (cue i s) hf hs
  have e1 : (τ.binFull (cue i s)).mode = τ.mode := by
    show τ.mode.seeFull _ = _
    rcases Mode.fault_modes hf with hm | hm <;> rw [hm]
    · rfl
    · cases (cue i s).full <;> rfl
  have e2 : (τ.occupancy (cue i s)).mode = τ.mode := by
    show (τ.binFull (cue i s)).mode.seeOccupied _ = _
    rw [e1]
    exact seeOccupied_fault hf _
  have e3 : (τ.clean (cue i s)).mode = τ.mode := by
    show (τ.occupancy (cue i s)).mode.takeClean _ = _
    rw [occupancy_fault _ (by rw [e1]; exact hf), e2]
  have e4 : (τ.reset (cue i s)).mode = τ.mode := by
    show (τ.clean (cue i s)).mode.takeReset _ _ _ = _
    rw [e3]
    rcases Mode.fault_modes hf with hm | hm <;> rw [hm] <;> exact if_neg (by rw [hq]; nofun)
  have e5 : (τ.hall (cue i s)).mode = τ.mode := by
    show (τ.reset (cue i s)).mode.takeHall _ = _
    rw [e4]
    rcases Mode.fault_modes hf with hm | hm <;> rw [hm] <;> rfl
  have g1 := (binFull_stage (i := i) h).log
  have g2 := (occupancy_stage (i := i) h).log
  have g3 := (clean_stage (i := i) h).log
  have g4 := (reset_stage (i := i) h).log
  have g5 := (hall_stage (i := i) h).log
  have g6 := (tick_stage (i := i) h).log
  have a : ∀ {x : Logic} {ν : Timed}, Amid (callFlags i s τ) x ν →
      x.fsm.ctx.armed = s.fsm.ctx.armed :=
    fun hx => propext ⟨fun _ => h.armed, fun _ => hx.armed⟩
  rw [show τ.mode.seeFull _ = τ.mode from e1, a (runningSync_amid h)] at g1
  rw [show (τ.binFull (cue i s)).mode.seeOccupied _ = τ.mode from e2, e1, a (binFull_amid h)] at g2
  rw [show (τ.occupancy (cue i s)).mode.takeClean _ = τ.mode from e3, e2,
    a (occupancy_amid h)] at g3
  rw [show (τ.clean (cue i s)).mode.takeReset _ _ _ = τ.mode from e4, e3, a (clean_amid h)] at g4
  rw [show (τ.reset (cue i s)).mode.takeHall _ = τ.mode from e5, e4, a (reset_amid h)] at g5
  rw [hs, e5, a (hall_amid h)] at g6
  exact ((((g1.trans g2).trans g3).trans g4).trans g5).trans g6

/-- the log of such a call shows no change and no start -/
theorem call_stays_silent {i : Inputs} {s : Logic} {τ : Timed} (h : Good s τ) (ho : s.fsm.out = [])
    (hf : τ.mode.state = .fault) (hs : (τ.call (cue i s)).mode = τ.mode) :
    moves (runningTick i s).fsm.out = [] ∧ ∀ o ∈ (runningTick i s).fsm.out,
      o.act ≠ .motorForwardStart ∧ o.act ≠ .motorReverseStart := by
  have hlog := call_stays h hf hs
  rw [ho] at hlog
  refine ⟨?_, fun o hmem => ?_⟩
  · rw [hlog.moves_eq, Mode.hop_self]
    rfl
  · rcases hlog.given o hmem with hin | hx
    · exact absurd hin List.not_mem_nil
    constructor
    · intro ha
      rcases hx .forward (by rw [ha]; rfl) with hc | hc
      · cases hc
      · exact hc.1 rfl
    · intro ha
      rcases hx .reverse (by rw [ha]; rfl) with hc | hc
      · cases hc
      · exact hc.1 rfl

/-- a CLEAN_TIMEOUT that no reset is asked for stays -/
theorem cleanTimeout_stays (g : Gpio) (i0 : Inputs) (l : List Step)
    (hm : (timed g i0 l).mode = .cleanTimeout) (hr : (run g i0 l).gResetRequest = false)
    (b : List Step) (hb : .requestReset ∉ b) :
    (timed g i0 (l ++ b)).mode = .cleanTimeout ∧ (run g i0 (l ++ b)).gResetRequest = false := by
  induction b using List.reverseRecOn with
  | nil => rw [List.append_nil]; exact ⟨hm, hr⟩
  | append_singleton b x ih =>
    have hb' : .requestReset ∉ b := fun h => hb (List.mem_append_left _ h)
    have hx : x ≠ .requestReset := by
      rintro rfl
      exact hb (List.mem_append_right _ (List.mem_singleton.mpr rfl))
    obtain ⟨h1, h2⟩ := ih hb'
    rw [← List.append_assoc]
    cases x with
    | running i =>
      refine ⟨?_, running_reset g i0 _ i⟩
      rw [timed_running, call_cleanTimeout _ h1]
      refine if_neg ?_
      rw [show (cue i (run g i0 (l ++ b))).reset = false from h2]
      nofun
    | requestClean =>
      rw [timed_snoc, run_snoc]
      exact ⟨h1, h2⟩
    | requestReset => exact absurd rfl hx
    | litterTimeout t =>
      rw [timed_snoc, run_snoc, (litterTimeout_requests _ t).2]
      rw [Timed.after_litterTimeout_of_ne t (by rw [h1]; nofun)]
      exact ⟨h1, h2⟩

/-- **Fault lock.**  What a call does that starts in FAULT; and a CLEAN_TIMEOUT outlasts every
sequence of steps without a reset request. -/
theorem fault_lock (g : Gpio) (i0 : Inputs) (l : List Step)
    (hf : (run g i0 l).fsm.ctx.state = .fault) :
    let s := run g i0 l
    (s.fsm.ctx.faultCode = .cleanTimeout ∨ s.fsm.ctx.faultCode = .binFull) ∧
    (∀ i : Inputs,
      let s' := run g i0 (l ++ [.running i])
      (s.fsm.ctx.faultCode = .cleanTimeout →
        (s'.fsm.ctx.state ≠ .fault ↔ s.gResetRequest = true ∧ logicIsBinFull i = false)) ∧
      (s.fsm.ctx.faultCode = .binFull →
        (s'.fsm.ctx.state ≠ .fault ↔ logicIsBinFull i = false)) ∧
      (s'.fsm.ctx.state ≠ .fault →
        s'.fsm.ctx.state = (if logicIsOccupied i then .occupied else .idle) ∧
        s'.fsm.ctx.faultCode = .none) ∧
      (s'.fsm.ctx.state = .fault →
        s'.fsm.ctx.faultCode = s.fsm.ctx.faultCode ∧ moves s'.fsm.out = [] ∧
        (∀ o ∈ s'.fsm.out, o.act ≠ .motorForwardStart ∧ o.act ≠ .motorReverseStart) ∧
        s'.gpio.driven in1 = some .low ∧ s'.gpio.driven in2 = some .low)) ∧
    (s.fsm.ctx.faultCode = .cleanTimeout → s.gResetRequest = false →
      ∀ b : List Step, .requestReset ∉ b →
        (run g i0 (l ++ b)).fsm.ctx.state = .fault ∧
        (run g i0 (l ++ b)).fsm.ctx.faultCode = .cleanTimeout) := by
  intro s
  have h : Good s (timed g i0 l) := run_good g i0 l
  have hst : (timed g i0 l).mode.state = .fault := h.shows.state.symm.trans hf
  have hfc : s.fsm.ctx.faultCode = (timed g i0 l).mode.fault := h.shows.fault
  have hmode := Mode.fault_modes hst
  refine ⟨?_, fun i => ?_, fun hc hr b hb => ?_⟩
  · rw [hfc]
    exact hmode.imp (fun e => by rw [e]; rfl) fun e => by rw [e]; rfl
  · have h' : Good (run g i0 (l ++ [.running i])) ((timed g i0 l).call (cue i s)) := by
      rw [← timed_running]
      exact run_good g i0 _
    intro s'
    have hst' : s'.fsm.ctx.state = ((timed g i0 l).call (cue i s)).mode.state := h'.shows.state
    have hfc' : s'.fsm.ctx.faultCode = ((timed g i0 l).call (cue i s)).mode.fault := h'.shows.fault
    rw [hst', hfc', hfc]
    refine ⟨fun hc => ?_, fun hc => ?_, fun hleave => ?_, fun hstay => ?_⟩
    · refine cleanTimeout_leaves (cue i s) (hmode.resolve_right fun e => ?_)
      rw [e] at hc
      cases hc
    · refine binFull_leaves (cue i s) (hmode.resolve_left fun e => ?_)
      rw [e] at hc
      cases hc
    · rcases fault_call (cue i s) hst with e | e
      · rw [e] at hleave
        exact absurd hst hleave
      · rw [e]
        show (rest (logicIsOccupied i)).state = _ ∧ (rest (logicIsOccupied i)).fault = _
        cases logicIsOccupied i <;> exact ⟨rfl, rfl⟩
    · have e : ((timed g i0 l).call (cue i s)).mode = (timed g i0 l).mode := by
        rcases fault_call (cue i s) hst with e | e
        · exact e
        · rw [e] at hstay
          exact absurd hstay (rest_ne_fault _)
      obtain ⟨hmoves, hstart⟩ := call_stays_silent (i := i) h.fresh rfl hst e
      have hout : s'.fsm.out = (runningTick i s.fresh).fsm.out := by rw [running_out]
      have hpins : s'.gpio.drives .stop := by
        have hp := h'.pins
        rw [e, (Mode.of_fault hst).1] at hp
        exact hp
      rw [hout]
      exact ⟨by rw [e], hmoves, hstart, hpins.1, hpins.2⟩
  · have hm : (timed g i0 l).mode = .cleanTimeout := hmode.resolve_right fun e => by
      rw [hfc, e] at hc
      cases hc
    have hk := (cleanTimeout_stays g i0 l hm hr b hb).1
    have hg := (run_good g i0 (l ++ b)).shows
    rw [hg.state, hg.fault, hk]
    exact ⟨rfl, rfl⟩

/-- a cleaning that was timed out by hand -/
def timedOut : List Step := cleaningOnRequest ++ [.litterTimeout 20]

/-- the lock at work: nothing but time passes -/
theorem fault_lock_timedOut :
    (run lowPins (calmAt 0) (timedOut ++ [.running (calmAt 9000)])).fsm.ctx.state = .fault ∧
    (run lowPins (calmAt 0) (timedOut ++ [.running (calmAt 9000)])).fsm.ctx.faultCode =
      .cleanTimeout :=
  (fault_lock lowPins (calmAt 0) timedOut (by decide)).2.2 (by decide) (by decide)
    [.running (calmAt 9000)] (by decide)

end LitterBox
