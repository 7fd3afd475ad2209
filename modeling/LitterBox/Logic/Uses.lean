import LitterBox.Logic.Hall

/-!
# Uses of the box

`box_used` goes up on an edge of the occupancy sample.  A use is a state change from IDLE to
OCCUPIED, which `fsm.c` makes; `uses` counts the changes in the logs of the calls.

* `call_uses`            a call that finds a cat in an idle box makes one use, any other none;
* `runningTick_boxUsed`  `box_used` goes up in the same calls;
* `uses_exact`           so it is the number of uses.
-/

namespace LitterBox

/-! ## uses -/

/-- the state changes from IDLE to OCCUPIED in a log -/
def usesIn (l : List Out) : Nat := (moves l).count (.idle, .occupied)

/-- the uses of a step; only calls of `Sensor_Logic_Running` make any -/
def stepUses (s : Logic) (x : Step) : Nat :=
  match x with
  | .running _ => usesIn (s.step x).fsm.out
  | _ => 0

/-- the uses of a run -/
def uses (g : Gpio) (i0 : Inputs) (l : List Step) : Nat :=
  Runs.observe Logic.step (fun s x n => n + stepUses s x) (boot g i0) 0 l

theorem uses_snoc (g : Gpio) (i0 : Inputs) (l : List Step) (x : Step) :
    uses g i0 (l ++ [x]) = uses g i0 l + stepUses (run g i0 l) x :=
  Runs.observe_snoc _ _ _ _ l x

/-- a call finds a cat in an idle box -/
def Cue.enters (q : Cue) (μ : Mode) : Prop := μ = .idle ∧ q.full = false ∧ q.occ = true

instance (q : Cue) (μ : Mode) : Decidable (q.enters μ) := by
  unfold Cue.enters
  infer_instance

/-! ## the state changes of a call -/

theorem Mode.occupied_of_state {μ : Mode} (h : μ.state = .occupied) : μ = .occupied := by
  cases μ with
  | occupied => rfl
  | _ => cases h

theorem Mode.count_hop (μ μ' : Mode) :
    (μ.hop μ').count (.idle, .occupied) = if μ = .idle ∧ μ' = .occupied then 1 else 0 := by
  by_cases h : μ = .idle ∧ μ' = .occupied
  · obtain ⟨rfl, rfl⟩ := h
    rfl
  · rw [if_neg h, List.count_eq_zero]
    intro hmem
    obtain ⟨e, -⟩ := Mode.mem_hop hmem
    obtain ⟨h1, h2⟩ := Prod.mk.inj e
    exact h ⟨Mode.idle_of_state h1.symm, Mode.occupied_of_state h2.symm⟩

/-- a stage that leads an idle machine elsewhere than to OCCUPIED makes no use -/
theorem Mode.count_hop_zero {μ μ' : Mode} (h : μ = .idle → μ' ≠ .occupied) :
    (μ.hop μ').count (.idle, .occupied) = 0 := by
  rw [Mode.count_hop, if_neg]
  rintro ⟨h1, h2⟩
  exact h h1 h2

/-- only the occupancy stage leads from IDLE to OCCUPIED: a request that is blocked does not -/
theorem Timed.use_at_occupancy (q : Cue) (τ : Timed) :
    (τ.mode = .idle → (τ.binFull q).mode ≠ .occupied) ∧
    ((τ.occupancy q).mode = .idle → (τ.clean q).mode ≠ .occupied) ∧
    ((τ.clean q).mode = .idle → (τ.reset q).mode ≠ .occupied) ∧
    ((τ.reset q).mode = .idle → (τ.hall q).mode ≠ .occupied) ∧
    ((τ.hall q).mode = .idle → (τ.call q).mode ≠ .occupied) := by
  refine ⟨fun h => ?_, fun h => ?_, fun h => ?_, fun h => ?_, fun h => ?_⟩
  · show τ.mode.seeFull q.full ≠ .occupied
    rw [h]
    cases q.full <;> decide
  · show (τ.occupancy q).mode.takeClean q.clean ≠ .occupied
    rw [h]
    cases q.clean <;> decide
  · show (τ.clean q).mode.takeReset q.reset q.occ q.full ≠ .occupied
    rw [h]
    show Mode.idle ≠ .occupied
    decide
  · show (τ.reset q).mode.takeHall q.pos ≠ .occupied
    rw [h]
    show Mode.idle ≠ .occupied
    decide
  · show (τ.hall q).mode.poll q.occ q.full _ _ ≠ .occupied
    rw [h]
    show Mode.idle ≠ .occupied
    decide

/-- the occupancy stage makes a use exactly when the call finds a cat in an idle box -/
theorem occupancy_use (q : Cue) (τ : Timed) :
    (τ.binFull q).mode = .idle ∧ (τ.occupancy q).mode = .occupied ↔ q.enters τ.mode := by
  constructor
  · rintro ⟨h1, h2⟩
    obtain ⟨hm, hf⟩ := Mode.seeFull_calm (μ := τ.mode) h1 (Or.inl rfl)
    refine ⟨hm, hf, ?_⟩
    have h3 : (τ.binFull q).mode.seeOccupied q.occ = .occupied := h2
    rw [h1] at h3
    by_contra ho
    rw [Bool.eq_false_iff.mpr ho] at h3
    cases h3
  · rintro ⟨hm, hf, ho⟩
    have h1 : (τ.binFull q).mode = .idle := by
      show τ.mode.seeFull q.full = .idle
      rw [hm, hf]
      rfl
    refine ⟨h1, ?_⟩
    show (τ.binFull q).mode.seeOccupied q.occ = .occupied
    rw [h1, ho]
    rfl

/-- **a call that finds a cat in an idle box** makes one use, any other call none -/
theorem call_uses {i : Inputs} {s : Logic} {τ : Timed} (h : Good s τ) (ho : s.fsm.out = []) :
    usesIn (runningTick i s).fsm.out = if (cue i s).enters τ.mode then 1 else 0 := by
  have hnil : moves s.fsm.out = [] := by
    rw [ho]
    rfl
  obtain ⟨h1, h3, h4, h5, h6⟩ := Timed.use_at_occupancy (cue i s) τ
  unfold usesIn
  rw [call_moves h, hnil, List.append_nil]
  simp only [List.count_append]
  rw [Mode.count_hop_zero h1, Mode.count_hop_zero h3, Mode.count_hop_zero h4,
    Mode.count_hop_zero h5, Mode.count_hop_zero h6, Mode.count_hop, Nat.zero_add, Nat.zero_add,
    Nat.zero_add, Nat.zero_add, Nat.add_zero]
  exact if_congr (occupancy_use (cue i s) τ) rfl rfl

/-- the same read off the states before and after the call -/
theorem call_enters_iff {i : Inputs} {s : Logic} {τ : Timed} (h : Good s τ) :
    τ.mode.state = .idle ∧ (τ.call (cue i s)).mode.state = .occupied ↔
      (cue i s).enters τ.mode := by
  constructor
  · rintro ⟨hi, hc⟩
    -- an occupied box fits its samples only if the call saw somebody, and room in the bin
    have hfits : (τ.call (cue i s)).mode.fits (logicIsOccupied i) (logicIsBinFull i) :=
      (h.running i).fits
    rw [Mode.occupied_of_state hc] at hfits
    exact ⟨Mode.idle_of_state hi, hfits.2, hfits.1⟩
  · rintro ⟨hm, hf, ho⟩
    refine ⟨by rw [hm]; rfl, ?_⟩
    show ((τ.hall (cue i s)).mode.poll _ _ _ _).state = .occupied
    rw [Timed.hall_mode, hm, hf, ho]
    rfl

/-! ## box_used -/

theorem occupancyEdge_boxUsed (now : Tick) (occ : Bool) (st : LitterFsmState) (s : Logic) :
    (occupancyEdge now occ st s).boxUsed =
      s.boxUsed + if occ = true ∧ s.gPrevOccupied = false ∧ st = .idle then 1 else 0 := by
  have no : ¬ (occ = true ∧ s.gPrevOccupied = false ∧ st = .idle) →
      s.boxUsed = s.boxUsed + if occ = true ∧ s.gPrevOccupied = false ∧ st = .idle then 1 else 0 :=
    fun hn => by rw [if_neg hn, Int.add_zero]
  unfold occupancyEdge
  by_cases he : occ = s.gPrevOccupied
  · rw [if_neg (not_not.mpr he)]
    refine no ?_
    rintro ⟨h1, h2, -⟩
    rw [h1, h2] at he
    cases he
  rw [if_pos he]
  by_cases ho : occ = true
  · rw [if_pos ho]
    by_cases hs : st = .idle
    · have hp : s.gPrevOccupied = false := by
        rw [ho] at he
        exact Bool.eq_false_iff.mpr (Ne.symm he)
      have hrise : occ = true ∧ s.gPrevOccupied = false ∧ st = .idle := ⟨ho, hp, hs⟩
      rw [if_pos hrise, hs]
      rfl
    · refine Eq.trans ?_ (no fun hh => hs hh.2.2)
      rw [if_neg hs]
      dsimp only
      split <;> rfl
  · rw [if_neg ho]
    exact no fun hh => ho hh.1

/-- the stages after the occupancy stage leave `box_used` alone -/
theorem runningTick_used (i : Inputs) (s : Logic) :
    (runningTick i s).boxUsed = (runningOccupancy i s).boxUsed := by
  have hclean : (runningClean i s).boxUsed = (runningOccupancy i s).boxUsed := by
    unfold runningClean cleanRequest
    split
    · split <;> rfl
    · rfl
  have hreset : (runningReset i s).boxUsed = (runningClean i s).boxUsed := by
    unfold runningReset resetRequest
    split <;> rfl
  obtain ⟨m, h, e⟩ := runningHall_reset i s
  rw [← hclean, ← hreset]
  show (runningHall i s).boxUsed = _
  rw [e]

/-- **`box_used` goes up** in the calls that find a cat in an idle box -/
theorem runningTick_boxUsed {i : Inputs} {s : Logic} {τ : Timed} (h : Good s τ) :
    (runningTick i s).boxUsed = s.boxUsed + if (cue i s).enters τ.mode then 1 else 0 := by
  obtain ⟨m, e⟩ := runningBinFull_frame i s
  have hst : (runningBinFull i s).fsm.ctx.state = (τ.mode.seeFull (logicIsBinFull i)).state :=
    (binFull_amid h).shows.state
  have hused : (runningBinFull i s).boxUsed = s.boxUsed := by rw [e]
  have hprev : (runningBinFull i s).gPrevOccupied = s.gPrevOccupied := by rw [e]
  have hidle : (logicIsOccupied i = true ∧ s.gPrevOccupied = false ∧
      (runningBinFull i s).fsm.ctx.state = .idle) ↔ (cue i s).enters τ.mode := by
    rw [hst]
    constructor
    · rintro ⟨ho, -, hi⟩
      obtain ⟨hm, hf⟩ := Mode.seeFull_calm (Mode.idle_of_state hi) (Or.inl rfl)
      exact ⟨hm, hf, ho⟩
    · rintro ⟨hm, hf, ho⟩
      have hfits := h.fits
      rw [hm] at hfits
      refine ⟨ho, hfits.1, ?_⟩
      rw [hm, show logicIsBinFull i = false from hf]
      rfl
  rw [runningTick_used]
  unfold runningOccupancy
  dsimp only
  by_cases hf : (runningBinFull i s).fsm.ctx.state = .fault
  · rw [if_neg (not_not.mpr hf), hused, if_neg, Int.add_zero]
    intro hq
    rw [(hidle.mpr hq).2.2] at hf
    cases hf
  · rw [if_pos hf, occupancyEdge_boxUsed, hused, hprev]
    exact congrArg (s.boxUsed + ·) (if_congr hidle rfl rfl)

/-! ## runs -/

/-- the machine is idle before the step and occupied after it -/
def usedBetween (s s' : Logic) : Prop := s.fsm.ctx.state = .idle ∧ s'.fsm.ctx.state = .occupied

instance (s s' : Logic) : Decidable (usedBetween s s') := by
  unfold usedBetween
  infer_instance

theorem running_used {i : Inputs} {s : Logic} {τ : Timed} (h : Good s τ) :
    usedBetween s (s.step (.running i)) ↔ (cue i s).enters τ.mode := by
  unfold usedBetween
  rw [h.shows.state, (h.running i).shows.state]
  exact call_enters_iff h

/-- the steps that are no call of `Sensor_Logic_Running` do not lead from IDLE to OCCUPIED -/
theorem not_used {s : Logic} {τ : Timed} (h : Good s τ) {x : Step} (hx : ∀ i, x ≠ .running i) :
    ¬ usedBetween s (s.step x) ∧ (s.step x).boxUsed = s.boxUsed ∧ stepUses s x = 0 := by
  have same : ∀ {s' : Logic}, s'.fsm.ctx.state = s.fsm.ctx.state → ¬ usedBetween s s' := by
    rintro s' e ⟨h1, h2⟩
    rw [e, h1] at h2
    cases h2
  cases x with
  | running i => exact absurd rfl (hx i)
  | requestClean => exact ⟨same rfl, rfl, rfl⟩
  | requestReset => exact ⟨same rfl, rfl, rfl⟩
  | litterTimeout t =>
    refine ⟨?_, ?_, rfl⟩
    · rintro ⟨h1, h2⟩
      rw [h.shows.state] at h1
      rw [(h.litterTimeout t).shows.state, Timed.after_litterTimeout_of_ne t (by rw [h1]; decide),
        h1] at h2
      cases h2
    · show (LitterBox.litterTimeout (tick t) s.fresh).boxUsed = _
      unfold LitterBox.litterTimeout
      split <;> rfl

/-- **one step of the count**: `box_used` and the uses go up together, by one where the box is used -/
theorem step_uses {s : Logic} {τ : Timed} (h : Good s τ) (x : Step) :
    (s.step x).boxUsed = s.boxUsed + (if usedBetween s (s.step x) then 1 else 0) ∧
    stepUses s x = if usedBetween s (s.step x) then 1 else 0 := by
  by_cases hx : ∃ i, x = .running i
  · obtain ⟨i, rfl⟩ := hx
    have hused := running_used (i := i) h
    have hbox : (s.step (.running i)).boxUsed = (runningTick i s.fresh).boxUsed := by
      rw [step_running i h]
      rfl
    have hout : stepUses s (.running i) = usesIn (runningTick i s.fresh).fsm.out := by
      unfold stepUses
      dsimp only
      rw [step_running i h]
      rfl
    rw [hbox, hout, runningTick_boxUsed h.fresh, call_uses h.fresh rfl]
    exact ⟨congrArg (s.boxUsed + ·) (if_congr hused.symm rfl rfl), if_congr hused.symm rfl rfl⟩
  · obtain ⟨h1, h2, h3⟩ := not_used h (x := x) fun i hi => hx ⟨i, hi⟩
    rw [if_neg h1, if_neg h1, h2, h3, Int.add_zero]
    exact ⟨rfl, rfl⟩

theorem boot_boxUsed (g : Gpio) (i0 : Inputs) : (boot g i0).boxUsed = 0 := by
  show (sensorLogicInit i0 (coldStart g)).boxUsed = 0
  rw [sensorLogicInit_coldStart]
  rfl

/-- **`box_used` is the number of uses** -/
theorem run_boxUsed (g : Gpio) (i0 : Inputs) (l : List Step) :
    (run g i0 l).boxUsed = uses g i0 l := by
  induction l using List.reverseRecOn with
  | nil => exact boot_boxUsed g i0
  | append_singleton l x ih =>
    obtain ⟨hbox, huses⟩ := step_uses (run_good g i0 l) x
    rw [run_snoc, hbox, uses_snoc, huses, ih]
    split <;> rfl

/-- **uses are counted exactly**: `box_used` is the number of changes from IDLE to OCCUPIED that the
calls have logged, and a step adds one to it if it leads from IDLE to OCCUPIED, and else nothing -/
theorem uses_exact (g : Gpio) (i0 : Inputs) (l : List Step) :
    (run g i0 l).boxUsed = uses g i0 l ∧
    ∀ x, (run g i0 (l ++ [x])).boxUsed = (run g i0 l).boxUsed +
      if usedBetween (run g i0 l) (run g i0 (l ++ [x])) then 1 else 0 := by
  refine ⟨run_boxUsed g i0 l, fun x => ?_⟩
  rw [run_snoc]
  exact (step_uses (run_good g i0 l) x).1

-- the cat comes back in LEAVE_CONFIRM
example : (run lowPins (calmAt 0) (leaving ++ [.running (occupiedAt 30)])).boxUsed = 1 := by decide

end LitterBox
