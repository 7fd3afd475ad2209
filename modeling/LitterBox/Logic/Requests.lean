import LitterBox.Logic.Reach

/-!
# What becomes of a clean request

A clean request is a flag.  Outside FAULT the next call consumes it, whether it can be granted or
not; in FAULT it is left standing, and the call after the recovery finds it.  `openRequests` lists
the states in which the requests behind the flag were made.

`requests_outside_fault` says exactly which runs start no cleaning on requests made in FAULT alone.
-/

namespace LitterBox

/-! ## the requests behind the flag -/

/-- what becomes of the requests behind the flag in a step -/
def noteRequests (s : Logic) (x : Step) (o : List LitterFsmState) : List LitterFsmState :=
  if (s.step x).gRemoteCleanRequest = true then
    match x with
    | .requestClean => s.fsm.ctx.state :: o
    | _ => o
  else []

/-- the states in which the requests open after a run were made, newest first -/
def openRequests (g : Gpio) (i0 : Inputs) (l : List Step) : List LitterFsmState :=
  Runs.observe Logic.step noteRequests (boot g i0) [] l

theorem openRequests_snoc (g : Gpio) (i0 : Inputs) (l : List Step) (x : Step) :
    openRequests g i0 (l ++ [x]) = noteRequests (run g i0 l) x (openRequests g i0 l) :=
  Runs.observe_snoc _ _ _ _ l x

/-- the clean stage of a call enters CLEANING -/
def entersByRequest (i : Inputs) (s : Logic) : Prop :=
  (runningOccupancy i s).fsm.ctx.state ≠ .cleaning ∧ (runningClean i s).fsm.ctx.state = .cleaning

instance (i : Inputs) (s : Logic) : Decidable (entersByRequest i s) := by
  unfold entersByRequest
  infer_instance

/-- every cleaning of the run that a request begins was requested outside FAULT as well -/
def requestedOutsideFault (g : Gpio) (i0 : Inputs) (l : List Step) : Prop :=
  ∀ a i b, l = a ++ .running i :: b → entersByRequest i (run g i0 a) →
    ∃ st ∈ openRequests g i0 a, st ≠ .fault

/-! ## when a request is granted -/

/-- **a request is granted** in IDLE and CLEAN_DELAY, if the samples allow it -/
theorem entersByRequest_iff {s : Logic} {τ : Timed} (i : Inputs) (h : Good s τ) :
    entersByRequest i s ↔
      s.gRemoteCleanRequest = true ∧ logicIsOccupied i = false ∧ logicIsBinFull i = false ∧
        (τ.mode = .idle ∨ τ.mode = .cleanDelay) := by
  unfold entersByRequest
  rw [(occupancy_amid h).shows.state, (clean_amid h).shows.state]
  exact Mode.begins_iff

/-- a request that outlasts the clean stage was met by FAULT -/
theorem runningClean_keeps {i : Inputs} {s : Logic}
    (h : (runningClean i s).gRemoteCleanRequest = true) :
    (runningBinFull i s).fsm.ctx.state = .fault := by
  by_contra hf
  unfold runningClean cleanRequest at h
  rw [if_pos hf] at h
  split at h
  · cases h
  next hr => exact hr h

theorem runningTick_request (i : Inputs) (s : Logic) :
    (runningTick i s).gRemoteCleanRequest = (runningClean i s).gRemoteCleanRequest := by
  obtain ⟨m, h, e⟩ := runningHall_reset i s
  show (runningHall i s).gRemoteCleanRequest = _
  rw [e]
  show (runningReset i s).gRemoteCleanRequest = _
  unfold runningReset resetRequest
  split <;> rfl

/-- a call that met FAULT at the bin-full stage ends in FAULT or at rest -/
theorem call_met_fault {τ : Timed} (q : Cue) (h : (τ.binFull q).mode.state = .fault) :
    (τ.call q).mode.state = .fault ∨ (τ.call q).mode.state = .idle ∨
      (τ.call q).mode.state = .occupied := by
  have hclean : (τ.clean q).mode = (τ.binFull q).mode :=
    (occupancy_fault q h q.clean).trans (seeOccupied_fault h q.occ)
  have hreset : (τ.reset q).mode = (τ.binFull q).mode ∨ (τ.reset q).mode = rest q.occ := by
    show (τ.clean q).mode.takeReset _ _ _ = _ ∨ (τ.clean q).mode.takeReset _ _ _ = _
    rw [hclean]
    exact Mode.takeReset_fault h _ _ _
  have hhall : (τ.hall q).mode = (τ.reset q).mode := by
    refine Mode.takeHall_outside _ fun hc => ?_
    rcases hreset with e | e
    · rw [e, h] at hc
      cases hc
    · rw [e] at hc
      rcases rest_state q.occ with hr | hr <;> rw [hr] at hc <;> cases hc
  show ((τ.hall q).mode.poll _ _ _ _).state = _ ∨ ((τ.hall q).mode.poll _ _ _ _).state = _ ∨
    ((τ.hall q).mode.poll _ _ _ _).state = _
  rw [hhall]
  rcases hreset with e | e
  · rw [e]
    rcases Mode.poll_fault h q.occ q.full _ _ with hp | hp <;> rw [hp]
    · exact Or.inl h
    · exact Or.inr (rest_state q.occ)
  · rw [e, rest_poll]
    exact Or.inr (rest_state q.occ)

/-- **requests of FAULT alone** are open in FAULT, IDLE and OCCUPIED only -/
theorem open_in_fault (g : Gpio) (i0 : Inputs) (l : List Step)
    (hr : (run g i0 l).gRemoteCleanRequest = true)
    (ho : ∀ st ∈ openRequests g i0 l, st = .fault) :
    (run g i0 l).fsm.ctx.state = .fault ∨ (run g i0 l).fsm.ctx.state = .idle ∨
      (run g i0 l).fsm.ctx.state = .occupied := by
  induction l using List.reverseRecOn with
  | nil =>
    have hb : (run g i0 []).gRemoteCleanRequest = false := by
      show (sensorLogicInit i0 (coldStart g)).drivePins.gRemoteCleanRequest = false
      rw [sensorLogicInit_coldStart]
      rfl
    rw [hb] at hr
    cases hr
  | append_singleton l x ih =>
    have h := run_good g i0 l
    rw [openRequests_snoc] at ho
    have hopen : ∀ st ∈ (match x with
        | .requestClean => (run g i0 l).fsm.ctx.state :: openRequests g i0 l
        | _ => openRequests g i0 l), st = .fault := by
      rw [run_snoc] at hr
      unfold noteRequests at ho
      rw [if_pos hr] at ho
      exact ho
    cases x with
    | requestClean =>
      rw [run_snoc]
      exact Or.inl (hopen _ List.mem_cons_self)
    | requestReset =>
      rw [run_snoc] at hr ⊢
      exact ih hr hopen
    | litterTimeout t =>
      rw [run_snoc] at hr ⊢
      rw [(litterTimeout_requests _ t).1] at hr
      have hold := ih hr hopen
      rw [h.shows.state] at hold
      rw [(h.litterTimeout t).shows.state]
      exact Timed.litterTimeout_inv
        (Q := fun τ => τ.mode.state = .fault ∨ τ.mode.state = .idle ∨ τ.mode.state = .occupied)
        t hold (Or.inl rfl)
    | running i =>
      have hcl : (runningClean i (run g i0 l).fresh).gRemoteCleanRequest = true := by
        rw [← runningTick_request]
        rw [run_snoc, step_running i h] at hr
        exact hr
      have hbin := runningClean_keeps hcl
      rw [(binFull_amid h.fresh).shows.state] at hbin
      rw [(run_good g i0 _).shows.state, timed_running]
      exact call_met_fault _ hbin

/-! ## the result -/

/-- a call that starts in IDLE, samples nobody and an empty bin, and finds a clean request that was
made in FAULT only -/
def grantsFaultRequest (g : Gpio) (i0 : Inputs) (a : List Step) (i : Inputs) : Prop :=
  (run g i0 a).fsm.ctx.state = .idle ∧ (run g i0 a).gRemoteCleanRequest = true ∧
    (∀ st ∈ openRequests g i0 a, st = .fault) ∧
    logicIsOccupied i = false ∧ logicIsBinFull i = false

/-- **Requests made in FAULT.**  A run begins no cleaning on them exactly when no call of it
starts in IDLE with such a request open and with samples that allow cleaning. -/
theorem requests_outside_fault (g : Gpio) (i0 : Inputs) (l : List Step) :
    requestedOutsideFault g i0 l ↔
      ∀ a i b, l = a ++ .running i :: b → ¬ grantsFaultRequest g i0 a i := by
  constructor
  · intro h a i b e hs
    obtain ⟨hst, hr, hall, ho, hf⟩ := hs
    have hg := run_good g i0 a
    have hμ : (timed g i0 a).mode = .idle := by
      have hs := hg.shows.state.symm.trans hst
      cases hm : (timed g i0 a).mode <;> rw [hm] at hs <;> first | rfl | cases hs
    obtain ⟨st, hmem, hne⟩ := h a i b e ((entersByRequest_iff i hg).mpr ⟨hr, ho, hf, Or.inl hμ⟩)
    exact hne (hall st hmem)
  · intro h a i b e henter
    by_contra hno
    have hall : ∀ st ∈ openRequests g i0 a, st = .fault := by
      intro st hmem
      by_contra hne
      exact hno ⟨st, hmem, hne⟩
    have hg := run_good g i0 a
    obtain ⟨hr, ho, hf, hμ⟩ := (entersByRequest_iff i hg).mp henter
    have hst := open_in_fault g i0 a hr hall
    refine h a i b e ⟨?_, hr, hall, ho, hf⟩
    rw [hg.shows.state] at hst ⊢
    rcases hμ with hμ | hμ <;> rw [hμ] at hst ⊢
    · rfl
    · rcases hst with hst | hst | hst <;> cases hst

/-- a full bin, a request, an empty bin: FAULT is left by itself, and the next call starts the
motor on the request -/
def requestInFault : List Step :=
  [.running (fullAt 10), .requestClean, .running (calmAt 30), .running (calmAt 50)]

/-- the request of `requestInFault` was made in FAULT, and it is granted -/
theorem requestInFault_granted : ¬ requestedOutsideFault lowPins (calmAt 0) requestInFault := by
  intro h
  have henter : entersByRequest (calmAt 50) (run lowPins (calmAt 0)
      [.running (fullAt 10), .requestClean, .running (calmAt 30)]) := by decide
  have hopen : openRequests lowPins (calmAt 0)
      [.running (fullAt 10), .requestClean, .running (calmAt 30)] = [.fault] := by decide
  obtain ⟨st, hmem, hne⟩ := h _ _ [] rfl henter
  rw [hopen] at hmem
  exact hne (List.mem_singleton.mp hmem)

end LitterBox
