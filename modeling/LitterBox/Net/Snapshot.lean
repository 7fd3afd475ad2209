import LitterBox.Fsm.Context
import LitterBox.Logic.Getters
import LitterBox.Logic.Reach

/-!
# The four getters of `my_publish`

`my_publish` reads the state, its name, the fault code and its name by four calls, which are
arguments of one call and so come in any order.  The control thread may run between any two of
them: a `SnapTurn` is one getter or one call into `logic.c`.

* `stateFaults_iff`          which fault codes go with a state read at another moment;
* `snapshot_consistent_iff`  when the four values are those of one moment.
-/

namespace LitterBox

/-! ## the interleaving -/

inductive Getter where
  | getState
  | stateName
  | getFaultCode
  | faultName
  deriving DecidableEq, Repr

inductive SnapTurn where
  | get (q : Getter)
  | logic (x : Step)
  deriving DecidableEq, Repr

/-- the four arguments, as far as they have been evaluated -/
@[ext]
structure SnapArgs where
  state : Option LitterFsmState
  stateText : Option String
  faultCode : Option LitterFsmFault
  faultText : Option String
  deriving DecidableEq, Repr

def Getter.call (s : Logic) (p : SnapArgs) : Getter → SnapArgs
  | .getState => { p with state := some (sensorLogicGetState s) }
  | .stateName => { p with stateText := some (sensorLogicStateName s) }
  | .getFaultCode => { p with faultCode := some (sensorLogicGetFaultCode s) }
  | .faultName => { p with faultText := some (sensorLogicFaultName s) }

structure Snap where
  logic : Logic
  args : SnapArgs

def Snap.turn (p : Snap) : SnapTurn → Snap
  | .get q => { p with args := q.call p.logic p.args }
  | .logic x => { p with logic := p.logic.step x }

/-- after `Sensor_Logic_Init`, the turns `l` -/
def snapRun (g : Gpio) (i0 : Inputs) (l : List SnapTurn) : Snap :=
  Runs.run Snap.turn ⟨boot g i0, ⟨none, none, none, none⟩⟩ l

/-- the context after the turns `l` -/
def snapCtx (g : Gpio) (i0 : Inputs) (l : List SnapTurn) : LitterFsmCtx :=
  (snapRun g i0 l).logic.fsm.ctx

/-- the context when the getter `q` is called -/
def ctxAt (g : Gpio) (i0 : Inputs) (l : List SnapTurn) (q : Getter) : LitterFsmCtx :=
  snapCtx g i0 (l.takeWhile (· ≠ .get q))

/-- the four values are consistent: the texts are the names of the numbers, and the context held
the state and the fault code at one moment -/
def SnapArgs.consistent (g : Gpio) (i0 : Inputs) (l : List SnapTurn) (p : SnapArgs) : Prop :=
  ∃ s f, p = ⟨some s, some (litterFsmStateName s), some f, some (litterFsmFaultName f)⟩ ∧
    ∃ a, a <+: l ∧ (snapCtx g i0 a).state = s ∧ (snapCtx g i0 a).faultCode = f

/-! ## states and fault codes -/

theorem snapRun_good (g : Gpio) (i0 : Inputs) (l : List SnapTurn) :
    ∃ τ, Good (snapRun g i0 l).logic τ := by
  refine Runs.run_inv (I := fun (p : Snap) => ∃ τ, Good p.logic τ) (fun p x h => ?_)
    ⟨_, boot_good g i0⟩ l
  obtain ⟨τ, h⟩ := h
  cases x with
  | get q => exact ⟨τ, h⟩
  | logic x => exact ⟨_, h.step x⟩

theorem snapCtx_fault (g : Gpio) (i0 : Inputs) (l : List SnapTurn) :
    (snapCtx g i0 l).faultCode ∈ stateFaults (snapCtx g i0 l).state := by
  obtain ⟨τ, h⟩ := snapRun_good g i0 l
  exact h.shows.coherent.fault

theorem stateFaults_none {s : LitterFsmState} {f : LitterFsmFault} (h : f ∈ stateFaults s)
    (hn : .none ∈ stateFaults s) : f = .none := by
  cases s with
  | safeStop => exact absurd hn (by decide)
  | fault => exact absurd hn (by decide)
  | _ => exact List.mem_singleton.mp h

/-- a fault code other than `NONE` goes with one state -/
theorem stateFaults_state {s : LitterFsmState} {f : LitterFsmFault} (h : f ∈ stateFaults s)
    (hf : f ≠ .none) : s = if f = .protectTrigger then .safeStop else .fault := by
  cases s with
  | safeStop => rw [if_pos (List.mem_singleton.mp h)]
  | fault =>
    refine (if_neg fun e => ?_).symm
    rw [e] at h
    exact absurd h (by decide)
  | _ => exact absurd (List.mem_singleton.mp h) hf

/-- a fault code goes with a state read at another moment only if the state, or the code, was the
same at both -/
theorem stateFaults_iff {s s' : LitterFsmState} {f f' : LitterFsmFault} (h : f ∈ stateFaults s)
    (h' : f' ∈ stateFaults s') : f' ∈ stateFaults s ↔ s = s' ∨ f = f' := by
  constructor
  · intro hm
    by_cases hn : f' = .none
    · rw [hn] at hm ⊢
      exact Or.inr (stateFaults_none h hm)
    · exact Or.inl ((stateFaults_state hm hn).trans (stateFaults_state h' hn).symm)
  · rintro (rfl | rfl)
    · exact h'
    · exact h

/-! ## the values of the arguments -/

/-- the argument `q` has the value that the context `c` gives it -/
def SnapArgs.reads (c : LitterFsmCtx) (p : SnapArgs) : Getter → Prop
  | .getState => p.state = some c.state
  | .stateName => p.stateText = some (litterFsmStateName c.state)
  | .getFaultCode => p.faultCode = some c.faultCode
  | .faultName => p.faultText = some (litterFsmFaultName c.faultCode)

theorem Getter.call_reads (s : Logic) (p : SnapArgs) (q : Getter) :
    (q.call s p).reads s.fsm.ctx q := by
  cases q <;> rfl

/-- a getter leaves the other arguments alone -/
theorem SnapArgs.reads_call {c : LitterFsmCtx} {p : SnapArgs} {q q' : Getter} (hne : q' ≠ q)
    (h : p.reads c q) (s : Logic) : (q'.call s p).reads c q := by
  cases q <;> cases q' <;> first | exact h | exact absurd rfl hne

theorem reads_run {c : LitterFsmCtx} {q : Getter} (b : List SnapTurn) (hb : .get q ∉ b) {p : Snap}
    (h : p.args.reads c q) : (Runs.run Snap.turn p b).args.reads c q := by
  induction b generalizing p with
  | nil => exact h
  | cons x b ih =>
    obtain ⟨hx, hb⟩ := not_or.mp (mt List.mem_cons.mpr hb)
    rw [Runs.run_cons]
    refine ih hb ?_
    cases x with
    | logic x => exact h
    | get q' => exact SnapArgs.reads_call (fun e => hx (by rw [e])) h p.logic

theorem split_get {l : List SnapTurn} {q : Getter} (h : l.count (.get q) = 1) :
    ∃ b, l = l.takeWhile (· ≠ .get q) ++ .get q :: b ∧ .get q ∉ b := by
  have hm : .get q ∈ l := List.count_pos_iff.mp (by omega)
  obtain ⟨a, b, rfl, ha⟩ := List.eq_append_cons_of_mem hm
  refine ⟨b, ?_, ?_⟩
  · rw [List.takeWhile_append_of_pos, List.takeWhile_cons_of_neg, List.append_nil]
    · exact fun h => absurd rfl (of_decide_eq_true h)
    · exact fun x hx => decide_eq_true fun e => ha (e ▸ hx)
  · rw [List.count_append, List.count_cons_self] at h
    exact List.count_eq_zero.mp (by omega)

/-- **every argument is the value of its own moment** -/
theorem snapRun_reads (g : Gpio) (i0 : Inputs) {l : List SnapTurn} {q : Getter}
    (h : l.count (.get q) = 1) : (snapRun g i0 l).args.reads (ctxAt g i0 l q) q := by
  obtain ⟨b, hl, hb⟩ := split_get h
  have hrun : snapRun g i0 l =
      Runs.run Snap.turn ((snapRun g i0 (l.takeWhile (· ≠ .get q))).turn (.get q)) b := by
    conv_lhs => rw [hl]
    unfold snapRun
    rw [Runs.run_append, Runs.run_cons]
  rw [hrun]
  exact reads_run b hb (q.call_reads _ _)

/-- **The snapshot of `my_publish`.**  Every argument is the value of the moment of its own getter.
The four are consistent exactly if the two calls that read the state found the same state, the two
that read the fault code found the same code, and the state or the code did not change between
reading the one number and the other. -/
theorem snapshot_consistent_iff (g : Gpio) (i0 : Inputs) (l : List SnapTurn)
    (h : ∀ q, l.count (.get q) = 1) :
    let c := ctxAt g i0 l
    let p := (snapRun g i0 l).args
    p = ⟨some (c .getState).state, some (litterFsmStateName (c .stateName).state),
      some (c .getFaultCode).faultCode, some (litterFsmFaultName (c .faultName).faultCode)⟩ ∧
    (p.consistent g i0 l ↔
      (c .getState).state = (c .stateName).state ∧
      (c .getFaultCode).faultCode = (c .faultName).faultCode ∧
      ((c .getState).state = (c .getFaultCode).state ∨
        (c .getState).faultCode = (c .getFaultCode).faultCode)) := by
  intro c p
  have hp : p = ⟨some (c .getState).state, some (litterFsmStateName (c .stateName).state),
      some (c .getFaultCode).faultCode,
      some (litterFsmFaultName (c .faultName).faultCode)⟩ := by
    have h1 : p.state = _ := snapRun_reads g i0 (h .getState)
    have h2 : p.stateText = _ := snapRun_reads g i0 (h .stateName)
    have h3 : p.faultCode = _ := snapRun_reads g i0 (h .getFaultCode)
    have h4 : p.faultText = _ := snapRun_reads g i0 (h .faultName)
    exact SnapArgs.ext h1 h2 h3 h4
  have hpair := stateFaults_iff (snapCtx_fault g i0 (l.takeWhile (· ≠ .get .getState)))
    (snapCtx_fault g i0 (l.takeWhile (· ≠ .get .getFaultCode)))
  refine ⟨hp, ?_⟩
  rw [hp]
  constructor
  · rintro ⟨s, f, he, a, -, hs, hf⟩
    obtain ⟨e1, e2, e3, e4⟩ := SnapArgs.mk.inj he
    have e1 : (c .getState).state = s := Option.some.inj e1
    have e3 : (c .getFaultCode).faultCode = f := Option.some.inj e3
    have e2 : (c .stateName).state = s := litterFsmStateName_inj (Option.some.inj e2)
    have e4 : (c .faultName).faultCode = f := litterFsmFaultName_inj (Option.some.inj e4)
    refine ⟨e1.trans e2.symm, e3.trans e4.symm, hpair.mp ?_⟩
    show (c .getFaultCode).faultCode ∈ stateFaults (c .getState).state
    rw [e1, e3, ← hs, ← hf]
    exact snapCtx_fault g i0 a
  · rintro ⟨e1, e2, e3⟩
    refine ⟨(c .getState).state, (c .getFaultCode).faultCode, by rw [e1, e2], ?_⟩
    rcases e3 with e3 | e3
    · exact ⟨_, List.takeWhile_prefix _, e3.symm, rfl⟩
    · exact ⟨_, List.takeWhile_prefix _, rfl, e3⟩

/-- between the state and the rest a call empties the bin -/
def tornSnapshot : List SnapTurn :=
  [.logic (.running (fullAt 10)), .get .getState, .logic (.running (calmAt 20)), .get .stateName,
    .get .getFaultCode, .get .faultName]

/-- the payload then says FAULT, `"IDLE"`, NONE, `"NONE"` -/
theorem tornSnapshot_inconsistent :
    (snapRun lowPins (calmAt 0) tornSnapshot).args =
      ⟨some .fault, some "IDLE", some .none, some "NONE"⟩ ∧
    ¬ (snapRun lowPins (calmAt 0) tornSnapshot).args.consistent lowPins (calmAt 0)
      tornSnapshot := by
  have hp : (snapRun lowPins (calmAt 0) tornSnapshot).args =
      ⟨some .fault, some "IDLE", some .none, some "NONE"⟩ := by decide
  refine ⟨hp, ?_⟩
  rw [hp]
  rintro ⟨s, f, he, -⟩
  obtain ⟨e1, e2, -, -⟩ := SnapArgs.mk.inj he
  obtain rfl := Option.some.inj e1
  exact absurd e2 (by decide)

/-- without a call between the getters the four are consistent -/
theorem snapshot_consistent_iff_calm :
    let l : List SnapTurn := [.logic (.running (fullAt 10)), .get .faultName, .get .getState,
      .get .getFaultCode, .get .stateName]
    (snapRun lowPins (calmAt 0) l).args.consistent lowPins (calmAt 0) l :=
  (snapshot_consistent_iff lowPins (calmAt 0) [.logic (.running (fullAt 10)), .get .faultName,
    .get .getState, .get .getFaultCode, .get .stateName]
    (fun q => by cases q <;> decide)).2.mpr ⟨by decide, by decide, by decide⟩

end LitterBox
