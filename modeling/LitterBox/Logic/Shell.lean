import LitterBox.Logic.Hall
import LitterBox.Logic.Interlock

/-!
# The shell command in two steps

`litter_timeout` runs in the shell thread, which the control thread may preempt between the test of
the state and `litter_fsm_dispatch`.  A `ShellTurn` is one of the two steps, or a call into
`logic.c`.  `litter_reset` is a command of the same thread, so that no `requestReset` falls between
the two steps; the results do not need this.

* `Good.stall`               the dispatch makes a `CLEAN_TIMEOUT` of any state;
* `call_cleanTimeout_of`     a call of `Sensor_Logic_Running` makes one of a cleaning only;
* `call_within`              which calls end a cleaning, and which begin one;
* `timeout_only_from_cleaning`   which interleavings keep `CLEAN_TIMEOUT` to CLEANING.
-/

namespace LitterBox

/-! ## the interleaving -/

inductive ShellTurn where
  | running (i : Inputs)
  | requestClean
  | requestReset
  /-- the next step of `litter_timeout`, at the true time `time` -/
  | shell (time : Nat)
  deriving DecidableEq, Repr

structure Shell where
  logic : Logic
  /-- the test of the state has been passed, the dispatch is next -/
  passed : Bool

/-- the second step of `litter_timeout` -/
def Logic.stall (t : Nat) (s : Logic) : Logic :=
  (s.fresh.dispatch (tick t) .stallOrTimeout).drivePins

/-- where the test of the state fails, the command returns -/
def Shell.turn (p : Shell) : ShellTurn → Shell
  | .running i => { p with logic := p.logic.step (.running i) }
  | .requestClean => { p with logic := p.logic.step .requestClean }
  | .requestReset => { p with logic := p.logic.step .requestReset }
  | .shell t =>
    if p.passed = true then ⟨p.logic.stall t, false⟩
    else { p with passed := decide (p.logic.fsm.ctx.state = .cleaning) }

/-- after `Sensor_Logic_Init`, the turns `l` -/
def shellRun (g : Gpio) (i0 : Inputs) (l : List ShellTurn) : Shell :=
  Runs.run Shell.turn ⟨boot g i0, false⟩ l

theorem shellRun_snoc (g : Gpio) (i0 : Inputs) (l : List ShellTurn) (x : ShellTurn) :
    shellRun g i0 (l ++ [x]) = (shellRun g i0 l).turn x :=
  Runs.run_snoc _ _ l x

/-- the two steps in one are the command -/
theorem shell_atomic (s : Logic) (t : Nat) :
    ((Shell.turn ⟨s, false⟩ (.shell t)).logic = s ∧
      (s.fsm.ctx.state = .cleaning →
        (Shell.turn (Shell.turn ⟨s, false⟩ (.shell t)) (.shell t)).logic =
          s.step (.litterTimeout t))) := by
  refine ⟨rfl, fun hc => ?_⟩
  have h1 : Shell.turn ⟨s, false⟩ (.shell t) = ⟨s, true⟩ := by
    show Shell.mk s (decide _) = _
    rw [decide_eq_true hc]
  rw [h1]
  show s.stall t = (LitterBox.litterTimeout (tick t) s.fresh).drivePins
  have hc' : ¬ s.fresh.fsm.ctx.state ≠ .cleaning := not_not.mpr hc
  unfold LitterBox.litterTimeout Logic.stall
  rw [if_neg hc']

/-! ## what the steps do -/

/-- the fault lock of `CLEAN_TIMEOUT` -/
def LitterFsmCtx.timedOut (c : LitterFsmCtx) : Prop :=
  c.state = .fault ∧ c.faultCode = .cleanTimeout

instance (c : LitterFsmCtx) : Decidable c.timedOut := by
  unfold LitterFsmCtx.timedOut
  infer_instance

/-- where the dispatch of the shell command does no harm -/
def LitterFsmCtx.within (c : LitterFsmCtx) : Prop := c.state = .cleaning ∨ c.timedOut

/-- between the contexts `c` and `c'` the state became FAULT with the code `CLEAN_TIMEOUT`, or the
code became `CLEAN_TIMEOUT` -/
def raises (c c' : LitterFsmCtx) : Prop :=
  c'.timedOut ∧ ¬ c.timedOut ∨ c'.faultCode = .cleanTimeout ∧ c.faultCode ≠ .cleanTimeout

instance (c c' : LitterFsmCtx) : Decidable (raises c c') := by
  unfold raises
  infer_instance

theorem Shows.timedOut_iff {c : LitterFsmCtx} {τ : Timed} (h : Shows c τ) :
    c.timedOut ↔ τ.mode = .cleanTimeout := by
  unfold LitterFsmCtx.timedOut
  rw [h.state, h.fault, Mode.fault_cleanTimeout]
  constructor
  · exact fun h => h.2
  · intro e
    rw [e]
    exact ⟨rfl, rfl⟩

theorem raises_iff {c c' : LitterFsmCtx} {τ τ' : Timed} (h : Shows c τ) (h' : Shows c' τ') :
    raises c c' ↔ τ'.mode = .cleanTimeout ∧ τ.mode ≠ .cleanTimeout := by
  unfold raises
  rw [h.timedOut_iff, h'.timedOut_iff, h.fault, h'.fault, Mode.fault_cleanTimeout, ne_eq,
    Mode.fault_cleanTimeout, or_self]

/-- **the dispatch, in any state** -/
theorem Good.stall {s : Logic} {τ : Timed} (h : Good s τ) (t : Nat) :
    Good (s.stall t) (τ.goto t .cleanTimeout) := by
  have g := litterFsmDispatch_goes (t := t) (m := s.fresh.fsm) .stallOrTimeout h.shows
  rw [show τ.mode.on .stallOrTimeout (s.fresh.fsm.ctx.flags.note .stallOrTimeout) =
    .cleanTimeout by cases τ.mode <;> rfl] at g
  refine ⟨h.ready, g.shows, g.ops.trans h.armed, trivial, trivial, ?_⟩
  have hm := g.log.motor h.armed τ.mode.drive fun _ => rfl
  show (Gpio.replay s.gpio (litterFsmDispatch (tick t) .stallOrTimeout s.fresh.fsm).out).drives
    (Mode.drive .cleanTimeout)
  rw [← hm]
  exact Gpio.drives_replay h.pins _

/-- a cleaning began at the time `t` -/
def Timed.begun (t : Nat) (τ : Timed) : Prop :=
  τ.mode.state = .cleaning → τ.since = t ∧ τ.legSince = t

theorem Timed.begun_goto {t : Nat} {τ : Timed} (h : τ.begun t) (μ : Mode) :
    (τ.goto t μ).begun t := by
  intro hc
  have hc' : μ.state = .cleaning := hc
  constructor
  · by_cases hs : μ.state = τ.mode.state
    · rw [Timed.goto_since hs]
      exact (h (hs.symm.trans hc')).1
    · exact Timed.goto_since_of_ne hs
  · by_cases hm : μ = τ.mode
    · rw [Timed.goto_legSince hm]
      exact (h (by rw [← hm, hc'])).2
    · exact Timed.goto_legSince_of_ne hm

theorem Timed.late_begun {t : Nat} {τ : Timed} (h : τ.begun t) : τ.late t = false := by
  by_cases hc : τ.mode.state = .cleaning
  · obtain ⟨l, hl⟩ := Mode.cleaning_of_state hc
    obtain ⟨h1, h2⟩ := h hc
    unfold Timed.late
    rw [hl, h1, h2, BitVec.sub_self]
    cases l <;> rfl
  · exact Timed.late_of_ne t hc

/-- no stage before the poll leads into the lock -/
theorem hall_cleanTimeout {q : Cue} {τ : Timed} (h : (τ.hall q).mode = .cleanTimeout) :
    τ.mode = .cleanTimeout :=
  Mode.seeFull_cleanTimeout (Mode.seeOccupied_cleanTimeout (Mode.takeClean_cleanTimeout
    (Mode.takeReset_cleanTimeout (Mode.takeHall_cleanTimeout h))))

/-- a cleaning that begins in a call is not late at its poll -/
theorem hall_late {q : Cue} {τ : Timed} (h : τ.mode.state ≠ .cleaning) :
    (τ.hall q).late q.time = false := by
  have hbegun : (τ.hall q).begun q.time :=
    Timed.begun_goto (Timed.begun_goto (Timed.begun_goto (Timed.begun_goto (Timed.begun_goto
      (fun hc => absurd hc h) _) _) _) _) _
  exact Timed.late_begun hbegun

/-- **a call raises `CLEAN_TIMEOUT` in a cleaning only**, which began before the call -/
theorem call_cleanTimeout_of {q : Cue} {τ : Timed} (h : (τ.call q).mode = .cleanTimeout) :
    τ.mode = .cleanTimeout ∨ τ.mode.state = .cleaning := by
  by_contra hcon
  obtain ⟨hne, hnc⟩ := not_or.mp hcon
  have hpoll : (τ.hall q).mode.poll q.occ q.full ((τ.hall q).due q.time) false =
      .cleanTimeout := hall_late (q := q) hnc ▸ h
  exact hne (hall_cleanTimeout (Mode.poll_cleanTimeout hpoll))

/-! ## the end of a cleaning and the beginning of one -/

def Mode.within (μ : Mode) : Prop := μ.state = .cleaning ∨ μ = .cleanTimeout

instance (μ : Mode) : Decidable μ.within := by
  unfold Mode.within
  infer_instance

/-- a call that ends a cleaning, or leaves the lock of `CLEAN_TIMEOUT` -/
def Cue.ends (q : Cue) (μ : Mode) : Prop :=
  μ.state = .cleaning ∧
      (q.occ = true ∨ q.full = true ∨ q.reset = true ∨
        μ.phase = .toPos1 ∧ q.pos = .pos1Home) ∨
    μ = .cleanTimeout ∧ q.reset = true ∧ q.full = false

/-- a call that begins a cleaning; `due` says that the delay is over -/
def Cue.begins (q : Cue) (due : Bool) (μ : Mode) : Prop :=
  q.occ = false ∧ q.full = false ∧ q.reset = false ∧
    (q.clean = true ∧ (μ.state = .idle ∨ μ.state = .cleanDelay) ∨
      μ.state = .cleanDelay ∧ due = true)

theorem Leg.next_within (l : Leg) (occ full due late : Bool) :
    (l.next.poll occ full due late).within ↔ l ≠ .toPos1 := by
  cases l <;> cases late <;> simp [Leg.next, Mode.poll, Mode.within, Mode.state]

/-- a running leg at the hall stage -/
theorem Mode.takeHall_within (l : Leg) (pos : LitterHallPosition) (occ full due late : Bool) :
    (((Mode.cleaning l).takeHall pos).poll occ full due late).within ↔
      ¬ (l = .toPos1 ∧ pos = .pos1Home) := by
  unfold Mode.takeHall
  dsimp only
  by_cases hp : pos = l.target
  · rw [if_pos hp, Leg.next_within, hp]
    cases l <;> decide
  · rw [if_neg hp]
    have hne : ¬ (l = .toPos1 ∧ pos = .pos1Home) := fun h => hp (by rw [h.1, h.2]; rfl)
    cases late
    · exact iff_of_true (Or.inl rfl) hne
    · exact iff_of_true (Or.inr rfl) hne

/-- the stages up to the poll -/
def Mode.stages (q : Cue) (μ : Mode) : Mode :=
  ((((μ.seeFull q.full).seeOccupied q.occ).takeClean q.clean).takeReset
    q.reset q.occ q.full).takeHall q.pos

/-- a call that starts in a cleaning -/
theorem Mode.within_of_cleaning (q : Cue) (l : Leg) (due late : Bool) :
    (((Mode.cleaning l).stages q).poll q.occ q.full due late).within ↔
      ¬ q.ends (.cleaning l) := by
  have hends : q.ends (.cleaning l) ↔ q.occ = true ∨ q.full = true ∨ q.reset = true ∨
      l = .toPos1 ∧ q.pos = .pos1Home := by
    unfold Cue.ends
    cases l <;> simp [Mode.state, Mode.phase, Leg.phase]
  rw [hends]
  obtain ⟨t, occ, full, clean, reset, pos⟩ := q
  unfold Mode.stages
  dsimp only
  cases full with
  | true =>
    have e : ((((Mode.cleaning l).seeFull true).seeOccupied occ).takeClean clean).takeReset
        reset occ true = .binFull := by cases occ <;> cases clean <;> cases reset <;> rfl
    have hno : ¬ Mode.binFull.within := by decide
    rw [e]
    exact iff_of_false hno (not_not.mpr (Or.inr (Or.inl rfl)))
  | false =>
    cases occ with
    | true =>
      have e : ((((Mode.cleaning l).seeFull false).seeOccupied true).takeClean clean).takeReset
          reset true false = .safeStop := by cases clean <;> cases reset <;> rfl
      have hno : ¬ Mode.safeStop.within := by decide
      rw [e]
      exact iff_of_false hno (not_not.mpr (Or.inl rfl))
    | false =>
      cases reset with
      | true =>
        have e : ((((Mode.cleaning l).seeFull false).seeOccupied false).takeClean clean).takeReset
            true false false = .idle := by cases clean <;> rfl
        have hno : ¬ Mode.idle.within := by decide
        rw [e]
        exact iff_of_false hno (not_not.mpr (Or.inr (Or.inr (Or.inl rfl))))
      | false =>
        -- nothing stands against the cleaning before the hall stage
        have e : ((((Mode.cleaning l).seeFull false).seeOccupied false).takeClean clean).takeReset
            false false false = .cleaning l := by cases clean <;> rfl
        rw [e, Mode.takeHall_within]
        simp only [Bool.false_eq_true, false_or]

/-- a call that starts elsewhere; the poll reads `late` of a cleaning only, which has just begun -/
theorem Mode.within_of_outside (q : Cue) {μ : Mode} (due : Bool) (hs : μ.state ≠ .cleaning)
    (ht : μ ≠ .cleanTimeout) :
    ((μ.stages q).poll q.occ q.full due false).within ↔ q.begins due μ := by
  obtain ⟨t, occ, full, clean, reset, pos⟩ := q
  unfold Mode.stages Cue.begins
  dsimp only
  have started : ∀ d, (((Mode.cleaning .toPos2).takeHall pos).poll false false d false).within :=
    fun d => (Mode.takeHall_within .toPos2 pos false false d false).mpr fun h => by cases h.1
  cases μ with
  | cleaning l => exact absurd rfl hs
  | cleanTimeout => exact absurd rfl ht
  | idle =>
    cases occ <;> cases full <;> cases reset <;> cases clean <;>
      first
        | exact iff_of_true (started due) (by simp [Mode.state])
        | simp [Mode.seeFull, Mode.seeOccupied, Mode.takeClean, Mode.takeReset, Mode.takeHall,
            Mode.poll, Mode.within, Mode.state]
  | cleanDelay =>
    cases occ <;> cases full <;> cases reset <;> cases clean <;> cases due <;>
      first
        | exact iff_of_true (started _) (by simp [Mode.state])
        | simp [Mode.seeFull, Mode.seeOccupied, Mode.takeClean, Mode.takeReset, Mode.takeHall,
            Mode.poll, Mode.within, Mode.state]
  | _ =>
    cases occ <;> cases full <;> cases reset <;> cases due <;>
      simp [Mode.seeFull, Mode.seeOccupied, Mode.takeClean, Mode.takeReset, Mode.takeHall,
        Mode.poll, Mode.within, Mode.state, rest]

/-- the delay read at the poll is the one read before the call -/
theorem begins_due (q : Cue) (τ : Timed) :
    q.begins ((τ.hall q).due q.time) τ.mode ↔ q.begins (τ.due q.time) τ.mode := by
  unfold Cue.begins
  refine and_congr_right fun ho => and_congr_right fun hf => and_congr_right fun hr => ?_
  cases hc : q.clean with
  | true =>
    have grant : ∀ d : Bool, τ.mode.state = .cleanDelay ∧ d = true →
        true = true ∧ (τ.mode.state = .idle ∨ τ.mode.state = .cleanDelay) :=
      fun _ h => ⟨rfl, Or.inr h.1⟩
    rw [or_iff_left_of_imp (grant _), or_iff_left_of_imp (grant _)]
  | false =>
    refine or_congr_right (and_congr_right fun hs => ?_)
    have hs' : Mode.cleanDelay.state = τ.mode.state := hs.symm
    have hm : τ.mode = .cleanDelay := (Mode.eq_of_window (by decide) hs').symm
    obtain ⟨-, -, -, hreset⟩ := reset_self (q := q) (τ := τ) (by rw [hf, hm]; rfl)
      (by rw [ho, hm]; rfl) (by rw [hc, hm]; rfl) (by rw [hr, hm]; rfl)
    have hhall : τ.hall q = τ := by
      unfold Timed.hall
      rw [hreset, Mode.takeHall_outside q.pos (by rw [hm]; decide), Timed.goto_self]
    rw [hhall]

/-- **which calls end a cleaning, and which begin one** -/
theorem call_within (q : Cue) (τ : Timed) : (τ.call q).mode.within ↔
    τ.mode.within ∧ ¬ q.ends τ.mode ∨ q.begins (τ.due q.time) τ.mode := by
  by_cases hc : τ.mode.state = .cleaning
  · have hno : ¬ q.begins (τ.due q.time) τ.mode := by
      rintro ⟨-, -, -, ⟨-, hs | hs⟩ | ⟨hs, -⟩⟩ <;> rw [hc] at hs <;> cases hs
    obtain ⟨l, hl⟩ := Mode.cleaning_of_state hc
    have h := Mode.within_of_cleaning q l ((τ.hall q).due q.time) ((τ.hall q).late q.time)
    rw [← hl] at h
    have hw : τ.mode.within := Or.inl hc
    rw [or_iff_left hno, and_iff_right hw]
    exact h
  by_cases ht : τ.mode = .cleanTimeout
  · have hno : ¬ q.begins (τ.due q.time) τ.mode := by
      rw [ht]
      rintro ⟨-, -, -, ⟨-, hs | hs⟩ | ⟨hs, -⟩⟩ <;> cases hs
    have hw : τ.mode.within := Or.inr ht
    rw [or_iff_left hno, and_iff_right hw, call_cleanTimeout q ht, ht]
    unfold Cue.ends
    cases q.reset <;> cases q.full <;> cases q.occ <;> simp [Mode.within, Mode.state, rest]
  · have hno : ¬ τ.mode.within := fun h => h.elim hc ht
    have h := Mode.within_of_outside q ((τ.hall q).due q.time) hc ht
    rw [or_iff_right (fun h => hno h.1), ← begins_due, ← h, ← hall_late (q := q) hc]
    exact Iff.rfl

/-! ### on the state of `logic.c` -/

/-- a call of `Sensor_Logic_Running` that ends the cleaning it finds, or, with a reset request, the
lock of `CLEAN_TIMEOUT` -/
def endsCleaning (i : Inputs) (s : Logic) : Prop :=
  s.fsm.ctx.state = .cleaning ∧
      (logicIsOccupied i = true ∨ logicIsBinFull i = true ∨ s.gResetRequest = true ∨
        s.fsm.ctx.cleanPhase = .toPos1 ∧ (logicHallPoll i s.gHallState).2.1 = .pos1Home) ∨
    s.fsm.ctx.timedOut ∧ s.gResetRequest = true ∧ logicIsBinFull i = false

/-- a call that begins a cleaning, on a request or at the end of the clean delay -/
def beginsCleaning (i : Inputs) (s : Logic) : Prop :=
  logicIsOccupied i = false ∧ logicIsBinFull i = false ∧ s.gResetRequest = false ∧
    (s.gRemoteCleanRequest = true ∧
        (s.fsm.ctx.state = .idle ∨ s.fsm.ctx.state = .cleanDelay) ∨
      s.fsm.ctx.state = .cleanDelay ∧ fsmDeadlineExpired i.now s.fsm.ctx.deadlineTick = true)

section state

variable {s : Logic} {τ : Timed}

theorem within_iff (h : Good s τ) : s.fsm.ctx.within ↔ τ.mode.within := by
  unfold LitterFsmCtx.within Mode.within
  rw [h.shows.state, h.shows.timedOut_iff]

theorem endsCleaning_iff (i : Inputs) (h : Good s τ) :
    endsCleaning i s ↔ (cue i s).ends τ.mode := by
  unfold endsCleaning Cue.ends
  rw [h.shows.state, h.shows.phase, h.shows.timedOut_iff]
  exact Iff.rfl

theorem beginsCleaning_iff (i : Inputs) (h : Good s τ) :
    beginsCleaning i s ↔ (cue i s).begins (τ.due i.time) τ.mode := by
  unfold beginsCleaning Cue.begins Timed.due
  rw [h.shows.state, h.shows.deadline]
  exact Iff.rfl

theorem running_within (i : Inputs) (h : Good s τ) :
    (s.step (.running i)).fsm.ctx.within ↔
      s.fsm.ctx.within ∧ ¬ endsCleaning i s ∨ beginsCleaning i s := by
  rw [within_iff (h.running i), within_iff h, endsCleaning_iff i h, beginsCleaning_iff i h]
  exact call_within (cue i s) τ

/-- no call does both -/
theorem endsCleaning_not_begins {i : Inputs} (h : endsCleaning i s) : ¬ beginsCleaning i s := by
  have hw : s.fsm.ctx.state = .cleaning ∨ s.fsm.ctx.state = .fault :=
    h.imp And.left fun h => h.1.1
  rintro ⟨-, -, -, ⟨-, hs | hs⟩ | ⟨hs, -⟩⟩ <;> rw [hs] at hw <;> rcases hw with e | e <;> cases e

end state

/-! ## the interleavings -/

theorem Good.shellTurn {p : Shell} {τ : Timed} (h : Good p.logic τ) (x : ShellTurn) :
    ∃ τ', Good (p.turn x).logic τ' := by
  cases x with
  | running i => exact ⟨_, h.running i⟩
  | requestClean => exact ⟨_, h.step .requestClean⟩
  | requestReset => exact ⟨_, h.step .requestReset⟩
  | shell t =>
    unfold Shell.turn
    dsimp only
    split
    · exact ⟨_, h.stall t⟩
    · exact ⟨τ, h⟩

theorem shellRun_good (g : Gpio) (i0 : Inputs) (l : List ShellTurn) :
    ∃ τ, Good (shellRun g i0 l).logic τ := by
  refine Runs.run_inv (I := fun (p : Shell) => ∃ τ, Good p.logic τ) (fun p x h => ?_)
    ⟨_, boot_good g i0⟩ l
  obtain ⟨τ, h⟩ := h
  exact h.shellTurn x

/-- every turn of the run that raises `CLEAN_TIMEOUT` finds the machine in CLEANING -/
def timeoutsFromCleaning (g : Gpio) (i0 : Inputs) (l : List ShellTurn) : Prop :=
  ∀ a x b, l = a ++ x :: b →
    raises (shellRun g i0 a).logic.fsm.ctx (shellRun g i0 (a ++ [x])).logic.fsm.ctx →
    (shellRun g i0 a).logic.fsm.ctx.state = .cleaning

theorem turn_raises {p : Shell} {τ : Timed} (h : Good p.logic τ) (x : ShellTurn) :
    (raises p.logic.fsm.ctx (p.turn x).logic.fsm.ctx → p.logic.fsm.ctx.state = .cleaning) ↔
    ∀ t, x = .shell t → p.passed = true →
      p.logic.fsm.ctx.within := by
  have hst : p.logic.fsm.ctx.state = τ.mode.state := h.shows.state
  have quiet : ∀ {y : Logic} {τ' : Timed}, Good y τ' →
      (τ'.mode = .cleanTimeout → τ.mode = .cleanTimeout ∨ τ.mode.state = .cleaning) →
      raises p.logic.fsm.ctx y.fsm.ctx → p.logic.fsm.ctx.state = .cleaning := by
    intro y τ' h' hc hr
    obtain ⟨hy, hp⟩ := (raises_iff h.shows h'.shows).mp hr
    rw [hst]
    exact (hc hy).resolve_left hp
  cases x with
  | running i =>
    refine ⟨fun _ t e => ?_, fun _ => quiet (h.running i) call_cleanTimeout_of⟩
    cases e
  | requestClean =>
    refine ⟨fun _ t e => ?_, fun _ => quiet (h.step .requestClean) Or.inl⟩
    cases e
  | requestReset =>
    refine ⟨fun _ t e => ?_, fun _ => quiet (h.step .requestReset) Or.inl⟩
    cases e
  | shell t =>
    unfold Shell.turn
    dsimp only
    by_cases hp : p.passed = true
    · rw [if_pos hp, raises_iff h.shows (h.stall t).shows]
      constructor
      · intro hr _ _ _
        by_cases hm : τ.mode = .cleanTimeout
        · exact Or.inr (h.shows.timedOut_iff.mpr hm)
        · exact Or.inl (hr ⟨rfl, hm⟩)
      · intro hc hr
        exact (hc t rfl hp).resolve_right fun e => hr.2 (h.shows.timedOut_iff.mp e)
    · rw [if_neg hp]
      exact ⟨fun _ _ _ hp' => absurd hp' hp, fun _ => quiet h Or.inl⟩

/-- every dispatch has to find the machine in CLEANING, or in the lock already -/
theorem timeouts_within (g : Gpio) (i0 : Inputs) (l : List ShellTurn) :
    timeoutsFromCleaning g i0 l ↔
    ∀ a t b, l = a ++ .shell t :: b → (shellRun g i0 a).passed = true →
      (shellRun g i0 a).logic.fsm.ctx.within := by
  constructor
  · intro h a t b e hp
    obtain ⟨τ, hg⟩ := shellRun_good g i0 a
    refine (turn_raises hg (.shell t)).mp (fun hr => h a _ b e ?_) t rfl hp
    rw [shellRun_snoc]
    exact hr
  · intro h a x b e hr
    obtain ⟨τ, hg⟩ := shellRun_good g i0 a
    rw [shellRun_snoc] at hr
    refine (turn_raises hg x).mpr (fun t hx hp => h a t b ?_ hp) hr
    rw [e, hx]

/-! ### between the test and the dispatch -/

/-- no step of `litter_timeout` is among the turns -/
def noShell (l : List ShellTurn) : Prop := ∀ x ∈ l, ∀ t, x ≠ .shell t

theorem noShell_snoc {l : List ShellTurn} {x : ShellTurn} (h : noShell l)
    (hx : ∀ t, x ≠ .shell t) : noShell (l ++ [x]) := by
  intro y hy
  rcases List.mem_append.mp hy with hy | hy
  · exact h y hy
  · rw [List.mem_singleton.mp hy]
    exact hx

/-- turns of the others leave the shell command where it is -/
theorem turn_passed {x : ShellTurn} (hx : ∀ t, x ≠ .shell t) (p : Shell) :
    (p.turn x).passed = p.passed := by
  cases x with
  | shell t => exact absurd rfl (hx t)
  | _ => rfl

theorem run_passed (p : Shell) {l : List ShellTurn} (hl : noShell l) :
    (Runs.run Shell.turn p l).passed = p.passed := by
  induction l generalizing p with
  | nil => rfl
  | cons x l ih =>
    rw [Runs.run_cons, ih _ fun y hy => hl y (List.mem_cons_of_mem _ hy),
      turn_passed (hl x List.mem_cons_self)]

theorem shellRun_append (g : Gpio) (i0 : Inputs) (a b : List ShellTurn) :
    shellRun g i0 (a ++ b) = Runs.run Shell.turn (shellRun g i0 a) b :=
  Runs.run_append _ _ a b

theorem shellRun_since (g : Gpio) (i0 : Inputs) (a x : List ShellTurn) (t : Nat) :
    shellRun g i0 (a ++ .shell t :: x) =
      Runs.run Shell.turn (shellRun g i0 (a ++ [.shell t])) x := by
  rw [← shellRun_append, List.append_assoc, List.singleton_append]

/-- where the test has been passed, it was in CLEANING, and the shell has not moved since -/
theorem passed_since {g : Gpio} {i0 : Inputs} {l : List ShellTurn}
    (h : (shellRun g i0 l).passed = true) :
    ∃ a t c, l = a ++ .shell t :: c ∧ noShell c ∧
      (shellRun g i0 (a ++ [.shell t])).passed = true ∧
      (shellRun g i0 (a ++ [.shell t])).logic.fsm.ctx.state = .cleaning := by
  induction l using List.reverseRecOn with
  | nil => cases h
  | append_singleton l x ih =>
    by_cases hx : ∃ t, x = .shell t
    · obtain ⟨t, rfl⟩ := hx
      refine ⟨l, t, [], rfl, nofun, h, ?_⟩
      rw [shellRun_snoc] at h ⊢
      unfold Shell.turn at h ⊢
      dsimp only at h ⊢
      split at h
      · cases h
      next hp =>
        rw [if_neg hp]
        exact of_decide_eq_true h
    · have hx' : ∀ t, x ≠ .shell t := fun t e => hx ⟨t, e⟩
      rw [shellRun_snoc, turn_passed hx'] at h
      obtain ⟨a, t, c, rfl, hc, hp, hs⟩ := ih h
      refine ⟨a, t, c ++ [x], ?_, noShell_snoc hc hx', hp, hs⟩
      rw [List.append_assoc, List.cons_append]

/-- a turn after the last step of the shell -/
theorem split_since {a x c d : List ShellTurn} {t : Nat} {y : ShellTurn}
    (h : a ++ .shell t :: c = x ++ y :: d) (hy : ∀ t, y ≠ .shell t) (hd : noShell d) :
    ∃ b, x = a ++ .shell t :: b ∧ c = b ++ y :: d := by
  rcases List.append_eq_append_iff.mp h with ⟨b, rfl, e⟩ | ⟨b, rfl, e⟩
  · cases b with
    | nil => exact absurd (List.cons.inj e).1.symm (hy t)
    | cons z b =>
      obtain ⟨rfl, e'⟩ := List.cons.inj e
      exact ⟨b, rfl, e'⟩
  · cases b with
    | nil => exact absurd (List.cons.inj e).1 (hy t)
    | cons z b =>
      have hmem : ShellTurn.shell t ∈ d := by
        rw [(List.cons.inj e).2]
        exact List.mem_append_right _ List.mem_cons_self
      exact absurd rfl (hd _ hmem t)

/-- one turn of the others -/
theorem turn_within {p : Shell} {τ : Timed} (h : Good p.logic τ) {x : ShellTurn}
    (hx : ∀ t, x ≠ .shell t) : (p.turn x).logic.fsm.ctx.within ↔
      p.logic.fsm.ctx.within ∧ ¬ (∃ i, x = .running i ∧ endsCleaning i p.logic) ∨
        ∃ i, x = .running i ∧ beginsCleaning i p.logic := by
  have request : ∀ y : ShellTurn, (∀ i, y ≠ .running i) → (p.logic.fsm.ctx.within ↔
      p.logic.fsm.ctx.within ∧ ¬ (∃ i, y = .running i ∧ endsCleaning i p.logic) ∨
        ∃ i, y = .running i ∧ beginsCleaning i p.logic) := by
    intro y hy
    rw [or_iff_left fun ⟨i, e, _⟩ => hy i e, and_iff_left fun ⟨i, e, _⟩ => hy i e]
  cases x with
  | shell t => exact absurd rfl (hx t)
  | requestClean => exact request _ nofun
  | requestReset => exact request _ nofun
  | running i =>
    refine (running_within i h).trans ?_
    constructor
    · rintro (⟨hw, hn⟩ | hb)
      · refine Or.inl ⟨hw, ?_⟩
        rintro ⟨j, e, hj⟩
        cases e
        exact hn hj
      · exact Or.inr ⟨i, rfl, hb⟩
    · rintro (⟨hw, hn⟩ | ⟨j, e, hj⟩)
      · exact Or.inl ⟨hw, fun he => hn ⟨i, rfl, he⟩⟩
      · cases e
        exact Or.inr hj

/-- **the stretch between the test and the dispatch** -/
theorem stretch_within {p : Shell} {τ : Timed} (h : Good p.logic τ)
    (hp : p.logic.fsm.ctx.state = .cleaning) {l : List ShellTurn} (hl : noShell l) :
    (Runs.run Shell.turn p l).logic.fsm.ctx.within ↔
      ∀ a i b, l = a ++ .running i :: b → endsCleaning i (Runs.run Shell.turn p a).logic →
        ∃ c j d, b = c ++ .running j :: d ∧
          beginsCleaning j (Runs.run Shell.turn p (a ++ .running i :: c)).logic := by
  refine (Runs.run_within (I := fun (q : Shell) => ∃ τ, Good q.logic τ)
    (S := fun (q : Shell) => q.logic.fsm.ctx.within)
    (L := fun x => ∀ t : Nat, x ≠ ShellTurn.shell t)
    (A := fun (q : Shell) x => ∃ i, x = .running i ∧ endsCleaning i q.logic)
    (B := fun (q : Shell) x => ∃ i, x = .running i ∧ beginsCleaning i q.logic)
    (fun q x _ ⟨_, hq⟩ => hq.shellTurn x) (fun q x hx ⟨_, hq⟩ => turn_within hq hx) ?_
    ⟨τ, h⟩ (Or.inl hp) l hl).trans ⟨fun hall a i b e he => ?_, fun hall a x b e => ?_⟩
  · rintro q x ⟨i, rfl, he⟩ ⟨j, e, hj⟩
    cases e
    exact endsCleaning_not_begins he hj
  · obtain ⟨c, y, d, e', j, rfl, hj⟩ := hall a _ b e ⟨i, rfl, he⟩
    exact ⟨c, j, d, e', hj⟩
  · rintro ⟨i, rfl, he⟩
    obtain ⟨c, j, d, e', hj⟩ := hall a i b e he
    exact ⟨c, _, d, e', j, rfl, hj⟩

/-! ## the result -/

/-- **`CLEAN_TIMEOUT` and preemption.**  It is raised in CLEANING only, exactly if every call of
`Sensor_Logic_Running` that ends the cleaning between the test and the dispatch of a command is
followed, before the dispatch, by one that begins a cleaning again. -/
theorem timeout_only_from_cleaning (g : Gpio) (i0 : Inputs) (l : List ShellTurn) :
    timeoutsFromCleaning g i0 l ↔
    ∀ a i c t b, l = a ++ .running i :: c ++ .shell t :: b → noShell c →
      (shellRun g i0 a).passed = true → endsCleaning i (shellRun g i0 a).logic →
      ∃ c₁ j c₂, c = c₁ ++ .running j :: c₂ ∧
        beginsCleaning j (shellRun g i0 (a ++ .running i :: c₁)).logic := by
  rw [timeouts_within]
  constructor
  · intro h a i c t b e hc hp he
    have hlast : (shellRun g i0 (a ++ .running i :: c)).passed = true := by
      rw [shellRun_append, run_passed _ fun x hx => ?_]
      · exact hp
      · rcases List.mem_cons.mp hx with rfl | hx
        · exact nofun
        · exact hc x hx
    have hw := h _ t b e hlast
    obtain ⟨a0, t0, c0, e0, hc0, -, hs⟩ := passed_since hlast
    obtain ⟨b0, rfl, rfl⟩ := split_since e0.symm nofun hc
    obtain ⟨τ, hg⟩ := shellRun_good g i0 (a0 ++ [.shell t0])
    rw [e0, shellRun_since] at hw
    rw [shellRun_since] at he
    obtain ⟨c₁, j, c₂, rfl, hj⟩ := (stretch_within hg hs hc0).mp hw b0 i c rfl he
    refine ⟨c₁, j, c₂, rfl, ?_⟩
    rw [List.append_assoc, List.cons_append, shellRun_since]
    exact hj
  · intro h a t b e hp
    obtain ⟨a0, t0, c0, rfl, hc0, hp0, hs⟩ := passed_since hp
    obtain ⟨τ, hg⟩ := shellRun_good g i0 (a0 ++ [.shell t0])
    rw [shellRun_since, stretch_within hg hs hc0]
    rintro x i c rfl he
    have hx : noShell x := fun y hy => hc0 y (List.mem_append_left _ hy)
    have hc : noShell c := fun y hy =>
      hc0 y (List.mem_append_right _ (List.mem_cons_of_mem _ hy))
    obtain ⟨c₁, j, c₂, rfl, hj⟩ := h (a0 ++ .shell t0 :: x) i c t b
      (by rw [e]; simp only [List.append_assoc, List.cons_append]) hc
      (by rw [shellRun_since, run_passed _ hx, hp0]) (by rw [shellRun_since]; exact he)
    refine ⟨c₁, j, c₂, rfl, ?_⟩
    rw [← shellRun_since]
    rw [List.append_assoc, List.cons_append] at hj
    exact hj

/-- the cat comes back between the two steps of the command: the SAFE_STOP goes into the lock -/
def preemptedShell : List ShellTurn :=
  [.requestClean, .running (calmAt 10), .shell 11, .running (occupiedAt 12), .shell 13]

theorem preemptedShell_locks :
    (shellRun lowPins (calmAt 0) (preemptedShell.take 4)).logic.fsm.ctx.state = .safeStop ∧
    (shellRun lowPins (calmAt 0) preemptedShell).logic.fsm.ctx.timedOut ∧
    ¬ timeoutsFromCleaning lowPins (calmAt 0) preemptedShell := by
  refine ⟨by decide, by decide, fun h => ?_⟩
  have hc := h (preemptedShell.take 4) (.shell 13) [] rfl (by decide)
  exact absurd hc (by decide)

end LitterBox
