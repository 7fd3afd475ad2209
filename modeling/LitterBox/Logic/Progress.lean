import LitterBox.Logic.Interlock
import LitterBox.Logic.Requests
import LitterBox.Logic.Timing

/-!
# The box comes to rest

While nobody is in the box and the bin has room, every mode but IDLE and the lock after a timeout
ends by itself: the two windows and the three legs have their time limits, and each is noticed by
the next call.  `Timed.horizon` is the time by which they are all over.

* `calm_call`       no call moves the horizon away;
* `comes_to_rest`   after the horizon the machine is in IDLE or locked, and the motor stands still;
* `reset_recovers`  a reset request brings any reachable state to IDLE in one calm call.
-/

namespace LitterBox

open Clock (Paced Next paced_snoc next_snoc)

/-- nobody in the box, room in the bin -/
def Inputs.calm (i : Inputs) : Prop := logicIsOccupied i = false ∧ logicIsBinFull i = false

instance (i : Inputs) : Decidable i.calm := by
  unfold Inputs.calm
  infer_instance

/-! ## the horizon -/

/-- the time from the beginning of a leg to the end of the cleaning, if calls are `d` apart -/
def Leg.left (d : Nat) : Leg → Nat
  | .toPos2 => 6000 + d + (5000 + d + (6000 + d))
  | .toPos3 => 5000 + d + (6000 + d)
  | .toPos1 => 6000 + d

/-- the time by which a calm machine is at rest, if calls are `d` apart -/
def Timed.horizon (d : Nat) (τ : Timed) : Nat :=
  match τ.mode with
  | .leaveConfirm => τ.since + (2000 + d) + (5000 + d) + Leg.toPos2.left d
  | .cleanDelay => τ.since + (5000 + d) + Leg.toPos2.left d
  | .cleaning l => τ.legSince + l.left d
  | _ => 0

/-- no time limit of the mode is over at the time `t` -/
structure Timed.Open (t : Nat) (τ : Timed) : Prop where
  waiting : τ.mode.window ≠ 0 → t < τ.since + τ.mode.window
  cleaning : ∀ l, τ.mode = .cleaning l → t < τ.legSince + l.budget

/-- the deadline of the mode is not the tick that stands for none -/
def Timed.timely (τ : Timed) : Prop :=
  τ.mode.window ≠ 0 → τ.mode.deadline (tick τ.since) ≠ 0

/-- a tick at which both windows may begin -/
def plainTick (t : Nat) : Prop := tick (t + 2000) ≠ 0 ∧ tick (t + 5000) ≠ 0

instance (t : Nat) : Decidable (plainTick t) := by
  unfold plainTick
  infer_instance

theorem plainTick.deadline {t : Nat} (h : plainTick t) {μ : Mode} (hw : μ.window ≠ 0) :
    μ.deadline (tick t) ≠ 0 := by
  rw [Mode.deadline_eq hw]
  cases μ with
  | leaveConfirm => exact h.1
  | cleanDelay => exact h.2
  | _ => exact absurd rfl hw

/-! ## what a call leaves -/

/-- the state since when: the call began it, or it was there before -/
theorem Timed.since_goto {t : Nat} {τ τ' : Timed} (μ : Mode)
    (h : τ'.since = t ∨ τ'.since = τ.since ∧ τ'.mode.state = τ.mode.state) :
    (τ'.goto t μ).since = t ∨
      (τ'.goto t μ).since = τ.since ∧ (τ'.goto t μ).mode.state = τ.mode.state := by
  by_cases hs : μ.state = τ'.mode.state
  · rw [Timed.goto_since hs]
    exact h.imp id fun ⟨h1, h2⟩ => ⟨h1, hs.trans h2⟩
  · exact Or.inl (Timed.goto_since_of_ne hs)

theorem call_since (q : Cue) (τ : Timed) :
    (τ.call q).since = q.time ∨
      (τ.call q).since = τ.since ∧ (τ.call q).mode.state = τ.mode.state := by
  have h : τ.since = q.time ∨ τ.since = τ.since ∧ τ.mode.state = τ.mode.state :=
    Or.inr ⟨rfl, rfl⟩
  exact Timed.since_goto _ (Timed.since_goto _ (Timed.since_goto _ (Timed.since_goto _
    (Timed.since_goto _ (Timed.since_goto _ h)))))

theorem Timed.timely.call {q : Cue} {τ : Timed} (h : τ.timely) (hq : plainTick q.time) :
    (τ.call q).timely := by
  intro hw
  rcases call_since q τ with hs | ⟨hs, hst⟩
  · rw [hs]
    exact hq.deadline hw
  · have hm : (τ.call q).mode = τ.mode := Mode.eq_of_window hw hst
    rw [hs, hm]
    rw [hm] at hw
    exact h hw

/-- a waiting mode whose window is over is left -/
theorem Mode.poll_due {μ : Mode} (hw : μ.window ≠ 0) (occ full late : Bool) :
    (μ.poll occ full true late).state ≠ μ.state := by
  cases μ with
  | leaveConfirm => nofun
  | cleanDelay => nofun
  | _ => exact absurd rfl hw

/-- **a call leaves no time limit that is over** -/
theorem call_open {q : Cue} {τ : Timed} (h : τ.Near q.time) (ht : (τ.call q).timely) :
    (τ.call q).Open q.time := by
  have hn : (τ.hall q).Near q.time := h.hall
  refine ⟨fun hw => ?_, fun l hl => ?_⟩
  · by_cases hs : (τ.call q).mode.state = (τ.hall q).mode.state
    · have hm : (τ.call q).mode = (τ.hall q).mode := Mode.eq_of_window hw hs
      have e : τ.call q = τ.hall q := by
        show (τ.hall q).goto q.time (τ.call q).mode = _
        rw [hm, Timed.goto_self]
      rw [e] at hw ht ⊢
      by_contra hle
      have hd := (Timed.due_iff hn hw).mpr ⟨ht hw, Nat.not_lt.mp hle⟩
      refine Mode.poll_due hw q.occ q.full ((τ.hall q).late q.time) ?_
      rw [← hd]
      exact hs
    · have e : (τ.call q).since = q.time := Timed.goto_since_of_ne hs
      rw [e]
      omega
  · obtain ⟨-, hlt⟩ := call_in_time hn hl
    omega

/-! ## the way to rest -/

/-- what a calm call without a request can do to a mode that fits it -/
inductive Mode.Onward : Mode → Mode → Prop where
  | stay (μ : Mode) : Onward μ μ
  | left : Onward .leaveConfirm .cleanDelay
  | begin : Onward .cleanDelay (.cleaning .toPos2)
  | reached (l : Leg) : Onward (.cleaning l) l.next
  | late (l : Leg) : Onward (.cleaning l) .cleanTimeout

theorem Mode.Onward.takeHall (μ : Mode) (pos : LitterHallPosition) : μ.Onward (μ.takeHall pos) := by
  cases μ with
  | cleaning l =>
    unfold Mode.takeHall
    dsimp only
    split
    · exact .reached l
    · exact .stay _
  | _ => exact .stay _

theorem Mode.Onward.poll {μ : Mode} (h : μ.fits false false) (due late : Bool) :
    μ.Onward (μ.poll false false due late) := by
  cases μ with
  | idle => exact .stay _
  | occupied => cases h.1
  | leaveConfirm =>
    cases due with
    | true => exact .left
    | false => exact .stay _
  | cleanDelay =>
    cases due with
    | true => exact .begin
    | false => exact .stay _
  | cleaning l =>
    cases late with
    | true => exact .late l
    | false => exact .stay _
  | safeStop => cases h
  | binFull => cases h
  | cleanTimeout => exact .stay _

theorem Mode.Onward.fits {μ μ' : Mode} (h : μ.Onward μ') (hf : μ.fits false false) :
    μ'.fits false false := by
  cases h with
  | stay => exact hf
  | left => exact hf
  | begin => exact hf
  | reached l => cases l <;> exact hf
  | late => trivial

section onward

variable {d t t' : Nat} {τ : Timed}

theorem horizon_cleaning {μ : Mode} {l : Leg} (hm : τ.mode ≠ .cleaning l) (hμ : μ = .cleaning l) :
    (τ.goto t μ).horizon d = t + l.left d := by
  subst hμ
  unfold Timed.horizon
  rw [Timed.goto_mode, Timed.goto_legSince_of_ne fun e => hm e.symm]

theorem open_cleaning {μ : Mode} {l : Leg} (hm : τ.mode ≠ .cleaning l) (hμ : μ = .cleaning l)
    (h1 : t ≤ t') : (τ.goto t' μ).Open t := by
  subst hμ
  refine ⟨fun hw => absurd rfl hw, fun l' hl => ?_⟩
  obtain rfl : l = l' := Mode.cleaning.inj hl
  rw [Timed.goto_legSince_of_ne fun e => hm e.symm]
  have hb : 0 < l.budget := by cases l <;> decide
  omega

theorem open_rest {μ : Mode} (hw : μ.window = 0) (hc : μ.state ≠ .cleaning) :
    (τ.goto t' μ).Open t :=
  ⟨fun h => absurd hw h, fun _ hl => absurd (congrArg Mode.state hl) hc⟩

/-- **an onward move does not move the horizon away** -/
theorem Mode.Onward.horizon {μ : Mode} (h : τ.mode.Onward μ) (ho : τ.Open t) (h1 : t ≤ t')
    (h2 : t' < t + d) : (τ.goto t' μ).horizon d ≤ τ.horizon d ∧ (τ.goto t' μ).Open t := by
  generalize hm : τ.mode = μ₀ at h
  cases h with
  | stay =>
    rw [← hm, Timed.goto_self]
    exact ⟨Nat.le_refl _, ho⟩
  | left =>
    have hlt : t < τ.since + 2000 := by
      have h0 := ho.waiting (by rw [hm]; decide)
      rwa [hm] at h0
    have e : (τ.goto t' .cleanDelay).since = t' :=
      Timed.goto_since_of_ne (by rw [hm]; decide)
    constructor
    · show (τ.goto t' .cleanDelay).since + _ + _ ≤ _
      unfold Timed.horizon
      rw [e, hm]
      dsimp only
      omega
    · refine ⟨fun _ => ?_, nofun⟩
      show t < (τ.goto t' .cleanDelay).since + 5000
      rw [e]
      omega
  | begin =>
    have hlt : t < τ.since + 5000 := by
      have h0 := ho.waiting (by rw [hm]; decide)
      rwa [hm] at h0
    have hne : τ.mode ≠ .cleaning .toPos2 := by rw [hm]; nofun
    refine ⟨?_, open_cleaning hne rfl h1⟩
    rw [horizon_cleaning hne rfl]
    unfold Timed.horizon
    rw [hm]
    dsimp only
    omega
  | reached l =>
    have hlt : t < τ.legSince + l.budget := ho.cleaning l hm
    have hz : τ.horizon d = τ.legSince + l.left d := by
      unfold Timed.horizon
      rw [hm]
    rw [hz]
    cases l with
    | toPos2 =>
      have hne : τ.mode ≠ .cleaning .toPos3 := by rw [hm]; decide
      refine ⟨(horizon_cleaning hne rfl).trans_le ?_, open_cleaning hne rfl h1⟩
      show t' + (5000 + d + (6000 + d)) ≤ τ.legSince + (6000 + d + (5000 + d + (6000 + d)))
      have hb : t < τ.legSince + 6000 := hlt
      omega
    | toPos3 =>
      have hne : τ.mode ≠ .cleaning .toPos1 := by rw [hm]; decide
      refine ⟨(horizon_cleaning hne rfl).trans_le ?_, open_cleaning hne rfl h1⟩
      show t' + (6000 + d) ≤ τ.legSince + (5000 + d + (6000 + d))
      have hb : t < τ.legSince + 5000 := hlt
      omega
    | toPos1 => exact ⟨Nat.zero_le _, open_rest rfl nofun⟩
  | late l => exact ⟨Nat.zero_le _, open_rest rfl nofun⟩

end onward

/-! ## calm calls -/

theorem Mode.takeClean_false (μ : Mode) : μ.takeClean false = μ := by
  cases μ <;> rfl

theorem Mode.takeReset_false (μ : Mode) (occ full : Bool) : μ.takeReset false occ full = μ := by
  cases μ <;> rfl

/-- up to its hall stage, a calm call without a request does nothing -/
theorem calm_reset {q : Cue} {τ : Timed} (hf : τ.mode.fits false false) (ho : q.occ = false)
    (hb : q.full = false) (hr : q.reset = false) (hc : τ.mode.takeClean q.clean = τ.mode) :
    τ.reset q = τ := by
  refine (reset_self ?_ ?_ hc ?_).2.2.2
  · exact Mode.seeFull_of_fits hf fun e => by rw [hb] at e; cases e
  · rw [ho]
    exact Mode.seeOccupied_of_fits hf
  · rw [hr]
    exact Mode.takeReset_false _ _ _

/-- a clean request begins a cleaning, or changes nothing -/
theorem calm_clean {q : Cue} {τ : Timed} (hf : τ.mode.fits false false) (ho : q.occ = false)
    (hb : q.full = false) (hr : q.reset = false) :
    τ.reset q = τ ∨
      q.clean = true ∧ (τ.mode = .idle ∨ τ.mode = .cleanDelay) ∧
        τ.reset q = τ.goto q.time (.cleaning .toPos2) := by
  by_cases hc : τ.mode.takeClean q.clean = τ.mode
  · exact Or.inl (calm_reset hf ho hb hr hc)
  · right
    have hq : q.clean = true := by
      cases hq : q.clean with
      | true => rfl
      | false =>
        rw [hq] at hc
        exact absurd (Mode.takeClean_false _) hc
    have hm : τ.mode = .idle ∨ τ.mode = .cleanDelay := by
      rw [hq] at hc
      cases hm : τ.mode with
      | idle => exact Or.inl rfl
      | cleanDelay => exact Or.inr rfl
      | _ => rw [hm] at hc; exact absurd rfl hc
    have e1 : τ.binFull q = τ := by
      unfold Timed.binFull
      rw [Mode.seeFull_of_fits hf (fun e => by rw [hb] at e; cases e), Timed.goto_self]
    have e2 : τ.occupancy q = τ := by
      unfold Timed.occupancy
      rw [e1, ho, Mode.seeOccupied_of_fits hf, Timed.goto_self]
    have e3 : τ.clean q = τ.goto q.time (.cleaning .toPos2) := by
      unfold Timed.clean
      rw [e2, hq]
      rcases hm with hm | hm <;> rw [hm] <;> rfl
    refine ⟨hq, hm, ?_⟩
    unfold Timed.reset
    rw [hr, Mode.takeReset_false, Timed.goto_self, e3]

/-- **a calm call does not move the horizon away** -/
theorem calm_call {d T t : Nat} {q : Cue} {τ : Timed} (hf : τ.mode.fits false false)
    (hopen : τ.Open t) (hz : τ.horizon d ≤ T)
    (hp : τ.mode = .idle → q.clean = true → t + d + Leg.toPos2.left d ≤ T)
    (ho : q.occ = false) (hb : q.full = false) (hr : q.reset = false)
    (h1 : t ≤ q.time) (h2 : q.time < t + d) :
    (τ.call q).horizon d ≤ T ∧ (τ.call q).mode.fits false false := by
  -- the stages up to the reset
  have hreset : (τ.reset q).horizon d ≤ T ∧ (τ.reset q).Open t ∧
      (τ.reset q).mode.fits false false := by
    rcases calm_clean hf ho hb hr with e | ⟨hq, hm, e⟩
    · rw [e]
      exact ⟨hz, hopen, hf⟩
    · rw [e]
      rcases hm with hm | hm
      · have hne : τ.mode ≠ .cleaning .toPos2 := by rw [hm]; nofun
        refine ⟨?_, open_cleaning hne rfl h1, ⟨rfl, rfl⟩⟩
        rw [horizon_cleaning hne rfl]
        have hT := hp hm hq
        omega
      · have hgo : τ.mode.Onward (.cleaning .toPos2) := by rw [hm]; exact .begin
        obtain ⟨hle, hop⟩ := hgo.horizon hopen h1 h2
        exact ⟨Nat.le_trans hle hz, hop, ⟨rfl, rfl⟩⟩
  obtain ⟨z1, o1, f1⟩ := hreset
  -- the hall stage
  have g2 := Mode.Onward.takeHall (τ.reset q).mode q.pos
  obtain ⟨z2, o2⟩ := g2.horizon o1 h1 h2
  have f2 : (τ.hall q).mode.fits false false := g2.fits f1
  -- the poll
  have g3 := Mode.Onward.poll f2 ((τ.hall q).due q.time) ((τ.hall q).late q.time)
  have e : τ.call q = (τ.hall q).goto q.time ((τ.hall q).mode.poll false false
      ((τ.hall q).due q.time) ((τ.hall q).late q.time)) := by
    unfold Timed.call
    rw [ho, hb]
  rw [e]
  exact ⟨Nat.le_trans (g3.horizon o2 h1 h2).1 (Nat.le_trans z2 z1), g3.fits f2⟩

/-! ## a run of calm calls -/

/-- after a call at the time `t`, calm like the one before it: rest is due by the time `T` -/
structure Settling (d T t : Nat) (s : Logic) (τ : Timed) : Prop where
  good : Good s τ
  calm : s.gPrevOccupied = false ∧ s.gPrevBinFull = false
  reset : s.gResetRequest = false
  pending : τ.mode = .idle → s.gRemoteCleanRequest = true → t + d + Leg.toPos2.left d ≤ T
  near : ∀ t', t ≤ t' → t' < t + 2^31 → τ.Near t'
  timely : τ.timely
  nothingOver : τ.Open t
  horizon : τ.horizon d ≤ T

/-- what every call leaves behind -/
theorem step_left {s : Logic} {τ : Timed} (h : Good s τ) (i : Inputs) :
    (s.step (.running i)).gPrevOccupied = logicIsOccupied i ∧
    (s.step (.running i)).gPrevBinFull = logicIsBinFull i ∧
    (s.step (.running i)).gResetRequest = false ∧
    (s.step (.running i)).gRemoteCleanRequest = (runningClean i s.fresh).gRemoteCleanRequest := by
  rw [step_running i h]
  refine ⟨rfl, rfl, ?_, runningTick_request i s.fresh⟩
  show (runningTick i s.fresh).gResetRequest = false
  obtain ⟨m, b, r, hh, e⟩ := runningTick_frame i s.fresh
  rw [e]

/-- a mode on its way to rest lies at most this far from it -/
theorem horizon_le {t : Nat} {τ : Timed} (d : Nat) (h : τ.Near t) :
    τ.horizon d ≤ t + 24000 + 5 * d := by
  unfold Timed.horizon
  cases hm : τ.mode with
  | leaveConfirm =>
    have h1 := (h.waiting (by rw [hm]; decide)).1
    show τ.since + (2000 + d) + (5000 + d) + (6000 + d + (5000 + d + (6000 + d))) ≤ _
    omega
  | cleanDelay =>
    have h1 := (h.waiting (by rw [hm]; decide)).1
    show τ.since + (5000 + d) + (6000 + d + (5000 + d + (6000 + d))) ≤ _
    omega
  | cleaning l =>
    have h1 := (h.cleaning l hm).2.1
    have h2 : l.left d ≤ 17000 + 3 * d := by
      cases l <;> simp only [Leg.left] <;> omega
    dsimp only
    omega
  | _ => exact Nat.zero_le _

/-- the first calm call -/
theorem Settling.first {s : Logic} {τ : Timed} {i : Inputs} (d : Nat) (h : Good s τ)
    (hi : i.calm) (hn : τ.Near i.time) (hz : τ.timely) (hp : plainTick i.time) :
    Settling d (i.time + 24000 + 5 * d) i.time (s.step (.running i)) (τ.call (cue i s)) := by
  obtain ⟨h1, h2, h3, -⟩ := step_left h i
  have ht : (τ.call (cue i s)).timely := hz.call (q := cue i s) hp
  refine ⟨h.running i, ⟨h1.trans hi.1, h2.trans hi.2⟩, h3, fun _ _ => ?_, fun t' => ?_, ht, ?_, ?_⟩
  · show i.time + d + (6000 + d + (5000 + d + (6000 + d))) ≤ _
    omega
  · exact Timed.Near.call (q := cue i s) hn
  · exact call_open (q := cue i s) hn ht
  · exact horizon_le d (Timed.Near.call (q := cue i s) hn (Nat.le_refl _) (by
      show i.time < i.time + 2^31
      omega))

/-- **one more calm call** -/
theorem Settling.step {d T t : Nat} {s : Logic} {τ : Timed} {i : Inputs} (h : Settling d T t s τ)
    (hd : d ≤ 2^31) (hi : i.calm) (h1 : t ≤ i.time) (h2 : i.time < t + d) (hp : plainTick i.time) :
    Settling d T i.time (s.step (.running i)) (τ.call (cue i s)) := by
  have hfits : τ.mode.fits false false := by
    have hf := h.good.fits
    rwa [h.calm.1, h.calm.2] at hf
  have hn : τ.Near (cue i s).time := h.near i.time h1 (by omega)
  have ht : (τ.call (cue i s)).timely := h.timely.call (q := cue i s) hp
  obtain ⟨e1, e2, e3, e4⟩ := step_left h.good i
  obtain ⟨hz, hf⟩ := calm_call (q := cue i s) hfits h.nothingOver h.horizon h.pending hi.1 hi.2
    h.reset h1 h2
  refine ⟨h.good.running i, ⟨e1.trans hi.1, e2.trans hi.2⟩, e3, fun hm hr => ?_,
    fun t' => hn.call, ht, call_open hn ht, hz⟩
  -- a request that is still open was met by FAULT, and calm calls do not leave it
  have hfault : (τ.binFull (cue i s)).mode.state = .fault := by
    have hs : (runningBinFull i s.fresh).fsm.ctx.state = (τ.binFull (cue i s)).mode.state :=
      (binFull_amid h.good.fresh).shows.state
    rw [← hs]
    exact runningClean_keeps (e4.symm.trans hr)
  have hmode : τ.mode = .cleanTimeout := by
    have hself : τ.mode.seeFull (cue i s).full = τ.mode :=
      Mode.seeFull_of_fits hfits fun e => absurd (hi.2.symm.trans e) (by decide)
    have hs : τ.mode.state = .fault := by
      rw [← hself]
      exact hfault
    rcases Mode.fault_modes hs with e | e
    · exact e
    · rw [e] at hfits
      cases hfits
  rw [call_cleanTimeout _ hmode, show (cue i s).reset = false from h.reset] at hm
  cases hm

theorem running_step (s : Logic) (i : Inputs) (b : List Inputs) :
    Runs.run Logic.step s ((i :: b).map .running) =
      Runs.run Logic.step (s.step (.running i)) (b.map .running) := rfl

/-- **calm calls, one after the other** -/
theorem Settling.run {d T t : Nat} {s : Logic} {τ : Timed} (h : Settling d T t s τ)
    (hd : d ≤ 2^31) (b : List Inputs) (hb : Paced d (t :: b.map Inputs.time))
    (hc : ∀ j ∈ b, j.calm) (hp : ∀ j ∈ b, plainTick j.time) :
    ∃ τ', Settling d T ((b.map Inputs.time).getLastD t)
      (Runs.run Logic.step s (b.map .running)) τ' := by
  induction b generalizing t s τ with
  | nil => exact ⟨τ, h⟩
  | cons i b ih =>
    obtain ⟨⟨h1, h2⟩, hrest⟩ := List.isChain_cons_cons.mp hb
    have hstep := h.step hd (hc i List.mem_cons_self) h1 h2 (hp i List.mem_cons_self)
    obtain ⟨τ', h'⟩ := ih hstep hrest (fun j hj => hc j (List.mem_cons_of_mem i hj))
      fun j hj => hp j (List.mem_cons_of_mem i hj)
    refine ⟨τ', ?_⟩
    rw [running_step, List.map_cons, List.getLastD_cons]
    exact h'

/-- past its time the machine is in IDLE or locked -/
theorem Settling.rest {d T t : Nat} {s : Logic} {τ : Timed} (h : Settling d T t s τ) (hT : T ≤ t) :
    τ.mode = .idle ∨ τ.mode = .cleanTimeout := by
  have hfits : τ.mode.fits false false := by
    have hf := h.good.fits
    rwa [h.calm.1, h.calm.2] at hf
  have hz := h.horizon
  unfold Timed.horizon at hz
  cases hm : τ.mode with
  | idle => exact Or.inl rfl
  | cleanTimeout => exact Or.inr rfl
  | leaveConfirm =>
    have ho := h.nothingOver.waiting (by rw [hm]; decide)
    rw [hm] at ho hz
    dsimp only [Mode.window] at ho hz
    omega
  | cleanDelay =>
    have ho := h.nothingOver.waiting (by rw [hm]; decide)
    rw [hm] at ho hz
    dsimp only [Mode.window] at ho hz
    omega
  | cleaning l =>
    have ho := h.nothingOver.cleaning l hm
    rw [hm] at hz
    have hl : l.budget ≤ l.left d := by
      cases l <;> simp only [Leg.budget, Leg.left] <;> omega
    dsimp only at hz
    omega
  | occupied => rw [hm] at hfits; cases hfits.1
  | safeStop => rw [hm] at hfits; cases hfits
  | binFull => rw [hm] at hfits; cases hfits

/-- **The box comes to rest.**  From any state a run can reach, if no deadline in it is the `0` that
stands for none: if from then on nobody is in the box, the bin has room, nothing is requested and the
calls are less than `d` apart, at plain ticks, then `24000 + 5 * d` ticks later the machine is in
IDLE, or locked after a timeout, and the motor stands still, whatever the hall sensors showed in
between. -/
theorem comes_to_rest (g : Gpio) (i0 : Inputs) (l : List Step) (i : Inputs) (b : List Inputs)
    (d : Nat) (hd : d ≤ 2^31) (hl : Paced (2^31) (times (l ++ [.running i])))
    (hb : Paced d ((i :: b).map Inputs.time)) (hc : ∀ j ∈ i :: b, j.calm)
    (hp : ∀ j ∈ i :: b, plainTick j.time)
    (hz : (run g i0 l).fsm.ctx.state = .leaveConfirm ∨
      (run g i0 l).fsm.ctx.state = .cleanDelay → (run g i0 l).fsm.ctx.deadlineTick ≠ 0)
    (hT : i.time + 24000 + 5 * d ≤ (b.map Inputs.time).getLastD i.time) :
    let s := run g i0 (l ++ (i :: b).map .running)
    (s.fsm.ctx.state = .idle ∧ s.fsm.ctx.faultCode = .none ∨
      s.fsm.ctx.state = .fault ∧ s.fsm.ctx.faultCode = .cleanTimeout) ∧
    s.gpio.driven in1 = some .low ∧ s.gpio.driven in2 = some .low := by
  intro s
  obtain ⟨hpl, hn⟩ := paced_running hl
  have h := run_good g i0 l
  have htimely : (timed g i0 l).timely := by
    intro hw
    rw [← h.shows.deadline]
    refine hz ?_
    rw [h.shows.state]
    cases hm : (timed g i0 l).mode with
    | leaveConfirm => exact Or.inl rfl
    | cleanDelay => exact Or.inr rfl
    | _ => rw [hm] at hw; exact absurd rfl hw
  have h0 := Settling.first d h (hc i List.mem_cons_self) (timed_near g i0 l hpl i.time hn)
    htimely (hp i List.mem_cons_self)
  obtain ⟨τ', h'⟩ := h0.run hd b hb (fun j hj => hc j (List.mem_cons_of_mem i hj))
    fun j hj => hp j (List.mem_cons_of_mem i hj)
  have e : Runs.run Logic.step ((run g i0 l).step (.running i)) (b.map .running) = s := by
    show _ = Runs.run Logic.step (boot g i0) (l ++ (i :: b).map .running)
    rw [Runs.run_append, running_step]
    rfl
  rw [e] at h'
  have hs := h'.good.shows
  have hd := h'.good.pins
  rcases h'.rest hT with hm | hm
  · rw [hm] at hd
    refine ⟨Or.inl ⟨hs.state.trans (by rw [hm]; rfl), hs.fault.trans (by rw [hm]; rfl)⟩, hd⟩
  · rw [hm] at hd
    refine ⟨Or.inr ⟨hs.state.trans (by rw [hm]; rfl), hs.fault.trans (by rw [hm]; rfl)⟩, hd⟩

/-- a box left at the tick `20`, and calls half a minute apart -/
theorem comes_to_rest_leaving :
    (run lowPins (calmAt 0) (leaving ++ ((calmAt 29000) :: (List.range 7).map fun k =>
      calmAt (29000 * (k + 2))).map .running)).gpio.driven in1 = some .low :=
  (comes_to_rest lowPins (calmAt 0) leaving (calmAt 29000)
    ((List.range 7).map fun k => calmAt (29000 * (k + 2))) 30000 (by decide) (by decide)
    (by decide) (by decide) (by decide) (by decide) (by decide)).2.1

/-! ## recovery -/

/-- a pending reset request ends a cleaning and both windows, whatever the samples -/
theorem reset_mode {q : Cue} (hr : q.reset = true) (τ : Timed) :
    (τ.call q).mode.drive = .stop ∧
      ((τ.call q).mode = .idle ↔ q.occ = false ∧ q.full = false) := by
  have hhall : (τ.hall q).mode = (τ.reset q).mode := by
    refine Mode.takeHall_outside _ ?_
    show ((((τ.mode.seeFull q.full).seeOccupied q.occ).takeClean q.clean).takeReset
      q.reset q.occ q.full).state ≠ _
    rw [hr]
    cases τ.mode <;> cases q.full <;> cases q.occ <;> cases q.clean <;> nofun
  have e : (τ.call q).mode = ((((τ.mode.seeFull q.full).seeOccupied q.occ).takeClean
      q.clean).takeReset true q.occ q.full).poll q.occ q.full ((τ.hall q).due q.time)
      ((τ.hall q).late q.time) := by
    rw [← hr]
    show (τ.hall q).mode.poll _ _ _ _ = _
    rw [hhall]
    rfl
  rw [e]
  generalize (τ.hall q).due q.time = due
  generalize (τ.hall q).late q.time = late
  cases τ.mode <;> cases q.full <;> cases q.occ <;> cases q.clean <;>
    exact ⟨rfl, by simp [Mode.seeFull, Mode.seeOccupied, Mode.takeClean, Mode.takeReset, Mode.poll,
      LitterBox.rest]⟩

/-- only a call takes the reset request back -/
theorem step_keeps_reset {s : Logic} {x : Step} (hx : x.callTime = none)
    (h : s.gResetRequest = true) : (s.step x).gResetRequest = true := by
  cases x with
  | running i => cases hx
  | requestClean => exact h
  | requestReset => exact rfl
  | litterTimeout t => exact (litterTimeout_requests s t).2.trans h

/-- **A reset request recovers every reachable state**: the next call stops the motor, and ends in
IDLE exactly when its samples are calm, whatever was requested besides. -/
theorem reset_recovers (g : Gpio) (i0 : Inputs) (l m : List Step) (i : Inputs)
    (hm : ∀ x ∈ m, x.callTime = none) :
    let s := run g i0 (l ++ .requestReset :: m ++ [.running i])
    (s.fsm.ctx.state = .idle ↔ i.calm) ∧ (i.calm → s.fsm.ctx.faultCode = .none) ∧
      s.gResetRequest = false ∧ s.gpio.driven in1 = some .low ∧ s.gpio.driven in2 = some .low := by
  have hreq : (run g i0 (l ++ .requestReset :: m)).gResetRequest = true := by
    show (Runs.run Logic.step _ _).gResetRequest = true
    rw [Runs.run_append, Runs.run_cons]
    generalize hs : (Runs.run Logic.step (boot g i0) l).step .requestReset = s
    have h0 : s.gResetRequest = true := by rw [← hs]; rfl
    clear hs
    induction m generalizing s with
    | nil => exact h0
    | cons x m ih =>
      exact ih (fun y hy => hm y (List.mem_cons_of_mem x hy)) (s.step x)
        (step_keeps_reset (hm x List.mem_cons_self) h0)
  intro s
  have h := run_good g i0 (l ++ .requestReset :: m ++ [.running i])
  rw [timed_running] at h
  obtain ⟨hd, hi⟩ := reset_mode (q := cue i (run g i0 (l ++ .requestReset :: m))) hreq
    (timed g i0 (l ++ .requestReset :: m))
  have hp := h.pins
  rw [hd] at hp
  have hst : s.fsm.ctx.state = .idle ↔ i.calm := by
    rw [h.shows.state]
    exact ⟨fun e => hi.mp (Mode.idle_of_state e), fun e => by rw [hi.mpr e]; rfl⟩
  refine ⟨hst, fun e => ?_, running_reset g i0 _ i, hp⟩
  rw [h.shows.fault, hi.mpr e]
  rfl

/-- a cleaning that ran into its time limit, reset and asked to clean again -/
theorem reset_recovers_timedOut :
    (run lowPins (calmAt 0) (timedOut ++ .requestReset :: [.requestClean] ++
      [.running (calmAt 30)])).fsm.ctx.state = .idle :=
  ((reset_recovers lowPins (calmAt 0) timedOut [.requestClean] (calmAt 30) (by decide)).1).mpr
    (by decide)

end LitterBox
