import LitterBox.Logic.Interlock
import LitterBox.Logic.Timing

/-!
# The windows before a cleaning

A cleaning that starts by itself has waited for both windows, LEAVE_CONFIRM and CLEAN_DELAY, one
after the other, and nobody was seen meanwhile (`automatic_clean_waits`).  A cleaning on request
may start from IDLE; that it keeps the first window too is true only if the machine did not come
to IDLE by a recovery that skips LEAVE_CONFIRM (`leave_window`).
-/

namespace LitterBox

open Clock (Paced Next)

/-! ## both windows -/

section waits

variable (g : Gpio) (i0 : Inputs)

/-- the call `r` after the run `a` finds the box left: a falling sample, or a SAFE_STOP released -/
def releases (a : List Step) (r : Inputs) : Prop :=
  ((run g i0 a).gPrevOccupied = true ∧ logicIsOccupied r = false) ∨
    (.safeStop, .leaveConfirm) ∈ moves (run g i0 (a ++ [.running r])).fsm.out

/-- every call sampled nobody and room in the bin -/
def quiet (l : List Step) : Prop :=
  ∀ j, .running j ∈ l → logicIsOccupied j = false ∧ logicIsBinFull j = false

/-- a call of the run `l` at the time `t0` found the box left, and all calls from it on are quiet -/
def quietSince (l : List Step) (t0 : Nat) : Prop :=
  ∃ a r b, l = a ++ .running r :: b ∧ releases g i0 a r ∧ quiet (.running r :: b) ∧ r.time = t0

/-- what a waiting mode has behind it -/
def Waits (l : List Step) (τ : Timed) : Prop :=
  match τ.mode with
  | .leaveConfirm => quietSince g i0 l τ.since
  | .cleanDelay => ∃ t0, quietSince g i0 l t0 ∧ t0 + 2000 ≤ τ.since
  | _ => True

variable {g i0}

theorem quietSince.snoc {l : List Step} {t0 : Nat} (h : quietSince g i0 l t0) {x : Step}
    (hx : quiet [x]) : quietSince g i0 (l ++ [x]) t0 := by
  obtain ⟨a, r, b, e, hr, hq, ht⟩ := h
  refine ⟨a, r, b ++ [x], ?_, hr, fun j hj => ?_, ht⟩
  · rw [e, List.append_assoc]
    rfl
  · rw [← List.cons_append] at hj
    exact (List.mem_append.mp hj).elim (hq j) (hx j)

theorem quietSince.now {l : List Step} {r : Inputs} (h : releases g i0 l r)
    (hq : quiet [.running r]) : quietSince g i0 (l ++ [.running r]) r.time :=
  ⟨l, r, [], rfl, h, hq, rfl⟩

theorem quiet_running {i : Inputs} (ho : logicIsOccupied i = false) (hf : logicIsBinFull i = false) :
    quiet [.running i] := by
  intro j hj
  obtain rfl : j = i := Step.running.inj (List.mem_singleton.mp hj)
  exact ⟨ho, hf⟩

theorem quiet_other {x : Step} (h : x.callTime = none) : quiet [x] := by
  intro j hj
  rw [← List.mem_singleton.mp hj] at h
  cases h

theorem Waits.snoc {l : List Step} {τ : Timed} (h : Waits g i0 l τ) {x : Step} (hx : quiet [x]) :
    Waits g i0 (l ++ [x]) τ := by
  unfold Waits at h ⊢
  cases hm : τ.mode with
  | leaveConfirm =>
    rw [hm] at h
    exact h.snoc hx
  | cleanDelay =>
    rw [hm] at h
    obtain ⟨t0, h0, hle⟩ := h
    exact ⟨t0, h0.snoc hx, hle⟩
  | _ => exact trivial

/-- a waiting mode at the poll was there before the call, or the box was just left -/
theorem hall_waits_from {q : Cue} {τ : Timed} (hw : (τ.hall q).mode.window ≠ 0) :
    τ.hall q = τ ∨
      ((τ.hall q).mode = .leaveConfirm ∧ (τ.hall q).since = q.time ∧ τ.mode = .occupied) := by
  have hr : (τ.hall q).mode = (τ.reset q).mode := Mode.takeHall_waiting hw
  have hcases : (τ.mode.seeFull q.full = τ.mode ∧ τ.mode.seeOccupied q.occ = τ.mode ∧
      τ.mode.takeClean q.clean = τ.mode ∧ τ.mode.takeReset q.reset q.occ q.full = τ.mode) ∨
      ((τ.reset q).mode = .leaveConfirm ∧ τ.mode = .occupied ∧ q.occ = false ∧ q.full = false) := by
    rw [hr] at hw
    have h4 : (τ.clean q).mode.takeReset q.reset q.occ q.full = (τ.clean q).mode :=
      Mode.takeReset_waiting hw
    have hw3 : (τ.clean q).mode.window ≠ 0 := h4 ▸ hw
    have h3 : (τ.occupancy q).mode.takeClean q.clean = (τ.occupancy q).mode :=
      Mode.takeClean_waiting hw3
    have hw2 : (τ.occupancy q).mode.window ≠ 0 := h3 ▸ hw3
    rcases Mode.seeOccupied_waiting (μ := (τ.binFull q).mode) hw2 with h2 | ⟨ho, hocc⟩
    · have hw1 : (τ.binFull q).mode.window ≠ 0 := h2 ▸ hw2
      have h1 : τ.mode.seeFull q.full = τ.mode := Mode.seeFull_waiting hw1
      have e1 : (τ.binFull q).mode = τ.mode := h1
      have e2 : (τ.occupancy q).mode = τ.mode := h2.trans e1
      have e3 : (τ.clean q).mode = τ.mode := h3.trans e2
      rw [e1] at h2
      rw [e2] at h3
      rw [e3] at h4
      exact Or.inl ⟨h1, h2, h3, h4⟩
    · obtain ⟨hm, hfull⟩ := Mode.seeFull_occupied (μ := τ.mode) ho
      have e2 : (τ.occupancy q).mode = .leaveConfirm := by
        show (τ.binFull q).mode.seeOccupied q.occ = _
        rw [ho, hocc]
        rfl
      exact Or.inr ⟨h4.trans (h3.trans e2), hm, hocc, hfull⟩
  rcases hcases with ⟨h1, h2, h3, h4⟩ | ⟨hl, ho, hocc, hfull⟩
  · left
    obtain ⟨-, -, -, e⟩ := reset_self h1 h2 h3 h4
    show (τ.reset q).goto q.time (τ.hall q).mode = τ
    rw [hr, e, Timed.goto_self]
  · right
    refine ⟨hr.trans hl, ?_, ho⟩
    have e1 : τ.binFull q = τ := by
      unfold Timed.binFull
      rw [hfull, show τ.mode.seeFull false = τ.mode by rw [ho]; rfl, Timed.goto_self]
    have e2 : (τ.occupancy q).since = q.time := by
      unfold Timed.occupancy
      rw [e1, hocc, ho]
      exact Timed.goto_since_of_ne (by rw [ho]; decide)
    have stay : ∀ {σ : Timed} (μ' : Mode), σ.since = q.time → (σ.goto q.time μ').since = q.time := by
      intro σ μ' hσ
      show (if _ then _ else _) = _
      split
      · exact hσ
      · rfl
    exact stay _ (stay _ (stay _ e2))

variable {l : List Step} {i : Inputs} {τ : Timed}

theorem calm_waiting {f : Flags} {μ : Mode} (h : μ.mid f) (hw : μ.window ≠ 0) : f.calm := by
  cases μ with
  | leaveConfirm => exact h
  | cleanDelay => exact h
  | _ => exact absurd rfl hw

theorem waits_hall (h : Good (run g i0 l).fresh τ) (hw : Waits g i0 l τ) :
    Waits g i0 (l ++ [.running i]) (τ.hall (cue i (run g i0 l).fresh)) := by
  by_cases hwin : (τ.hall (cue i (run g i0 l).fresh)).mode.window = 0
  · unfold Waits
    cases hm : (τ.hall (cue i (run g i0 l).fresh)).mode with
    | leaveConfirm => rw [hm] at hwin; cases hwin
    | cleanDelay => rw [hm] at hwin; cases hwin
    | _ => exact trivial
  have hcalm := calm_waiting (hall_mid (i := i) h) hwin
  have hq : quiet [.running i] := quiet_running hcalm.1 hcalm.2.1
  rcases hall_waits_from hwin with e | ⟨hl, hs, ho⟩
  · rw [e]
    exact hw.snoc hq
  · unfold Waits
    rw [hl, hs]
    have hprev : (run g i0 l).gPrevOccupied = true := by
      have hf : τ.mode.fits (run g i0 l).gPrevOccupied (run g i0 l).gPrevBinFull := h.fits
      rw [ho] at hf
      exact hf.1
    exact .now (Or.inl ⟨hprev, hcalm.1⟩) hq

theorem Waits.of_none {l : List Step} {τ : Timed} (h : τ.mode.window = 0) : Waits g i0 l τ := by
  unfold Waits
  cases hm : τ.mode with
  | leaveConfirm => rw [hm] at h; cases h
  | cleanDelay => rw [hm] at h; cases h
  | _ => exact trivial

theorem waits_call (h : Good (run g i0 l) τ) (hn : τ.Near i.time) (hw : Waits g i0 l τ) :
    Waits g i0 (l ++ [.running i]) (τ.call (cue i (run g i0 l).fresh)) := by
  have hhall : Waits g i0 (l ++ [.running i]) (τ.hall (cue i (run g i0 l).fresh)) :=
    waits_hall h.fresh hw
  have hnear : (τ.hall (cue i (run g i0 l).fresh)).Near i.time :=
    Timed.Near.hall (q := cue i (run g i0 l).fresh) hn
  have hmoves := call_moves (i := i) h.fresh
  have hout : (run g i0 (l ++ [.running i])).fsm.out =
      (runningTick i (run g i0 l).fresh).fsm.out := by rw [running_out]
  have hocc : (cue i (run g i0 l).fresh).occ = logicIsOccupied i := rfl
  have hfull : (cue i (run g i0 l).fresh).full = logicIsBinFull i := rfl
  have htime : (cue i (run g i0 l).fresh).time = i.time := rfl
  generalize cue i (run g i0 l).fresh = q at *
  have hcall : τ.call q = (τ.hall q).goto q.time ((τ.hall q).mode.poll q.occ q.full
    ((τ.hall q).due q.time) ((τ.hall q).late q.time)) := rfl
  have goes_on : (τ.hall q).mode.window ≠ 0 → (τ.hall q).due q.time = false →
      τ.call q = τ.hall q := by
    intro hw hd
    rw [hcall, hd, Mode.poll_waiting hw, Timed.goto_self]
  cases hm : (τ.hall q).mode with
  | leaveConfirm =>
    cases hd : (τ.hall q).due q.time with
    | true =>
      have e : τ.call q = (τ.hall q).goto q.time .cleanDelay := by rw [hcall, hm, hd]; rfl
      rw [htime] at hd
      obtain ⟨-, hle⟩ := (Timed.due_iff hnear (by rw [hm]; nofun)).mp hd
      unfold Waits at hhall
      rw [hm] at hhall hle
      rw [e]
      refine ⟨_, hhall, ?_⟩
      rw [Timed.goto_since_of_ne (by rw [hm]; nofun), htime]
      exact hle
    | false =>
      rw [goes_on (by rw [hm]; nofun) hd]
      exact hhall
  | cleanDelay =>
    cases hd : (τ.hall q).due q.time with
    | true => exact .of_none (by rw [hcall, hm, hd]; rfl)
    | false =>
      rw [goes_on (by rw [hm]; nofun) hd]
      exact hhall
  | safeStop =>
    cases ho : q.occ with
    | true => exact .of_none (by rw [hcall, hm, ho]; rfl)
    | false =>
      cases hf : q.full with
      | true => exact .of_none (by rw [hcall, hm, ho, hf]; rfl)
      | false =>
        have e : τ.call q = (τ.hall q).goto q.time .leaveConfirm := by rw [hcall, hm, ho, hf]; rfl
        have hrel : releases g i0 l i := by
          right
          rw [hout, hmoves, e, hm]
          exact List.mem_append_left _ (List.mem_singleton.mpr rfl)
        have hnow := quietSince.now hrel (quiet_running (hocc.symm.trans ho) (hfull.symm.trans hf))
        rw [e]
        show quietSince g i0 _ ((τ.hall q).goto q.time .leaveConfirm).since
        rw [Timed.goto_since_of_ne (by rw [hm]; nofun), htime]
        exact hnow
  | cleaning leg =>
    refine .of_none ?_
    rw [hcall, hm]
    cases (τ.hall q).late q.time <;> rfl
  | binFull =>
    refine .of_none ?_
    rw [hcall, hm]
    cases q.full <;> cases q.occ <;> rfl
  | _ => exact .of_none (by rw [hcall, hm]; rfl)

/-- **run lemma**: in a paced run a waiting mode has waited -/
theorem run_waits (l : List Step) (hp : Paced (2^31) (times l)) : Waits g i0 l (timed g i0 l) := by
  induction l using List.reverseRecOn with
  | nil => exact .of_none (bootTimed_rests i0).1
  | append_singleton l x ih =>
    cases x with
    | running i =>
      obtain ⟨hpl, hn⟩ := paced_running hp
      rw [timed_running]
      exact waits_call (run_good g i0 l) (timed_near g i0 l hpl i.time hn) (ih hpl)
    | requestClean =>
      rw [times_other l rfl] at hp
      rw [timed_snoc]
      exact (ih hp).snoc (quiet_other rfl)
    | requestReset =>
      rw [times_other l rfl] at hp
      rw [timed_snoc]
      exact (ih hp).snoc (quiet_other rfl)
    | litterTimeout t =>
      rw [times_other l rfl] at hp
      rw [timed_snoc]
      exact Timed.litterTimeout_inv t ((ih hp).snoc (quiet_other rfl)) (.of_none rfl)

end waits

/-- the poll of a call enters CLEANING; only `EVT_DELAY_TIMEOUT` leads there -/
def entersByTick (i : Inputs) (s : Logic) : Prop :=
  (runningHall i s).fsm.ctx.state ≠ .cleaning ∧ (runningTick i s).fsm.ctx.state = .cleaning

instance (i : Inputs) (s : Logic) : Decidable (entersByTick i s) := by
  unfold entersByTick
  infer_instance

/-- **Automatic cleaning waits out both windows.**  When the poll of a call enters CLEANING, a call
at least `7000` ticks earlier found the box left, and every call since sampled nobody in the box and
room in the bin.  Since then is the stretch of the run from the call that found it left on: calls
before it do not count, even at the same tick. -/
theorem automatic_clean_waits (g : Gpio) (i0 : Inputs) (l : List Step) (i : Inputs)
    (hp : Paced (2^31) (times (l ++ [.running i])))
    (he : entersByTick i (run g i0 l).fresh) :
    ∃ a r b, l ++ [.running i] = a ++ .running r :: b ∧ releases g i0 a r ∧
      r.time + 7000 ≤ i.time ∧ quiet (.running r :: b) := by
  obtain ⟨hpl, hn⟩ := paced_running hp
  have h := run_good g i0 l
  have hnear : ((timed g i0 l).hall (cue i (run g i0 l).fresh)).Near i.time :=
    Timed.Near.hall (q := cue i (run g i0 l).fresh) (timed_near g i0 l hpl i.time hn)
  have hw := waits_hall (i := i) h.fresh (run_waits l hpl)
  have h0 := he.1
  have h1 := he.2
  rw [(hall_amid (i := i) h.fresh).shows.state] at h0
  rw [(tick_amid (i := i) h.fresh).shows.state] at h1
  obtain ⟨hm, hd⟩ := tick_enters h0 h1
  obtain ⟨-, hle⟩ := (Timed.due_iff hnear (by rw [hm]; nofun)).mp hd
  unfold Waits at hw
  rw [hm] at hw hle
  obtain ⟨t0, ⟨a, r, b, e, hr, hq, ht⟩, h0⟩ := hw
  have hwin : Mode.cleanDelay.window = 5000 := rfl
  exact ⟨a, r, b, e, hr, by omega, hq⟩

/-- a box left at the tick `20` is cleaned at the tick `7020` -/
theorem automatic_clean_waits_leaving :
    ∃ a r b, leaving ++ [.running (calmAt 2020)] ++ [.running (calmAt 7020)] = a ++ .running r :: b ∧
      releases lowPins (calmAt 0) a r ∧ r.time + 7000 ≤ (calmAt 7020).time ∧
      quiet (.running r :: b) :=
  automatic_clean_waits lowPins (calmAt 0) (leaving ++ [.running (calmAt 2020)]) (calmAt 7020)
    (by decide) (by decide)

/-! ## the first window and requests -/

/-- a recovery that does not pass through LEAVE_CONFIRM -/
def recoveries : List (LitterFsmState × LitterFsmState) :=
  [(.leaveConfirm, .idle), (.safeStop, .idle), (.fault, .idle)]

/-- one of the steps `b` after the run `a` made such a recovery -/
def recovered (g : Gpio) (i0 : Inputs) (a b : List Step) : Prop :=
  ∃ b1 x b2, b = b1 ++ x :: b2 ∧
    ∃ e ∈ recoveries, e ∈ moves (run g i0 (a ++ b1 ++ [x])).fsm.out

theorem recovered.snoc {g : Gpio} {i0 : Inputs} {a b : List Step} (h : recovered g i0 a b)
    (x : Step) : recovered g i0 a (b ++ [x]) := by
  obtain ⟨b1, y, b2, e, hy⟩ := h
  refine ⟨b1, y, b2 ++ [x], ?_, hy⟩
  rw [e, List.append_assoc]
  rfl

/-- what the mode says at the time `t` about a sample of somebody in the box at the time `r`; `P`
says that there was a recovery meanwhile -/
def Kept (r t : Nat) (P : Prop) (τ : Timed) : Prop :=
  match τ.mode with
  | .idle => P ∨ r + 2000 ≤ t
  | .cleaning _ => P ∨ r + 2000 ≤ t
  | .cleanDelay => r + 2000 ≤ t
  | .leaveConfirm => r ≤ τ.since
  | _ => True

theorem Kept.mono {r t t' : Nat} {P P' : Prop} {τ : Timed} (h : Kept r t P τ) (ht : t ≤ t')
    (hP : P → P') : Kept r t' P' τ := by
  unfold Kept at h ⊢
  cases hm : τ.mode with
  | idle => rw [hm] at h; exact h.imp hP fun h => Nat.le_trans h ht
  | cleaning l => rw [hm] at h; exact h.imp hP fun h => Nat.le_trans h ht
  | cleanDelay => rw [hm] at h; exact Nat.le_trans h ht
  | leaveConfirm => rw [hm] at h; exact h
  | _ => exact trivial

/-- one change of mode: CLEAN_DELAY only follows a LEAVE_CONFIRM that is over -/
theorem Kept.goto {r t : Nat} {P : Prop} {τ : Timed} {μ' : Mode} (h : Kept r t P τ) (hr : r ≤ t)
    (ha : τ.mode.allows μ') (hP : ∀ e ∈ recoveries, e ∈ τ.mode.hop μ' → P)
    (hd : τ.mode = .leaveConfirm → μ' = .cleanDelay → τ.since + 2000 ≤ t) :
    Kept r t P (τ.goto t μ') := by
  have back : ∀ a, τ.mode.state = a → μ' = .idle → (a, .idle) ∈ recoveries → P := by
    rintro a rfl rfl hm
    refine hP _ hm ?_
    have hne : τ.mode.state ≠ Mode.idle.state := by
      intro e
      rw [show τ.mode.state = .idle from e] at hm
      revert hm
      decide
    rw [Mode.hop_of_ne hne]
    exact List.mem_singleton.mpr rfl
  unfold Kept at h
  cases hμ : μ' with
  | leaveConfirm =>
    show r ≤ (τ.goto t .leaveConfirm).since
    by_cases hs : Mode.leaveConfirm.state = τ.mode.state
    · have hm : Mode.leaveConfirm = τ.mode := Mode.eq_of_window (by decide) hs
      rw [← hm] at h
      rw [Timed.goto_since hs]
      exact h
    · rw [Timed.goto_since_of_ne hs]
      exact hr
  | cleanDelay =>
    show r + 2000 ≤ t
    cases hm : τ.mode with
    | cleanDelay => rw [hm] at h; exact h
    | leaveConfirm =>
      have hle := hd hm hμ
      rw [hm] at h
      have h : r ≤ τ.since := h
      omega
    | _ => rw [hm, hμ] at ha; exact absurd ha (by simp [Mode.allows, Mode.state, systemEdges])
  | idle =>
    show P ∨ r + 2000 ≤ t
    cases hm : τ.mode with
    | idle => rw [hm] at h; exact h
    | cleaning l => rw [hm] at h; exact h
    | cleanDelay => rw [hm] at h; exact Or.inr h
    | leaveConfirm => exact Or.inl (back .leaveConfirm (by rw [hm]; rfl) hμ (by decide))
    | safeStop => exact Or.inl (back .safeStop (by rw [hm]; rfl) hμ (by decide))
    | binFull => exact Or.inl (back .fault (by rw [hm]; rfl) hμ (by decide))
    | cleanTimeout => exact Or.inl (back .fault (by rw [hm]; rfl) hμ (by decide))
    | occupied => rw [hm, hμ] at ha; exact absurd ha (by simp [Mode.allows, Mode.state, systemEdges])
  | cleaning l' =>
    show P ∨ r + 2000 ≤ t
    cases hm : τ.mode with
    | idle => rw [hm] at h; exact h
    | cleaning l => rw [hm] at h; exact h
    | cleanDelay => rw [hm] at h; exact Or.inr h
    | _ => rw [hm, hμ] at ha; exact absurd ha (by simp [Mode.allows, Mode.state, systemEdges])
  | _ => exact trivial

theorem Kept.call {r : Nat} {P : Prop} {i : Inputs} {s : Logic} {τ : Timed} (h : Good s τ)
    (ho : s.fsm.out = []) (hn : τ.Near i.time) (hk : Kept r i.time P τ) (hr : r ≤ i.time)
    (hP : ∀ e ∈ recoveries, e ∈ moves (runningTick i s).fsm.out → P) :
    Kept r i.time P (τ.call (cue i s)) := by
  simp only [mem_call_moves h ho] at hP
  have hnear : (τ.hall (cue i s)).Near i.time := Timed.Near.hall (q := cue i s) hn
  have k1 : Kept r i.time P (τ.binFull (cue i s)) := by
    refine hk.goto hr (Mode.allows_seeFull _ _)
      (fun e he hh => hP e he (Or.inr (Or.inr (Or.inr (Or.inr (Or.inr hh)))))) fun hm hc => ?_
    rw [hm] at hc
    revert hc
    cases (cue i s).full <;> nofun
  have k2 : Kept r i.time P (τ.occupancy (cue i s)) := by
    refine k1.goto hr (Mode.allows_seeOccupied _ _)
      (fun e he hh => hP e he (Or.inr (Or.inr (Or.inr (Or.inr (Or.inl hh)))))) fun hm hc => ?_
    rw [hm] at hc
    revert hc
    cases (cue i s).occ <;> nofun
  have k3 : Kept r i.time P (τ.clean (cue i s)) := by
    refine k2.goto hr (Mode.allows_takeClean _ _)
      (fun e he hh => hP e he (Or.inr (Or.inr (Or.inr (Or.inl hh))))) fun hm hc => ?_
    rw [hm] at hc
    cases hc
  have k4 : Kept r i.time P (τ.reset (cue i s)) := by
    refine k3.goto hr (Mode.allows_takeReset _ _ _ _)
      (fun e he hh => hP e he (Or.inr (Or.inr (Or.inl hh)))) fun hm hc => ?_
    rw [hm] at hc
    revert hc
    cases (cue i s).reset <;> nofun
  have k5 : Kept r i.time P (τ.hall (cue i s)) := by
    refine k4.goto hr (Mode.allows_takeHall _ _)
      (fun e he hh => hP e he (Or.inr (Or.inl hh))) fun hm hc => ?_
    rw [hm] at hc
    cases hc
  refine k5.goto hr (Mode.allows_poll _ _ _ _ _) (fun e he hh => hP e he (Or.inl hh)) fun hm hc => ?_
  -- the poll goes on to CLEAN_DELAY only when the window of LEAVE_CONFIRM is over
  rw [hm] at hc
  by_cases hd : (τ.hall (cue i s)).due i.time = true
  · obtain ⟨-, hle⟩ := (Timed.due_iff hnear (by rw [hm]; nofun)).mp hd
    rw [hm] at hle
    exact hle
  · rw [show (τ.hall (cue i s)).due (cue i s).time = false from Bool.eq_false_iff.mpr hd] at hc
    cases hc

theorem kept_of_occupied {r t : Nat} {P : Prop} {τ : Timed} {full : Bool}
    (h : τ.mode.fits true full) : Kept r t P τ := by
  unfold Kept
  cases hm : τ.mode with
  | idle => rw [hm] at h; cases h.1
  | leaveConfirm => rw [hm] at h; cases h.1
  | cleanDelay => rw [hm] at h; cases h.1
  | cleaning l => rw [hm] at h; cases h.1
  | _ => exact trivial

/-- **run lemma**: in a paced run the mode keeps the window after every sample -/
theorem run_kept (g : Gpio) (i0 : Inputs) (l : List Step) (hp : Paced (2^31) (times l)) (t : Nat)
    (ht : Next (2^31) (times l) t) :
    ∀ a i1 b, l = a ++ .running i1 :: b → logicIsOccupied i1 = true →
      i1.time ≤ t ∧ Kept i1.time t (recovered g i0 (a ++ [.running i1]) b) (timed g i0 l) := by
  refine paced_inv (Q := fun l t => ∀ a i1 b, l = a ++ .running i1 :: b →
      logicIsOccupied i1 = true → i1.time ≤ t ∧
        Kept i1.time t (recovered g i0 (a ++ [.running i1]) b) (timed g i0 l))
    (fun t a i1 b e => absurd e (by simp)) (fun l i t hpl hn ih h1 h2 => ?_)
    (fun l x t hx ih => ?_) l hp t ht
  · intro a i1 b e ho
    rcases Runs.snoc_eq_split e with ⟨rfl, rfl, hi⟩ | ⟨b', rfl, rfl⟩
    · obtain rfl := Step.running.inj hi
      have hf := (run_good g i0 (l ++ [.running i])).fits
      rw [(running_prev g i0 l i).1, (running_prev g i0 l i).2, ho] at hf
      exact ⟨h1, kept_of_occupied hf⟩
    · obtain ⟨hle, hk⟩ := ih a i1 b' rfl ho
      refine ⟨Nat.le_trans hle h1, ?_⟩
      rw [timed_running]
      have hk' : Kept i1.time i.time (recovered g i0 (a ++ [.running i1]) (b' ++ [.running i]))
          (timed g i0 (a ++ .running i1 :: b')) := hk.mono (Nat.le_refl _) fun h => h.snoc _
      refine (hk'.call (run_good g i0 _).fresh rfl (timed_near g i0 _ hpl i.time hn) hle
        fun e he hh => ?_).mono h1 id
      refine ⟨b', .running i, [], rfl, e, he, ?_⟩
      rw [show a ++ [Step.running i1] ++ b' = a ++ .running i1 :: b' by rw [List.append_assoc]; rfl,
        running_out]
      exact hh
  · intro a i1 b e ho
    rcases Runs.snoc_eq_split e with ⟨rfl, rfl, hi⟩ | ⟨b', rfl, rfl⟩
    · rw [hi] at hx
      cases hx
    · obtain ⟨hle, hk⟩ := ih a i1 b' rfl ho
      refine ⟨hle, ?_⟩
      have hk' : Kept i1.time t (recovered g i0 (a ++ [.running i1]) (b' ++ [x]))
          (timed g i0 (a ++ .running i1 :: b')) := hk.mono (Nat.le_refl _) fun h => h.snoc _
      rw [timed_snoc]
      cases x with
      | running i => cases hx
      | requestClean => exact hk'
      | requestReset => exact hk'
      | litterTimeout u => exact Timed.litterTimeout_inv u hk' trivial

/-- **The leave-confirm window.**  A call that enters CLEANING at the tick `t` sampled nobody, and
so did every call less than `2000` ticks before `t`, unless CLEANING is entered from IDLE and the
machine has come to IDLE, since that sample, by a recovery. -/
theorem leave_window (g : Gpio) (i0 : Inputs) (l : List Step) (i : Inputs) (st : LitterFsmState)
    (hp : Paced (2^31) (times (l ++ [.running i])))
    (he : (st, .cleaning) ∈ moves (run g i0 (l ++ [.running i])).fsm.out) :
    logicIsOccupied i = false ∧
    ∀ a i1 b, l = a ++ .running i1 :: b → logicIsOccupied i1 = true → i.time < i1.time + 2000 →
      st = .idle ∧ recovered g i0 (a ++ [.running i1]) b := by
  obtain ⟨hpl, hn⟩ := paced_running hp
  have h := run_good g i0 l
  rw [running_out] at he
  obtain ⟨henter, hst⟩ := call_enters h.fresh rfl he
  have hocc : logicIsOccupied i = false := henter.elim (fun hq => hq.1) fun hq => hq.1
  have hmode : (timed g i0 l).mode = .idle ∨ (timed g i0 l).mode = .cleanDelay :=
    henter.elim (fun hq => hq.2.2.2) fun hq => Or.inr hq.2.2.2.2.1
  refine ⟨hocc, fun a i1 b e ho ht => ?_⟩
  obtain ⟨-, hk⟩ := run_kept g i0 l hpl i.time hn a i1 b e ho
  unfold Kept at hk
  rcases hmode with hm | hm
  · rw [hm] at hk
    exact ⟨by rw [hst, hm]; rfl, hk.resolve_right (by omega)⟩
  · rw [hm] at hk
    have hk : i1.time + 2000 ≤ i.time := hk
    omega

/-- the window is kept in a run: no call less than `2000` ticks before an entry into CLEANING
sampled somebody in the box -/
def windowKept (g : Gpio) (i0 : Inputs) (l : List Step) : Prop :=
  ∀ a i1 b i c st, l = a ++ .running i1 :: b ++ .running i :: c → logicIsOccupied i1 = true →
    (st, .cleaning) ∈ moves (run g i0 (a ++ .running i1 :: b ++ [.running i])).fsm.out →
    i1.time + 2000 ≤ i.time

/-- the box is left, RESET takes LEAVE_CONFIRM to IDLE, and a request is granted there -/
def resetBypass : List Step :=
  [.running (occupiedAt 10), .running (calmAt 30), .requestReset, .running (calmAt 50),
    .requestClean]

/-- the motor starts `60` ticks after somebody was seen -/
theorem resetBypass_starts : Paced (2^31) (times (resetBypass ++ [.running (calmAt 70)])) ∧
    ¬ windowKept lowPins (calmAt 0) (resetBypass ++ [.running (calmAt 70)]) := by
  refine ⟨by decide, fun h => ?_⟩
  have hle := h [] (occupiedAt 10)
    [.running (calmAt 30), .requestReset, .running (calmAt 50), .requestClean] (calmAt 70) []
    .idle rfl (by decide) (by decide)
  revert hle
  decide

/-- `leave_window` at that run: RESET made the recovery -/
theorem leave_window_resetBypass :
    recovered lowPins (calmAt 0) [.running (occupiedAt 10)]
      [.running (calmAt 30), .requestReset, .running (calmAt 50), .requestClean] :=
  ((leave_window lowPins (calmAt 0) resetBypass (calmAt 70) .idle (by decide) (by decide)).2 []
    (occupiedAt 10) _ rfl (by decide) (by decide)).2

end LitterBox
