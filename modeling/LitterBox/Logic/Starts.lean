import LitterBox.Logic.Alike
import LitterBox.Logic.Progress
import LitterBox.Logic.Requests

/-!
# Why the motor starts

CLEANING is entered on a clean request, or by itself some time after the box was left.  The entries
are counted in the logs of the calls, the causes in the inputs alone (`visits`): a departure is a
sample of nobody right after one of a cat, a burst is any number of clean requests between two calls.

* `Mode.starts`   a start pays with the wait of a mode, or with a request;
* `Paid`          the account, kept by every step;
* `starts_paid`   no more starts than departures and bursts, after any run.
-/

namespace LitterBox

/-! ## starts and causes -/

/-- the entries into CLEANING in a log -/
def startsIn (l : List Out) : Nat := (moves l).countP fun e => decide (e.2 = .cleaning)

/-- the entries into CLEANING in a run, and those by a request among them -/
structure Starts where
  all : Nat
  granted : Nat
  deriving DecidableEq, Repr

def Starts.note (s : Logic) (x : Step) (c : Starts) : Starts where
  all := c.all + startsIn (s.step x).fsm.out
  granted := c.granted +
    match x with
    | .running i => if entersByRequest i s.fresh then 1 else 0
    | _ => 0

def starts (g : Gpio) (i0 : Inputs) (l : List Step) : Starts :=
  Runs.observe Logic.step Starts.note (boot g i0) ⟨0, 0⟩ l

/-- the causes that the inputs of a run show -/
structure Visits where
  /-- the last sample -/
  occupied : Bool
  departures : Nat
  /-- a clean request was made after the last call -/
  asked : Bool
  /-- calls with clean requests right before them -/
  bursts : Nat
  deriving DecidableEq, Repr

def Visits.note (v : Visits) : Step → Visits
  | .running i =>
    { occupied := logicIsOccupied i
      departures := v.departures + if v.occupied = true ∧ logicIsOccupied i = false then 1 else 0
      asked := false
      bursts := v.bursts + if v.asked = true then 1 else 0 }
  | .requestClean => { v with asked := true }
  | _ => v

def visits (i0 : Inputs) (l : List Step) : Visits :=
  l.foldl Visits.note ⟨logicIsOccupied i0, 0, false, 0⟩

theorem visits_snoc (i0 : Inputs) (l : List Step) (x : Step) :
    visits i0 (l ++ [x]) = (visits i0 l).note x := by
  unfold visits
  rw [List.foldl_append]
  rfl

/-! ## the stages -/

/-- CLEANING is entered -/
def Mode.starts (μ μ' : Mode) : Nat := if μ.state ≠ .cleaning ∧ μ'.state = .cleaning then 1 else 0

/-- the box was left, and the cleaning after it is still to come -/
def Mode.awaits (μ : Mode) : Nat := if μ.window ≠ 0 then 1 else 0

theorem startsIn_hop (μ μ' : Mode) :
    (μ.hop μ').countP (fun e => decide (e.2 = .cleaning)) = μ.starts μ' := by
  unfold Mode.hop Mode.starts
  by_cases h : μ.state = μ'.state
  · rw [if_pos h, if_neg]
    · rfl
    · rintro ⟨h1, h2⟩
      exact h1 (h.trans h2)
  · rw [if_neg h, List.countP_singleton]
    by_cases hc : μ'.state = .cleaning
    · rw [if_pos (decide_eq_true hc), if_pos ⟨fun e => h (e.trans hc.symm), hc⟩]
    · rw [if_neg fun e => hc (of_decide_eq_true e), if_neg fun e => hc e.2]

theorem Mode.seeFull_pays (μ : Mode) (full : Bool) :
    μ.starts (μ.seeFull full) + (μ.seeFull full).awaits ≤ μ.awaits := by
  cases μ with
  | cleaning l => cases l <;> cases full <;> decide
  | _ => cases full <;> decide

/-- a cat that leaves the box pays for the wait -/
theorem Mode.seeOccupied_pays (μ : Mode) (occ : Bool) :
    μ.starts (μ.seeOccupied occ) + (μ.seeOccupied occ).awaits ≤
      μ.awaits + if μ = .occupied ∧ occ = false then 1 else 0 := by
  cases μ with
  | cleaning l => cases l <;> cases occ <;> decide
  | _ => cases occ <;> decide

/-- the only stage that a request can start the motor in -/
theorem Mode.takeClean_pays (μ : Mode) (clean : Bool) :
    (μ.takeClean clean).awaits ≤ μ.awaits := by
  cases μ with
  | cleaning l => cases l <;> cases clean <;> decide
  | _ => cases clean <;> decide

theorem Mode.takeReset_pays (μ : Mode) (reset occ full : Bool) :
    μ.starts (μ.takeReset reset occ full) + (μ.takeReset reset occ full).awaits ≤ μ.awaits := by
  cases μ with
  | cleaning l => cases l <;> cases reset <;> cases occ <;> cases full <;> decide
  | _ => cases reset <;> cases occ <;> cases full <;> decide

theorem Mode.takeHall_pays (μ : Mode) (pos : LitterHallPosition) :
    μ.starts (μ.takeHall pos) + (μ.takeHall pos).awaits ≤ μ.awaits := by
  cases μ with
  | cleaning l => cases l <;> cases pos <;> decide
  | _ => cases pos <;> decide

theorem Mode.takeHall_safeStop {μ : Mode} {pos : LitterHallPosition}
    (h : μ.takeHall pos = .safeStop) : μ = .safeStop := by
  cases μ with
  | cleaning l => cases l <;> cases pos <;> cases h
  | _ => exact h

/-- a wait pays for the start it ends in; a cat that leaves during protection pays for a wait -/
theorem Mode.poll_pays (μ : Mode) (occ full due late : Bool) :
    μ.starts (μ.poll occ full due late) + (μ.poll occ full due late).awaits ≤
      μ.awaits + if μ = .safeStop ∧ occ = false then 1 else 0 := by
  cases μ with
  | cleaning l => cases l <;> cases occ <;> cases full <;> cases due <;> cases late <;> decide
  | _ => cases occ <;> cases full <;> cases due <;> cases late <;> decide

/-- a box that is occupied after the bin was looked at was so before the call -/
theorem binFull_occupied {q : Cue} {τ : Timed} (h : (τ.binFull q).mode = .occupied) :
    τ.mode = .occupied := by
  have e : τ.mode.seeFull q.full = .occupied := h
  cases hm : τ.mode with
  | occupied => rfl
  | _ =>
    rw [hm] at e
    cases hf : q.full <;> rw [hf] at e <;> cases e

/-- a call that samples nobody does not enter protection -/
theorem hall_safeStop {q : Cue} {τ : Timed} (ho : q.occ = false)
    (h : (τ.hall q).mode = .safeStop) : τ.mode = .safeStop := by
  rw [Timed.hall_mode, ho] at h
  have e := Mode.takeHall_safeStop h
  cases hm : τ.mode with
  | safeStop => rfl
  | cleaning l =>
    rw [hm] at e
    cases l <;> cases hf : q.full <;> cases hr : q.reset <;> rw [hf, hr] at e <;> cases e
  | _ =>
    rw [hm] at e
    cases hf : q.full <;> cases hr : q.reset <;> cases hc : q.clean <;>
      rw [hf, hr, hc] at e <;> cases e

/-- the two stages at which a departure pays do not both see it -/
theorem departure_once {q : Cue} {τ : Timed} {prev full : Bool} (h : τ.mode.fits prev full) :
    ((if (τ.binFull q).mode = .occupied ∧ q.occ = false then 1 else 0) +
      if (τ.hall q).mode = .safeStop ∧ q.occ = false then 1 else 0) ≤
    if prev = true ∧ q.occ = false then 1 else 0 := by
  by_cases h1 : (τ.binFull q).mode = .occupied ∧ q.occ = false
  · have hm := binFull_occupied h1.1
    have h2 : ¬ ((τ.hall q).mode = .safeStop ∧ q.occ = false) := by
      rintro ⟨e, ho⟩
      have hs := hall_safeStop ho e
      rw [hm] at hs
      cases hs
    rw [hm] at h
    rw [if_pos h1, if_neg h2, if_pos ⟨h.1, h1.2⟩]
  · rw [if_neg h1, Nat.zero_add]
    by_cases h2 : (τ.hall q).mode = .safeStop ∧ q.occ = false
    · rw [hall_safeStop h2.2 h2.1] at h
      rw [if_pos h2, if_pos ⟨h, h2.2⟩]
    · rw [if_neg h2]
      exact Nat.zero_le _

/-! ## one call -/

/-- **a call pays for what it starts** -/
theorem call_pays {i : Inputs} {s : Logic} {τ : Timed} (h : Good s τ) (ho : s.fsm.out = []) :
    startsIn (runningTick i s).fsm.out + (τ.call (cue i s)).mode.awaits ≤
      τ.mode.awaits + (if entersByRequest i s then 1 else 0) +
        if s.gPrevOccupied = true ∧ logicIsOccupied i = false then 1 else 0 := by
  have hnil : moves s.fsm.out = [] := by
    rw [ho]
    rfl
  have hreq : (τ.occupancy (cue i s)).mode.starts (τ.clean (cue i s)).mode =
      if entersByRequest i s then 1 else 0 := by
    refine if_congr ?_ rfl rfl
    unfold entersByRequest
    rw [(occupancy_amid h).shows.state, (clean_amid h).shows.state]
  have h1 : τ.mode.starts (τ.binFull (cue i s)).mode + (τ.binFull (cue i s)).mode.awaits ≤ _ :=
    Mode.seeFull_pays τ.mode (logicIsBinFull i)
  have h2 : (τ.binFull (cue i s)).mode.starts (τ.occupancy (cue i s)).mode +
      (τ.occupancy (cue i s)).mode.awaits ≤ _ :=
    Mode.seeOccupied_pays (τ.binFull (cue i s)).mode (logicIsOccupied i)
  have h3 : (τ.clean (cue i s)).mode.awaits ≤ (τ.occupancy (cue i s)).mode.awaits :=
    Mode.takeClean_pays _ _
  have h4 : (τ.clean (cue i s)).mode.starts (τ.reset (cue i s)).mode +
      (τ.reset (cue i s)).mode.awaits ≤ (τ.clean (cue i s)).mode.awaits :=
    Mode.takeReset_pays _ _ _ _
  have h5 : (τ.reset (cue i s)).mode.starts (τ.hall (cue i s)).mode +
      (τ.hall (cue i s)).mode.awaits ≤ (τ.reset (cue i s)).mode.awaits :=
    Mode.takeHall_pays _ _
  have h6 : (τ.hall (cue i s)).mode.starts (τ.call (cue i s)).mode +
      (τ.call (cue i s)).mode.awaits ≤ _ :=
    Mode.poll_pays (τ.hall (cue i s)).mode (logicIsOccupied i) (logicIsBinFull i) _ _
  have h7 : _ ≤ if s.gPrevOccupied = true ∧ logicIsOccupied i = false then 1 else 0 :=
    departure_once (q := cue i s) h.fits
  unfold startsIn
  rw [call_moves h, hnil, List.append_nil]
  simp only [List.countP_append, startsIn_hop]
  rw [hreq]
  have e : (cue i s).occ = logicIsOccupied i := rfl
  rw [e] at h7
  omega

/-- a request that is granted is gone after the call -/
theorem granted_consumes {i : Inputs} {s : Logic} {τ : Timed} (h : Good s τ)
    (he : entersByRequest i s.fresh) :
    s.gRemoteCleanRequest = true ∧ (s.step (.running i)).gRemoteCleanRequest = false := by
  obtain ⟨hr, -, hf, hm⟩ := (entersByRequest_iff i h.fresh).mp he
  have hne : (τ.binFull (cue i s)).mode.state ≠ .fault := by
    show (τ.mode.seeFull (logicIsBinFull i)).state ≠ .fault
    rw [hf]
    rcases hm with hm | hm <;> rw [hm] <;> decide
  refine ⟨hr, ?_⟩
  rw [step_clean h, if_neg hne]

/-! ## the account -/

/-- **the account**: starts and waits are paid with departures, requests granted and pending with
bursts -/
structure Paid (s : Logic) (τ : Timed) (c : Starts) (v : Visits) : Prop where
  good : Good s τ
  seen : v.occupied = s.gPrevOccupied
  asked : v.asked = true → s.gRemoteCleanRequest = true
  all : c.all + τ.mode.awaits ≤ c.granted + v.departures
  granted : c.granted + (if s.gRemoteCleanRequest = true then 1 else 0) ≤
    v.bursts + if v.asked = true then 1 else 0

/-- **one step** -/
theorem Paid.step {s : Logic} {τ : Timed} {c : Starts} {v : Visits} (h : Paid s τ c v) (x : Step) :
    Paid (s.step x) (τ.after s x) (c.note s x) (v.note x) := by
  have hall := h.all
  have hgranted := h.granted
  cases x with
  | running i =>
    have hpay := call_pays h.good.fresh (i := i) rfl
    have hout : startsIn (s.step (.running i)).fsm.out = startsIn (runningTick i s.fresh).fsm.out := by
      rw [step_running i h.good]
      rfl
    refine ⟨h.good.step _, (step_left h.good i).1.symm, nofun, ?_, ?_⟩
    · show c.all + startsIn (s.step (.running i)).fsm.out + (τ.call (cue i s)).mode.awaits ≤
        c.granted + (if entersByRequest i s.fresh then 1 else 0) +
          (v.departures + if v.occupied = true ∧ logicIsOccupied i = false then 1 else 0)
      have e1 : (cue i s.fresh) = cue i s := rfl
      have e2 : s.fresh.gPrevOccupied = s.gPrevOccupied := rfl
      rw [e1, e2] at hpay
      rw [hout, h.seen]
      omega
    · show c.granted + (if entersByRequest i s.fresh then 1 else 0) +
        (if (s.step (.running i)).gRemoteCleanRequest = true then 1 else 0) ≤
          v.bursts + (if v.asked = true then 1 else 0) + 0
      by_cases he : entersByRequest i s.fresh
      · obtain ⟨h1, h2⟩ := granted_consumes h.good he
        rw [if_pos h1] at hgranted
        rw [if_pos he, h2]
        exact hgranted
      · rw [if_neg he, step_clean h.good]
        split
        · exact hgranted
        · show c.granted + 0 + 0 ≤ _
          omega
  | requestClean =>
    refine ⟨h.good.step _, h.seen, fun _ => rfl, hall, ?_⟩
    show c.granted + 1 ≤ v.bursts + 1
    by_cases ha : v.asked = true
    · rw [if_pos ha, if_pos (h.asked ha)] at hgranted
      exact hgranted
    · rw [if_neg ha] at hgranted
      omega
  | requestReset => exact ⟨h.good.step _, h.seen, h.asked, hall, hgranted⟩
  | litterTimeout t =>
    obtain ⟨hr, -⟩ := litterTimeout_requests s t
    have hprev : (s.step (.litterTimeout t)).gPrevOccupied = s.gPrevOccupied := by
      show (LitterBox.litterTimeout (tick t) s.fresh).gPrevOccupied = _
      unfold LitterBox.litterTimeout
      split <;> rfl
    have hpay : startsIn (s.step (.litterTimeout t)).fsm.out +
        (τ.after s (.litterTimeout t)).mode.awaits ≤ τ.mode.awaits := by
      unfold startsIn
      rw [litterTimeout_out h.good t, startsIn_hop]
      by_cases hc : τ.mode.state = .cleaning
      · rw [Timed.after_litterTimeout t hc]
        show τ.mode.starts .cleanTimeout + 0 ≤ _
        unfold Mode.starts
        rw [if_neg fun e => nomatch e.2]
        exact Nat.zero_le _
      · rw [Timed.after_litterTimeout_of_ne t hc]
        unfold Mode.starts
        rw [if_neg fun e => e.1 e.2, Nat.zero_add]
    refine ⟨h.good.step _, h.seen.trans hprev.symm, fun ha => hr.trans (h.asked ha), ?_, ?_⟩
    · show c.all + startsIn (s.step (.litterTimeout t)).fsm.out +
        (τ.after s (.litterTimeout t)).mode.awaits ≤ c.granted + 0 + v.departures
      omega
    · show c.granted + 0 + _ ≤ _
      rw [hr]
      exact hgranted

theorem run_paid (g : Gpio) (i0 : Inputs) (l : List Step) :
    Paid (run g i0 l) (timed g i0 l) (starts g i0 l) (visits i0 l) := by
  induction l using List.reverseRecOn with
  | nil =>
    have hm : (timed g i0 []).mode = bootMode (logicIsOccupied i0) (logicIsBinFull i0) := rfl
    have hb : boot g i0 = (sensorLogicInit i0 (coldStart g)).drivePins := rfl
    rw [sensorLogicInit_coldStart] at hb
    refine ⟨run_good g i0 [], ?_, nofun, ?_, ?_⟩
    · show logicIsOccupied i0 = (boot g i0).gPrevOccupied
      rw [hb]
      rfl
    · show 0 + (timed g i0 []).mode.awaits ≤ 0 + 0
      rw [hm]
      cases logicIsOccupied i0 <;> cases logicIsBinFull i0 <;> decide
    · show 0 + (if (boot g i0).gRemoteCleanRequest = true then 1 else 0) ≤ 0 + 0
      rw [hb]
      exact Nat.le_refl 0
  | append_singleton l x ih =>
    rw [run_snoc, timed_snoc, visits_snoc]
    have e : starts g i0 (l ++ [x]) = (starts g i0 l).note (run g i0 l) x :=
      Runs.observe_snoc _ _ _ _ l x
    rw [e]
    exact ih.step x

/-- **Every start has a cause.**  In every run the starts on request are no more than the bursts of
clean requests, and all other starts together no more than the departures from the box. -/
theorem starts_paid (g : Gpio) (i0 : Inputs) (l : List Step) :
    (starts g i0 l).granted ≤ (visits i0 l).bursts ∧
    (starts g i0 l).all ≤ (starts g i0 l).granted + (visits i0 l).departures := by
  have h := run_paid g i0 l
  have hall := h.all
  have hgranted := h.granted
  refine ⟨?_, by omega⟩
  by_cases ha : (visits i0 l).asked = true
  · rw [if_pos ha, if_pos (h.asked ha)] at hgranted
    omega
  · rw [if_neg ha] at hgranted
    omega

-- one departure, then three requests at once
example : starts lowPins (calmAt 0) (leaving ++ [.running (calmAt 2020), .running (calmAt 7020),
    .requestReset, .running (calmAt 7030), .requestClean, .requestClean, .requestClean,
    .running (calmAt 7040), .running (calmAt 7050)]) = ⟨2, 1⟩ := by decide

end LitterBox
