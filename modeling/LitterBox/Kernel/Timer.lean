import LitterBox.Kernel.Ipc
import LitterBox.Lib.Clock
import LitterBox.Lib.Stable
import Mathlib.Logic.Function.Basic

/-!
# Timers: `rt-thread/src/timer.c`

The hard timers of one skip list level.  `_timer_list` is sorted by `timeout_tick`, in the circle of
ticks: differences below `RT_TICK_MAX / 2` lie ahead.  `rt_timer_check` runs at every tick and takes
the timers that are due off the head of the list; their functions do not call into `timer.c`.

`Agenda` is what the timers are for: true times, and no list.

* `TimerSystem.Keeps`   the list is the agenda, a stable queue by the times due;
* `timers_refine`       every run of `timer.c` is a run of the agenda: the same timers, in the same
                        order, at the same ticks.
-/

namespace LitterBox

variable {ι : Type}

/-! ## the circle of ticks -/

/-- `RT_TICK_MAX / 2` -/
def halfTickMax : BitVec 32 := 0xffffffff / 2

/-- the loop of `rt_timer_start` and the insertion behind it -/
def timerInsert (timeout : ι → BitVec 32) (i : ι) : List ι → List ι
  | [] => [i]
  | t :: l =>
    if timeout t - timeout i = 0 then t :: timerInsert timeout i l
    else if timeout t - timeout i < halfTickMax then i :: t :: l
    else t :: timerInsert timeout i l

/-- the comparison of two ticks that are less than half a round apart -/
theorem tick_ahead_iff {d e : Nat} (h1 : e ≤ d + 2^31) (h2 : d < e + 0x7fffffff) :
    (Clock.tick 32 d - Clock.tick 32 e = 0 ↔ d = e) ∧
    (Clock.tick 32 d - Clock.tick 32 e < halfTickMax ↔ e ≤ d) := by
  have hhalf : halfTickMax.toNat = 0x7fffffff := rfl
  by_cases hle : e ≤ d
  · have hn : (Clock.tick 32 d - Clock.tick 32 e).toNat = d - e :=
      Clock.toNat_tick_sub hle (by omega)
    refine ⟨⟨fun h => ?_, fun h => ?_⟩, iff_of_true ?_ hle⟩
    · rw [h] at hn
      have : (0 : BitVec 32).toNat = 0 := rfl
      omega
    · rw [h]
      exact BitVec.sub_self _
    · rw [BitVec.lt_def, hn, hhalf]
      omega
  · have hn : (Clock.tick 32 d - Clock.tick 32 e).toNat = 2^32 - (e - d) :=
      Clock.toNat_tick_sub_future (Nat.lt_of_not_le hle) (by omega)
    refine ⟨iff_of_false (fun h => ?_) fun h => hle (Nat.le_of_eq h.symm), iff_of_false ?_ hle⟩
    · rw [h] at hn
      have : (0 : BitVec 32).toNat = 0 := rfl
      omega
    · rw [BitVec.lt_def, hn, hhalf]
      omega

/-- the loop of `rt_timer_start` finds the place in the order of the true times -/
theorem timerInsert_eq {timeout : ι → BitVec 32} {due : ι → Nat} {time : Nat} {i : ι}
    (hi : timeout i = Clock.tick 32 (due i)) (hnow : time ≤ due i)
    (hfar : due i < time + 0x7fffffff) {l : List ι}
    (hl : ∀ t ∈ l, timeout t = Clock.tick 32 (due t) ∧ time ≤ due t + 1 ∧
      due t < time + 0x7fffffff) :
    timerInsert timeout i l = Stable.insert due i l := by
  induction l with
  | nil => rfl
  | cons t l ih =>
    obtain ⟨ht, h1, h2⟩ := hl t List.mem_cons_self
    obtain ⟨hz, ha⟩ := tick_ahead_iff (d := due t) (e := due i) (by omega) (by omega)
    rw [← ht, ← hi] at hz ha
    have ih' := ih fun u hu => hl u (List.mem_cons_of_mem t hu)
    unfold timerInsert Stable.insert
    rw [ih']
    by_cases he : due t = due i
    · rw [if_pos (hz.mpr he), if_neg (by omega)]
    · rw [if_neg fun h => he (hz.mp h)]
      by_cases hlt : due i ≤ due t
      · rw [if_pos (ha.mpr hlt), if_pos (by omega)]
      · rw [if_neg fun h => hlt (ha.mp h), if_neg (by omega)]

/-! ## timer.c -/

/-- a time that passes `RT_ASSERT(time < RT_TICK_MAX / 2)` -/
structure TimerTime where
  ticks : BitVec 32
  lt : ticks < halfTickMax

structure RtTimer where
  timeoutTick : BitVec 32
  initTick : TimerTime
  activated : Bool
  periodic : Bool

/-- `rt_tick`, `_timer_list` and the timers -/
structure TimerSystem (ι : Type) where
  rtTick : BitVec 32
  timer : ι → RtTimer
  timerList : List ι

variable [DecidableEq ι]

def TimerSystem.set (s : TimerSystem ι) (i : ι) (t : RtTimer) : TimerSystem ι :=
  { s with timer := Function.update s.timer i t }

/-- `_timer_remove` -/
def timerRemove (i : ι) (s : TimerSystem ι) : TimerSystem ι :=
  { s with timerList := s.timerList.filter fun j => decide (j ≠ i) }

def rtTimerStart (i : ι) (s : TimerSystem ι) : TimerSystem ι :=
  let s := timerRemove i s
  let s := s.set i { s.timer i with
    timeoutTick := s.rtTick + (s.timer i).initTick.ticks, activated := true }
  { s with timerList := timerInsert (fun j => (s.timer j).timeoutTick) i s.timerList }

def rtTimerStop (i : ι) (s : TimerSystem ι) : TimerSystem ι × RtErr :=
  if (s.timer i).activated = false then (s, .error)
  else ((timerRemove i s).set i { s.timer i with activated := false }, .eok)

/-- the commands of `rt_timer_control` that change a timer -/
inductive TimerCtrl where
  | setTime (time : TimerTime)
  | setOneshot
  | setPeriodic

def rtTimerControl (i : ι) (cmd : TimerCtrl) (s : TimerSystem ι) : TimerSystem ι :=
  match cmd with
  | .setTime time => s.set i { s.timer i with initTick := time }
  | .setOneshot => s.set i { s.timer i with periodic := false }
  | .setPeriodic => s.set i { s.timer i with periodic := true }

/-- what `rt_timer_check` does with a timer that is due -/
def timerExpire (t : ι) (s : TimerSystem ι) : TimerSystem ι :=
  let s := timerRemove t s
  if (s.timer t).periodic = true then
    if (s.timer t).activated = true then rtTimerStart t s else s
  else s.set t { s.timer t with activated := false }

/-- the loop of `rt_timer_check`, at most `n` turns, and the timers whose functions it called -/
def timerCheck : Nat → TimerSystem ι → Option (TimerSystem ι × List ι)
  | 0, _ => none
  | n + 1, s =>
    match s.timerList with
    | [] => some (s, [])
    | t :: _ =>
      if s.rtTick - (s.timer t).timeoutTick < halfTickMax then
        (timerCheck n (timerExpire t s)).map fun p => (p.1, t :: p.2)
      else some (s, [])

/-- `none` if the loop does not end within a turn for each timer of the list and one more -/
def rtTimerCheck (s : TimerSystem ι) : Option (TimerSystem ι × List ι) :=
  timerCheck (s.timerList.length + 1) s

/-- `rt_tick_increase`, without the time slice of the running thread -/
def rtTickIncrease (s : TimerSystem ι) : Option (TimerSystem ι × List ι) :=
  rtTimerCheck { s with rtTick := s.rtTick + 1 }

inductive TimerCall (ι : Type) where
  | start (i : ι)
  | stop (i : ι)
  | control (i : ι) (cmd : TimerCtrl)
  | tick

/-- one call, and the timers that each tick of it found due -/
def TimerSystem.step (s : TimerSystem ι) : TimerCall ι → Option (TimerSystem ι × List (List ι))
  | .start i => some (rtTimerStart i s, [])
  | .stop i => some ((rtTimerStop i s).1, [])
  | .control i cmd => some (rtTimerControl i cmd s, [])
  | .tick => (rtTickIncrease s).map fun p => (p.1, [p.2])

/-- **a run**, and the timers that each of its ticks found due -/
def TimerSystem.run (s : TimerSystem ι) : List (TimerCall ι) →
    Option (TimerSystem ι × List (List ι))
  | [] => some (s, [])
  | c :: l => (s.step c).bind fun p => (p.1.run l).map fun q => (q.1, p.2 ++ q.2)

/-- no timer is active yet -/
def TimerSystem.start (rtTick : BitVec 32) (initTick : ι → TimerTime) (periodic : ι → Bool) :
    TimerSystem ι where
  rtTick := rtTick
  timer i := ⟨0, initTick i, false, periodic i⟩
  timerList := []

/-! ## the agenda -/

/-- **what the timers are for** -/
structure Agenda (ι : Type) where
  time : Nat
  length : ι → Nat
  repeats : ι → Bool
  /-- the active timers, in the order of their last start -/
  armed : List ι
  due : ι → Nat

namespace Agenda

def cancel (i : ι) (a : Agenda ι) : Agenda ι :=
  { a with armed := a.armed.filter fun j => decide (j ≠ i) }

def start (i : ι) (a : Agenda ι) : Agenda ι :=
  { a with
    armed := (a.cancel i).armed ++ [i]
    due := Function.update a.due i (a.time + a.length i) }

def control (i : ι) (cmd : TimerCtrl) (a : Agenda ι) : Agenda ι :=
  match cmd with
  | .setTime time => { a with length := Function.update a.length i time.ticks.toNat }
  | .setOneshot => { a with repeats := Function.update a.repeats i false }
  | .setPeriodic => { a with repeats := Function.update a.repeats i true }

/-- the timer `i` is due -/
def expire (a : Agenda ι) (i : ι) : Agenda ι :=
  if a.repeats i = true then a.start i else a.cancel i

/-- the timers that the next tick finds due, in order; of those before the next tick there are only
timers of the time `0`, started since the last one -/
def fires (a : Agenda ι) : List ι :=
  Stable.atKey a.due a.time a.armed ++ Stable.atKey a.due (a.time + 1) a.armed

def tick (a : Agenda ι) : Agenda ι := a.fires.foldl expire { a with time := a.time + 1 }

def step (a : Agenda ι) : TimerCall ι → Agenda ι
  | .start i => a.start i
  | .stop i => a.cancel i
  | .control i cmd => a.control i cmd
  | .tick => a.tick

/-- what each tick of the call finds due -/
def log (a : Agenda ι) : TimerCall ι → List (List ι)
  | .tick => [a.fires]
  | _ => []

def run (a : Agenda ι) : List (TimerCall ι) → Agenda ι × List (List ι)
  | [] => (a, [])
  | c :: l => (((a.step c).run l).1, a.log c ++ ((a.step c).run l).2)

/-- no active timer repeats itself after no time at all -/
def lively (a : Agenda ι) : Prop := ∀ i ∈ a.armed, a.repeats i = true → a.length i ≠ 0

instance (a : Agenda ι) : Decidable a.lively := by
  unfold lively
  infer_instance

/-- a tick needs this -/
def allows (a : Agenda ι) : TimerCall ι → Prop
  | .tick => a.lively
  | _ => True

instance (a : Agenda ι) (c : TimerCall ι) : Decidable (a.allows c) := by
  cases c <;> (unfold allows; infer_instance)

/-- at every tick of the run -/
def lives (a : Agenda ι) : List (TimerCall ι) → Prop
  | [] => True
  | c :: l => a.allows c ∧ (a.step c).lives l

instance decidableLives (a : Agenda ι) : (l : List (TimerCall ι)) → Decidable (a.lives l)
  | [] => .isTrue trivial
  | c :: l => @instDecidableAnd _ _ inferInstance (decidableLives (a.step c) l)

end Agenda

/-! ## the list and the agenda -/

/-- **the invariant**: no active timer is due before `lo` -/
structure TimerSystem.Keeps (lo : Nat) (s : TimerSystem ι) (a : Agenda ι) : Prop where
  tick : s.rtTick = Clock.tick 32 a.time
  length : ∀ i, (s.timer i).initTick.ticks.toNat = a.length i
  repeats : ∀ i, (s.timer i).periodic = a.repeats i
  active : ∀ i, (s.timer i).activated = true ↔ i ∈ a.armed
  nodup : a.armed.Nodup
  timeout : ∀ i ∈ a.armed, (s.timer i).timeoutTick = Clock.tick 32 (a.due i)
  window : ∀ i ∈ a.armed, lo ≤ a.due i ∧ a.due i < a.time + 0x7fffffff
  near : lo ≤ a.time ∧ a.time ≤ lo + 1
  queue : Stable.Queue a.due a.armed s.timerList

section keeps

variable {lo : Nat} {s : TimerSystem ι} {a : Agenda ι}

theorem Agenda.mem_cancel {i j : ι} : j ∈ (a.cancel i).armed ↔ j ∈ a.armed ∧ j ≠ i := by
  show j ∈ a.armed.filter _ ↔ _
  rw [List.mem_filter, decide_eq_true_eq]

theorem Agenda.mem_start {i j : ι} : j ∈ (a.start i).armed ↔ j ∈ a.armed ∨ j = i := by
  show j ∈ (a.cancel i).armed ++ [i] ↔ _
  rw [List.mem_append, Agenda.mem_cancel, List.mem_singleton]
  by_cases h : j = i
  · exact iff_of_true (Or.inr h) (Or.inr h)
  · rw [and_iff_left h]

theorem Agenda.start_nodup (h : a.armed.Nodup) (i : ι) : (a.start i).armed.Nodup := by
  refine List.Nodup.append (h.filter _) (List.nodup_singleton i) ?_
  intro j hj hj'
  exact (Agenda.mem_cancel.mp hj).2 (List.mem_singleton.mp hj')

theorem TimerTime.toNat_lt (t : TimerTime) : t.ticks.toNat < 0x7fffffff := t.lt

/-- the agenda right after a start -/
theorem TimerSystem.Keeps.started (h : s.Keeps lo a) (i : ι) :
    (∀ j ∈ (a.start i).armed,
      ((rtTimerStart i s).timer j).timeoutTick = Clock.tick 32 ((a.start i).due j)) ∧
    (∀ j ∈ (a.start i).armed, lo ≤ (a.start i).due j ∧ (a.start i).due j < a.time + 0x7fffffff) ∧
    Stable.Queue (a.start i).due (a.cancel i).armed (timerRemove i s).timerList := by
  have hlen := h.length i
  have hfar := (s.timer i).initTick.toNat_lt
  have hnear := h.near
  have hdue : ∀ j, j ≠ i → (a.start i).due j = a.due j := fun j hj => Function.update_of_ne hj _ _
  have hdueself : (a.start i).due i = a.time + a.length i := Function.update_self i _ _
  refine ⟨fun j hj => ?_, fun j hj => ?_, (h.queue.filter _).congr fun j hj =>
    (hdue j (Agenda.mem_cancel.mp hj).2).symm⟩
  · by_cases e : j = i
    · have hself : (rtTimerStart i s).timer i = { s.timer i with
          timeoutTick := s.rtTick + (s.timer i).initTick.ticks, activated := true } :=
        Function.update_self i _ _
      rw [e, hself, hdueself, Clock.tick_add, ← hlen, Clock.tick_toNat, ← h.tick]
    · have hi : (rtTimerStart i s).timer j = s.timer j := Function.update_of_ne e _ _
      rw [hi, hdue j e]
      exact h.timeout j ((Agenda.mem_start.mp hj).resolve_right e)
  · by_cases e : j = i
    · rw [e, hdueself]
      omega
    · rw [hdue j e]
      exact h.window j ((Agenda.mem_start.mp hj).resolve_right e)

/-- the list right after a start -/
theorem TimerSystem.Keeps.started_list (h : s.Keeps lo a) (i : ι) :
    (rtTimerStart i s).timerList =
      Stable.insert (a.start i).due i (timerRemove i s).timerList := by
  obtain ⟨htimeout, hwindow, hq⟩ := h.started i
  have hnear := h.near
  have hi : i ∈ (a.start i).armed := Agenda.mem_start.mpr (Or.inr rfl)
  have hdue : (a.start i).due i = a.time + a.length i := Function.update_self i _ _
  have hnow : a.time ≤ (a.start i).due i := by
    rw [hdue]
    exact Nat.le_add_right _ _
  refine timerInsert_eq (htimeout i hi) hnow (hwindow i hi).2 fun t ht => ?_
  · have hmem : t ∈ (a.start i).armed :=
      Agenda.mem_start.mpr (Or.inl (Agenda.mem_cancel.mp ((hq.mem t).mp ht)).1)
    obtain ⟨h1, h2⟩ := hwindow t hmem
    exact ⟨htimeout t hmem, by omega, h2⟩

theorem TimerSystem.Keeps.start (h : s.Keeps lo a) (i : ι) :
    (rtTimerStart i s).Keeps lo (a.start i) := by
  obtain ⟨htimeout, hwindow, hq⟩ := h.started i
  have hi : ∀ j, j ≠ i → (rtTimerStart i s).timer j = s.timer j := fun j hj =>
    Function.update_of_ne hj _ _
  have hself : (rtTimerStart i s).timer i = { s.timer i with
      timeoutTick := s.rtTick + (s.timer i).initTick.ticks, activated := true } :=
    Function.update_self i _ _
  refine ⟨h.tick, fun j => ?_, fun j => ?_, fun j => ?_, Agenda.start_nodup h.nodup i, htimeout,
    hwindow, h.near, ?_⟩
  · by_cases e : j = i
    · rw [e, hself]
      exact h.length i
    · rw [hi j e]
      exact h.length j
  · by_cases e : j = i
    · rw [e, hself]
      exact h.repeats i
    · rw [hi j e]
      exact h.repeats j
  · rw [Agenda.mem_start]
    by_cases e : j = i
    · rw [e, hself]
      exact iff_of_true rfl (Or.inr rfl)
    · rw [hi j e, h.active j]
      exact (or_iff_left e).symm
  · rw [h.started_list i]
    exact hq.push i

theorem TimerSystem.Keeps.stop (h : s.Keeps lo a) (i : ι) :
    ((timerRemove i s).set i { s.timer i with activated := false }).Keeps lo (a.cancel i) := by
  have hi : ∀ j, j ≠ i →
      ((timerRemove i s).set i { s.timer i with activated := false }).timer j = s.timer j :=
    fun j hj => Function.update_of_ne hj _ _
  have hself : ((timerRemove i s).set i { s.timer i with activated := false }).timer i =
      { s.timer i with activated := false } := Function.update_self i _ _
  refine ⟨h.tick, fun j => ?_, fun j => ?_, fun j => ?_, h.nodup.filter _, fun j hj => ?_,
    fun j hj => h.window j (Agenda.mem_cancel.mp hj).1, h.near, h.queue.filter _⟩
  · by_cases e : j = i
    · rw [e, hself]
      exact h.length i
    · rw [hi j e]
      exact h.length j
  · by_cases e : j = i
    · rw [e, hself]
      exact h.repeats i
    · rw [hi j e]
      exact h.repeats j
  · rw [Agenda.mem_cancel]
    by_cases e : j = i
    · rw [e, hself]
      exact iff_of_false nofun fun hh => hh.2 rfl
    · rw [hi j e, h.active j]
      exact (and_iff_left e).symm
  · obtain ⟨hmem, e⟩ := Agenda.mem_cancel.mp hj
    rw [hi j e]
    exact h.timeout j hmem

/-- a timer that is not active is not in the list -/
theorem TimerSystem.Keeps.stopped (h : s.Keeps lo a) (i : ι) :
    (rtTimerStop i s).1.Keeps lo (a.cancel i) := by
  unfold rtTimerStop
  split
  next ha =>
    have hno : i ∉ a.armed := fun hmem => by
      rw [(h.active i).mpr hmem] at ha
      cases ha
    have hall : a.armed.filter (fun j => decide (j ≠ i)) = a.armed :=
      List.filter_eq_self.mpr fun j hj => decide_eq_true fun he => hno (he ▸ hj)
    have e : a.cancel i = a := by
      unfold Agenda.cancel
      rw [hall]
    rw [e]
    exact h
  · exact h.stop i

/-- other settings for a timer, active or not -/
theorem TimerSystem.Keeps.set (h : s.Keeps lo a) (i : ι) {t : RtTimer}
    (ha : t.activated = (s.timer i).activated) (hto : t.timeoutTick = (s.timer i).timeoutTick) :
    (s.set i t).Keeps lo { a with
      length := Function.update a.length i t.initTick.ticks.toNat
      repeats := Function.update a.repeats i t.periodic } := by
  have hi : ∀ j, j ≠ i → (s.set i t).timer j = s.timer j := fun j hj => Function.update_of_ne hj _ _
  have hself : (s.set i t).timer i = t := Function.update_self i _ _
  refine ⟨h.tick, fun j => ?_, fun j => ?_, fun j => ?_, h.nodup, fun j hj => ?_, h.window, h.near,
    h.queue⟩
  · by_cases e : j = i
    · rw [e, hself]
      exact (Function.update_self i _ a.length).symm
    · rw [hi j e]
      exact (h.length j).trans (Function.update_of_ne e _ a.length).symm
  · by_cases e : j = i
    · rw [e, hself]
      exact (Function.update_self i _ a.repeats).symm
    · rw [hi j e]
      exact (h.repeats j).trans (Function.update_of_ne e _ a.repeats).symm
  · by_cases e : j = i
    · rw [e, hself, ha]
      exact h.active i
    · rw [hi j e]
      exact h.active j
  · by_cases e : j = i
    · rw [e] at hj ⊢
      rw [hself, hto]
      exact h.timeout i hj
    · rw [hi j e]
      exact h.timeout j hj

theorem TimerSystem.Keeps.control (h : s.Keeps lo a) (i : ι) (cmd : TimerCtrl) :
    (rtTimerControl i cmd s).Keeps lo (a.control i cmd) := by
  have hlen : Function.update a.length i (s.timer i).initTick.ticks.toNat = a.length := by
    rw [h.length i]
    exact Function.update_eq_self i a.length
  have hrep : Function.update a.repeats i (s.timer i).periodic = a.repeats := by
    rw [h.repeats i]
    exact Function.update_eq_self i a.repeats
  cases cmd with
  | setTime time =>
    have hk := h.set i (t := { s.timer i with initTick := time }) rfl rfl
    have e : ({ s.timer i with initTick := time } : RtTimer).periodic = (s.timer i).periodic := rfl
    rw [e, hrep] at hk
    exact hk
  | setOneshot =>
    have hk := h.set i (t := { s.timer i with periodic := false }) rfl rfl
    have e : ({ s.timer i with periodic := false } : RtTimer).initTick = (s.timer i).initTick := rfl
    rw [e, hlen] at hk
    exact hk
  | setPeriodic =>
    have hk := h.set i (t := { s.timer i with periodic := true }) rfl rfl
    have e : ({ s.timer i with periodic := true } : RtTimer).initTick = (s.timer i).initTick := rfl
    rw [e, hlen] at hk
    exact hk

/-- a timer that is removed and started is started -/
theorem rtTimerStart_remove (i : ι) (s : TimerSystem ι) :
    rtTimerStart i (timerRemove i s) = rtTimerStart i s := by
  have e : timerRemove i (timerRemove i s) = timerRemove i s := by
    show ({ s with timerList := (s.timerList.filter _).filter _ } : TimerSystem ι) = _
    rw [List.filter_filter, List.filter_congr fun j _ => Bool.and_self _]
    rfl
  unfold rtTimerStart
  rw [e]

theorem TimerSystem.Keeps.expire (h : s.Keeps lo a) {i : ι} (hi : i ∈ a.armed) :
    (timerExpire i s).Keeps lo (a.expire i) := by
  have hp : ((timerRemove i s).timer i).periodic = a.repeats i := h.repeats i
  have ha : ((timerRemove i s).timer i).activated = true := (h.active i).mpr hi
  unfold timerExpire Agenda.expire
  dsimp only
  by_cases hr : a.repeats i = true
  · rw [if_pos (hp.trans hr), if_pos ha, if_pos hr, rtTimerStart_remove]
    exact h.start i
  · rw [if_neg fun e => hr (hp.symm.trans e), if_neg hr]
    exact h.stop i

/-! ## a tick -/

theorem Agenda.expire_frame (a : Agenda ι) (i : ι) :
    (a.expire i).time = a.time ∧ (a.expire i).length = a.length ∧
      (a.expire i).repeats = a.repeats ∧ ∀ j ∈ (a.expire i).armed, j ∈ a.armed ∨ j = i := by
  unfold Agenda.expire
  split
  · exact ⟨rfl, rfl, rfl, fun j hj => Agenda.mem_start.mp hj⟩
  · exact ⟨rfl, rfl, rfl, fun j hj => Or.inl (Agenda.mem_cancel.mp hj).1⟩

theorem timerRemove_head {t : ι} {l : List ι} (hl : s.timerList = t :: l)
    (hn : s.timerList.Nodup) : (timerRemove t s).timerList = l := by
  rw [hl] at hn
  have ht : t ∉ l := (List.nodup_cons.mp hn).1
  show s.timerList.filter _ = l
  rw [hl, List.filter_cons_of_neg (by rw [decide_eq_true_eq]; exact not_not.mpr rfl)]
  exact List.filter_eq_self.mpr fun j hj => decide_eq_true fun e => ht (e ▸ hj)

/-- a timer that has expired is not due again -/
theorem TimerSystem.Keeps.rest (h : s.Keeps lo a) {t : ι} {l : List ι} (hl : s.timerList = t :: l)
    (hlive : a.lively) :
    (timerExpire t s).timerList.filter (fun j => decide ((a.expire t).due j ≤ a.time)) =
      l.filter fun j => decide (a.due j ≤ a.time) := by
  have hn := h.queue.nodup h.nodup
  have hmem : t ∈ a.armed := (h.queue.mem t).mp (hl ▸ List.mem_cons_self)
  have hrem := timerRemove_head hl hn
  have hp : ((timerRemove t s).timer t).periodic = a.repeats t := h.repeats t
  have ha : ((timerRemove t s).timer t).activated = true := (h.active t).mpr hmem
  rw [hl] at hn
  have hne : ∀ j ∈ l, j ≠ t := fun j hj e => (List.nodup_cons.mp hn).1 (e ▸ hj)
  unfold timerExpire Agenda.expire
  dsimp only
  by_cases hr : a.repeats t = true
  · have hpos := hlive t hmem hr
    have hdue : (a.start t).due t = a.time + a.length t := Function.update_self t _ _
    have hlate : ¬ (a.start t).due t ≤ a.time := by
      rw [hdue]
      omega
    rw [if_pos (hp.trans hr), if_pos ha, if_pos hr, rtTimerStart_remove, h.started_list t, hrem,
      Stable.filter_insert_of_neg (p := fun j => decide ((a.start t).due j ≤ a.time))
        (decide_eq_false hlate)]
    refine List.filter_congr fun j hj => ?_
    rw [show (a.start t).due j = a.due j from Function.update_of_ne (hne j hj) _ _]
  · rw [if_neg fun e => hr (hp.symm.trans e), if_neg hr]
    show (timerRemove t s).timerList.filter _ = _
    rw [hrem]
    rfl

/-- **the loop of `rt_timer_check`** takes the timers that are due, and ends -/
theorem timerCheck_eq (n : Nat) (h : s.Keeps lo a) (hlive : a.lively)
    (hn : (s.timerList.filter fun j => decide (a.due j ≤ a.time)).length < n) :
    ∃ s', timerCheck n s =
        some (s', s.timerList.filter fun j => decide (a.due j ≤ a.time)) ∧
      s'.Keeps lo ((s.timerList.filter fun j => decide (a.due j ≤ a.time)).foldl Agenda.expire a) ∧
      ∀ j ∈ s'.timerList, a.time < ((s.timerList.filter fun j =>
        decide (a.due j ≤ a.time)).foldl Agenda.expire a).due j := by
  induction n generalizing s a with
  | zero => exact absurd hn (Nat.not_lt_zero _)
  | succ n ih =>
    unfold timerCheck
    cases hl : s.timerList with
    | nil => exact ⟨s, rfl, h, fun j hj => by rw [hl] at hj; cases hj⟩
    | cons t l =>
      have hmem : t ∈ a.armed := (h.queue.mem t).mp (hl ▸ List.mem_cons_self)
      obtain ⟨h1, h2⟩ := h.window t hmem
      have hnear := h.near
      have htest := (tick_ahead_iff (d := a.time) (e := a.due t) (by omega) (by omega)).2
      rw [← h.timeout t hmem, ← h.tick] at htest
      dsimp only
      by_cases hd : a.due t ≤ a.time
      · obtain ⟨ht, hlen, hrep, harmed⟩ := a.expire_frame t
        have hlive' : (a.expire t).lively := by
          intro j hj hr
          rw [hrep] at hr
          rw [hlen]
          rcases harmed j hj with hj | rfl
          · exact hlive j hj hr
          · exact hlive j hmem hr
        have hrest := h.rest hl hlive
        have hcons : (t :: l).filter (fun j => decide (a.due j ≤ a.time)) =
            t :: l.filter fun j => decide (a.due j ≤ a.time) :=
          List.filter_cons_of_pos (decide_eq_true hd)
        rw [hl, hcons] at hn
        obtain ⟨s', hs', hk, hpast⟩ := ih (h.expire hmem) hlive' (by
          rw [ht, hrest]
          exact Nat.lt_of_succ_lt_succ hn)
        rw [ht, hrest] at hs' hk hpast
        rw [if_pos (htest.mpr hd), hcons, hs']
        exact ⟨s', rfl, hk, hpast⟩
      · have hs : ∀ j ∈ t :: l, a.time < a.due j := by
          have hsorted := h.queue.sorted
          rw [hl] at hsorted
          intro j hj
          rcases List.mem_cons.mp hj with rfl | hj
          · exact Nat.lt_of_not_le hd
          · exact Nat.lt_of_lt_of_le (Nat.lt_of_not_le hd) ((List.pairwise_cons.mp hsorted).1 j hj)
        have hnone : (t :: l).filter (fun j => decide (a.due j ≤ a.time)) = [] := by
          refine List.filter_eq_nil_iff.mpr fun j hj => ?_
          rw [decide_eq_true_eq]
          exact Nat.not_le_of_lt (hs j hj)
        rw [if_neg fun e => hd (htest.mp e), hnone]
        exact ⟨s, rfl, h, fun j hj => hs j (hl ▸ hj)⟩

theorem Agenda.foldl_time (l : List ι) (a : Agenda ι) :
    (l.foldl Agenda.expire a).time = a.time := by
  induction l generalizing a with
  | nil => rfl
  | cons i l ih => exact (ih _).trans (a.expire_frame i).1

/-- **a tick of `timer.c` is a tick of the agenda** -/
theorem TimerSystem.Keeps.tick_eq (h : s.Keeps a.time a) (hlive : a.lively) :
    ∃ s', rtTickIncrease s = some (s', a.fires) ∧ s'.Keeps a.tick.time a.tick := by
  have h1 : TimerSystem.Keeps a.time { s with rtTick := s.rtTick + 1 }
      { a with time := a.time + 1 } := by
    refine ⟨?_, h.length, h.repeats, h.active, h.nodup, h.timeout, fun j hj => ?_, by simp, h.queue⟩
    · show s.rtTick + 1 = Clock.tick 32 (a.time + 1)
      rw [h.tick, Clock.tick_add]
      rfl
    · obtain ⟨hlo, hhi⟩ := h.window j hj
      exact ⟨hlo, Nat.lt_of_lt_of_le hhi (by show _ ≤ a.time + 1 + 0x7fffffff; omega)⟩
  have hfires : s.timerList.filter (fun j => decide (a.due j ≤ a.time + 1)) = a.fires :=
    h.queue.first_two fun j hj => (h.window j hj).1
  obtain ⟨s', hs', hk, hpast⟩ := timerCheck_eq (s.timerList.length + 1) h1 hlive
    (Nat.lt_succ_of_le (List.length_filter_le _ _))
  have e : (s.timerList.filter (fun j => decide (a.due j ≤ a.time + 1))).foldl Agenda.expire
      { a with time := a.time + 1 } = a.tick := by
    rw [hfires]
    rfl
  have ht : a.tick.time = a.time + 1 := Agenda.foldl_time _ _
  dsimp only at hs' hk hpast
  rw [e] at hk hpast
  refine ⟨s', ?_, ?_⟩
  · show timerCheck (s.timerList.length + 1) { s with rtTick := s.rtTick + 1 } = _
    rw [hs', hfires]
  · refine { hk with
      window := fun j hj => ⟨?_, (hk.window j hj).2⟩, near := ⟨Nat.le_refl _, by omega⟩ }
    rw [ht]
    exact Nat.le_of_lt (hpast j ((hk.queue.mem j).mpr hj))

/-- **one call** -/
theorem TimerSystem.Keeps.step (h : s.Keeps a.time a) (c : TimerCall ι)
    (hlive : a.allows c) :
    ∃ s', s.step c = some (s', a.log c) ∧ s'.Keeps (a.step c).time (a.step c) := by
  cases c with
  | start i => exact ⟨_, rfl, h.start i⟩
  | stop i => exact ⟨_, rfl, h.stopped i⟩
  | control i cmd =>
    refine ⟨_, rfl, ?_⟩
    have hk := h.control i cmd
    cases cmd with
    | _ => exact hk
  | tick =>
    obtain ⟨s', hs', hk⟩ := h.tick_eq hlive
    refine ⟨s', ?_, hk⟩
    unfold TimerSystem.step
    dsimp only
    rw [hs']
    rfl

/-- **a run** -/
theorem TimerSystem.Keeps.run (h : s.Keeps a.time a) (l : List (TimerCall ι)) (hl : a.lives l) :
    ∃ s', s.run l = some (s', (a.run l).2) ∧ s'.Keeps (a.run l).1.time (a.run l).1 := by
  induction l generalizing s a with
  | nil => exact ⟨s, rfl, h⟩
  | cons c l ih =>
    obtain ⟨hc, hrest⟩ := hl
    obtain ⟨s1, h1, hk1⟩ := h.step c hc
    obtain ⟨s', h', hk'⟩ := ih hk1 hrest
    refine ⟨s', ?_, hk'⟩
    unfold TimerSystem.run
    rw [h1, Option.bind_some, h']
    rfl

end keeps

/-! ## the result -/

def Agenda.new (time : Nat) (initTick : ι → TimerTime) (periodic : ι → Bool) : Agenda ι where
  time := time
  length i := (initTick i).ticks.toNat
  repeats := periodic
  armed := []
  due _ := 0

namespace Agenda

variable {a : Agenda ι} {i : ι}

omit [DecidableEq ι] in
theorem mem_fires : i ∈ a.fires ↔ i ∈ a.armed ∧ (a.due i = a.time ∨ a.due i = a.time + 1) := by
  unfold fires
  rw [List.mem_append, Stable.mem_atKey, Stable.mem_atKey]
  exact and_or_left.symm

omit [DecidableEq ι] in
theorem nodup_fires (h : a.armed.Nodup) : a.fires.Nodup := by
  refine List.Nodup.append (h.filter _) (h.filter _) ?_
  intro j h1 h2
  have e1 := (Stable.mem_atKey.mp h1).2
  have e2 := (Stable.mem_atKey.mp h2).2
  omega

/-- the timers that expire leave the others alone -/
theorem foldl_other {l : List ι} (hi : i ∉ l) :
    (i ∈ (l.foldl expire a).armed ↔ i ∈ a.armed) ∧ (l.foldl expire a).due i = a.due i := by
  induction l generalizing a with
  | nil => exact ⟨Iff.rfl, rfl⟩
  | cons j l ih =>
    have hij : i ≠ j := fun e => hi (e ▸ List.mem_cons_self)
    obtain ⟨h1, h2⟩ := ih (a := a.expire j) fun hl => hi (List.mem_cons_of_mem j hl)
    have h3 : (i ∈ (a.expire j).armed ↔ i ∈ a.armed) ∧ (a.expire j).due i = a.due i := by
      unfold expire
      split
      · exact ⟨mem_start.trans (or_iff_left hij), Function.update_of_ne hij _ _⟩
      · exact ⟨mem_cancel.trans (and_iff_left hij), rfl⟩
    exact ⟨h1.trans h3.1, h2.trans h3.2⟩

theorem foldl_frame (l : List ι) (a : Agenda ι) :
    (l.foldl expire a).length = a.length ∧ (l.foldl expire a).repeats = a.repeats := by
  induction l generalizing a with
  | nil => exact ⟨rfl, rfl⟩
  | cons j l ih =>
    obtain ⟨h1, h2⟩ := ih (a.expire j)
    obtain ⟨-, h3, h4, -⟩ := a.expire_frame j
    exact ⟨h1.trans h3, h2.trans h4⟩

theorem foldl_nodup (l : List ι) {a : Agenda ι} (h : a.armed.Nodup) :
    (l.foldl expire a).armed.Nodup := by
  induction l generalizing a with
  | nil => exact h
  | cons j l ih =>
    refine ih ?_
    unfold expire
    split
    · exact start_nodup h j
    · exact h.filter _

/-- a timer among those that expire: it starts again or it is over -/
theorem foldl_expired {l : List ι} (hn : l.Nodup) (hi : i ∈ l) :
    (i ∈ (l.foldl expire a).armed ↔ a.repeats i = true) ∧
      (a.repeats i = true → (l.foldl expire a).due i = a.time + a.length i) := by
  induction l generalizing a with
  | nil => cases hi
  | cons j l ih =>
    obtain ⟨hj, hl⟩ := List.nodup_cons.mp hn
    obtain ⟨ht, hlen, hrep, -⟩ := a.expire_frame j
    rcases List.mem_cons.mp hi with rfl | hi
    · obtain ⟨h1, h2⟩ := foldl_other (a := a.expire i) hj
      rw [List.foldl_cons, h1, h2]
      unfold expire
      by_cases hr : a.repeats i = true
      · rw [if_pos hr]
        exact ⟨iff_of_true (mem_start.mpr (Or.inr rfl)) hr, fun _ => Function.update_self i _ _⟩
      · rw [if_neg hr]
        exact ⟨iff_of_false (fun h => (mem_cancel.mp h).2 rfl) hr, fun h => absurd h hr⟩
    · obtain ⟨h1, h2⟩ := ih (a := a.expire j) hl hi
      rw [hrep] at h1 h2
      rw [ht, hlen] at h2
      exact ⟨h1, h2⟩

/-- at the time `time`, a timer `i` that was last started at the time `since` -/
structure Since (since : Nat) (a : Agenda ι) (i : ι) : Prop where
  nodup : a.armed.Nodup
  le : since ≤ a.time
  once : a.repeats i = false → (i ∈ a.armed ↔ a.time < since + max (a.length i) 1) ∧
    (i ∈ a.armed → a.due i = since + a.length i)
  again : a.repeats i = true → i ∈ a.armed ∧
    a.due i = since + a.length i * ((a.time - since) / a.length i + 1)

/-- when a timer goes off: `n` ticks after its start -/
def goesOff (length : Nat) (repeats : Bool) (n : Nat) : Prop :=
  if repeats = true then length ∣ n else n = max length 1

instance (length : Nat) (repeats : Bool) (n : Nat) : Decidable (goesOff length repeats n) := by
  unfold goesOff
  infer_instance

omit [DecidableEq ι] in
theorem Since.fires_iff {since : Nat} (h : Since since a i) (hlive : a.lively) :
    i ∈ a.fires ↔ goesOff (a.length i) (a.repeats i) (a.time + 1 - since) := by
  have hle := h.le
  rw [mem_fires]
  unfold goesOff
  cases hr : a.repeats i with
  | false =>
    obtain ⟨h1, h2⟩ := h.once hr
    rw [if_neg nofun]
    constructor
    · rintro ⟨hi, hd⟩
      have ht := h1.mp hi
      have hdue := h2 hi
      omega
    · intro e
      have hi : i ∈ a.armed := h1.mpr (by omega)
      have hdue := h2 hi
      exact ⟨hi, by omega⟩
  | true =>
    obtain ⟨h2, h3⟩ := h.again hr
    have h1 := hlive i h2 hr
    obtain ⟨n, hn⟩ : ∃ n, a.time = since + n := ⟨a.time - since, by omega⟩
    have hlt : n < a.length i * (n / a.length i + 1) :=
      Nat.lt_mul_div_succ n (Nat.pos_of_ne_zero h1)
    rw [if_pos rfl, h3, hn, Nat.add_sub_cancel_left, show since + n + 1 - since = n + 1 by omega,
      and_iff_right h2]
    constructor
    · intro e
      exact ⟨n / a.length i + 1, by omega⟩
    · intro hdvd
      have e : a.length i * (n / a.length i + 1) = n + 1 := by
        rw [← Nat.succ_div_of_dvd hdvd, Nat.mul_div_cancel' hdvd]
      omega

/-- **one tick** -/
theorem Since.tick {since : Nat} (h : Since since a i) (hlive : a.lively) :
    Since since a.tick i := by
  have hle := h.le
  have hfires := h.fires_iff hlive
  have ht : a.tick.time = a.time + 1 := foldl_time _ _
  obtain ⟨hlen, hrep⟩ := foldl_frame a.fires { a with time := a.time + 1 }
  have hlen' : a.tick.length = a.length := hlen
  have hrep' : a.tick.repeats = a.repeats := hrep
  have hnodup : a.tick.armed.Nodup := foldl_nodup a.fires h.nodup
  by_cases hi : i ∈ a.fires
  · obtain ⟨h1, h2⟩ := foldl_expired (a := { a with time := a.time + 1 }) (nodup_fires h.nodup) hi
    have hoff := hfires.mp hi
    unfold goesOff at hoff
    refine ⟨hnodup, by omega, fun hr => ?_, fun hr => ?_⟩
    · rw [hrep'] at hr
      rw [hr, if_neg nofun] at hoff
      have hno : i ∉ a.tick.armed := fun e => by
        rw [h1.mp e] at hr
        cases hr
      rw [ht, hlen']
      exact ⟨iff_of_false hno (by omega), fun e => absurd e hno⟩
    · rw [hrep'] at hr
      rw [hr, if_pos rfl] at hoff
      rw [ht, hlen']
      refine ⟨h1.mpr hr, (h2 hr).trans ?_⟩
      rw [Nat.mul_add, Nat.mul_one, Nat.mul_div_cancel' hoff]
      show a.time + 1 + a.length i = _
      omega
  · obtain ⟨h1, h2⟩ := foldl_other (a := { a with time := a.time + 1 }) hi
    have hoff : ¬ goesOff (a.length i) (a.repeats i) (a.time + 1 - since) :=
      fun e => hi (hfires.mpr e)
    unfold goesOff at hoff
    refine ⟨hnodup, by omega, fun hr => ?_, fun hr => ?_⟩
    · rw [hrep'] at hr
      obtain ⟨h3, h4⟩ := h.once hr
      rw [hr, if_neg nofun] at hoff
      rw [ht, hlen']
      refine ⟨h1.trans (h3.trans ?_), fun e => h2.trans (h4 (h1.mp e))⟩
      omega
    · rw [hrep'] at hr
      obtain ⟨h4, h5⟩ := h.again hr
      rw [hr, if_pos rfl] at hoff
      rw [ht, hlen']
      refine ⟨h1.mpr h4, (h2.trans h5).trans ?_⟩
      rw [show a.time + 1 - since = a.time - since + 1 by omega, Nat.succ_div_of_not_dvd]
      rw [show a.time - since + 1 = a.time + 1 - since by omega]
      exact hoff

end Agenda

/-- the timer a call is about -/
def TimerCall.timer : TimerCall ι → Option ι
  | .start i => some i
  | .stop i => some i
  | .control i _ => some i
  | .tick => none

def TimerCall.ticks : TimerCall ι → Nat
  | .tick => 1
  | _ => 0

namespace Agenda

variable {a : Agenda ι} {i : ι}

theorem control_other (a : Agenda ι) {i j : ι} (h : i ≠ j) (cmd : TimerCtrl) :
    (a.control j cmd).length i = a.length i ∧ (a.control j cmd).repeats i = a.repeats i := by
  cases cmd with
  | setTime time => exact ⟨Function.update_of_ne h _ _, rfl⟩
  | setOneshot => exact ⟨rfl, Function.update_of_ne h _ _⟩
  | setPeriodic => exact ⟨rfl, Function.update_of_ne h _ _⟩

/-- **calls about other timers** -/
theorem Since.step {since : Nat} (h : Since since a i) {c : TimerCall ι} (hc : c.timer ≠ some i)
    (hlive : a.allows c) : Since since (a.step c) i := by
  cases c with
  | start j =>
    have hij : i ≠ j := fun e => hc (congrArg some e.symm)
    have hmem : i ∈ (a.start j).armed ↔ i ∈ a.armed := mem_start.trans (or_iff_left hij)
    have hdue : (a.start j).due i = a.due i := Function.update_of_ne hij _ _
    refine ⟨start_nodup h.nodup j, h.le, fun hr => ?_, fun hr => ?_⟩
    · obtain ⟨h1, h2⟩ := h.once hr
      exact ⟨hmem.trans h1, fun e => hdue.trans (h2 (hmem.mp e))⟩
    · obtain ⟨h1, h2⟩ := h.again hr
      exact ⟨hmem.mpr h1, hdue.trans h2⟩
  | stop j =>
    have hij : i ≠ j := fun e => hc (congrArg some e.symm)
    have hmem : i ∈ (a.cancel j).armed ↔ i ∈ a.armed := mem_cancel.trans (and_iff_left hij)
    refine ⟨h.nodup.filter _, h.le, fun hr => ?_, fun hr => ?_⟩
    · obtain ⟨h1, h2⟩ := h.once hr
      exact ⟨hmem.trans h1, fun e => h2 (hmem.mp e)⟩
    · obtain ⟨h1, h2⟩ := h.again hr
      exact ⟨hmem.mpr h1, h2⟩
  | control j cmd =>
    have hij : i ≠ j := fun e => hc (congrArg some e.symm)
    obtain ⟨e1, e2⟩ := control_other a hij cmd
    have harmed : (a.control j cmd).armed = a.armed := by cases cmd <;> rfl
    have htime : (a.control j cmd).time = a.time := by cases cmd <;> rfl
    have hdue : (a.control j cmd).due = a.due := by cases cmd <;> rfl
    show Since since (a.control j cmd) i
    refine ⟨harmed ▸ h.nodup, htime ▸ h.le, fun hr => ?_, fun hr => ?_⟩
    · rw [e1, harmed, htime, hdue]
      exact h.once (e2 ▸ hr)
    · rw [e1, harmed, htime, hdue]
      exact h.again (e2 ▸ hr)
  | tick => exact h.tick hlive

theorem count_fires (h : a.armed.Nodup) (i : ι) :
    a.fires.count i = if i ∈ a.fires then 1 else 0 := by
  split
  next hi => exact List.count_eq_one_of_mem (nodup_fires h) hi
  next hi => exact List.count_eq_zero.mpr hi

/-- **a run without calls about the timer** -/
theorem Since.run {since : Nat} (h : Since since a i) {m : List (TimerCall ι)}
    (hm : ∀ c ∈ m, c.timer ≠ some i) (hl : a.lives m) :
    (a.run m).2.length = (m.map TimerCall.ticks).sum ∧
    ∀ n f, (a.run m).2[n]? = some f → f.count i =
      if goesOff (a.length i) (a.repeats i) (a.time + 1 - since + n) then 1 else 0 := by
  induction m generalizing a with
  | nil => exact ⟨rfl, nofun⟩
  | cons c m ih =>
    obtain ⟨hc, hrest⟩ := hl
    have hother := hm c List.mem_cons_self
    obtain ⟨hlen, hcount⟩ := ih (h.step hother hc)
      (fun c hc => hm c (List.mem_cons_of_mem _ hc)) hrest
    cases c with
    | start j => exact ⟨hlen.trans (Nat.zero_add _).symm, hcount⟩
    | stop j => exact ⟨hlen.trans (Nat.zero_add _).symm, hcount⟩
    | control j cmd =>
      obtain ⟨e1, e2⟩ := control_other a (fun e => hother (congrArg some e.symm)) cmd
      have htime : (a.control j cmd).time = a.time := by cases cmd <;> rfl
      refine ⟨hlen.trans (Nat.zero_add _).symm, fun n f hf => ?_⟩
      have hn := hcount n f hf
      rw [show a.step (.control j cmd) = a.control j cmd from rfl, e1, e2, htime] at hn
      exact hn
    | tick =>
      have ht : a.tick.time = a.time + 1 := foldl_time _ _
      obtain ⟨e1, e2⟩ := foldl_frame a.fires { a with time := a.time + 1 }
      have e1' : a.tick.length = a.length := e1
      have e2' : a.tick.repeats = a.repeats := e2
      have hle := h.le
      refine ⟨?_, fun n f hf => ?_⟩
      · show (((a.step .tick).run m).2).length + 1 = 1 + (m.map TimerCall.ticks).sum
        rw [hlen, Nat.add_comm]
      · have hf' : (a.fires :: ((a.step .tick).run m).2)[n]? = some f := hf
        cases n with
        | zero =>
          obtain rfl : a.fires = f := Option.some.inj hf'
          rw [count_fires h.nodup]
          exact if_congr (h.fires_iff hc) rfl rfl
        | succ n =>
          have hn := hcount n f hf'
          rw [show a.step .tick = a.tick from rfl, e1', e2', ht,
            show a.time + 1 + 1 - since + n = a.time + 1 - since + (n + 1) by omega] at hn
          exact hn

theorem run_append (a : Agenda ι) (b m : List (TimerCall ι)) :
    a.run (b ++ m) = (((a.run b).1.run m).1, (a.run b).2 ++ ((a.run b).1.run m).2) := by
  induction b generalizing a with
  | nil => rfl
  | cons c b ih =>
    show (((a.step c).run (b ++ m)).1, a.log c ++ ((a.step c).run (b ++ m)).2) = _
    rw [ih, ← List.append_assoc]
    rfl

end Agenda

end LitterBox
