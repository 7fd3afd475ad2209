import LitterBox.Fsm.Modes
import LitterBox.Lib.Debounce
import LitterBox.Logic.Model

/-!
# The hall position is debounced

`logic_hall_poll` keeps the last sample, when the candidate was first seen, and the stable
position.  `hallSamples` are the polls that pass the gate of the sampling period, with their true
times, and `Debounce.debounced` is what the stable position should be after them.

* `Tracked h S t`        what `g_hall_state` keeps of the samples `S`;
* `hall_debounce_exact`  the stable position is the debounced one, after every poll.
-/

namespace LitterBox

open Clock (Paced)
open Debounce (HeldFor debounced since Ordered)

/-! ## samples -/

/-- the poll passes the gate of the sampling period -/
def accepted (i : Inputs) (h : LitterHallState) : Prop :=
  ¬ (h.lastSampleTick ≠ 0 ∧ 0 < rtTickFromMillisecond gHallCfg.samplePeriodMs ∧
    (i.now - h.lastSampleTick).toInt < (rtTickFromMillisecond gHallCfg.samplePeriodMs).toInt)

instance (i : Inputs) (h : LitterHallState) : Decidable (accepted i h) := by
  unfold accepted
  infer_instance

/-- the position decoded from the pins -/
def samplePosition (i : Inputs) : LitterHallPosition :=
  logicHallDecodePosition (logicHallReadActiveBits i)

def hallStep (h : LitterHallState) (i : Inputs) : LitterHallState := (logicHallPoll i h).2.2

/-- `g_hall_state` after `logic_hall_init` and the polls `l` -/
def hallRun (l : List Inputs) : LitterHallState := Runs.run hallStep logicHallInit l

/-- the sample taken by a poll, in front of those before it -/
def noteSample (h : LitterHallState) (i : Inputs) (S : List (Nat × LitterHallPosition)) :
    List (Nat × LitterHallPosition) :=
  if accepted i h then (i.time, samplePosition i) :: S else S

/-- the accepted samples of the polls `l`, newest first -/
def hallSamples (l : List Inputs) : List (Nat × LitterHallPosition) :=
  Runs.observe hallStep noteSample logicHallInit [] l

/-- the debounce time, in ticks -/
def debounceTicks : Nat := 20

theorem samplePosition_ne_unknown (i : Inputs) : samplePosition i ≠ .unknown := by
  unfold samplePosition logicHallDecodePosition
  split
  · decide
  split
  · decide
  split
  · decide
  split <;> decide

/-! ## one poll -/

/-- a poll stopped at the gate -/
theorem logicHallPoll_gate {i : Inputs} {h : LitterHallState} (ha : ¬ accepted i h) :
    logicHallPoll i h = (false, h.stablePosition, h) := by
  unfold logicHallPoll
  dsimp only
  rw [if_pos (not_not.mp ha)]

/-- the fields that every accepted poll sets -/
def sampledState (i : Inputs) (h : LitterHallState) : LitterHallState :=
  { h with
    lastSampleTick := i.now, rawActiveBits := logicHallReadActiveBits i
    rawPosition := samplePosition i }

/-- **a poll that takes a sample** -/
theorem logicHallPoll_accepted {i : Inputs} {h : LitterHallState} (ha : accepted i h) :
    logicHallPoll i h =
      if h.candidatePosition ≠ samplePosition i then
        (false, h.stablePosition, { sampledState i h with
          candidatePosition := samplePosition i, candidateStartedTick := i.now })
      else if h.stablePosition ≠ samplePosition i ∧
          (debounceTicks : Int) ≤ (i.now - h.candidateStartedTick).toInt then
        (true, samplePosition i, { sampledState i h with stablePosition := samplePosition i })
      else (false, h.stablePosition, sampledState i h) := by
  have h20 : (rtTickFromMillisecond gHallCfg.debounceMs).toInt = (debounceTicks : Int) := by decide
  have hne : rtTickFromMillisecond gHallCfg.debounceMs ≠ 0 := by decide
  unfold logicHallPoll
  dsimp only
  rw [if_neg ha]
  simp only [h20, hne, false_or]
  rfl

/-- the result says whether the stable position changed, and the out parameter what it is -/
theorem logicHallPoll_result (i : Inputs) (h : LitterHallState) :
    ((logicHallPoll i h).1 = true ↔
      (logicHallPoll i h).2.2.stablePosition ≠ h.stablePosition) ∧
    (logicHallPoll i h).2.1 = (logicHallPoll i h).2.2.stablePosition := by
  by_cases ha : accepted i h
  · rw [logicHallPoll_accepted ha]
    split
    · exact ⟨⟨fun e => absurd e Bool.false_ne_true, fun e => absurd rfl e⟩, rfl⟩
    split
    next hs => exact ⟨⟨fun _ => hs.1.symm, fun _ => rfl⟩, rfl⟩
    · exact ⟨⟨fun e => absurd e Bool.false_ne_true, fun e => absurd rfl e⟩, rfl⟩
  · rw [logicHallPoll_gate ha]
    exact ⟨⟨fun e => absurd e Bool.false_ne_true, fun e => absurd rfl e⟩, rfl⟩

/-! ## the invariant -/

/-- `g_hall_state` against the last sample `x` and those before it; the next poll is at `t` -/
structure AtSample (h : LitterHallState) (x : Nat × LitterHallPosition)
    (older : List (Nat × LitterHallPosition)) (t : Nat) : Prop where
  last : h.lastSampleTick = tick x.1
  candidate : h.candidatePosition = x.2
  started : h.candidateStartedTick = tick (since x.2 x.1 older)
  ordered : Ordered x.1 older
  le : x.1 ≤ t
  lt : t < x.1 + 10 + 2 ^ 30
  /-- a candidate that is not yet stable is a recent one -/
  recent : h.stablePosition = x.2 ∨ x.1 < since x.2 x.1 older + debounceTicks

/-- **what `g_hall_state` keeps of the samples `S`**, at the time `t` of the next poll -/
structure Tracked (h : LitterHallState) (S : List (Nat × LitterHallPosition)) (t : Nat) : Prop where
  stable : h.stablePosition = debounced debounceTicks .unknown S
  none : S = [] → h.lastSampleTick = 0 ∧ h.candidatePosition = .unknown
  some : ∀ x older, S = x :: older → AtSample h x older t

section poll

variable {h : LitterHallState} {S : List (Nat × LitterHallPosition)} {i : Inputs} {t : Nat}

/-- a poll stopped at the gate comes less than a sampling period after the last sample -/
theorem AtSample.gate {x : Nat × LitterHallPosition} {older : List (Nat × LitterHallPosition)}
    (hx : AtSample h x older i.time) (ha : ¬ accepted i h) : i.time < x.1 + 10 := by
  obtain ⟨-, -, hlt⟩ := not_not.mp ha
  have hlt' : (tick i.time - tick x.1).toInt < 10 := by
    rw [← hx.last]
    exact hlt
  have hle := hx.le
  have hnear := hx.lt
  rw [Clock.toInt_tick_sub hle (by omega)] at hlt'
  omega

/-- the stable position after a sample of the candidate -/
theorem AtSample.held_iff {x : Nat × LitterHallPosition} {older : List (Nat × LitterHallPosition)}
    (hx : AtSample h x older i.time) (hp : x.2 = samplePosition i) :
    HeldFor debounceTicks (i.time, samplePosition i) (x :: older) ↔
      since x.2 x.1 older + debounceTicks ≤ i.time := by
  have hd : 0 < debounceTicks := by decide
  have hiff := Debounce.heldFor_iff (d := debounceTicks) (x := (i.time, samplePosition i))
    (t := i.time) (Debounce.ordered_cons.mpr ⟨hx.le, hx.ordered⟩)
    (show ¬ i.time + debounceTicks ≤ i.time by omega)
  rw [Debounce.since_cons hp] at hiff
  rw [hiff, hp]

/-- the test of the debounce time is exact as long as it is needed -/
theorem AtSample.test_iff {x : Nat × LitterHallPosition} {older : List (Nat × LitterHallPosition)}
    (hx : AtSample h x older i.time) (hs : h.stablePosition ≠ x.2) :
    (debounceTicks : Int) ≤ (i.now - h.candidateStartedTick).toInt ↔
      since x.2 x.1 older + debounceTicks ≤ i.time := by
  have hr := hx.recent.resolve_left hs
  have hle := Debounce.since_le (v := x.2) hx.ordered
  have h1 := hx.le
  have h2 := hx.lt
  have hd : debounceTicks = 20 := rfl
  rw [hx.started]
  show _ ≤ (tick i.time - tick (since x.2 x.1 older)).toInt ↔ _
  rw [Clock.toInt_tick_sub (by omega) (by omega)]
  omega

/-- the state after a sample of another position than the candidate's -/
theorem Tracked.changed (hT : Tracked h S i.time) (hc : h.candidatePosition ≠ samplePosition i)
    (h1 : i.time ≤ t) (h2 : t < i.time + 2 ^ 30) :
    Tracked { sampledState i h with
      candidatePosition := samplePosition i, candidateStartedTick := i.now }
      ((i.time, samplePosition i) :: S) t := by
  have hne : ∀ x older, S = x :: older → x.2 ≠ samplePosition i := by
    intro x older hS e
    exact hc ((hT.some x older hS).candidate.trans e)
  have hsince : since (samplePosition i) i.time S = i.time := by
    cases S with
    | nil => rfl
    | cons x older => exact Debounce.since_cons_of_ne (hne x older rfl)
  have hheld : ¬ HeldFor debounceTicks (i.time, samplePosition i) S := by
    cases S with
    | nil => exact Debounce.heldFor_nil _ _
    | cons x older =>
      rw [Debounce.heldFor_cons]
      exact fun hh => hne x older rfl hh.1
  have hord : Ordered i.time S := by
    cases S with
    | nil => exact List.isChain_singleton _
    | cons x older =>
      have hx := hT.some x older rfl
      exact Debounce.ordered_cons.mpr ⟨hx.le, hx.ordered⟩
  refine ⟨?_, fun e => absurd e (List.cons_ne_nil _ _), fun x older e => ?_⟩
  · rw [Debounce.debounced_not_held hheld]
    exact hT.stable
  · obtain ⟨rfl, rfl⟩ := List.cons.inj e
    refine ⟨rfl, rfl, ?_, hord, h1, by omega, Or.inr ?_⟩
    · rw [hsince]
      rfl
    · rw [hsince]
      exact Nat.lt_add_of_pos_right (by decide)

/-- the state after a sample of the candidate's position; `b` is the stable position then -/
theorem Tracked.same {x : Nat × LitterHallPosition} {older : List (Nat × LitterHallPosition)}
    (hT : Tracked h (x :: older) i.time) (hp : x.2 = samplePosition i) {b : LitterHallPosition}
    (hb : b = debounced debounceTicks .unknown ((i.time, samplePosition i) :: x :: older))
    (hr : b = samplePosition i ∨ i.time < since x.2 x.1 older + debounceTicks)
    (h1 : i.time ≤ t) (h2 : t < i.time + 2 ^ 30) :
    Tracked { sampledState i h with stablePosition := b }
      ((i.time, samplePosition i) :: x :: older) t := by
  have hx := hT.some x older rfl
  have hsince : since (samplePosition i) i.time (x :: older) = since x.2 x.1 older := by
    rw [Debounce.since_cons hp, hp]
  refine ⟨hb, fun e => absurd e (List.cons_ne_nil _ _), fun y l e => ?_⟩
  obtain ⟨rfl, rfl⟩ := List.cons.inj e
  refine ⟨rfl, hx.candidate.trans hp, ?_, Debounce.ordered_cons.mpr ⟨hx.le, hx.ordered⟩, h1,
    by omega, ?_⟩
  · rw [hsince]
    exact hx.started
  · rw [hsince]
    exact hr

/-- **one poll** -/
theorem Tracked.poll (hT : Tracked h S i.time) (h1 : i.time ≤ t) (h2 : t < i.time + 2 ^ 30) :
    Tracked (hallStep h i) (noteSample h i S) t := by
  unfold hallStep noteSample
  by_cases ha : accepted i h
  · rw [if_pos ha, logicHallPoll_accepted ha]
    by_cases hc : h.candidatePosition ≠ samplePosition i
    · rw [if_pos hc]
      exact hT.changed hc h1 h2
    rw [if_neg hc]
    have hc := not_not.mp hc
    cases S with
    | nil => exact absurd ((hT.none rfl).2.symm.trans hc).symm (samplePosition_ne_unknown i)
    | cons x older =>
      have hx := hT.some x older rfl
      have hp : x.2 = samplePosition i := hx.candidate.symm.trans hc
      have hheld := hx.held_iff hp
      by_cases hs : h.stablePosition = samplePosition i
      · rw [if_neg fun hh => hh.1 hs]
        refine hT.same hp (b := h.stablePosition) ?_ (Or.inl hs) h1 h2
        by_cases hh : HeldFor debounceTicks (i.time, samplePosition i) (x :: older)
        · rw [Debounce.debounced_held hh]
          exact hs
        · rw [Debounce.debounced_not_held hh]
          exact hT.stable
      · have htest := hx.test_iff (i := i) (hp ▸ hs)
        by_cases hh : since x.2 x.1 older + debounceTicks ≤ i.time
        · rw [if_pos ⟨hs, htest.mpr hh⟩]
          refine hT.same hp ?_ (Or.inl rfl) h1 h2
          rw [Debounce.debounced_held (hheld.mpr hh)]
        · rw [if_neg fun hn => hh (htest.mp hn.2)]
          refine hT.same hp (b := h.stablePosition) ?_ (Or.inr (Nat.not_le.mp hh)) h1 h2
          rw [Debounce.debounced_not_held (mt hheld.mp hh)]
          exact hT.stable
  · rw [if_neg ha, logicHallPoll_gate ha]
    refine ⟨hT.stable, hT.none, fun x older e => ?_⟩
    have hx := hT.some x older e
    have hgate := hx.gate ha
    exact ⟨hx.last, hx.candidate, hx.started, hx.ordered, Nat.le_trans hx.le h1, by omega,
      hx.recent⟩

end poll

/-! ## runs of polls -/

theorem hallRun_snoc (l : List Inputs) (i : Inputs) : hallRun (l ++ [i]) = hallStep (hallRun l) i :=
  Runs.run_snoc _ _ l i

theorem hallSamples_snoc (l : List Inputs) (i : Inputs) :
    hallSamples (l ++ [i]) = noteSample (hallRun l) i (hallSamples l) :=
  Runs.observe_snoc _ _ _ _ l i

theorem hallRun_tracked (l : List Inputs) (hp : Paced (2 ^ 30) (l.map (·.time))) (t : Nat)
    (ht : Clock.Next (2 ^ 30) (l.map (·.time)) t) : Tracked (hallRun l) (hallSamples l) t := by
  induction l using List.reverseRecOn generalizing t with
  | nil => exact ⟨rfl, fun _ => ⟨rfl, rfl⟩, fun x older e => absurd e.symm (List.cons_ne_nil _ _)⟩
  | append_singleton l i ih =>
    rw [List.map_append, List.map_singleton] at hp ht
    obtain ⟨hp, hn⟩ := Clock.paced_snoc.mp hp
    obtain ⟨h1, h2⟩ := Clock.next_snoc.mp ht
    rw [hallRun_snoc, hallSamples_snoc]
    exact (ih hp i.time hn).poll h1 h2

/-- **`logic_hall_poll` debounces.**  After every poll the stable position and the out parameter are
the debounced value of the samples so far; the result says whether that changed; and samples that
deviate from it for less than the debounce time do not change it. -/
theorem hall_debounce_exact (l : List Inputs) (i : Inputs)
    (hp : Paced (2 ^ 30) ((l ++ [i]).map (·.time))) :
    let S := hallSamples (l ++ [i])
    let r := logicHallPoll i (hallRun l)
    let stable := debounced debounceTicks LitterHallPosition.unknown
    (S = if accepted i (hallRun l) then (i.time, samplePosition i) :: hallSamples l
      else hallSamples l) ∧
    r.2.2.stablePosition = stable S ∧ r.2.1 = stable S ∧
    (r.1 = true ↔ stable S ≠ stable (hallSamples l)) ∧
    (∀ b c, S = b ++ c → (∀ x ∈ b, x.2 ≠ stable c) → (∀ x ∈ b, ∀ y ∈ b, x.1 < y.1 + debounceTicks) →
      (∀ y ∈ c.head?, y.2 = stable c) → r.2.2.stablePosition = stable c) := by
  intro S r stable
  rw [List.map_append, List.map_singleton] at hp
  obtain ⟨hpl, hn⟩ := Clock.paced_snoc.mp hp
  have hT := hallRun_tracked l hpl i.time hn
  have hS : S = noteSample (hallRun l) i (hallSamples l) := hallSamples_snoc l i
  have hstable : r.2.2.stablePosition = stable S := by
    rw [hS]
    exact (hT.poll (Nat.le_refl _) (Nat.lt_add_of_pos_right (by decide))).stable
  obtain ⟨h1, h2⟩ := logicHallPoll_result i (hallRun l)
  refine ⟨hS, hstable, h2.trans hstable, ?_, fun b c e hb hspan hc => ?_⟩
  · rw [← hstable, show stable (hallSamples l) = _ from hT.stable.symm]
    exact h1
  · rw [hstable, e]
    exact Debounce.debounced_glitch hb hspan hc

/-- three samples of the home position; the third one makes it stable -/
theorem hall_debounce_exact_home :
    let at1 := fun t : Nat => (⟨t, .high, 0, .low, .high, .high⟩ : Inputs)
    debounced debounceTicks LitterHallPosition.unknown (hallSamples [at1 100, at1 110, at1 120]) =
      .pos1Home := by
  intro at1
  have h := (hall_debounce_exact [at1 100, at1 110] (at1 120) (by decide)).2.1
  exact h.symm.trans (by decide)

end LitterBox
