import LitterBox.Fsm.Modes
import LitterBox.Logic.Model

/-!
# One call read off the levels

`Sensor_Logic_Running` acts on the edges of its samples.  This file says what a call does in terms
of the sampled levels alone, one table for each stage (`Mode.seeFull` … `Mode.poll`), and
`Timed.call` is the whole call.  A `Cue` is what the tables read.

The edges and the levels agree because of three invariants:

* `Mode.fits`     the mode against the samples of the previous call;
* `Mode.mid`      the mode against the flags in the middle of a call;
* `Mode.memory`   the mode against the phase last reported by the hall stage.

`LitterBox.Logic.Call` proves that `logic.c` computes `Timed.call`.
-/

namespace LitterBox

/-! ## the stages -/

/-- what a call reads -/
structure Cue where
  time : Nat
  occ : Bool
  full : Bool
  /-- a clean request is pending -/
  clean : Bool
  /-- a reset request is pending -/
  reset : Bool
  /-- debounced hall position -/
  pos : LitterHallPosition
  deriving DecidableEq, Repr

/-- where the machine rests -/
def rest (occ : Bool) : Mode := if occ then .occupied else .idle

def Mode.seeFull (full : Bool) : Mode → Mode
  | .safeStop => .safeStop
  | .cleanTimeout => .cleanTimeout
  | μ => if full then .binFull else μ

def Mode.seeOccupied (occ : Bool) : Mode → Mode
  | .idle => if occ then .occupied else .idle
  | .occupied => if occ then .occupied else .leaveConfirm
  | .leaveConfirm => if occ then .occupied else .leaveConfirm
  | .cleanDelay => if occ then .occupied else .cleanDelay
  | .cleaning l => if occ then .safeStop else .cleaning l
  | μ => μ

def Mode.takeClean (clean : Bool) : Mode → Mode
  | .idle => if clean then .cleaning .toPos2 else .idle
  | .cleanDelay => if clean then .cleaning .toPos2 else .cleanDelay
  | μ => μ

def Mode.takeReset (reset occ full : Bool) : Mode → Mode
  | .idle => .idle
  | .occupied => .occupied
  | .leaveConfirm => if reset then .idle else .leaveConfirm
  | .cleanDelay => if reset then .idle else .cleanDelay
  | .cleaning l => if reset then .idle else .cleaning l
  | .safeStop => if reset && !occ && !full then .idle else .safeStop
  | .binFull => if reset && !full then rest occ else .binFull
  | .cleanTimeout => if reset && !full then rest occ else .cleanTimeout

/-- the position at which a leg ends -/
def Leg.target : Leg → LitterHallPosition
  | .toPos2 => .pos2Dump
  | .toPos3 => .pos3SandReturn
  | .toPos1 => .pos1Home

/-- the mode after a leg -/
def Leg.next : Leg → Mode
  | .toPos2 => .cleaning .toPos3
  | .toPos3 => .cleaning .toPos1
  | .toPos1 => .idle

def Mode.takeHall (pos : LitterHallPosition) : Mode → Mode
  | .cleaning l => if pos = l.target then l.next else .cleaning l
  | μ => μ

theorem Mode.takeHall_outside {μ : Mode} (pos : LitterHallPosition) (h : μ.state ≠ .cleaning) :
    μ.takeHall pos = μ := by
  cases μ with
  | cleaning l => exact absurd rfl h
  | _ => rfl

def Mode.poll (occ full due late : Bool) : Mode → Mode
  | .idle => .idle
  | .occupied => .occupied
  | .leaveConfirm => if due then .cleanDelay else .leaveConfirm
  | .cleanDelay => if due then .cleaning .toPos2 else .cleanDelay
  | .cleaning l => if late then .cleanTimeout else .cleaning l
  | .safeStop => if occ then .safeStop else if full then .binFull else .leaveConfirm
  | .binFull => if full then .binFull else rest occ
  | .cleanTimeout => .cleanTimeout

/-- a waiting mode goes on until its window is over -/
theorem Mode.poll_waiting {μ : Mode} (h : μ.window ≠ 0) (occ full late : Bool) :
    μ.poll occ full false late = μ := by
  cases μ with
  | leaveConfirm => rfl
  | cleanDelay => rfl
  | _ => exact absurd rfl h

/-! ## the call -/

def Timed.binFull (q : Cue) (τ : Timed) : Timed := τ.goto q.time (τ.mode.seeFull q.full)

def Timed.occupancy (q : Cue) (τ : Timed) : Timed :=
  (τ.binFull q).goto q.time ((τ.binFull q).mode.seeOccupied q.occ)

def Timed.clean (q : Cue) (τ : Timed) : Timed :=
  (τ.occupancy q).goto q.time ((τ.occupancy q).mode.takeClean q.clean)

def Timed.reset (q : Cue) (τ : Timed) : Timed :=
  (τ.clean q).goto q.time ((τ.clean q).mode.takeReset q.reset q.occ q.full)

def Timed.hall (q : Cue) (τ : Timed) : Timed :=
  (τ.reset q).goto q.time ((τ.reset q).mode.takeHall q.pos)

/-- **a call of `Sensor_Logic_Running`** -/
def Timed.call (q : Cue) (τ : Timed) : Timed :=
  (τ.hall q).goto q.time
    ((τ.hall q).mode.poll q.occ q.full ((τ.hall q).due q.time) ((τ.hall q).late q.time))

theorem Timed.hall_mode (q : Cue) (τ : Timed) : (τ.hall q).mode =
    ((((τ.mode.seeFull q.full).seeOccupied q.occ).takeClean q.clean).takeReset
      q.reset q.occ q.full).takeHall q.pos := rfl

/-! ## the invariants -/

/-- **the interlock**: what the mode says about the samples of the call it is left by -/
def Mode.fits (occ full : Bool) : Mode → Prop
  | .idle => occ = false ∧ full = false
  | .occupied => occ = true ∧ full = false
  | .leaveConfirm => occ = false ∧ full = false
  | .cleanDelay => occ = false ∧ full = false
  | .cleaning _ => occ = false ∧ full = false
  | .safeStop => occ = true
  | .binFull => full = true
  | .cleanTimeout => True

/-- the flags with which a call works; protection is decided at its beginning -/
def Mode.flags (occ full : Bool) (μ : Mode) : Flags :=
  ⟨occ, full, occ && (decide (μ.state = .cleaning) || decide (μ.state = .safeStop))⟩

/-- the mode against the flags, from the occupancy stage on -/
def Mode.mid (f : Flags) : Mode → Prop
  | .idle => f.calm
  | .occupied => f.occupied = true ∧ f.binFull = false ∧ f.protect = false
  | .leaveConfirm => f.calm
  | .cleanDelay => f.calm
  | .cleaning _ => f.calm
  | .safeStop => f.protect = f.occupied
  | .binFull => f.protect = true → f.binFull = true
  | .cleanTimeout => f.protect = false

/-- the phase last reported is not the one a cleaning in this mode has still to report -/
def Mode.memory (p : LitterCleanPhase) : Mode → Prop
  | .idle => p = .none ∨ p = .toPos1
  | .occupied => p = .none ∨ p = .toPos1
  | .leaveConfirm => p = .none ∨ p = .toPos1
  | .cleanDelay => p = .none ∨ p = .toPos1
  | .cleaning .toPos2 => p = .none ∨ p = .toPos1
  | .cleaning .toPos3 => p = .toPos2
  | .cleaning .toPos1 => p = .toPos3
  | _ => True

/-! ## the invariants through the stages -/

/-- a full bin seen before is seen again without effect -/
theorem Mode.seeFull_of_fits {μ : Mode} {occ full full' : Bool} (h : μ.fits occ full')
    (hf : full = true → full' = true) : μ.seeFull full = μ := by
  cases full with
  | false => cases μ <;> rfl
  | true =>
    obtain rfl := hf rfl
    cases μ with
    | safeStop => rfl
    | binFull => rfl
    | cleanTimeout => rfl
    | _ => cases h.2

/-- outside FAULT the bin-full stage did nothing, or there was nothing to do -/
theorem Mode.seeFull_not_fault {μ : Mode} {full : Bool} (h : (μ.seeFull full).state ≠ .fault) :
    μ.seeFull full = μ ∧ (full = true → μ = .safeStop) := by
  cases full with
  | false => exact ⟨by cases μ <;> rfl, nofun⟩
  | true =>
    cases μ with
    | safeStop => exact ⟨rfl, fun _ => rfl⟩
    | _ => exact absurd rfl h

/-- a sample of the box that did not change is seen without effect -/
theorem Mode.seeOccupied_of_fits {μ : Mode} {occ full : Bool} (h : μ.fits occ full) :
    μ.seeOccupied occ = μ := by
  cases μ with
  | safeStop => rfl
  | binFull => rfl
  | cleanTimeout => rfl
  | _ =>
    obtain rfl := h.1
    rfl

/-- `Mode.mid` holds once both samples have been seen -/
theorem Mode.mid_seen {μ : Mode} {po pf : Bool} (occ full : Bool) (h : μ.fits po pf) :
    ((μ.seeFull full).seeOccupied occ).mid (μ.flags occ full) := by
  cases μ <;> cases occ <;> cases full <;>
    simp_all [Mode.seeFull, Mode.seeOccupied, Mode.mid, Mode.flags, Mode.state, Flags.calm]

theorem Mode.mid_takeClean {μ : Mode} {f : Flags} (clean : Bool) (h : μ.mid f) :
    (μ.takeClean clean).mid f := by
  cases clean <;> cases μ <;> exact h

theorem Mode.mid_takeReset {μ : Mode} {f : Flags} (reset : Bool) (h : μ.mid f) :
    (μ.takeReset reset f.occupied f.binFull).mid f := by
  obtain ⟨o, b, p⟩ := f
  cases reset <;> cases μ <;> cases o <;> cases b <;> cases p <;>
    simp_all [Mode.takeReset, Mode.mid, Flags.calm, rest]

theorem Mode.mid_takeHall {μ : Mode} {f : Flags} (pos : LitterHallPosition) (h : μ.mid f) :
    (μ.takeHall pos).mid f := by
  cases μ with
  | cleaning l =>
    unfold Mode.takeHall
    dsimp only
    split
    · cases l <;> exact h
    · exact h
  | _ => exact h

/-- the call ends in a mode that fits its samples -/
theorem Mode.fits_poll {μ : Mode} {f : Flags} (due late : Bool) (h : μ.mid f) :
    (μ.poll f.occupied f.binFull due late).fits f.occupied f.binFull := by
  obtain ⟨o, b, p⟩ := f
  cases due <;> cases late <;> cases μ <;> cases o <;> cases b <;>
    simp_all [Mode.poll, Mode.mid, Mode.fits, Flags.calm, rest]

theorem Mode.memory_seen {μ : Mode} {p : LitterCleanPhase} (occ full : Bool) (h : μ.memory p) :
    ((μ.seeFull full).seeOccupied occ).memory p := by
  cases μ with
  | cleaning l =>
    cases occ <;> cases full <;> first | exact h | exact trivial
  | _ => cases occ <;> cases full <;> first | exact h | exact trivial

theorem Mode.memory_takeClean {μ : Mode} {p : LitterCleanPhase} (clean : Bool) (h : μ.memory p) :
    (μ.takeClean clean).memory p := by
  cases clean <;> cases μ <;> exact h

/-! ### no stage but the clean request and the hall stage begins a leg -/

theorem Mode.seeFull_cleaning {μ : Mode} {full : Bool} {l : Leg}
    (h : μ.seeFull full = .cleaning l) : μ = .cleaning l := by
  cases full <;> cases μ <;> first | exact h | cases h

theorem Mode.seeOccupied_cleaning {μ : Mode} {occ : Bool} {l : Leg}
    (h : μ.seeOccupied occ = .cleaning l) : μ = .cleaning l := by
  cases occ <;> cases μ <;> first | exact h | cases h

theorem Mode.takeClean_cleaning {μ : Mode} {clean : Bool} {l : Leg}
    (h : μ.takeClean clean = .cleaning l) :
    μ = .cleaning l ∨ l = .toPos2 ∧ μ.state ≠ .cleaning := by
  cases μ with
  | cleaning l' => exact Or.inl h
  | idle =>
    cases clean with
    | true => exact Or.inr ⟨(Mode.cleaning.inj h).symm, by decide⟩
    | false => cases h
  | cleanDelay =>
    cases clean with
    | true => exact Or.inr ⟨(Mode.cleaning.inj h).symm, by decide⟩
    | false => cases h
  | _ => cases h

theorem Mode.takeReset_cleaning {μ : Mode} {reset occ full : Bool} {l : Leg}
    (h : μ.takeReset reset occ full = .cleaning l) : μ = .cleaning l := by
  cases reset <;> cases occ <;> cases full <;> cases μ <;> first | exact h | cases h

/-- a leg is gone on with, or begun at the target of the one before it -/
theorem Mode.takeHall_cleaning {μ : Mode} {pos : LitterHallPosition} {l : Leg}
    (h : μ.takeHall pos = .cleaning l) :
    μ = .cleaning l ∨ ∃ l', μ = .cleaning l' ∧ pos = l'.target ∧ l'.next = .cleaning l := by
  cases μ with
  | cleaning l' =>
    unfold Mode.takeHall at h
    dsimp only at h
    split at h
    next hp => exact Or.inr ⟨l', rfl, hp, h⟩
    · exact Or.inl h
  | _ => cases h

/-- the poll begins the first leg only, when the clean delay is over -/
theorem Mode.poll_begins {μ : Mode} {occ full due late : Bool} {l : Leg}
    (h : μ.poll occ full due late = .cleaning l) :
    μ = .cleaning l ∨ l = .toPos2 ∧ μ = .cleanDelay := by
  cases μ with
  | cleaning l' =>
    cases late with
    | true => cases h
    | false => exact Or.inl h
  | cleanDelay =>
    cases due with
    | true => exact Or.inr ⟨(Mode.cleaning.inj h).symm, rfl⟩
    | false => cases h
  | _ => cases occ <;> cases full <;> cases due <;> cases h

theorem Leg.phase_target (l : Leg) : logicHallTargetPositionFromPhase l.phase = l.target := by
  cases l <;> rfl

/-- the phase a leg has to report is not the one reported last -/
theorem Mode.memory_ne {l : Leg} {p : LitterCleanPhase} (h : (Mode.cleaning l).memory p) :
    p ≠ l.phase := by
  cases l with
  | toPos2 => rcases h with rfl | rfl <;> nofun
  | toPos3 => rw [show p = .toPos2 from h]; nofun
  | toPos1 => rw [show p = .toPos3 from h]; nofun

/-- having reported a leg, the memory is right for what follows -/
theorem Leg.memory_next (l : Leg) : l.next.memory l.phase := by
  cases l with
  | toPos2 => rfl
  | toPos3 => rfl
  | toPos1 => exact Or.inr rfl

/-- a poll from outside a cleaning, with nothing reported -/
theorem Mode.memory_poll_none {μ : Mode} {occ full due late : Bool} (h : μ.state ≠ .cleaning) :
    (μ.poll occ full due late).memory .none := by
  cases μ with
  | cleaning l => exact absurd rfl h
  | _ =>
    cases occ <;> cases full <;> cases due <;> first | exact Or.inl rfl | exact trivial

theorem Mode.memory_poll {l : Leg} {p : LitterCleanPhase} {occ full due late : Bool}
    (h : (Mode.cleaning l).memory p) : ((Mode.cleaning l).poll occ full due late).memory p := by
  cases late
  · exact h
  · exact trivial

/-! ### FAULT is left for where the machine rests -/

theorem Mode.takeReset_fault {μ : Mode} (h : μ.state = .fault) (reset occ full : Bool) :
    μ.takeReset reset occ full = μ ∨ μ.takeReset reset occ full = rest occ := by
  cases μ with
  | binFull => exact (ite_eq_or_eq _ _ _).symm
  | cleanTimeout => exact (ite_eq_or_eq _ _ _).symm
  | _ => cases h

theorem Mode.poll_fault {μ : Mode} (h : μ.state = .fault) (occ full due late : Bool) :
    μ.poll occ full due late = μ ∨ μ.poll occ full due late = rest occ := by
  cases μ with
  | binFull => exact ite_eq_or_eq _ _ _
  | cleanTimeout => exact Or.inl rfl
  | _ => cases h

theorem rest_state (occ : Bool) : (rest occ).state = .idle ∨ (rest occ).state = .occupied := by
  cases occ with
  | false => exact Or.inl rfl
  | true => exact Or.inr rfl

theorem rest_poll (occ full due late : Bool) : (rest occ).poll occ full due late = rest occ := by
  cases occ <;> rfl

/-! ### IDLE and CLEAN_DELAY go through the stages with nothing to see -/

theorem Mode.seeFull_calm {μ ν : Mode} {full : Bool} (h : μ.seeFull full = ν)
    (hν : ν = .idle ∨ ν = .cleanDelay) : μ = ν ∧ full = false := by
  rcases hν with rfl | rfl
  · cases full <;> cases μ <;> first | exact ⟨rfl, rfl⟩ | cases h
  · cases full <;> cases μ <;> first | exact ⟨rfl, rfl⟩ | cases h

theorem Mode.seeOccupied_calm {μ ν : Mode} {occ : Bool} (h : μ.seeOccupied occ = ν)
    (hν : ν = .idle ∨ ν = .cleanDelay) : μ = ν ∧ occ = false := by
  rcases hν with rfl | rfl
  · cases occ <;> cases μ <;> first | exact ⟨rfl, rfl⟩ | cases h
  · cases occ <;> cases μ <;> first | exact ⟨rfl, rfl⟩ | cases h

/-- a request that begins a cleaning -/
theorem Mode.takeClean_grants {μ : Mode} {clean : Bool} {l : Leg}
    (h : μ.takeClean clean = .cleaning l) (hμ : μ.state ≠ .cleaning) :
    clean = true ∧ (μ = .idle ∨ μ = .cleanDelay) := by
  cases μ with
  | cleaning l => exact absurd rfl hμ
  | idle =>
    cases clean with
    | true => exact ⟨rfl, Or.inl rfl⟩
    | false => cases h
  | cleanDelay =>
    cases clean with
    | true => exact ⟨rfl, Or.inr rfl⟩
    | false => cases h
  | _ => cases h

/-- the stages up to the request begin a cleaning exactly if nothing stands against it -/
theorem Mode.begins_iff {μ : Mode} {occ full clean : Bool} :
    ((μ.seeFull full).seeOccupied occ).state ≠ .cleaning ∧
        (((μ.seeFull full).seeOccupied occ).takeClean clean).state = .cleaning ↔
      clean = true ∧ occ = false ∧ full = false ∧ (μ = .idle ∨ μ = .cleanDelay) := by
  constructor
  · rintro ⟨hne, hs⟩
    obtain ⟨l, hl⟩ := Mode.cleaning_of_state hs
    obtain ⟨hc, hm⟩ := Mode.takeClean_grants hl hne
    obtain ⟨e2, ho⟩ := Mode.seeOccupied_calm rfl hm
    rw [← e2] at hm
    obtain ⟨e1, hf⟩ := Mode.seeFull_calm rfl hm
    rw [← e1] at hm
    exact ⟨hc, ho, hf, hm⟩
  · rintro ⟨rfl, rfl, rfl, rfl | rfl⟩
    · exact ⟨by decide, rfl⟩
    · exact ⟨by decide, rfl⟩

theorem Mode.takeClean_idle {μ : Mode} {clean : Bool} (h : μ.takeClean clean = .idle) :
    μ = .idle := by
  cases clean <;> cases μ <;> first | rfl | cases h

theorem Mode.takeClean_cleanDelay {μ : Mode} {clean : Bool} (h : μ.takeClean clean = .cleanDelay) :
    μ = .cleanDelay ∧ clean = false := by
  cases clean <;> cases μ <;> first | exact ⟨rfl, rfl⟩ | cases h

theorem Mode.takeReset_cleanDelay {μ : Mode} {reset occ full : Bool}
    (h : μ.takeReset reset occ full = .cleanDelay) : μ = .cleanDelay ∧ reset = false := by
  cases reset <;> cases occ <;> cases full <;> cases μ <;> first | exact ⟨rfl, rfl⟩ | cases h

/-! ### a waiting mode was there before the stage, or the box was just left -/

theorem Mode.seeFull_waiting {μ : Mode} {full : Bool} (h : (μ.seeFull full).window ≠ 0) :
    μ.seeFull full = μ := by
  cases full <;> cases μ <;> first | rfl | exact absurd rfl h

theorem Mode.seeFull_occupied {μ : Mode} {full : Bool} (h : μ.seeFull full = .occupied) :
    μ = .occupied ∧ full = false := by
  cases full <;> cases μ <;> first | exact ⟨rfl, rfl⟩ | cases h

theorem Mode.seeOccupied_waiting {μ : Mode} {occ : Bool} (h : (μ.seeOccupied occ).window ≠ 0) :
    μ.seeOccupied occ = μ ∨ μ = .occupied ∧ occ = false := by
  cases μ with
  | occupied =>
    cases occ with
    | true => exact Or.inl rfl
    | false => exact Or.inr ⟨rfl, rfl⟩
  | _ => cases occ <;> first | exact Or.inl rfl | exact absurd rfl h

theorem Mode.takeClean_waiting {μ : Mode} {clean : Bool} (h : (μ.takeClean clean).window ≠ 0) :
    μ.takeClean clean = μ := by
  cases clean <;> cases μ <;> first | rfl | exact absurd rfl h

theorem Mode.takeReset_waiting {μ : Mode} {reset occ full : Bool}
    (h : (μ.takeReset reset occ full).window ≠ 0) : μ.takeReset reset occ full = μ := by
  cases reset <;> cases occ <;> cases full <;> cases μ <;> first | rfl | exact absurd rfl h

/-! ### CLEAN_TIMEOUT comes from a cleaning that is late -/

theorem Mode.seeFull_cleanTimeout {μ : Mode} {full : Bool} (h : μ.seeFull full = .cleanTimeout) :
    μ = .cleanTimeout := by
  cases full <;> cases μ <;> first | rfl | cases h

theorem Mode.seeOccupied_cleanTimeout {μ : Mode} {occ : Bool}
    (h : μ.seeOccupied occ = .cleanTimeout) : μ = .cleanTimeout := by
  cases occ <;> cases μ <;> first | rfl | cases h

theorem Mode.takeClean_cleanTimeout {μ : Mode} {clean : Bool}
    (h : μ.takeClean clean = .cleanTimeout) : μ = .cleanTimeout := by
  cases clean <;> cases μ <;> first | rfl | cases h

theorem Mode.takeReset_cleanTimeout {μ : Mode} {reset occ full : Bool}
    (h : μ.takeReset reset occ full = .cleanTimeout) : μ = .cleanTimeout := by
  cases reset <;> cases occ <;> cases full <;> cases μ <;> first | rfl | cases h

theorem Mode.takeHall_cleanTimeout {μ : Mode} {pos : LitterHallPosition}
    (h : μ.takeHall pos = .cleanTimeout) : μ = .cleanTimeout := by
  cases μ with
  | cleaning l =>
    unfold Mode.takeHall at h
    dsimp only at h
    split at h
    · cases l <;> cases h
    · cases h
  | _ => exact h

/-- the poll leads there from a cleaning that is late -/
theorem Mode.poll_cleanTimeout {μ : Mode} {occ full due : Bool}
    (h : μ.poll occ full due false = .cleanTimeout) : μ = .cleanTimeout := by
  cases occ <;> cases full <;> cases due <;> cases μ <;> first | rfl | cases h

theorem Mode.fault_cleanTimeout {μ : Mode} : μ.fault = .cleanTimeout ↔ μ = .cleanTimeout := by
  cases μ <;> simp [Mode.fault]

end LitterBox
