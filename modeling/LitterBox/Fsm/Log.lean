import LitterBox.Fsm.Modes

/-!
# Reading the log

The log of `Fsm` is read in four ways: the state changes (`moves`), the legs begun (`phases`),
the last command given to the motor (`lastMotor`), and whether the motor is only started as it
should be (`Out.startOk`, `Settled`).

`Logged armed μ μ' l l'`: the code that took the machine from mode `μ` to mode `μ'` extended the
log from `l` to `l'` and did so properly.  Quiet lines (`Act.quiet`) are logged without a change
of mode, and `Logged.trans` puts them in front of a real step.
-/

namespace LitterBox

/-! ## readers -/

def Act.moves : Act → List (LitterFsmState × LitterFsmState)
  | .move a b => [(a, b)]
  | _ => []

def Act.phases : Act → List LitterCleanPhase
  | .phase p => [p]
  | _ => []

def Act.motor : Act → Option Motor
  | .motorForwardStart => some .forward
  | .motorReverseStart => some .reverse
  | .motorStop => some .stop
  | _ => none

/-- every state change of the log, newest first -/
def moves (l : List Out) : List (LitterFsmState × LitterFsmState) := l.flatMap (·.act.moves)

/-- every leg begun, newest first -/
def phases (l : List Out) : List LitterCleanPhase := l.flatMap (·.act.phases)

/-- the last motor command of the log, `d` if there is none -/
def lastMotor (d : Motor) : List Out → Motor
  | [] => d
  | o :: l => (o.act.motor).getD (lastMotor d l)

/-- a line that neither changes the state, nor begins a leg, nor drives the motor -/
def Act.quiet (a : Act) : Prop := a.moves = [] ∧ a.phases = [] ∧ a.motor = none

theorem moves_cons (o : Out) (l : List Out) : moves (o :: l) = o.act.moves ++ moves l := rfl
theorem phases_cons (o : Out) (l : List Out) : phases (o :: l) = o.act.phases ++ phases l := rfl
theorem lastMotor_cons (d : Motor) (o : Out) (l : List Out) :
    lastMotor d (o :: l) = (o.act.motor).getD (lastMotor d l) := rfl

/-! ## starting the motor -/

/-- the input flags of a context -/
def LitterFsmCtx.flags (c : LitterFsmCtx) : Flags := ⟨c.occupied, c.binFull, c.protectActive⟩

/-- a motor start is given while CLEANING, and the first leg of a cleaning is started only when
nothing speaks against it -/
def Out.startOk (o : Out) : Prop :=
  o.act.motor = some .forward ∨ o.act.motor = some .reverse →
    o.ctx.state = .cleaning ∧ (o.ctx.cleanPhase = .toPos2 → o.ctx.flags.calm)

/-- a line that does not drive the motor -/
theorem startOk_quiet {o : Out} (h : o.act.motor = none) : o.startOk := by
  rintro (e | e) <;> rw [h] at e <;> cases e

theorem startOk_stop {o : Out} (h : o.act.motor = some .stop) : o.startOk := by
  rintro (e | e) <;> rw [h] at e <;> cases e

theorem startOk_cons {o : Out} {l : List Out} (ho : o.startOk) (h : ∀ o ∈ l, o.startOk) :
    ∀ o' ∈ o :: l, o'.startOk := by
  intro o' ho'
  rcases List.mem_cons.mp ho' with e | e
  · rw [e]; exact ho
  · exact h o' e

/-- the line enters CLEANING -/
def Out.begins (o : Out) : Prop := ∃ a, o.act = .move a .cleaning

/-- the line starts the motor for a new cleaning, with all flags down -/
def Out.starts (o : Out) : Prop := o.act = .motorForwardStart ∧ o.ctx.flags.calm

/-- every entry into CLEANING is followed at once by the start of the motor -/
inductive Settled : List Out → Prop where
  | nil : Settled []
  | cons {o : Out} {l : List Out} : ¬ o.begins → Settled l → Settled (o :: l)
  | start {o e : Out} {l : List Out} : o.starts → Settled l → Settled (o :: e :: l)

theorem not_begins_of_moves {o : Out} (h : o.act.moves = []) : ¬ o.begins := by
  rintro ⟨a, ha⟩
  rw [ha] at h
  cases h

/-- what `Settled` says at any entry into CLEANING -/
theorem Settled.start_of {l : List Out} (h : Settled l) {pre post : List Out} {e : Out}
    (hl : l = pre ++ e :: post) (he : e.begins) : ∃ pre' o, pre = pre' ++ [o] ∧ o.starts := by
  induction h generalizing pre with
  | nil => exact absurd hl (by simp)
  | @cons o l ho _ ih =>
    cases pre with
    | nil =>
      rw [List.nil_append] at hl
      rw [(List.cons.inj hl).1] at ho
      exact absurd he ho
    | cons p pre =>
      obtain ⟨pre', o', hp, hs⟩ := ih (List.cons.inj hl).2
      exact ⟨p :: pre', o', by rw [hp]; rfl, hs⟩
  | @start o e' l ho _ ih =>
    cases pre with
    | nil =>
      rw [List.nil_append] at hl
      obtain ⟨a, ha⟩ := he
      rw [(List.cons.inj hl).1, Out.starts, ha] at ho
      exact absurd ho.1 (by simp)
    | cons p pre =>
      have hl2 : e' :: l = pre ++ e :: post := (List.cons.inj hl).2
      have hp0 : o = p := (List.cons.inj hl).1
      cases pre with
      | nil => exact ⟨[], p, rfl, hp0 ▸ ho⟩
      | cons q pre =>
        obtain ⟨pre', o', hp, hs⟩ := ih (List.cons.inj hl2).2
        exact ⟨p :: q :: pre', o', by rw [hp]; rfl, hs⟩

/-! ## a step and its log -/

/-- the state changes between two modes: none or one -/
def Mode.hop (μ μ' : Mode) : List (LitterFsmState × LitterFsmState) :=
  if μ.state = μ'.state then [] else [(μ.state, μ'.state)]

/-- the legs begun between two modes: none or one -/
def Mode.legHop (μ μ' : Mode) : List LitterCleanPhase :=
  match μ' with
  | .cleaning l => if μ = .cleaning l then [] else [l.phase]
  | _ => []

theorem Mode.hop_self (μ : Mode) : μ.hop μ = [] := by
  simp [Mode.hop]

theorem Mode.hop_of_eq {μ μ' : Mode} (h : μ.state = μ'.state) : μ.hop μ' = [] := if_pos h

theorem Mode.hop_of_ne {μ μ' : Mode} (h : μ.state ≠ μ'.state) :
    μ.hop μ' = [(μ.state, μ'.state)] := if_neg h

theorem Mode.legHop_self (μ : Mode) : μ.legHop μ = [] := by
  cases μ <;> simp [Mode.legHop]

theorem Mode.legHop_leg {μ : Mode} {l : Leg} (h : μ ≠ .cleaning l) :
    μ.legHop (.cleaning l) = [l.phase] := if_neg h

/-- all entries of the ops table are there -/
def LitterFsmCtx.armed (c : LitterFsmCtx) : Prop := c.ops = some ⟨true, true, true, true⟩

/-- the log grew from `l` to `l'` while the mode went from `μ` to `μ'`; a change of state gives the
motor a command whatever it did before, and a start is only given for a new mode -/
structure Logged (armed : Prop) (μ μ' : Mode) (l l' : List Out) : Prop where
  moves_eq : moves l' = μ.hop μ' ++ moves l
  phases_eq : phases l' = μ.legHop μ' ++ phases l
  motor : armed → ∀ d, (μ.state = μ'.state → lastMotor d l = μ.drive) → lastMotor d l' = μ'.drive
  given : ∀ o ∈ l', o ∈ l ∨ ∀ x, o.act.motor = some x → x = .stop ∨ μ ≠ μ' ∧ x = μ'.drive
  starts : (∀ o ∈ l, o.startOk) → ∀ o ∈ l', o.startOk
  settled : armed → Settled l → Settled l'

theorem given_cons {P : Motor → Prop} {o : Out} {l l1 : List Out}
    (ho : ∀ x, o.act.motor = some x → P x)
    (h : ∀ o' ∈ l1, o' ∈ l ∨ ∀ x, o'.act.motor = some x → P x) :
    ∀ o' ∈ o :: l1, o' ∈ l ∨ ∀ x, o'.act.motor = some x → P x := by
  intro o' ho'
  rcases List.mem_cons.mp ho' with e | e
  · rw [e]; exact Or.inr ho
  · exact h o' e

theorem given_quiet {P : Motor → Prop} {o : Out} {l l1 : List Out} (ho : o.act.motor = none)
    (h : ∀ o' ∈ l1, o' ∈ l ∨ ∀ x, o'.act.motor = some x → P x) :
    ∀ o' ∈ o :: l1, o' ∈ l ∨ ∀ x, o'.act.motor = some x → P x := by
  refine given_cons (fun x hx => ?_) h
  rw [ho] at hx
  cases hx

theorem Logged.refl (armed : Prop) (μ : Mode) (l : List Out) : Logged armed μ μ l l where
  moves_eq := by rw [Mode.hop_self, List.nil_append]
  phases_eq := by rw [Mode.legHop_self, List.nil_append]
  motor := fun _ _ h => h rfl
  given := fun _ h => Or.inl h
  starts := fun h => h
  settled := fun _ h => h

/-- quiet lines in front of a step -/
theorem Logged.trans {armed : Prop} {μ μ' : Mode} {l l1 l2 : List Out}
    (h1 : Logged armed μ μ l l1) (h2 : Logged armed μ μ' l1 l2) : Logged armed μ μ' l l2 where
  moves_eq := by
    rw [h2.moves_eq, h1.moves_eq, Mode.hop_self, List.nil_append]
  phases_eq := by
    rw [h2.phases_eq, h1.phases_eq, Mode.legHop_self, List.nil_append]
  motor := fun ha d h => h2.motor ha d fun e => h1.motor ha d fun _ => h e
  given := fun o ho => by
    rcases h2.given o ho with h | h
    · rcases h1.given o h with h | h
      · exact Or.inl h
      · exact Or.inr fun x hx => (h x hx).imp id fun e => absurd rfl e.1
    · exact Or.inr h
  starts := fun h => h2.starts (h1.starts h)
  settled := fun ha h => h2.settled ha (h1.settled ha h)

/-- quiet lines behind a step -/
theorem Logged.trans' {armed : Prop} {μ μ' : Mode} {l l1 l2 : List Out}
    (h1 : Logged armed μ μ' l l1) (h2 : Logged armed μ' μ' l1 l2) : Logged armed μ μ' l l2 where
  moves_eq := by
    rw [h2.moves_eq, h1.moves_eq, Mode.hop_self, List.nil_append]
  phases_eq := by
    rw [h2.phases_eq, h1.phases_eq, Mode.legHop_self, List.nil_append]
  motor := fun ha d h => h2.motor ha d fun _ => h1.motor ha d h
  given := fun o ho => by
    rcases h2.given o ho with h | h
    · exact h1.given o h
    · exact Or.inr fun x hx => (h x hx).imp id fun e => absurd rfl e.1
  starts := fun h => h2.starts (h1.starts h)
  settled := fun ha h => h2.settled ha (h1.settled ha h)

theorem Logged.quiet {armed : Prop} {μ : Mode} {a : Act} (ha : a.quiet) (c : LitterFsmCtx)
    (l : List Out) : Logged armed μ μ l (⟨a, c⟩ :: l) where
  moves_eq := by
    rw [moves_cons, ha.1, Mode.hop_self]
  phases_eq := by
    rw [phases_cons, ha.2.1, Mode.legHop_self]
  motor := fun _ d h => by
    rw [lastMotor_cons, ha.2.2]
    exact h rfl
  given := given_quiet ha.2.2 fun _ h => Or.inl h
  starts := startOk_cons (startOk_quiet ha.2.2)
  settled := fun _ h => .cons (not_begins_of_moves ha.1) h

/-- a stop command when the motor is stopped already -/
theorem Logged.stop {armed : Prop} {μ : Mode} (hμ : μ.drive = .stop) (c : LitterFsmCtx)
    (l : List Out) : Logged armed μ μ l (⟨.motorStop, c⟩ :: l) where
  moves_eq := by
    rw [Mode.hop_self]
    rfl
  phases_eq := by
    rw [Mode.legHop_self]
    rfl
  motor := fun _ _ _ => hμ.symm
  given := given_cons (fun _ h => Or.inl (Option.some.inj h).symm) fun _ h => Or.inl h
  starts := startOk_cons (startOk_stop rfl)
  settled := fun _ h => .cons (not_begins_of_moves rfl) h

/-- a stop command just before the state is left -/
theorem Logged.after_stop {armed : Prop} {μ μ' : Mode} (hne : μ.state ≠ μ'.state)
    {c : LitterFsmCtx} {l l' : List Out} (h : Logged armed μ μ' (⟨.motorStop, c⟩ :: l) l') :
    Logged armed μ μ' l l' where
  moves_eq := h.moves_eq
  phases_eq := h.phases_eq
  motor := fun ha d _ => h.motor ha d fun e => absurd e hne
  given := fun o ho => by
    rcases h.given o ho with h | h
    · rcases List.mem_cons.mp h with e | e
      · rw [e]; exact Or.inr fun _ h => Or.inl (Option.some.inj h).symm
      · exact Or.inl e
    · exact Or.inr h
  starts := fun hl => h.starts (startOk_cons (startOk_stop rfl) hl)
  settled := fun ha hl => h.settled ha (.cons (not_begins_of_moves rfl) hl)

end LitterBox
