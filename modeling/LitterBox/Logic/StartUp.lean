import LitterBox.Logic.Reach

/-!
# Two threads at start-up

`start_rt_thread` runs `Sensor_Logic_Init` and starts the control thread; after that `main` goes on
with pin configurations of its own, among them those of the motor pins, which
`Sensor_Logic_Init` has configured already.  A `Turn` is one `rt_pin_mode` of `main` or one call
into `logic.c`.

Configuring an output writes its latch low.  `pins_agree_iff` says for every interleaving whether
the motor pins go with the state machine after every turn.
-/

namespace LitterBox

/-! ## the interleaving -/

def ledGreenPin : Nat := getPin 3 4

/-- the calls of `rt_pin_mode` in `main`, in their order -/
def mainPins : List (Nat × PinMode) :=
  [(ledGreenPin, .output), (hongwaiPin, .input), (in1, .output), (in2, .output), (buzzer, .output),
    (o3, .output)]

/-- whose turn it is, and for the control thread what it does -/
inductive Turn where
  | main
  | logic (x : Step)
  deriving DecidableEq, Repr

/-- the state of the logic, and what `main` has still to configure -/
structure StartUp where
  logic : Logic
  todo : List (Nat × PinMode)

def StartUp.turn (p : StartUp) : Turn → StartUp
  | .main =>
    match p.todo with
    | [] => p
    | (pin, mode) :: rest =>
      ⟨{ p.logic with gpio := hc32PinMode pin mode p.logic.gpio }, rest⟩
  | .logic x => { p with logic := p.logic.step x }

/-- after `start_rt_thread`, the turns `l` -/
def startUp (g : Gpio) (i0 : Inputs) (l : List Turn) : StartUp :=
  Runs.run StartUp.turn ⟨boot g i0, mainPins⟩ l

theorem startUp_snoc (g : Gpio) (i0 : Inputs) (l : List Turn) (x : Turn) :
    startUp g i0 (l ++ [x]) = (startUp g i0 l).turn x :=
  Runs.run_snoc _ _ l x

/-! ## pins and states -/

/-- the levels (IN1, IN2) that go with a context -/
def motorLevels (c : LitterFsmCtx) : Level × Level :=
  if c.state = .cleaning then
    match c.cleanPhase with
    | .toPos2 => (.low, .high)
    | .toPos1 => (.low, .high)
    | .toPos3 => (.high, .low)
    | .none => (.low, .low)
  else (.low, .low)

/-- the motor pins go with the state machine -/
def Logic.pinsAgree (s : Logic) : Prop :=
  s.gpio.driven in1 = some (motorLevels s.fsm.ctx).1 ∧
    s.gpio.driven in2 = some (motorLevels s.fsm.ctx).2

/-- configuring the pin takes a level away that the motor needs -/
def disturbs (c : LitterFsmCtx) (pin : Nat) : Prop :=
  c.state = .cleaning ∧
    (pin = in1 ∧ c.cleanPhase = .toPos3 ∨
      pin = in2 ∧ (c.cleanPhase = .toPos2 ∨ c.cleanPhase = .toPos1))

theorem Shows.motorLevels {c : LitterFsmCtx} {τ : Timed} (h : Shows c τ) :
    motorLevels c = τ.mode.drive.levels := by
  unfold LitterBox.motorLevels
  rw [h.state, h.phase]
  cases τ.mode with
  | cleaning l => cases l <;> rfl
  | _ => rfl

theorem Good.pinsAgree {s : Logic} {τ : Timed} (h : Good s τ) : s.pinsAgree := by
  unfold Logic.pinsAgree
  rw [h.shows.motorLevels]
  exact h.pins

theorem disturbs_in1 (c : LitterFsmCtx) : disturbs c in1 ↔ (motorLevels c).1 = .high := by
  have hne : in1 ≠ in2 := by decide
  unfold disturbs motorLevels
  cases c.state <;> cases c.cleanPhase <;> simp [hne]

theorem disturbs_in2 (c : LitterFsmCtx) : disturbs c in2 ↔ (motorLevels c).2 = .high := by
  have hne : in2 ≠ in1 := by decide
  unfold disturbs motorLevels
  cases c.state <;> cases c.cleanPhase <;> simp [hne]

/-! ## the turns of main -/

theorem Level.low_of_ne {v : Level} (h : v ≠ .high) : v = .low := by
  cases v with
  | low => rfl
  | high => exact absurd rfl h

theorem startUp_todo (g : Gpio) (i0 : Inputs) (l : List Turn) :
    (startUp g i0 l).todo <:+ mainPins := by
  refine Runs.run_inv (I := fun (p : StartUp) => p.todo <:+ mainPins) (fun p x h => ?_)
    (List.suffix_refl _) l
  cases x with
  | logic x => exact h
  | main =>
    unfold StartUp.turn
    cases ht : p.todo with
    | nil => rw [ht]; exact List.nil_suffix
    | cons pm rest =>
      rw [ht] at h
      exact (List.suffix_cons pm rest).trans h

theorem mainPins_output {pm : Nat × PinMode} (h : pm ∈ mainPins) (hp : pm.1 = in1 ∨ pm.1 = in2) :
    pm.2 = .output := by
  revert pm
  decide

theorem driven_config (g : Gpio) {pm : Nat × PinMode} (h : pm ∈ mainPins) {q : Nat}
    (hq : q = in1 ∨ q = in2) :
    (hc32PinMode pm.1 pm.2 g).driven q = if pm.1 = q then some .low else g.driven q := by
  by_cases hp : pm.1 = q
  · have hlt : q < pinMaxNum := by rcases hq with rfl | rfl <;> decide
    rw [if_pos hp, mainPins_output h (hp ▸ hq), hp]
    exact hc32PinMode_output g hlt
  · rw [if_neg hp]
    exact hc32PinMode_driven_of_ne g pm.2 fun e => hp e.symm

/-- a turn of main that disturbs nothing keeps the invariant -/
theorem Good.config {s : Logic} {τ : Timed} (h : Good s τ) {pm : Nat × PinMode}
    (hm : pm ∈ mainPins) (hd : ¬ disturbs s.fsm.ctx pm.1) :
    Good { s with gpio := hc32PinMode pm.1 pm.2 s.gpio } τ := by
  refine ⟨h.ready, h.shows, h.armed, h.fits, h.memory, ?_⟩
  obtain ⟨h1, h2⟩ := h.pins
  have hlev := h.shows.motorLevels
  constructor
  · rw [driven_config _ hm (Or.inl rfl)]
    split
    next hp =>
      rw [hp, disturbs_in1, hlev] at hd
      rw [Level.low_of_ne hd]
    · exact h1
  · rw [driven_config _ hm (Or.inr rfl)]
    split
    next hp =>
      rw [hp, disturbs_in2, hlev] at hd
      rw [Level.low_of_ne hd]
    · exact h2

/-- a turn of main that disturbs the motor leaves its pins wrong -/
theorem config_disagrees {s : Logic} {pm : Nat × PinMode} (hm : pm ∈ mainPins)
    (hd : disturbs s.fsm.ctx pm.1) :
    ¬ ({ s with gpio := hc32PinMode pm.1 pm.2 s.gpio } : Logic).pinsAgree := by
  rintro ⟨h1, h2⟩
  have hpin : pm.1 = in1 ∨ pm.1 = in2 := hd.2.imp (fun h => h.1) fun h => h.1
  rcases hpin with hp | hp
  · rw [hp, disturbs_in1] at hd
    rw [driven_config _ hm (Or.inl rfl), if_pos hp] at h1
    have e : Level.low = (motorLevels s.fsm.ctx).1 := Option.some.inj h1
    rw [hd] at e
    cases e
  · rw [hp, disturbs_in2] at hd
    rw [driven_config _ hm (Or.inr rfl), if_pos hp] at h2
    have e : Level.low = (motorLevels s.fsm.ctx).2 := Option.some.inj h2
    rw [hd] at e
    cases e

/-! ## the result -/

/-- no turn of main in `l` disturbs the motor -/
def undisturbed (g : Gpio) (i0 : Inputs) (l : List Turn) : Prop :=
  ∀ a b, l = a ++ .main :: b →
    ∀ pm ∈ (startUp g i0 a).todo.head?, ¬ disturbs (startUp g i0 a).logic.fsm.ctx pm.1

theorem undisturbed_good (g : Gpio) (i0 : Inputs) (l : List Turn) (h : undisturbed g i0 l) :
    ∃ τ, Good (startUp g i0 l).logic τ := by
  induction l using List.reverseRecOn with
  | nil => exact ⟨bootTimed i0, boot_good g i0⟩
  | append_singleton l x ih =>
    obtain ⟨τ, hg⟩ := ih fun a b e => h a (b ++ [x]) (by rw [e, List.append_assoc]; rfl)
    rw [startUp_snoc]
    cases x with
    | logic y => exact ⟨τ.after (startUp g i0 l).logic y, hg.step y⟩
    | main =>
      have hd := h l [] rfl
      have hsuf := startUp_todo g i0 l
      unfold StartUp.turn
      cases ht : (startUp g i0 l).todo with
      | nil => exact ⟨τ, hg⟩
      | cons pm rest =>
        rw [ht] at hd hsuf
        exact ⟨τ, hg.config (hsuf.subset List.mem_cons_self) (hd pm rfl)⟩

/-- **The motor pins at start-up.**  They go with the state machine after every turn exactly when
no turn of main configures a pin that the motor needs high at that moment. -/
theorem pins_agree_iff (g : Gpio) (i0 : Inputs) (l : List Turn) :
    (∀ a b, l = a ++ b → (startUp g i0 a).logic.pinsAgree) ↔ undisturbed g i0 l := by
  constructor
  · intro h a b e pm hpm hd
    have hafter := h (a ++ [.main]) b (by rw [e, List.append_assoc]; rfl)
    obtain ⟨rest, ht⟩ : ∃ rest, (startUp g i0 a).todo = pm :: rest := List.head?_eq_some_iff.mp hpm
    have hsuf := startUp_todo g i0 a
    rw [startUp_snoc] at hafter
    unfold StartUp.turn at hafter
    rw [ht] at hafter hsuf
    exact config_disagrees (hsuf.subset List.mem_cons_self) hd hafter
  · intro h a b e
    obtain ⟨τ, hg⟩ := undisturbed_good g i0 a fun a' b' e' =>
      h a' (b' ++ b) (by rw [e, e', List.append_assoc]; rfl)
    exact hg.pinsAgree

/-- a request is granted before `main` comes to IN2 -/
def configWhileCleaning : List Turn :=
  [.logic .requestClean, .logic (.running (calmAt 10)), .main, .main, .main, .main]

/-- CLEANING towards position 2, and neither motor pin is high -/
theorem configWhileCleaning_disagrees :
    ¬ (startUp lowPins (calmAt 0) configWhileCleaning).logic.pinsAgree ∧
    (startUp lowPins (calmAt 0) configWhileCleaning).logic.fsm.ctx.state = .cleaning ∧
    (startUp lowPins (calmAt 0) configWhileCleaning).logic.gpio.driven in2 = some .low := by
  unfold Logic.pinsAgree
  decide

end LitterBox
