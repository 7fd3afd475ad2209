import LitterBox.Fsm.Refine
import LitterBox.Lib.Runs

/-!
# The motor under any sequence of calls

The users of `fsm.c` make four kinds of `Call`, in any order and at any ticks.  `Tracks` is what
every call keeps: the context shows some mode, the last motor command is the one for that mode,
and the log has no motor start that should not be there.

`motor_follows_state` is the result, in the words of the context.
-/

namespace LitterBox

/-- a call into `fsm.c` -/
inductive Call where
  | init (now : Tick)
  | syncInputs (occupied binFull protectActive : Bool)
  | dispatch (now : Tick) (event : LitterFsmEvent)
  | tick (now : Tick)
  deriving DecidableEq, Repr

/-- an ops table without null entries -/
def fullOps : LitterFsmOps := ⟨true, true, true, true⟩

def Call.exec (m : Fsm) : Call → Fsm
  | .init now => litterFsmInit now (some fullOps) m
  | .syncInputs o b p => litterFsmSyncInputs o b p m
  | .dispatch now e => litterFsmDispatch now e m
  | .tick now => litterFsmTick now m

/-- the motor commands of the log, newest first -/
def commands (l : List Out) : List Motor := l.filterMap (·.act.motor)

theorem head_commands {l : List Out} {x : Motor} (h : ∀ d, lastMotor d l = x) :
    (commands l).head? = some x := by
  induction l with
  | nil =>
    have h1 : Motor.stop = x := h .stop
    have h2 : Motor.forward = x := h .forward
    exact absurd (h1.trans h2.symm) nofun
  | cons o l ih =>
    unfold commands
    have hd := fun d => (lastMotor_cons d o l).symm.trans (h d)
    cases hm : o.act.motor with
    | some y =>
      have hy := hd .stop
      rw [hm] at hy
      rw [List.filterMap_cons, hm, List.head?_cons]
      exact congrArg some hy
    | none =>
      rw [List.filterMap_cons, hm]
      refine ih fun d => ?_
      have hx := hd d
      rw [hm] at hx
      exact hx

/-! ## the invariant -/

/-- **run invariant** -/
structure Tracks (m : Fsm) (τ : Timed) : Prop where
  shows : Shows m.ctx τ
  armed : m.ctx.armed
  motor : ∀ d, lastMotor d m.out = τ.mode.drive
  starts : ∀ o ∈ m.out, o.startOk
  settled : Settled m.out

theorem Tracks.goes {t : Nat} {f : Flags} {m m' : Fsm} {τ : Timed} {μ' : Mode} (h : Tracks m τ)
    (g : Goes t f m m' τ μ') : Tracks m' (τ.goto t μ') where
  shows := g.shows
  armed := g.ops.trans h.armed
  motor := fun d => g.log.motor h.armed d fun _ => h.motor d
  starts := g.log.starts h.starts
  settled := g.log.settled h.armed h.settled

theorem litterFsmInit_out (now : Tick) (m : Fsm) :
    ∃ c1 c2, (litterFsmInit now (some fullOps) m).out
      = ⟨.enter .idle, c1⟩ :: ⟨.motorStop, c2⟩ :: m.out := ⟨_, _, rfl⟩

theorem Tracks.init {m : Fsm} (t : Nat) (hst : ∀ o ∈ m.out, o.startOk) (hse : Settled m.out) :
    Tracks (litterFsmInit (tick t) (some fullOps) m) ⟨.idle, t, t⟩ := by
  obtain ⟨c1, c2, hout⟩ := litterFsmInit_out (tick t) m
  refine ⟨litterFsmInit_shows t _ m, rfl, fun d => ?_, ?_, ?_⟩
  · rw [hout]; rfl
  · rw [hout]
    exact startOk_cons (startOk_quiet rfl)
      (startOk_cons (startOk_stop rfl) hst)
  · rw [hout]
    exact .cons (not_begins_of_moves rfl) (.cons (not_begins_of_moves rfl) hse)

theorem Tracks.exec {m : Fsm} {τ : Timed} (h : Tracks m τ) (c : Call) :
    ∃ τ', Tracks (c.exec m) τ' := by
  cases c with
  | init now =>
    refine ⟨⟨.idle, now.toNat, now.toNat⟩, ?_⟩
    show Tracks (litterFsmInit now (some fullOps) m) _
    have hi := Tracks.init (m := m) now.toNat h.starts h.settled
    rw [show tick now.toNat = now from Clock.tick_toNat now] at hi
    exact hi
  | syncInputs o b p =>
    exact ⟨τ, h.shows.frame m.ctx.lastEventTick o b p, h.armed, h.motor, h.starts, h.settled⟩
  | dispatch now e =>
    have hg := litterFsmDispatch_goes (t := now.toNat) e h.shows
    rw [show tick now.toNat = now from Clock.tick_toNat now] at hg
    exact ⟨_, h.goes hg⟩
  | tick now =>
    have hg := litterFsmTick_goes (t := now.toNat) h.shows
    rw [show LitterBox.tick now.toNat = now from Clock.tick_toNat now] at hg
    exact ⟨_, h.goes hg⟩

/-- the state after `litter_fsm_init` on a context with any contents, and then `calls` -/
def callRun (c : LitterFsmCtx) (now : Tick) (calls : List Call) : Fsm :=
  Runs.run Call.exec (litterFsmInit now (some fullOps) ⟨c, []⟩) calls

theorem callRun_tracks (c : LitterFsmCtx) (now : Tick) (calls : List Call) :
    ∃ τ, Tracks (callRun c now calls) τ := by
  refine Runs.run_inv (I := fun m => ∃ τ, Tracks m τ) (fun m x h => ?_) ?_ calls
  · obtain ⟨τ, h⟩ := h
    exact h.exec x
  · have hi := Tracks.init (m := ⟨c, []⟩) now.toNat (fun o h => absurd h List.not_mem_nil) .nil
    rw [show tick now.toNat = now from Clock.tick_toNat now] at hi
    exact ⟨_, hi⟩

/-! ## the result -/

/-- **The motor follows the state machine.**  After every call the last command is the one for the
state and phase; every start is given in CLEANING; and the line after an entry into CLEANING is
the start of the motor, with nothing speaking against it. -/
theorem motor_follows_state (c : LitterFsmCtx) (now : Tick) (calls : List Call) :
    let m := callRun c now calls
    (m.ctx.state ≠ .cleaning → (commands m.out).head? = some .stop) ∧
    (m.ctx.state = .cleaning → m.ctx.cleanPhase = .toPos2 ∨ m.ctx.cleanPhase = .toPos3 ∨
      m.ctx.cleanPhase = .toPos1) ∧
    (m.ctx.state = .cleaning → m.ctx.cleanPhase = .toPos2 ∨ m.ctx.cleanPhase = .toPos1 →
      (commands m.out).head? = some .forward) ∧
    (m.ctx.state = .cleaning → m.ctx.cleanPhase = .toPos3 →
      (commands m.out).head? = some .reverse) ∧
    (∀ o ∈ m.out, o.act = .motorForwardStart ∨ o.act = .motorReverseStart →
      o.ctx.state = .cleaning) ∧
    (∀ pre e post a, m.out = pre ++ e :: post → e.act = .move a .cleaning →
      ∃ pre' o, pre = pre' ++ [o] ∧ o.act = .motorForwardStart ∧
        o.ctx.occupied = false ∧ o.ctx.binFull = false ∧ o.ctx.protectActive = false) := by
  intro m
  obtain ⟨τ, h⟩ := callRun_tracks c now calls
  have hcmd : (commands m.out).head? = some τ.mode.drive := head_commands h.motor
  have hst : m.ctx.state = τ.mode.state := h.shows.state
  have hph : m.ctx.cleanPhase = τ.mode.phase := h.shows.phase
  refine ⟨fun hne => ?_, fun hc => ?_, fun hc hp => ?_, fun hc hp => ?_, fun o ho ha => ?_,
    fun pre e post a hout he => ?_⟩
  · rw [hcmd]
    rw [hst] at hne
    cases hm : τ.mode with
    | cleaning l => rw [hm] at hne; exact absurd rfl hne
    | _ => rfl
  · rw [hst] at hc
    rw [hph]
    cases hm : τ.mode with
    | cleaning l => cases l <;> simp [Mode.phase, Leg.phase]
    | _ => rw [hm] at hc; cases hc
  · rw [hst] at hc
    rw [hcmd]
    rw [hph] at hp
    cases hm : τ.mode with
    | cleaning l =>
      rw [hm] at hp
      cases l with
      | toPos3 => rcases hp with hp | hp <;> cases hp
      | _ => rfl
    | _ => rw [hm] at hc; cases hc
  · rw [hst] at hc
    rw [hcmd]
    rw [hph] at hp
    cases hm : τ.mode with
    | cleaning l =>
      rw [hm] at hp
      cases l with
      | toPos3 => rfl
      | _ => cases hp
    | _ => rw [hm] at hc; cases hc
  · refine (h.starts o ho ?_).1
    rcases ha with ha | ha <;> rw [ha]
    · exact Or.inl rfl
    · exact Or.inr rfl
  · obtain ⟨pre', o, hpre, hact, h1, h2, h3⟩ := h.settled.start_of hout ⟨a, he⟩
    exact ⟨pre', o, hpre, hact, h1, h2, h3⟩

end LitterBox
