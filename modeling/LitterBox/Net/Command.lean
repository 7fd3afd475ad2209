import LitterBox.Logic.Alike
import LitterBox.Logic.Interlock
import LitterBox.Logic.Progress
import LitterBox.Logic.Starts
import LitterBox.Net.Message
import LitterBox.Net.Telemetry

/-!
# From a command to the motor

`example_subscribe` of `mqtt.c`, and what the messages that come in on its topic do to the machine.

* `subscribe_called`     every message on the topic subscribed to is looked into for a command;
* `command_starts`       a command starts the motor in the next call, if that call may start it at
                         all, and a burst of messages is one request;
* `remote_never_unlocks` no messages lift the lock of a CLEAN_TIMEOUT.
-/

namespace LitterBox
open Format (bytes Arg format cstr)
open Json (Text)

/-! ## example_subscribe -/

def fmtSubscribe : Text := bytes "/sys/%s/%s/thing/service/property/set"

/-- `topic_len` -/
def Device.subscribeLen (d : Device) : Nat :=
  fmtSubscribe.length + d.productKey.length + d.deviceName.length + 1

/-- one call of `example_subscribe` -/
structure SubscribeRun where
  ret : Int
  /-- the topic of the call of `IOT_MQTT_Subscribe` -/
  topic : Option Text
  /-- `mqtt_set_link_state(RT_TRUE)` -/
  online : Bool
  /-- calls of `HAL_Malloc` that did not return `NULL`, and calls of `HAL_Free` -/
  taken : Nat
  freed : Nat
  deriving DecidableEq, Repr

/-- `memory`: whether `HAL_Malloc` finds memory; `res`: what `IOT_MQTT_Subscribe` returns -/
def exampleSubscribe (d : Device) (memory : Bool) (res : Int) : Option SubscribeRun :=
  if memory = false then some ⟨-1, none, false, 0, 0⟩
  else
    (halSnprintf (List.replicate d.subscribeLen 0) fmtSubscribe d.args).map fun topic =>
      if res < 0 then ⟨-1, some (cstr topic), false, 1, 1⟩
      else ⟨0, some (cstr topic), true, 1, 1⟩

/-! ## its topic -/

def Device.commandTopic (d : Device) : Text :=
  bytes "/sys/" ++ (d.productKey ++ (bytes "/" ++ (d.deviceName ++
    bytes "/thing/service/property/set")))

theorem format_subscribe (d : Device) : format fmtSubscribe d.args = some d.commandTopic := by
  have hfmt : fmtSubscribe = bytes "/sys/" ++ Format.percent :: 115 :: (bytes "/" ++
      Format.percent :: 115 :: (bytes "/thing/service/property/set" ++ [])) := by decide
  have h1 : Format.percent ∉ bytes "/sys/" := by decide
  have h2 : Format.percent ∉ bytes "/" := by decide
  have h3 : Format.percent ∉ bytes "/thing/service/property/set" := by decide
  rw [hfmt, Device.args, Format.format_append h1, Format.format_str, Format.format_append h2,
    Format.format_str, Format.format_append h3]
  simp only [format, Option.map_some, List.append_nil]
  rfl

theorem commandTopic_length (d : Device) : d.commandTopic.length < d.subscribeLen := by
  have hfmt : fmtSubscribe.length = 37 := by decide
  have h1 : (bytes "/sys/").length = 5 := by decide
  have h2 : (bytes "/").length = 1 := by decide
  have h3 : (bytes "/thing/service/property/set").length = 27 := by decide
  unfold Device.commandTopic Device.subscribeLen
  simp only [List.length_append]
  omega

theorem commandTopic_noNul (d : Device) : 0 ∉ d.commandTopic := by
  have h1 : 0 ∉ bytes "/sys/" := by decide
  have h2 : 0 ∉ bytes "/" := by decide
  have h3 : 0 ∉ bytes "/thing/service/property/set" := by decide
  unfold Device.commandTopic
  simp only [List.mem_append, not_or]
  exact ⟨h1, d.productKey_noNul, h2, d.deviceName_noNul, h3⟩

theorem setTopic_infix (d : Device) : setTopic <:+: d.commandTopic := by
  have h : setTopic <:+ bytes "/thing/service/property/set" := by decide
  unfold Device.commandTopic
  refine List.IsSuffix.isInfix (h.trans ?_)
  simp only [← List.append_assoc]
  exact List.suffix_append _ _

/-- **what one call subscribes to**, and that it frees what it takes -/
theorem exampleSubscribe_eq (d : Device) (memory : Bool) (res : Int) :
    exampleSubscribe d memory res = some
      (if memory = false then ⟨-1, none, false, 0, 0⟩
      else if res < 0 then ⟨-1, some d.commandTopic, false, 1, 1⟩
      else ⟨0, some d.commandTopic, true, 1, 1⟩) := by
  obtain ⟨topic, ht, htc⟩ := halSnprintf_eq (format_subscribe d) (commandTopic_length d)
    (commandTopic_noNul d)
  unfold exampleSubscribe
  rw [ht, ← htc, Option.map_some]
  split
  · rfl
  · rfl

theorem step_subscribeMalloc {p : Session} (hp : p.pc = .subscribeMalloc) (a : Answer) :
    p.step a = { p with pc := if a.memory = true then .subscribe else .subscribeFailed } := by
  unfold Session.step
  rw [hp]
  dsimp only
  split
  · rfl
  · rfl

theorem step_subscribe {p : Session} (hp : p.pc = .subscribe) (a : Answer) :
    (p.step a).pc = (if a.res < 0 then .subscribeFailed else .subscribed) ∧
      (p.step a).calls = .subscribe p.pclient :: p.calls := by
  unfold Session.step
  rw [hp]
  dsimp only
  split
  · exact ⟨rfl, rfl⟩
  · exact ⟨rfl, rfl⟩

/-- the steps of `Mqtt_Task` inside `example_subscribe` call `IOT_MQTT_Subscribe` when it does, and
the session is on exactly if it returns `0` -/
theorem exampleSubscribe_session (d : Device) {p : Session} (hp : p.pc = .subscribeMalloc)
    (a b : Answer) :
    ∃ r l, exampleSubscribe d a.memory b.res = some r ∧ l <+: [a, b] ∧
      (Runs.run Session.step p l).pc = (if r.ret = 0 then .subscribed else .subscribeFailed) ∧
      (Runs.run Session.step p l).calls =
        (if r.topic.isSome then [.subscribe p.pclient] else []) ++ p.calls := by
  have h1 := step_subscribeMalloc hp a
  have hr := exampleSubscribe_eq d a.memory b.res
  cases ha : a.memory with
  | false =>
    rw [ha] at h1 hr
    refine ⟨_, [a], hr, List.prefix_append [a] [b], ?_⟩
    rw [Runs.run_cons, Runs.run_nil, h1]
    exact ⟨rfl, rfl⟩
  | true =>
    rw [ha] at h1 hr
    obtain ⟨hpc, hcalls⟩ := step_subscribe (p := p.step a) (by rw [h1]; rfl) b
    refine ⟨_, [a, b], hr, List.prefix_rfl, ?_⟩
    rw [Runs.run_cons, Runs.run_cons, Runs.run_nil, hpc, hcalls, h1]
    by_cases hb : b.res < 0
    · rw [if_pos hb, if_pos hb]
      exact ⟨rfl, rfl⟩
    · rw [if_neg hb, if_neg hb]
      exact ⟨rfl, rfl⟩

/-- a message on the topic subscribed to is looked into -/
theorem Publish.called_of_command {p : Publish} {d : Device} (h : p.topic = d.commandTopic) :
    p.called := by
  refine Publish.called_of_topic ?_ ?_
  · rw [h]
    exact commandTopic_noNul d
  · rw [h]
    exact setTopic_infix d

/-- the books of one call -/
theorem exampleSubscribe_books (d : Device) (memory : Bool) (res : Int) :
    ∃ r, exampleSubscribe d memory res = some r ∧
      r.topic = (if memory = true then some d.commandTopic else none) ∧
      r.taken = (if memory = true then 1 else 0) ∧ r.freed = r.taken ∧
      (r.online = true ↔ r.ret = 0) ∧ (r.ret = 0 ↔ memory = true ∧ 0 ≤ res) := by
  refine ⟨_, exampleSubscribe_eq d memory res, ?_⟩
  cases memory with
  | false => simp
  | true =>
    by_cases hr : res < 0
    · simp [hr]
    · simp [hr]
      omega

/-- **The subscription.**  With memory one buffer is taken, the topic fits it and is what is
subscribed to; without, nothing is subscribed to.  The buffer is freed, the link goes up exactly if
`0` is returned; and every message on that topic, whatever stands behind the topic in its memory, is
looked into for a command. -/
theorem subscribe_called (d : Device) (memory : Bool) (res : Int) :
    ∃ r topic, exampleSubscribe d memory res = some r ∧
      format fmtSubscribe d.args = some topic ∧ topic.length + 1 ≤ d.subscribeLen ∧
      r.topic = (if memory = true then some topic else none) ∧
      r.taken = (if memory = true then 1 else 0) ∧ r.freed = r.taken ∧
      (r.online = true ↔ r.ret = 0) ∧ (r.ret = 0 ↔ memory = true ∧ 0 ≤ res) ∧
      ∀ p : Publish, p.topic = topic →
        p.arrive = (handleRemoteControl p.payload.mem p.payload.len).map some ∧
        ∃ cmd, p.arrive = some (some cmd) := by
  obtain ⟨r, hr, htopic, htaken, hfreed, honline, hret⟩ := exampleSubscribe_books d memory res
  refine ⟨r, d.commandTopic, hr, format_subscribe d, Nat.succ_le_of_lt (commandTopic_length d),
    htopic, htaken, hfreed, honline, hret, fun p hp => ?_⟩
  obtain ⟨cmd, hcmd, harrive⟩ := p.arrive_eq
  rw [if_pos (p.called_iff.mp (Publish.called_of_command hp))] at harrive
  rw [hcmd]
  exact ⟨harrive, cmd, harrive⟩

/-! ## messages and the machine -/

/-- the calls into `logic.c` made for a row of messages -/
def messageCalls (ps : List Publish) : List Step := ps.flatMap Publish.calls

/-- a message makes no call but `Sensor_Logic_RequestClean` -/
theorem Publish.mem_calls {p : Publish} {x : Step} (hx : x ∈ p.calls) : x = .requestClean := by
  unfold Publish.calls at hx
  split at hx
  next cmd _ =>
    cases cmd with
    | accepted => exact List.mem_singleton.mp hx
    | _ => cases hx
  · cases hx

theorem mem_messageCalls {ps : List Publish} {x : Step} (hx : x ∈ messageCalls ps) :
    x = .requestClean := by
  obtain ⟨p, -, hp⟩ := List.mem_flatMap.mp hx
  exact Publish.mem_calls hp

/-- requests touch nothing but their flag -/
theorem requests_frame (g : Gpio) (i0 : Inputs) (l : List Step) (b : List Step)
    (hb : ∀ x ∈ b, x = .requestClean) :
    timed g i0 (l ++ b) = timed g i0 l ∧
    (run g i0 (l ++ b)).gResetRequest = (run g i0 l).gResetRequest ∧
    ((run g i0 (l ++ b)).gRemoteCleanRequest = true ↔
      .requestClean ∈ b ∨ (run g i0 l).gRemoteCleanRequest = true) := by
  induction b using List.reverseRecOn with
  | nil =>
    rw [List.append_nil]
    exact ⟨rfl, rfl, (or_iff_right List.not_mem_nil).symm⟩
  | append_singleton b x ih =>
    obtain ⟨h1, h2, -⟩ := ih fun y hy => hb y (List.mem_append_left _ hy)
    obtain rfl : x = .requestClean := hb x (List.mem_append_right _ List.mem_cons_self)
    rw [← List.append_assoc, timed_snoc, run_snoc]
    exact ⟨h1, h2, iff_of_true rfl (Or.inl (List.mem_append_right _ List.mem_cons_self))⟩

/-- a cleaning that has just begun has time -/
theorem late_now (t : Nat) (l : Leg) : Timed.late t ⟨.cleaning l, t, t⟩ = false := by
  unfold Timed.late
  dsimp only
  rw [BitVec.sub_self]
  cases l <;> decide

/-- a call that grants a request ends in CLEANING, unless a reset was requested too -/
theorem grants_call {q : Cue} {τ : Timed} (hg : q.grants τ.mode) (hr : q.reset = false) :
    (τ.call q).mode.state = .cleaning := by
  obtain ⟨ho, hf, hc, hm⟩ := hg
  have hocc : (τ.occupancy q).mode = τ.mode := by
    show (τ.mode.seeFull q.full).seeOccupied q.occ = τ.mode
    rw [ho, hf]
    rcases hm with hm | hm <;> rw [hm] <;> rfl
  have hclean : τ.clean q = ⟨.cleaning .toPos2, q.time, q.time⟩ := by
    have e : (τ.occupancy q).mode.takeClean q.clean = .cleaning .toPos2 := by
      rw [hocc, hc]
      rcases hm with hm | hm <;> rw [hm] <;> rfl
    show (τ.occupancy q).goto q.time _ = _
    rw [e]
    unfold Timed.goto
    rw [hocc, if_neg, if_neg]
    · rcases hm with hm | hm <;> rw [hm] <;> nofun
    · rcases hm with hm | hm <;> rw [hm] <;> nofun
  have hreset : τ.reset q = ⟨.cleaning .toPos2, q.time, q.time⟩ := by
    show (τ.clean q).goto q.time ((τ.clean q).mode.takeReset q.reset q.occ q.full) = _
    rw [hclean, hr]
    rfl
  obtain ⟨l, hl⟩ : ∃ l, τ.hall q = ⟨.cleaning l, q.time, q.time⟩ := by
    show ∃ l, (τ.reset q).goto q.time ((τ.reset q).mode.takeHall q.pos) = _
    rw [hreset]
    cases q.pos <;> exact ⟨_, rfl⟩
  show ((τ.hall q).mode.poll _ _ _ ((τ.hall q).late q.time)).state = .cleaning
  rw [hl, late_now]
  rfl

theorem Mode.begins_state {μ : Mode} :
    (μ.state = .idle ∨ μ.state = .cleanDelay) ↔ (μ = .idle ∨ μ = .cleanDelay) := by
  cases μ <;> simp [Mode.state]

/-- a command on the topic subscribed to is a request -/
theorem command_calls (d : Device) (o : FlatObject) {p : Publish} (ht : p.topic = d.commandTopic)
    (hp : p.payload.text = o.text) (ho : o.commandsClean) : p.calls = [.requestClean] := by
  obtain ⟨cmd, hcmd, harrive⟩ := p.arrive_eq
  rw [if_pos (p.called_iff.mp (Publish.called_of_command ht))] at harrive
  have hacc : cmd = .accepted := by
    have e : p.payload.text = (o.payload []).text := by rw [hp, o.payload_text]
    have h := o.handleRemoteControl_text []
    rw [if_pos (o.shows_one.mpr (Or.inl ho))] at h
    rw [Payload.command_congr e] at hcmd
    exact Option.some.inj (hcmd.symm.trans h)
  unfold Publish.calls
  rw [harrive, hacc]
  rfl

/-- **A command starts the motor.**  Messages alone change no state.  Once a command has come in on
the topic subscribed to, among whatever other messages, the next call enters CLEANING exactly if it
samples nobody and room in the bin, in IDLE or CLEAN_DELAY; the bridge then drives the motor, unless
a reset was requested as well; and no request is left then, however many there were. -/
theorem command_starts (g : Gpio) (i0 : Inputs) (l : List Step) (d : Device)
    (before after : List Publish) (p : Publish) (o : FlatObject) (i : Inputs)
    (ht : p.topic = d.commandTopic) (hp : p.payload.text = o.text) (ho : o.commandsClean) :
    let s := run g i0 l
    let s' := run g i0 (l ++ messageCalls (before ++ p :: after))
    let s'' := run g i0 (l ++ messageCalls (before ++ p :: after) ++ [.running i])
    s'.fsm.ctx.state = s.fsm.ctx.state ∧
    (entersByRequest i s' ↔ i.calm ∧ (s.fsm.ctx.state = .idle ∨ s.fsm.ctx.state = .cleanDelay)) ∧
    (entersByRequest i s' → s''.gRemoteCleanRequest = false) ∧
    (entersByRequest i s' → s.gResetRequest = false → s''.fsm.ctx.state = .cleaning ∧
      (s''.gpio.driven in1 = some .low ∧ s''.gpio.driven in2 = some .high ∨
        s''.gpio.driven in1 = some .high ∧ s''.gpio.driven in2 = some .low)) := by
  intro s s' s''
  have hmsg := fun x (hx : x ∈ messageCalls (before ++ p :: after)) => mem_messageCalls hx
  obtain ⟨hτ, hreset, hflag⟩ := requests_frame g i0 l _ hmsg
  have hg : Good s' (timed g i0 l) := hτ ▸ run_good g i0 (l ++ messageCalls (before ++ p :: after))
  have hstate : s.fsm.ctx.state = (timed g i0 l).mode.state := (run_good g i0 l).shows.state
  have hg'' : Good s'' ((timed g i0 l).call (cue i s')) := by
    rw [← hτ, ← timed_running]
    exact run_good g i0 _
  have hpending : s'.gRemoteCleanRequest = true := by
    refine hflag.mpr (Or.inl (List.mem_flatMap.mpr ⟨p, List.mem_append_right _ List.mem_cons_self, ?_⟩))
    rw [command_calls d o ht hp ho]
    exact List.mem_cons_self
  have hgrant : entersByRequest i s' ↔ (cue i s').grants (timed g i0 l).mode := by
    rw [entersByRequest_iff i hg]
    exact ⟨fun ⟨h1, h2, h3, h4⟩ => ⟨h2, h3, h1, h4⟩, fun ⟨h2, h3, h1, h4⟩ => ⟨h1, h2, h3, h4⟩⟩
  refine ⟨hg.shows.state.trans hstate.symm, ?_, fun he => ?_, fun he hr => ?_⟩
  · rw [entersByRequest_iff i hg, hstate, Mode.begins_state]
    exact ⟨fun ⟨_, h2, h3, h4⟩ => ⟨⟨h2, h3⟩, h4⟩, fun ⟨⟨h2, h3⟩, h4⟩ => ⟨hpending, h2, h3, h4⟩⟩
  · show (run g i0 (_ ++ [.running i])).gRemoteCleanRequest = false
    rw [run_snoc]
    have he' := (entersByRequest_iff i hg.fresh).mpr ((entersByRequest_iff i hg).mp he)
    exact (granted_consumes hg he').2
  · have hm := grants_call (hgrant.mp he) (hreset.trans hr)
    refine ⟨hg''.shows.state.trans hm, ?_⟩
    obtain ⟨leg, hleg⟩ := Mode.cleaning_of_state hm
    have hpins := hg''.pins
    rw [hleg] at hpins
    cases leg with
    | toPos2 => exact Or.inl hpins
    | toPos3 => exact Or.inr hpins
    | toPos1 => exact Or.inl hpins

/-- the keys of the example -/
def demoDevice : Device where
  productKey := bytes "k"
  deviceName := bytes "n"
  productKey_noNul := by decide
  deviceName_noNul := by decide

/-- `{"flag":1}` -/
def flagOne : FlatObject where
  members := [(bytes "flag", 1)]
  unescaped := by decide
  distinct := by decide

def flagMessage : Publish where
  mem := demoDevice.commandTopic ++ [0]
  topicLen := 35
  nul := by decide
  payload := flagOne.payload []

/-- a stray message and two commands in IDLE -/
theorem command_starts_flag :
    entersByRequest (calmAt 10)
      (run lowPins (calmAt 0) ([] ++ messageCalls ([endedMessage] ++ flagMessage :: [flagMessage]))) :=
  (command_starts lowPins (calmAt 0) [] demoDevice [endedMessage] [flagMessage] flagMessage flagOne
    (calmAt 10) (by decide) (flagOne.payload_text []) ⟨_, List.mem_cons_self, by decide, rfl⟩).2.1.mpr
    ⟨by decide, Or.inl (by decide)⟩

/-! ## messages and the fault lock -/

/-- a call of the control thread, or a message -/
inductive RemoteStep where
  | call (i : Inputs)
  | message (p : Publish)

def RemoteStep.steps : RemoteStep → List Step
  | .call i => [.running i]
  | .message p => p.calls

/-- **No message lifts the lock of a CLEAN_TIMEOUT**, whatever its topic and its payload, and
whatever is sampled in between: with no local reset pending the fault stays and the motor stands
still. -/
theorem remote_never_unlocks (g : Gpio) (i0 : Inputs) (l : List Step) (b : List RemoteStep)
    (hf : (run g i0 l).fsm.ctx.state = .fault)
    (hc : (run g i0 l).fsm.ctx.faultCode = .cleanTimeout)
    (hr : (run g i0 l).gResetRequest = false) :
    let s := run g i0 (l ++ b.flatMap RemoteStep.steps)
    s.fsm.ctx.state = .fault ∧ s.fsm.ctx.faultCode = .cleanTimeout ∧
      s.gpio.driven in1 = some .low ∧ s.gpio.driven in2 = some .low := by
  intro s
  have h := (run_good g i0 l).shows
  have hm : (timed g i0 l).mode = .cleanTimeout := by
    rcases Mode.fault_modes (h.state.symm.trans hf) with e | e
    · exact e
    · rw [h.fault, e] at hc
      cases hc
  have hno : .requestReset ∉ b.flatMap RemoteStep.steps := by
    intro hmem
    obtain ⟨x, -, hx⟩ := List.mem_flatMap.mp hmem
    cases x with
    | call i => cases List.mem_singleton.mp hx
    | message p => cases Publish.mem_calls hx
  have hg := run_good g i0 (l ++ b.flatMap RemoteStep.steps)
  have hpins := hg.pins
  have hk := (cleanTimeout_stays g i0 l hm hr _ hno).1
  rw [hk] at hpins
  refine ⟨hg.shows.state.trans ?_, hg.shows.fault.trans ?_, hpins⟩
  · rw [hk]
    rfl
  · rw [hk]
    rfl

theorem remote_never_unlocks_timedOut :
    (run lowPins (calmAt 0) (timedOut ++ ([.message flagMessage, .call (calmAt 30)] :
      List RemoteStep).flatMap RemoteStep.steps)).fsm.ctx.state = .fault :=
  (remote_never_unlocks lowPins (calmAt 0) timedOut [.message flagMessage, .call (calmAt 30)]
    (by decide) (by decide) (by decide)).1

end LitterBox
