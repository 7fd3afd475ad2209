import LitterBox.Lib.Runs

/-!
# The MQTT session of `app_init.c`

`Mqtt_Task`, with `example_subscribe`, `my_publish` and `example_event_handle` of `mqtt.c`, as a
program that makes one call of the MQTT library, one `HAL_Malloc` or one `mqtt_set_link_state` at a
time.  The library answers as it likes (`Answer`); it delivers events inside `IOT_MQTT_Yield` only.
`live` are the clients it has constructed and not yet destroyed, newest first.  `my_publish` passes
the handle `0`; which client that is is up to the library, and a parameter of the result.

* `Session.Inv`     the invariant, by the place in the program;
* `step_calls`      the calls that a step adds;
* `session_sound`   no client is leaked, destroyed twice or used too early, and the link flag does
                    not say more than is true.
-/

namespace LitterBox

/-! ## the program -/

/-- the events `example_event_handle` tells apart -/
inductive MqttEvent where
  | disconnect
  | reconnect
  | other
  deriving DecidableEq, Repr

/-- a client of the library -/
structure Client where
  id : Nat
  subscribed : Bool
  /-- the latest event of the connection, `DISCONNECT` or `RECONNECT` -/
  lastEvent : Option MqttEvent
  deriving DecidableEq, Repr

/-- calls of the library and the handle they pass or return; `none` is the null handle -/
inductive MqttCall where
  | construct (client : Option Nat)
  | subscribe (client : Option Nat)
  | publish (client : Option Nat)
  | yield (client : Option Nat)
  | destroy (client : Option Nat)
  deriving DecidableEq, Repr

/-- what the program does next -/
inductive Pc where
  /-- `IOT_MQTT_Construct` -/
  | construct
  /-- `mqtt_set_link_state(RT_FALSE)` -/
  | constructFailed
  /-- `HAL_Malloc` in `example_subscribe` -/
  | subscribeMalloc
  /-- `IOT_MQTT_Subscribe` -/
  | subscribe
  /-- `mqtt_set_link_state(RT_TRUE)` -/
  | subscribed
  /-- `mqtt_set_link_state(RT_FALSE)` -/
  | subscribeFailed
  /-- `IOT_MQTT_Destroy` -/
  | subscribeDestroy
  /-- the test of `loop_cnt` -/
  | loop
  /-- the first `HAL_Malloc` in `my_publish` -/
  | payloadMalloc
  /-- the second one -/
  | topicMalloc
  /-- `IOT_MQTT_Publish_Simple` -/
  | publish
  /-- `IOT_MQTT_Yield` -/
  | yield
  /-- inside `IOT_MQTT_Yield` -/
  | yielding
  /-- `mqtt_set_link_state(RT_FALSE)` -/
  | yieldFailed
  /-- `IOT_MQTT_Destroy` -/
  | yieldDestroy
  deriving DecidableEq, Repr

/-- what the library and the heap answer next; each call reads what it returns -/
structure Answer where
  /-- `IOT_MQTT_Construct` does not return `NULL` -/
  handle : Bool
  /-- `HAL_Malloc` does not return `NULL` -/
  memory : Bool
  /-- the result of `IOT_MQTT_Subscribe`, of `IOT_MQTT_Publish_Simple` or of `IOT_MQTT_Yield` -/
  res : Int
  /-- inside `IOT_MQTT_Yield`: an event, before it returns -/
  event : Option MqttEvent
  deriving DecidableEq, Repr

structure Session where
  pc : Pc
  gMqttLinkOnline : Bool
  pclient : Option Nat
  loopCnt : BitVec 32
  live : List Client
  /-- number of clients constructed so far -/
  made : Nat
  /-- the calls of the library, newest first -/
  calls : List MqttCall
  deriving DecidableEq, Repr

def mqttSetLinkState (online : Bool) (p : Session) : Session :=
  if p.gMqttLinkOnline = online then p else { p with gMqttLinkOnline := online }

/-- the callback -/
def exampleEventHandle (e : MqttEvent) (p : Session) : Session :=
  if e = .disconnect then mqttSetLinkState false p
  else if e = .reconnect then mqttSetLinkState true p
  else p

def Session.log (c : MqttCall) (p : Session) : Session := { p with calls := c :: p.calls }

/-- the library changes its record of `pclient` -/
def Session.updateClient (f : Client → Client) (p : Session) : Session :=
  { p with live := p.live.map fun c => if some c.id = p.pclient then f c else c }

/-- the library notes the event of the connection and makes the callback -/
def Session.deliver (e : MqttEvent) (p : Session) : Session :=
  exampleEventHandle e
    (if e = .other then p else p.updateClient fun c => { c with lastEvent := some e })

/-- `IOT_MQTT_Destroy(&pclient)` -/
def Session.destroy (p : Session) : Session :=
  { p.log (.destroy p.pclient) with
    live := p.live.filter fun c => some c.id ≠ p.pclient, pclient := none }

def Session.step (p : Session) (a : Answer) : Session :=
  match p.pc with
  | .construct =>
    if a.handle = true then
      { p.log (.construct (some p.made)) with
        pc := .subscribeMalloc, pclient := some p.made, made := p.made + 1
        live := ⟨p.made, false, none⟩ :: p.live }
    else { p.log (.construct none) with pc := .constructFailed, pclient := none }
  | .constructFailed => { mqttSetLinkState false p with pc := .construct }
  | .subscribeMalloc =>
    if a.memory = true then { p with pc := .subscribe } else { p with pc := .subscribeFailed }
  | .subscribe =>
    let p := p.log (.subscribe p.pclient)
    if a.res < 0 then { p with pc := .subscribeFailed }
    else { p.updateClient fun c => { c with subscribed := true } with pc := .subscribed }
  | .subscribed => { mqttSetLinkState true p with pc := .loop, loopCnt := 0 }
  | .subscribeFailed => { mqttSetLinkState false p with pc := .subscribeDestroy }
  | .subscribeDestroy => { p.destroy with pc := .construct }
  | .loop =>
    if p.loopCnt.toInt.tmod 20 = 0 then { p with pc := .payloadMalloc } else { p with pc := .yield }
  | .payloadMalloc =>
    if a.memory = true then { p with pc := .topicMalloc } else { p with pc := .yield }
  | .topicMalloc =>
    if a.memory = true then { p with pc := .publish } else { p with pc := .yield }
  | .publish => { p.log (.publish none) with pc := .yield }
  | .yield => { p.log (.yield p.pclient) with pc := .yielding }
  | .yielding =>
    match a.event with
    | some e => p.deliver e
    | none =>
      if a.res < 0 then { p with pc := .yieldFailed }
      else { p with pc := .loop, loopCnt := p.loopCnt + 1 }
  | .yieldFailed => { mqttSetLinkState false p with pc := .yieldDestroy }
  | .yieldDestroy => { p.destroy with pc := .construct }

/-- `Mqtt_Task` at its first `IOT_MQTT_Construct` -/
def mqttTask : Session where
  pc := .construct
  gMqttLinkOnline := false
  pclient := none
  loopCnt := 0
  live := []
  made := 0
  calls := []

/-- `Mqtt_Task` after the answers `l` -/
def sessionRun (l : List Answer) : Session := Runs.run Session.step mqttTask l

/-! ## the ledger of clients -/

/-- the clients constructed before a call of `IOT_MQTT_Construct` have each been destroyed once -/
def accounted (calls : List MqttCall) : Prop :=
  ∀ b r a, calls = b ++ .construct r :: a →
    ∀ k, .construct (some k) ∈ a → a.count (.destroy (some k)) = 1

/-- **the books**: `made` clients have been constructed, and all but those in `ids` destroyed -/
structure Ledger (ids : List Nat) (made : Nat) (calls : List MqttCall) : Prop where
  constructed : ∀ k, .construct (some k) ∈ calls ↔ k < made
  ids_lt : ∀ k ∈ ids, k < made
  destroyed : ∀ k, calls.count (.destroy (some k)) = if k < made ∧ k ∉ ids then 1 else 0
  accounted : LitterBox.accounted calls

/-- a client is constructed or destroyed -/
def MqttCall.books : MqttCall → Bool
  | .construct _ => true
  | .destroy _ => true
  | _ => false

theorem accounted_other {calls : List MqttCall} {x : MqttCall} (hx : ∀ r, x ≠ .construct r)
    (h : accounted calls) : accounted (x :: calls) := by
  intro b r a e
  cases b with
  | nil => exact absurd (List.cons.inj e).1 (hx r)
  | cons y b => exact h b r a (List.cons.inj e).2

theorem accounted_construct {calls : List MqttCall} (r : Option Nat) (h : accounted calls)
    (hc : ∀ k, .construct (some k) ∈ calls → calls.count (.destroy (some k)) = 1) :
    accounted (.construct r :: calls) := by
  intro b r' a e
  cases b with
  | nil =>
    obtain rfl := (List.cons.inj e).2
    exact hc
  | cons y b => exact h b r' a (List.cons.inj e).2

theorem MqttCall.construct_ne_destroy (r r' : Option Nat) :
    MqttCall.construct r ≠ .destroy r' := by
  intro h
  cases h

section ledger

variable {ids : List Nat} {made : Nat} {calls : List MqttCall}

/-- a call that neither constructs nor destroys -/
theorem Ledger.other (h : Ledger ids made calls) {x : MqttCall} (hx : x.books = false) :
    Ledger ids made (x :: calls) := by
  have hc : ∀ r, x ≠ .construct r := fun r e => by
    rw [e] at hx
    cases hx
  have hd : ∀ r, x ≠ .destroy r := fun r e => by
    rw [e] at hx
    cases hx
  refine ⟨fun k => ?_, h.ids_lt, fun k => ?_, accounted_other hc h.accounted⟩
  · rw [List.mem_cons, ← h.constructed k]
    exact ⟨fun hm => hm.resolve_left (hc (some k)).symm, Or.inr⟩
  · rw [List.count_cons_of_ne (hd (some k)), h.destroyed k]

/-- when no client is held all have been destroyed -/
theorem Ledger.settled (h : Ledger [] made calls) (k : Nat) (hk : .construct (some k) ∈ calls) :
    calls.count (.destroy (some k)) = 1 := by
  rw [h.destroyed k, if_pos ⟨(h.constructed k).mp hk, List.not_mem_nil⟩]

theorem Ledger.construct_none (h : Ledger [] made calls) :
    Ledger [] made (.construct none :: calls) where
  constructed := fun k => by
    rw [List.mem_cons, ← h.constructed k]
    refine ⟨fun hm => hm.resolve_left fun e => ?_, Or.inr⟩
    cases e
  ids_lt := h.ids_lt
  destroyed := fun k => by
    rw [List.count_cons_of_ne (MqttCall.construct_ne_destroy _ _), h.destroyed k]
  accounted := accounted_construct none h.accounted h.settled

theorem Ledger.construct_some (h : Ledger [] made calls) :
    Ledger [made] (made + 1) (.construct (some made) :: calls) where
  constructed := fun k => by
    rw [List.mem_cons, h.constructed k, MqttCall.construct.injEq, Option.some.injEq]
    omega
  ids_lt := fun k hk => by
    rw [List.mem_singleton.mp hk]
    exact Nat.lt_succ_self made
  destroyed := fun k => by
    rw [List.count_cons_of_ne (MqttCall.construct_ne_destroy _ _), h.destroyed k]
    simp only [List.not_mem_nil, not_false_eq_true, and_true, List.mem_singleton]
    congr 1
    rw [eq_iff_iff]
    omega
  accounted := accounted_construct (some made) h.accounted h.settled

theorem Ledger.destroy {id : Nat} (h : Ledger [id] made calls) :
    Ledger [] made (.destroy (some id) :: calls) where
  constructed := fun k => by
    rw [List.mem_cons, ← h.constructed k]
    exact ⟨fun hm => hm.resolve_left (MqttCall.construct_ne_destroy _ _), Or.inr⟩
  ids_lt := fun k hk => absurd hk List.not_mem_nil
  destroyed := fun k => by
    have hlt : id < made := h.ids_lt id List.mem_cons_self
    have hk := h.destroyed k
    by_cases he : k = id
    · subst he
      rw [List.count_cons_self, hk, if_neg fun hh => hh.2 List.mem_cons_self,
        if_pos ⟨hlt, List.not_mem_nil⟩]
    · have hne : MqttCall.destroy (some id) ≠ .destroy (some k) := fun e =>
        he (Option.some.inj (MqttCall.destroy.inj e)).symm
      rw [List.count_cons_of_ne hne, hk]
      simp only [List.mem_singleton, he, List.not_mem_nil]
  accounted := accounted_other (fun r => (MqttCall.construct_ne_destroy r _).symm) h.accounted

end ledger

/-! ## the invariant -/

/-- the client held at a place of the program, and whether it is subscribed -/
def Pc.client : Pc → Option Bool
  | .construct => none
  | .constructFailed => none
  | .subscribeMalloc => some false
  | .subscribe => some false
  | .subscribeFailed => some false
  | .subscribeDestroy => some false
  | _ => some true

/-- places at which the link flag is down -/
def Pc.offline : Pc → Bool
  | .loop => false
  | .payloadMalloc => false
  | .topicMalloc => false
  | .publish => false
  | .yield => false
  | .yielding => false
  | .yieldFailed => false
  | _ => true

/-- places before the link flag is raised -/
def Pc.early : Pc → Bool
  | .subscribeMalloc => true
  | .subscribe => true
  | .subscribed => true
  | _ => false

/-- the client is held as it should be -/
def Session.holds (p : Session) : Prop :=
  match p.pc.client with
  | none => p.live = []
  | some b => ∃ c, p.live = [c] ∧ p.pclient = some c.id ∧ c.subscribed = b

/-- **the invariant of `Mqtt_Task`** -/
structure Session.Inv (p : Session) : Prop where
  held : p.holds
  offline : p.pc.offline = true → p.gMqttLinkOnline = false
  online : p.gMqttLinkOnline = true → ∀ c ∈ p.live, c.lastEvent ≠ some .disconnect
  /-- before the link flag is raised there has been no event -/
  fresh : p.pc.early = true → ∀ c ∈ p.live, c.lastEvent = none
  ledger : Ledger (p.live.map (·.id)) p.made p.calls

theorem mqttSetLinkState_eq (b : Bool) (p : Session) :
    mqttSetLinkState b p = { p with gMqttLinkOnline := b } := by
  unfold mqttSetLinkState
  split
  next h =>
    rw [← h]
  · rfl

section step

variable {p : Session}

theorem Session.Inv.goto (h : p.Inv) (pc : Pc) (n : BitVec 32) (hc : pc.client = p.pc.client)
    (ho : pc.offline = true → p.gMqttLinkOnline = false)
    (hf : pc.early = true → p.pc.early = true) :
    ({ p with pc := pc, loopCnt := n } : Session).Inv where
  held := by
    have hh := h.held
    unfold Session.holds at hh ⊢
    dsimp only
    rwa [hc]
  offline := ho
  online := h.online
  fresh := fun e => h.fresh (hf e)
  ledger := h.ledger

theorem Session.Inv.log (h : p.Inv) {x : MqttCall} (hx : x.books = false) (pc : Pc)
    (hc : pc.client = p.pc.client) (ho : pc.offline = true → p.gMqttLinkOnline = false)
    (hf : pc.early = true → p.pc.early = true) : ({ p.log x with pc := pc } : Session).Inv := by
  have hlog : (p.log x).Inv := ⟨h.held, h.offline, h.online, h.fresh, h.ledger.other hx⟩
  exact hlog.goto pc p.loopCnt hc ho hf

theorem Session.Inv.linkDown (h : p.Inv) :
    ({ p with gMqttLinkOnline := false } : Session).Inv :=
  ⟨h.held, fun _ => rfl, fun e => absurd e Bool.false_ne_true, h.fresh, h.ledger⟩

theorem Session.Inv.linkUp (h : p.Inv) (pc : Pc) (n : BitVec 32) (hc : pc.client = p.pc.client)
    (ho : pc.offline = false) (hf : pc.early = true → p.pc.early = true)
    (he : ∀ c ∈ p.live, c.lastEvent ≠ some .disconnect) :
    ({ p with gMqttLinkOnline := true, pc := pc, loopCnt := n } : Session).Inv where
  held := by
    have hh := h.held
    unfold Session.holds at hh ⊢
    dsimp only
    rwa [hc]
  offline := fun e => absurd (ho.symm.trans e) Bool.false_ne_true
  online := fun _ => he
  fresh := fun e => h.fresh (hf e)
  ledger := h.ledger

theorem Session.Inv.one (h : p.Inv) {b : Bool} (hc : p.pc.client = some b) :
    ∃ c, p.live = [c] ∧ p.pclient = some c.id ∧ c.subscribed = b := by
  have hh := h.held
  unfold Session.holds at hh
  rw [hc] at hh
  exact hh

theorem Session.Inv.nobody (h : p.Inv) (hc : p.pc.client = none) : p.live = [] := by
  have hh := h.held
  unfold Session.holds at hh
  rw [hc] at hh
  exact hh

theorem Session.Inv.destroy (h : p.Inv) {b : Bool} (hc : p.pc.client = some b)
    (hl : p.gMqttLinkOnline = false) : ({ p.destroy with pc := .construct } : Session).Inv := by
  obtain ⟨c, hlive, hid, -⟩ := h.one hc
  have hempty : p.destroy.live = [] := by
    show p.live.filter _ = []
    rw [hlive, hid]
    simp
  have hbooks : Ledger [] p.made (.destroy p.pclient :: p.calls) := by
    have hledger := h.ledger
    rw [hlive] at hledger
    rw [hid]
    exact hledger.destroy
  refine ⟨hempty, fun _ => hl, fun e => absurd (hl.symm.trans e) Bool.false_ne_true,
    fun e => absurd e Bool.false_ne_true, ?_⟩
  show Ledger (p.destroy.live.map _) p.made (.destroy p.pclient :: p.calls)
  rw [hempty]
  exact hbooks

theorem Session.updateClient_live {c : Client} (hlive : p.live = [c]) (hid : p.pclient = some c.id)
    (f : Client → Client) : (p.updateClient f).live = [f c] := by
  unfold Session.updateClient
  dsimp only
  rw [hlive, List.map_singleton, if_pos hid.symm]

/-- **an event inside `IOT_MQTT_Yield`** -/
theorem Session.Inv.deliver (h : p.Inv) (hpc : p.pc = .yielding) (e : MqttEvent) :
    (p.deliver e).Inv := by
  obtain ⟨c, hlive, hid, hsub⟩ := h.one (b := true) (by rw [hpc]; rfl)
  have hoff : p.pc.offline = false := by rw [hpc]; rfl
  have hearly : p.pc.early = false := by rw [hpc]; rfl
  -- the record of the connection, with the link flag that goes with it
  have noted : ∀ (b : Bool), (b = true → e ≠ .disconnect) →
      ({ p.updateClient (fun c => { c with lastEvent := some e }) with
        gMqttLinkOnline := b } : Session).Inv := by
    intro b hb
    have hlive' := Session.updateClient_live hlive hid fun c => { c with lastEvent := some e }
    refine ⟨?_, fun ho => absurd (hoff.symm.trans ho) Bool.false_ne_true, fun hl x hx => ?_,
      fun he => absurd (hearly.symm.trans he) Bool.false_ne_true, ?_⟩
    · unfold Session.holds
      rw [show ({ p.updateClient (fun c => { c with lastEvent := some e }) with
        gMqttLinkOnline := b } : Session).pc = .yielding from hpc]
      exact ⟨_, hlive', hid, hsub⟩
    · rw [show ({ p.updateClient (fun c => { c with lastEvent := some e }) with
        gMqttLinkOnline := b } : Session).live = _ from hlive'] at hx
      rw [List.mem_singleton.mp hx]
      exact fun he => hb hl (Option.some.inj he)
    · have hledger := h.ledger
      rw [hlive] at hledger
      show Ledger ((p.updateClient _).live.map (·.id)) p.made p.calls
      rw [hlive']
      exact hledger
  unfold Session.deliver exampleEventHandle
  cases e with
  | disconnect =>
    rw [if_pos rfl, if_neg (by decide), mqttSetLinkState_eq]
    exact noted false fun e => absurd e Bool.false_ne_true
  | reconnect =>
    rw [if_neg (by decide), if_pos rfl, if_neg (by decide), mqttSetLinkState_eq]
    exact noted true fun _ => by decide
  | other => exact h

theorem Session.Inv.constructed (h : p.Inv) (hpc : p.pc = .construct) :
    ({ p.log (.construct (some p.made)) with
        pc := .subscribeMalloc, pclient := some p.made, made := p.made + 1
        live := ⟨p.made, false, none⟩ :: p.live } : Session).Inv := by
  have hlive : p.live = [] := h.nobody (by rw [hpc]; rfl)
  have hlink : p.gMqttLinkOnline = false := h.offline (by rw [hpc]; rfl)
  have hledger := h.ledger
  rw [hlive] at hledger
  refine ⟨⟨⟨p.made, false, none⟩, by rw [hlive], rfl, rfl⟩, fun _ => hlink,
    fun e => absurd (hlink.symm.trans e) Bool.false_ne_true, fun _ c hc => ?_, ?_⟩
  · dsimp only at hc
    rw [hlive] at hc
    rw [List.mem_singleton.mp hc]
  · dsimp only
    rw [hlive]
    exact hledger.construct_some

theorem Session.Inv.notConstructed (h : p.Inv) (hpc : p.pc = .construct) :
    ({ p.log (.construct none) with pc := .constructFailed, pclient := none } : Session).Inv := by
  have hlive : p.live = [] := h.nobody (by rw [hpc]; rfl)
  have hlink : p.gMqttLinkOnline = false := h.offline (by rw [hpc]; rfl)
  have hledger := h.ledger
  rw [hlive] at hledger
  refine ⟨hlive, fun _ => hlink, fun e => absurd (hlink.symm.trans e) Bool.false_ne_true,
    fun e => absurd e Bool.false_ne_true, ?_⟩
  show Ledger (p.live.map _) p.made _
  rw [hlive]
  exact hledger.construct_none

theorem Session.Inv.subscribes (h : p.Inv) (hpc : p.pc = .subscribe) :
    ({ (p.log (.subscribe p.pclient)).updateClient (fun c => { c with subscribed := true }) with
        pc := .subscribed } : Session).Inv := by
  have hlink : p.gMqttLinkOnline = false := h.offline (by rw [hpc]; rfl)
  obtain ⟨c, hlive, hid, -⟩ := h.one (b := false) (by rw [hpc]; rfl)
  have hlive' := Session.updateClient_live (p := p.log (.subscribe p.pclient)) hlive hid
    fun c => { c with subscribed := true }
  have hfresh := h.fresh (by rw [hpc]; rfl) c (by rw [hlive]; exact List.mem_cons_self)
  refine ⟨⟨_, hlive', hid, rfl⟩, fun _ => hlink,
    fun e => absurd (hlink.symm.trans e) Bool.false_ne_true, fun _ x hx => ?_, ?_⟩
  · dsimp only at hx
    rw [hlive'] at hx
    rw [List.mem_singleton.mp hx]
    exact hfresh
  · have hledger := h.ledger.other (x := .subscribe p.pclient) rfl
    rw [hlive] at hledger
    dsimp only
    rw [hlive']
    exact hledger

/-- **one step** -/
theorem Session.Inv.step (h : p.Inv) (a : Answer) : (p.step a).Inv := by
  have loud : ∀ {pc : Pc}, pc.early = false → ∀ {q : Pc}, pc.early = true → q.early = true :=
    fun h _ e => absurd (h.symm.trans e) Bool.false_ne_true
  have up : ∀ {pc : Pc}, pc.offline = false → pc.offline = true → p.gMqttLinkOnline = false :=
    fun h e => absurd (h.symm.trans e) Bool.false_ne_true
  unfold Session.step
  cases hpc : p.pc with
  | construct =>
    dsimp only
    split
    · exact h.constructed hpc
    · exact h.notConstructed hpc
  | constructFailed =>
    dsimp only
    rw [mqttSetLinkState_eq]
    exact h.linkDown.goto .construct _ (by rw [hpc]; rfl) (fun _ => rfl) (loud rfl)
  | subscribeMalloc =>
    have hlink : p.gMqttLinkOnline = false := h.offline (by rw [hpc]; rfl)
    dsimp only
    split
    · exact h.goto .subscribe _ (by rw [hpc]; rfl) (fun _ => hlink) (fun _ => by rw [hpc]; rfl)
    · exact h.goto .subscribeFailed _ (by rw [hpc]; rfl) (fun _ => hlink) (loud rfl)
  | subscribe =>
    have hlink : p.gMqttLinkOnline = false := h.offline (by rw [hpc]; rfl)
    dsimp only
    split
    · exact h.log (x := .subscribe _) rfl .subscribeFailed (by rw [hpc]; rfl) (fun _ => hlink)
        (loud rfl)
    · exact h.subscribes hpc
  | subscribed =>
    dsimp only
    rw [mqttSetLinkState_eq]
    refine h.linkUp .loop 0 (by rw [hpc]; rfl) rfl (loud rfl) fun c hc => ?_
    rw [h.fresh (by rw [hpc]; rfl) c hc]
    decide
  | subscribeFailed =>
    dsimp only
    rw [mqttSetLinkState_eq]
    exact h.linkDown.goto .subscribeDestroy _ (by rw [hpc]; rfl) (fun _ => rfl) (loud rfl)
  | subscribeDestroy =>
    exact h.destroy (b := false) (by rw [hpc]; rfl) (h.offline (by rw [hpc]; rfl))
  | loop =>
    dsimp only
    split
    · exact h.goto .payloadMalloc _ (by rw [hpc]; rfl) (up rfl) (loud rfl)
    · exact h.goto .yield _ (by rw [hpc]; rfl) (up rfl) (loud rfl)
  | payloadMalloc =>
    dsimp only
    split
    · exact h.goto .topicMalloc _ (by rw [hpc]; rfl) (up rfl) (loud rfl)
    · exact h.goto .yield _ (by rw [hpc]; rfl) (up rfl) (loud rfl)
  | topicMalloc =>
    dsimp only
    split
    · exact h.goto .publish _ (by rw [hpc]; rfl) (up rfl) (loud rfl)
    · exact h.goto .yield _ (by rw [hpc]; rfl) (up rfl) (loud rfl)
  | publish =>
    exact h.log (x := .publish _) rfl .yield (by rw [hpc]; rfl) (up rfl) (loud rfl)
  | yield =>
    exact h.log (x := .yield _) rfl .yielding (by rw [hpc]; rfl) (up rfl) (loud rfl)
  | yielding =>
    dsimp only
    split
    · exact h.deliver hpc _
    split
    · exact h.goto .yieldFailed _ (by rw [hpc]; rfl) (up rfl) (loud rfl)
    · exact h.goto .loop _ (by rw [hpc]; rfl) (up rfl) (loud rfl)
  | yieldFailed =>
    dsimp only
    rw [mqttSetLinkState_eq]
    exact h.linkDown.goto .yieldDestroy _ (by rw [hpc]; rfl) (fun _ => rfl) (loud rfl)
  | yieldDestroy =>
    exact h.destroy (b := true) (by rw [hpc]; rfl) (h.offline (by rw [hpc]; rfl))

end step

/-! ## the calls of a step -/

theorem deliver_calls (e : MqttEvent) (p : Session) : (p.deliver e).calls = p.calls := by
  unfold Session.deliver exampleEventHandle
  cases e with
  | disconnect =>
    rw [if_pos rfl, if_neg (by decide), mqttSetLinkState_eq]
    rfl
  | reconnect =>
    rw [if_neg (by decide), if_pos rfl, if_neg (by decide), mqttSetLinkState_eq]
    rfl
  | other => rfl

/-- from `p` to `q` the log grows by calls of which a yield is on `pclient` and a publish passes the
handle `0`, each at its place in the program -/
def Session.calling (p q : Session) : Prop :=
  ∃ new, q.calls = new ++ p.calls ∧
    (∀ h, .yield h ∈ new → p.pc = .yield ∧ h = p.pclient) ∧
    (∀ h, .publish h ∈ new → p.pc = .publish ∧ h = none)

theorem Session.calling_nothing {p q : Session} (h : q.calls = p.calls) : p.calling q :=
  ⟨[], h, nofun, nofun⟩

theorem Session.calling_one {p q : Session} {x : MqttCall} (h : q.calls = x :: p.calls)
    (hy : ∀ k, x = .yield k → p.pc = .yield ∧ k = p.pclient)
    (hp : ∀ k, x = .publish k → p.pc = .publish ∧ k = none) : p.calling q :=
  ⟨[x], h, fun k hk => hy k (List.mem_singleton.mp hk).symm,
    fun k hk => hp k (List.mem_singleton.mp hk).symm⟩

/-- **the calls that a step adds** -/
theorem step_calls (p : Session) (a : Answer) : p.calling (p.step a) := by
  have link : ∀ (b : Bool) (q : Session), (mqttSetLinkState b q).calls = q.calls := by
    intro b q
    rw [mqttSetLinkState_eq]
  unfold Session.step
  cases hpc : p.pc with
  | construct =>
    dsimp only
    split
    · exact Session.calling_one (x := .construct (some p.made)) rfl nofun nofun
    · exact Session.calling_one (x := .construct none) rfl nofun nofun
  | subscribe =>
    dsimp only
    split
    · exact Session.calling_one (x := .subscribe p.pclient) rfl nofun nofun
    · exact Session.calling_one (x := .subscribe p.pclient) rfl nofun nofun
  | subscribeDestroy => exact Session.calling_one (x := .destroy p.pclient) rfl nofun nofun
  | yieldDestroy => exact Session.calling_one (x := .destroy p.pclient) rfl nofun nofun
  | publish =>
    refine Session.calling_one (x := .publish none) rfl nofun fun k e => ⟨hpc, ?_⟩
    exact (MqttCall.publish.inj e).symm
  | yield =>
    refine Session.calling_one (x := .yield p.pclient) rfl (fun k e => ⟨hpc, ?_⟩) nofun
    exact (MqttCall.yield.inj e).symm
  | yielding =>
    dsimp only
    split
    · exact Session.calling_nothing (deliver_calls _ p)
    split
    · exact Session.calling_nothing rfl
    · exact Session.calling_nothing rfl
  | constructFailed => exact Session.calling_nothing (link false p)
  | subscribed => exact Session.calling_nothing (link true p)
  | subscribeFailed => exact Session.calling_nothing (link false p)
  | yieldFailed => exact Session.calling_nothing (link false p)
  | _ =>
    dsimp only
    split
    · exact Session.calling_nothing rfl
    · exact Session.calling_nothing rfl

/-! ## the result -/

/-- the client that a handle is; `current` says which of the live ones the library takes for `0` -/
def clientOf (current : List Client → Option Nat) (live : List Client) : Option Nat → Option Nat
  | some k => some k
  | none => current live

/-- what holds of a session at every point -/
structure Session.Sound (current : List Client → Option Nat) (p : Session) : Prop where
  /-- at most one client is live -/
  one : p.live.length ≤ 1
  /-- before a call of `IOT_MQTT_Construct` every client has been destroyed exactly once -/
  destroyed : accounted p.calls
  /-- no client is destroyed twice, and at the next construct none is left -/
  once : ∀ k, p.calls.count (.destroy (some k)) ≤ 1
  next : p.pc = .construct → ∀ k, .construct (some k) ∈ p.calls →
    p.calls.count (.destroy (some k)) = 1
  /-- the live client has been constructed and not destroyed -/
  live : ∀ c ∈ p.live, .construct (some c.id) ∈ p.calls ∧ .destroy (some c.id) ∉ p.calls
  /-- `IOT_MQTT_Publish_Simple` and `IOT_MQTT_Yield` are called on a live, subscribed client: this is
  so of every call that the next step adds to the log, whatever the answer -/
  used : ∀ a, ∃ new, (p.step a).calls = new ++ p.calls ∧
    (∀ h, .yield h ∈ new → ∃ c ∈ p.live, h = some c.id ∧ c.subscribed = true) ∧
    (∀ h, .publish h ∈ new → ∃ c ∈ p.live, clientOf current p.live h = some c.id ∧
      c.subscribed = true)
  /-- and the client stays so during the call -/
  held : p.pc = .publish ∨ p.pc = .yield ∨ p.pc = .yielding →
    ∃ c, p.live = [c] ∧ p.pclient = some c.id ∧ c.subscribed = true
  /-- the link flag is up only with a client that is constructed, subscribed and not destroyed, and
  whose latest event is not `DISCONNECT` -/
  online : p.gMqttLinkOnline = true → ∃ c, p.live = [c] ∧ .construct (some c.id) ∈ p.calls ∧
    .destroy (some c.id) ∉ p.calls ∧ c.subscribed = true ∧ c.lastEvent ≠ some .disconnect

/-- a client on the books is constructed and not destroyed -/
theorem Session.Inv.booked {p : Session} (h : p.Inv) {c : Client} (hc : c ∈ p.live) :
    .construct (some c.id) ∈ p.calls ∧ .destroy (some c.id) ∉ p.calls := by
  have hid : c.id ∈ p.live.map (·.id) := List.mem_map_of_mem hc
  refine ⟨(h.ledger.constructed c.id).mpr (h.ledger.ids_lt c.id hid), ?_⟩
  rw [← List.count_eq_zero, h.ledger.destroyed, if_neg fun hh => hh.2 hid]

theorem Session.Inv.sound {current : List Client → Option Nat}
    (hcur : ∀ c, current [c] = some c.id) {p : Session} (h : p.Inv) : p.Sound current := by
  have hlive : p.live = [] ∨ ∃ c, p.live = [c] := by
    cases hc : p.pc.client with
    | none => exact Or.inl (h.nobody hc)
    | some b =>
      obtain ⟨c, hl, -⟩ := h.one hc
      exact Or.inr ⟨c, hl⟩
  refine ⟨?_, h.ledger.accounted, fun k => ?_, fun hpc => ?_, fun c hc => h.booked hc, fun a => ?_,
    fun hpc => ?_, fun hl => ?_⟩
  · rcases hlive with e | ⟨c, e⟩
    · rw [e]
      exact Nat.zero_le 1
    · rw [e]
      exact Nat.le_refl 1
  · rw [h.ledger.destroyed k]
    split <;> decide
  · have hledger := h.ledger
    rw [h.nobody (by rw [hpc]; rfl)] at hledger
    exact hledger.settled
  · obtain ⟨new, e, hy, hp⟩ := step_calls p a
    refine ⟨new, e, fun k hk => ?_, fun k hk => ?_⟩
    · obtain ⟨hpc, rfl⟩ := hy k hk
      obtain ⟨c, hl, hid, hs⟩ := h.one (b := true) (by rw [hpc]; rfl)
      exact ⟨c, by rw [hl]; exact List.mem_singleton.mpr rfl, hid, hs⟩
    · obtain ⟨hpc, rfl⟩ := hp k hk
      obtain ⟨c, hl, -, hs⟩ := h.one (b := true) (by rw [hpc]; rfl)
      refine ⟨c, by rw [hl]; exact List.mem_singleton.mpr rfl, ?_, hs⟩
      rw [hl]
      exact hcur c
  · rcases hpc with hpc | hpc | hpc <;> exact h.one (by rw [hpc]; rfl)
  · have hoff : p.pc.offline ≠ true := fun e =>
      absurd ((h.offline e).symm.trans hl) Bool.false_ne_true
    have hc : p.pc.client = some true := by
      cases hpc : p.pc <;> rw [hpc] at hoff <;> first | rfl | exact absurd rfl hoff
    obtain ⟨c, he, -, hs⟩ := h.one hc
    have hmem : c ∈ p.live := by
      rw [he]
      exact List.mem_cons_self
    obtain ⟨hmade, hnot⟩ := h.booked hmem
    exact ⟨c, he, hmade, hnot, hs, h.online hl c hmem⟩

theorem mqttTask_inv : mqttTask.Inv := by
  refine ⟨rfl, fun _ => rfl, fun e => absurd e Bool.false_ne_true, fun e => absurd e
    Bool.false_ne_true, ?_⟩
  exact ⟨fun k => ⟨fun h => absurd h List.not_mem_nil, fun h => absurd h (Nat.not_lt_zero k)⟩,
    fun k h => absurd h List.not_mem_nil, fun k => (if_neg fun h => Nat.not_lt_zero k h.1).symm,
    fun b r a e => absurd e.symm (List.append_ne_nil_of_right_ne_nil b (List.cons_ne_nil _ a))⟩

/-- **The client and the link flag of `Mqtt_Task`**, whatever the library answers and whenever the
connection is lost and found again.  Of the handle `0` the code relies on `hcur`: while one client
is live, it is that client. -/
theorem session_sound (current : List Client → Option Nat)
    (hcur : ∀ c, current [c] = some c.id) (l : List Answer) : (sessionRun l).Sound current :=
  Session.Inv.sound hcur (Runs.run_inv (I := Session.Inv) (fun _ a h => h.step a) mqttTask_inv l)

/-- the handle `0` taken for the client constructed last -/
def newestClient (live : List Client) : Option Nat := live.head?.map (·.id)

/-- no call fails: up to the first `IOT_MQTT_Yield` -/
def smoothAnswers : List Answer := List.replicate 9 ⟨true, true, 0, none⟩

theorem session_sound_smooth :
    (sessionRun smoothAnswers).calls =
      [.yield (some 0), .publish none, .subscribe (some 0), .construct (some 0)] ∧
    clientOf newestClient (sessionRun smoothAnswers).live none = some 0 ∧
    (sessionRun smoothAnswers).Sound newestClient :=
  ⟨by decide, by decide, session_sound newestClient (fun _ => rfl) smoothAnswers⟩

end LitterBox
