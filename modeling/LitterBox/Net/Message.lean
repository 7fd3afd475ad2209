import LitterBox.Net.Remote

/-!
# Arriving messages

`example_message_arrive` of `mqtt.c`.  The topic of a message is given by a pointer and a length, and
`strstr` reads on from the pointer to the first NUL, wherever that is.

* `Publish.arrive_eq`   a command is looked for exactly when the text is in what `strstr` reads;
* `topic_decides`       when that is as if the text were looked for in the topic.
-/

namespace LitterBox
open Format (bytes cstr strstr)
open Json (Text)

/-! ## mqtt.c -/

/-- the event types `example_message_arrive` tells apart -/
inductive ArriveEvent where
  /-- `IOTX_MQTT_EVENT_PUBLISH_RECEIVED` -/
  | publishReceived
  | other
  deriving DecidableEq, Repr

/-- what is read of an `iotx_mqtt_topic_info_t`; `none` for a memory is the null pointer -/
structure TopicInfo where
  /-- the memory from `ptopic` on -/
  ptopic : Option Text
  topicLen : Nat
  /-- the memory from `payload` on -/
  payload : Option Text
  payloadLen : Int

/-- the text that tells the topic of a command -/
def setTopic : Text := bytes "thing/service/property/set"

/-- what `handle_remote_control` does if it is called; `none` if a read leaves the memory -/
def exampleMessageArrive (eventType : ArriveEvent) (topicInfo : TopicInfo) :
    Option (Option RemoteCommand) :=
  match eventType with
  | .publishReceived =>
    match topicInfo.ptopic with
    | none => some none
    | some ptopic =>
      -- without a NUL, `strstr` runs out of the memory
      if 0 ∉ ptopic then none
      else if strstr ptopic setTopic ≠ none then
        (handleRemoteControl topicInfo.payload topicInfo.payloadLen).map some
      else some none
  | .other => some none

/-! ## messages -/

/-- a published message: from `ptopic` on there are the bytes of the topic and others, with a NUL
somewhere among these others -/
structure Publish where
  mem : Text
  topicLen : Nat
  nul : 0 ∈ mem.drop topicLen
  payload : Payload

def Publish.topic (p : Publish) : Text := p.mem.take p.topicLen

def Publish.info (p : Publish) : TopicInfo where
  ptopic := some p.mem
  topicLen := p.topicLen
  payload := p.payload.mem
  payloadLen := p.payload.len

def Publish.arrive (p : Publish) : Option (Option RemoteCommand) :=
  exampleMessageArrive .publishReceived p.info

/-- `handle_remote_control` is called -/
def Publish.called (p : Publish) : Prop := ∃ cmd, p.arrive = some (some cmd)

/-- the first occurrence of the text reaches beyond the topic, and no NUL stands before its end -/
def Publish.overruns (p : Publish) : Prop :=
  ∃ k ∈ Search.find setTopic p.mem, p.topicLen < k + setTopic.length ∧
    k + setTopic.length ≤ (cstr p.mem).length

/-- the first occurrence of the text is in the topic, but a NUL stands before its end -/
def Publish.hidden (p : Publish) : Prop :=
  ∃ k ∈ Search.find setTopic p.mem, (cstr p.mem).length < k + setTopic.length ∧
    k + setTopic.length ≤ p.topicLen

/-- the text does not first occur between the topic's end and the first NUL -/
def Publish.plain (p : Publish) : Prop := ¬ p.overruns ∧ ¬ p.hidden

/-! ## the string and the topic -/

/-- **what `strstr` reads decides** -/
theorem Publish.arrive_eq (p : Publish) :
    ∃ cmd, handleRemoteControl p.payload.mem p.payload.len = some cmd ∧
      p.arrive = some (if setTopic <:+: cstr p.mem then some cmd else none) := by
  obtain ⟨cmd, hcmd⟩ := p.payload.command_total
  refine ⟨cmd, hcmd, ?_⟩
  have hnul : 0 ∈ p.mem := List.mem_of_mem_drop p.nul
  have hstr : strstr p.mem setTopic ≠ none ↔ setTopic <:+: cstr p.mem := by
    rw [Search.infix_iff, Option.isSome_iff_ne_none]
    rfl
  show (if 0 ∉ p.mem then none else if strstr p.mem setTopic ≠ none then
    (handleRemoteControl p.payload.mem p.payload.len).map some else some none) = _
  rw [if_neg (not_not.mpr hnul), hcmd]
  by_cases hs : setTopic <:+: cstr p.mem
  · rw [if_pos (hstr.mpr hs), if_pos hs]
    rfl
  · rw [if_neg fun h => hs (hstr.mp h), if_neg hs]

theorem Publish.called_iff (p : Publish) : p.called ↔ setTopic <:+: cstr p.mem := by
  obtain ⟨cmd, -, e⟩ := p.arrive_eq
  unfold Publish.called
  rw [e]
  by_cases hs : setTopic <:+: cstr p.mem
  · rw [if_pos hs]
    exact iff_of_true ⟨cmd, rfl⟩ hs
  · rw [if_neg hs]
    exact iff_of_false (fun ⟨_, h⟩ => by cases h) hs

/-- a topic without NUL that has the text is recognised -/
theorem Publish.called_of_topic {p : Publish} (h0 : 0 ∉ p.topic) (h : setTopic <:+: p.topic) :
    p.called := by
  have hmem : cstr p.mem = p.topic ++ cstr (p.mem.drop p.topicLen) := by
    rw [← Format.cstr_append h0]
    exact congrArg cstr (List.take_append_drop _ _).symm
  rw [p.called_iff, hmem]
  exact h.trans (List.prefix_append _ _).isInfix

/-- the string at `ptopic` and the topic are two beginnings of one memory -/
theorem Publish.called_iff_topic (p : Publish) :
    (p.called ↔ setTopic <:+: p.topic) ↔ p.plain := by
  rw [p.called_iff, Format.cstr_eq_take]
  exact Search.infix_take_congr setTopic p.mem _ _

/-- the calls into `logic.c` made for a message -/
def Publish.calls (p : Publish) : List Step :=
  match p.arrive with
  | some (some cmd) => cmd.calls
  | _ => []

/-- a clean request is pending after a message if the message was accepted, or if one was before -/
theorem Publish.pending_iff (g : Gpio) (i0 : Inputs) (l : List Step) (p : Publish) :
    (run g i0 (l ++ p.calls)).gRemoteCleanRequest = true ↔
      p.arrive = some (some .accepted) ∨ (run g i0 l).gRemoteCleanRequest = true := by
  unfold Publish.calls
  cases ha : p.arrive with
  | none =>
    rw [List.append_nil]
    exact (or_iff_right (fun h => by cases h)).symm
  | some r =>
    cases r with
    | none =>
      rw [List.append_nil]
      exact (or_iff_right (fun h => by cases h)).symm
    | some cmd =>
      rw [Option.some.injEq, Option.some.injEq]
      exact RemoteCommand.pending_iff g i0 l cmd

/-! ## two messages -/

/-- messages with the same payload are treated alike if both are looked into, or neither -/
theorem Publish.arrive_eq_iff {p q : Publish} (h : q.payload.text = p.payload.text) :
    q.arrive = p.arrive ↔ (q.called ↔ p.called) := by
  obtain ⟨cmd, hp, ep⟩ := p.arrive_eq
  obtain ⟨cmd', hq, eq⟩ := q.arrive_eq
  have hcmd : cmd' = cmd := by
    rw [Payload.command_congr h, hp] at hq
    exact (Option.some.inj hq).symm
  rw [ep, eq, hcmd, p.called_iff, q.called_iff]
  by_cases h1 : setTopic <:+: cstr p.mem <;> by_cases h2 : setTopic <:+: cstr q.mem <;>
    simp [h1, h2]

/-- **when the topic decides**: a command is looked for as the topic has it exactly in the plain
messages; and two messages with the same topic and the same payload are treated alike exactly if
both are plain, or neither -/
theorem topic_decides (p : Publish) :
    ((p.called ↔ setTopic <:+: p.topic) ↔ p.plain) ∧
    ∀ q : Publish, q.topic = p.topic → q.payload.text = p.payload.text →
      (q.arrive = p.arrive ↔ (q.plain ↔ p.plain)) := by
  refine ⟨p.called_iff_topic, fun q ht hp => ?_⟩
  rw [Publish.arrive_eq_iff hp, ← p.called_iff_topic, ← q.called_iff_topic, ht]
  by_cases h : setTopic <:+: p.topic
  · rw [iff_true_right h, iff_true_right h]
  · rw [iff_false_right h, iff_false_right h, not_iff_not]

/-! ## a message that is not plain -/

/-- `{"topic":"thing/service/property/set","flag":1}` -/
def strayPayload : Payload where
  mem := some (bytes "\x7b\"topic\":\"thing/service/property/set\",\"flag\":1\x7d" ++ [0])
  len := 47
  len_le := by
    rintro m ⟨⟩
    decide

/-- the payload stands right behind the topic `/sys/a/b/user/get` -/
def strayMessage : Publish where
  mem := bytes "/sys/a/b/user/get" ++ strayPayload.mem.getD []
  topicLen := 17
  nul := by decide
  payload := strayPayload

/-- the same with a NUL right behind the topic -/
def endedMessage : Publish where
  mem := bytes "/sys/a/b/user/get" ++ [0]
  topicLen := 17
  nul := by decide
  payload := strayPayload

theorem strayMessage_called :
    ¬ (strayMessage.called ↔ setTopic <:+: strayMessage.topic) ∧
    endedMessage.topic = strayMessage.topic ∧
    endedMessage.payload.text = strayMessage.payload.text ∧
    endedMessage.arrive ≠ strayMessage.arrive := by
  refine ⟨?_, by decide, rfl, by decide⟩
  rintro ⟨h, -⟩
  exact absurd (h ⟨.accepted, by decide⟩) (by decide)

end LitterBox
