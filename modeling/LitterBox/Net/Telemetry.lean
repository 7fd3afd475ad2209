import LitterBox.Lib.Format
import LitterBox.Logic.Uses
import LitterBox.Net.Session
import LitterBox.Net.Snapshot

/-!
# Telemetry

`my_publish` of `mqtt.c`, and the numbers `ReadSensor_Task` gives it.  `HAL_Snprintf` is `snprintf`
for `%d` and `%s`.

* `readSensorTask`        temperature and humidity stay in `0 .. 255`;
* `fmtPayload_spell`      the format of the payload spells a JSON object;
* `myPublish_session`     the message is sent at the place `Mqtt_Task` sends it;
* `telemetry_decodable`   payload and topic fit, and the payload says what was passed.
-/

namespace LitterBox
open Format (bytes Arg format snprintf cstr)
open Json (Text Value)

/-! ## app_init.c -/

/-- the variables `tem` and `hum` -/
structure Climate where
  tem : BitVec 32
  hum : BitVec 32
  tem_le : tem.toNat ≤ 255
  hum_le : hum.toNat ≤ 255

theorem toNat_uint8 (b : BitVec 8) : (b.setWidth 32).toNat ≤ 255 := by
  have hb := b.isLt
  rw [BitVec.toNat_setWidth]
  omega

/-- one reading of the sensor in `ReadSensor_Task`, `temp` is `sensor_data.data.temp` -/
def readSensorTask (temp : BitVec 32) (c : Climate) : Climate :=
  if 0 ≤ temp.toInt then
    { tem := (((temp &&& 0xffff#32) >>> 0).setWidth 8).setWidth 32
      hum := (((temp &&& 0xffff0000#32) >>> 16).setWidth 8).setWidth 32
      tem_le := toNat_uint8 _
      hum_le := toNat_uint8 _ }
  else c

theorem low_byte (x : BitVec 32) :
    ((((x &&& 0xffff#32) >>> 0).setWidth 8).setWidth 32).toNat = x.toNat % 256 := by
  have hm := Nat.and_two_pow_sub_one_eq_mod x.toNat 16
  simp only [BitVec.toNat_setWidth, BitVec.toNat_ushiftRight, BitVec.toNat_and,
    Nat.shiftRight_zero]
  rw [show (0xffff#32).toNat = 2 ^ 16 - 1 from rfl, hm]
  omega

theorem third_byte (x : BitVec 32) :
    ((((x &&& 0xffff0000#32) >>> 16).setWidth 8).setWidth 32).toNat = x.toNat / 65536 % 256 := by
  have hm := Nat.and_two_pow_sub_one_eq_mod (x.toNat >>> 16) 16
  simp only [BitVec.toNat_setWidth, BitVec.toNat_ushiftRight, BitVec.toNat_and]
  rw [Nat.shiftRight_and_distrib, show (0xffff0000#32).toNat >>> 16 = 2 ^ 16 - 1 from rfl, hm,
    Nat.shiftRight_eq_div_pow]
  omega

/-- every temperature and humidity in `0 .. 255` comes from some reading -/
theorem readSensorTask_onto (c c' : Climate) : ∃ temp,
    (readSensorTask temp c').tem = c.tem ∧ (readSensorTask temp c').hum = c.hum := by
  have ht := c.tem_le
  have hh := c.hum_le
  have hx : (BitVec.ofNat 32 (c.hum.toNat * 65536 + c.tem.toNat)).toNat =
      c.hum.toNat * 65536 + c.tem.toNat := by
    rw [BitVec.toNat_ofNat]
    omega
  have hpos : 0 ≤ (BitVec.ofNat 32 (c.hum.toNat * 65536 + c.tem.toNat)).toInt := by
    rw [BitVec.toInt_eq_toNat_of_lt (by omega), hx]
    omega
  refine ⟨BitVec.ofNat 32 (c.hum.toNat * 65536 + c.tem.toNat), ?_⟩
  unfold readSensorTask
  rw [if_pos hpos]
  constructor
  · apply BitVec.eq_of_toNat_eq
    rw [low_byte, hx]
    omega
  · apply BitVec.eq_of_toNat_eq
    rw [third_byte, hx]
    omega

/-! ## mqtt.c -/

/-- `DEMO_PRODUCT_KEY` and `DEMO_DEVICE_NAME`, up to the NUL -/
structure Device where
  productKey : Text
  deviceName : Text
  productKey_noNul : 0 ∉ productKey
  deviceName_noNul : 0 ∉ deviceName

/-- what `my_publish` reads for the payload, each at its own moment -/
structure Telemetry where
  climate : Climate
  curWeight : BitVec 32
  boxUsed : BitVec 32
  state : LitterFsmState
  /-- the state whose name `Sensor_Logic_StateName` returns -/
  stateNamed : LitterFsmState
  faultCode : LitterFsmFault
  /-- the fault code whose name `Sensor_Logic_FaultName` returns -/
  faultNamed : LitterFsmFault
  linkOnline : Bool
  binFull : Bool
  protectActive : Bool

def fmtTopic : Text := bytes "/sys/%s/%s/thing/event/property/post"

def fmtPayload : Text :=
  bytes "\x7b\"params\":\x7b\"temperature\":%d,\"humidity\":%d,\"Weight\":%d,\"RunTimes\":%d," ++
  bytes "\"state\":%d,\"state_text\":\"%s\",\"fault_code\":%d,\"fault_text\":\"%s\"," ++
  bytes "\"mqtt_link\":%d,\"bin_full\":%d,\"protect_active\":%d\x7d\x7d"

def payloadLen : Nat := 320

def Device.topicLen (d : Device) : Nat :=
  fmtTopic.length + d.productKey.length + d.deviceName.length + 1

def Device.args (d : Device) : List Arg := [.str d.productKey, .str d.deviceName]

def Telemetry.args (t : Telemetry) : List Arg :=
  [.int t.climate.tem.toInt, .int t.climate.hum.toInt, .int t.curWeight.toInt,
    .int t.boxUsed.toInt, .int t.state.toInt, .str (bytes (litterFsmStateName t.stateNamed)),
    .int t.faultCode.toInt, .str (bytes (litterFsmFaultName t.faultNamed)),
    .int t.linkOnline.toInt, .int t.binFull.toInt, .int t.protectActive.toInt]

def halSnprintf (buf fmt : Text) (args : List Arg) : Option Text :=
  (format fmt args).map (snprintf buf)

/-- one call of `my_publish` -/
structure PublishRun where
  ret : Int
  /-- topic and payload of the call of `IOT_MQTT_Publish_Simple` -/
  sent : Option (Text × Text)
  /-- calls of `HAL_Malloc` that did not return `NULL`, and calls of `HAL_Free` -/
  taken : Nat
  freed : Nat
  deriving DecidableEq, Repr

/-- `payloadMemory` and `topicMemory`: whether `HAL_Malloc` finds memory; `res`: what
`IOT_MQTT_Publish_Simple` returns -/
def myPublish (d : Device) (t : Telemetry) (payloadMemory topicMemory : Bool) (res : Int) :
    Option PublishRun :=
  if payloadMemory = false then some ⟨-1, none, 0, 0⟩
  else
    (halSnprintf (List.replicate payloadLen 0) fmtPayload t.args).bind fun payload =>
      if topicMemory = false then some ⟨-1, none, 1, 1⟩
      else
        (halSnprintf (List.replicate d.topicLen 0) fmtTopic d.args).map fun topic =>
          if res < 0 then ⟨-1, some (cstr topic, cstr payload), 2, 2⟩
          else ⟨0, some (cstr topic, cstr payload), 2, 2⟩

/-! ## the payload -/

/-- the eleven fields -/
def Telemetry.fields (t : Telemetry) : List (Text × Value) :=
  [(bytes "temperature", .int t.climate.tem.toNat),
    (bytes "humidity", .int t.climate.hum.toNat),
    (bytes "Weight", .int t.curWeight.toInt),
    (bytes "RunTimes", .int t.boxUsed.toInt),
    (bytes "state", .int t.state.toInt),
    (bytes "state_text", .str (bytes (litterFsmStateName t.stateNamed))),
    (bytes "fault_code", .int t.faultCode.toInt),
    (bytes "fault_text", .str (bytes (litterFsmFaultName t.faultNamed))),
    (bytes "mqtt_link", .int t.linkOnline.toInt),
    (bytes "bin_full", .int t.binFull.toInt),
    (bytes "protect_active", .int t.protectActive.toInt)]

def Telemetry.value (t : Telemetry) : Value := .obj [(bytes "params", .obj t.fields)]

theorem fmtPayload_spell (t : Telemetry) : fmtPayload = Format.spell t.value := by
  simp only [Telemetry.value, Telemetry.fields, Format.spell, Format.spellMembers]
  decide +kernel

theorem Telemetry.value_noPercent (t : Telemetry) : Format.NoPercent t.value := by
  simp only [Telemetry.value, Telemetry.fields, Format.NoPercent, Format.NoPercentMembers]
  decide

theorem litterFsmStateName_plain (s : LitterFsmState) :
    Json.Unescaped (bytes (litterFsmStateName s)) := by
  cases s <;> decide

theorem litterFsmFaultName_plain (f : LitterFsmFault) :
    Json.Unescaped (bytes (litterFsmFaultName f)) := by
  cases f <;> decide

theorem Telemetry.value_plain (t : Telemetry) : Json.Plain t.value := by
  simp only [Telemetry.value, Telemetry.fields, Json.Plain, Json.PlainMembers,
    litterFsmStateName_plain, litterFsmFaultName_plain, true_and, and_true]
  decide

theorem toInt_of_le {x : BitVec 32} (h : x.toNat ≤ 255) : x.toInt = x.toNat := by
  rw [BitVec.toInt_eq_toNat_of_lt]
  omega

theorem Telemetry.args_value (t : Telemetry) : t.args = Format.args t.value := by
  rw [Telemetry.args, toInt_of_le t.climate.tem_le, toInt_of_le t.climate.hum_le]
  rfl

/-- **the text of the payload is the JSON text of the values** -/
theorem format_payload (t : Telemetry) :
    format fmtPayload t.args = some (Json.print t.value) := by
  rw [t.args_value, fmtPayload_spell t]
  exact Format.format_spell t.value_noPercent

/-! ## lengths -/

theorem litterFsmStateName_length (s : LitterFsmState) :
    (bytes (litterFsmStateName s)).length ≤ 13 := by
  cases s <;> decide

theorem litterFsmFaultName_length (f : LitterFsmFault) :
    (bytes (litterFsmFaultName f)).length ≤ 15 := by
  cases f <;> decide

theorem LitterFsmState.ofInt_length (s : LitterFsmState) :
    (Decimal.ofInt s.toInt).length ≤ 1 := by
  cases s <;> decide

theorem LitterFsmFault.ofInt_length (f : LitterFsmFault) :
    (Decimal.ofInt f.toInt).length ≤ 1 := by
  cases f <;> decide

theorem flag_length (b : Bool) : (Decimal.ofInt b.toInt).length ≤ 1 := by
  cases b <;> decide

/-- a sign and ten digits -/
theorem int32_length (x : BitVec 32) : (Decimal.ofInt x.toInt).length ≤ 11 := by
  have hlo := BitVec.le_toInt x
  have hhi := BitVec.toInt_lt (x := x)
  exact Decimal.ofInt_length (k := 10) (by decide) (by omega)

theorem byte_length {n : Nat} (h : n ≤ 255) : (Decimal.ofInt n).length ≤ 3 :=
  Decimal.ofInt_length_of_nonneg (by decide) (by omega) (by omega)

/-- the keys, the braces and the commas around the values -/
theorem Telemetry.value_length (t : Telemetry) : (Json.print t.value).length ≤
    157 + (t.fields.map fun m => (Json.print m.2).length).sum := by
  have hkeys : (t.fields.map fun m => m.1.length).sum = 99 := by
    simp only [Telemetry.fields, List.map_cons, List.map_nil]
    decide
  have hcount : t.fields.length = 11 := rfl
  have hparams : (bytes "params").length = 6 := by decide
  have hin := Json.print_obj_length t.fields
  have hout := Json.print_obj_length [(bytes "params", .obj t.fields)]
  simp only [List.map_cons, List.map_nil, List.sum_cons, List.sum_nil, List.length_cons,
    List.length_nil, hparams] at hout
  rw [hkeys, hcount] at hin
  rw [Telemetry.value]
  omega

theorem Telemetry.fields_length (t : Telemetry) :
    (t.fields.map fun m => (Json.print m.2).length).sum ≤ 65 := by
  have htem := byte_length t.climate.tem_le
  have hhum := byte_length t.climate.hum_le
  have hweight := int32_length t.curWeight
  have huses := int32_length t.boxUsed
  have hstate := t.state.ofInt_length
  have hstateName := litterFsmStateName_length t.stateNamed
  have hfault := t.faultCode.ofInt_length
  have hfaultName := litterFsmFaultName_length t.faultNamed
  have hlink := flag_length t.linkOnline
  have hfull := flag_length t.binFull
  have hprotect := flag_length t.protectActive
  simp only [Telemetry.fields, List.map_cons, List.map_nil, List.sum_cons, List.sum_nil,
    Json.print, Json.quoted_length]
  omega

/-- **the payload fits** -/
theorem payload_length (t : Telemetry) : (Json.print t.value).length < payloadLen := by
  have h1 := t.value_length
  have h2 := t.fields_length
  unfold payloadLen
  omega

/-! ## the topic -/

def Device.topic (d : Device) : Text :=
  bytes "/sys/" ++ (d.productKey ++ (bytes "/" ++ (d.deviceName ++
    bytes "/thing/event/property/post")))

theorem format_topic (d : Device) : format fmtTopic d.args = some d.topic := by
  have hfmt : fmtTopic = bytes "/sys/" ++ Format.percent :: 115 :: (bytes "/" ++
      Format.percent :: 115 :: (bytes "/thing/event/property/post" ++ [])) := by decide
  have h1 : Format.percent ∉ bytes "/sys/" := by decide
  have h2 : Format.percent ∉ bytes "/" := by decide
  have h3 : Format.percent ∉ bytes "/thing/event/property/post" := by decide
  rw [hfmt, Device.args, Format.format_append h1, Format.format_str, Format.format_append h2,
    Format.format_str, Format.format_append h3]
  simp only [format, Option.map_some, List.append_nil]
  rfl

/-- **the topic fits**: the two conversions take four bytes of the format -/
theorem topic_length (d : Device) : d.topic.length < d.topicLen := by
  have hfmt : fmtTopic.length = 36 := by decide
  have h1 : (bytes "/sys/").length = 5 := by decide
  have h2 : (bytes "/").length = 1 := by decide
  have h3 : (bytes "/thing/event/property/post").length = 26 := by decide
  unfold Device.topic Device.topicLen
  simp only [List.length_append]
  omega

theorem topic_noNul (d : Device) : 0 ∉ d.topic := by
  have h1 : 0 ∉ bytes "/sys/" := by decide
  have h2 : 0 ∉ bytes "/" := by decide
  have h3 : 0 ∉ bytes "/thing/event/property/post" := by decide
  unfold Device.topic
  simp only [List.mem_append, not_or]
  exact ⟨h1, d.productKey_noNul, h2, d.deviceName_noNul, h3⟩

/-! ## a message of one moment -/

/-- what `my_publish` reads when nothing runs in between -/
def Telemetry.now (c : Climate) (curWeight : BitVec 32) (link : Bool) (s : Logic) : Telemetry where
  climate := c
  curWeight := curWeight
  boxUsed := BitVec.ofInt 32 s.boxUsed
  state := sensorLogicGetState s
  stateNamed := sensorLogicGetState s
  faultCode := sensorLogicGetFaultCode s
  faultNamed := sensorLogicGetFaultCode s
  linkOnline := link
  binFull := sensorLogicIsBinFull s
  protectActive := sensorLogicIsProtectActive s

/-- the fault code in such a message goes with its state, at every moment of every run -/
theorem Telemetry.now_fault (c : Climate) (curWeight : BitVec 32) (link : Bool) (g : Gpio)
    (i0 : Inputs) (l : List Step) :
    (Telemetry.now c curWeight link (run g i0 l)).faultCode ∈
      stateFaults (Telemetry.now c curWeight link (run g i0 l)).state :=
  (run_good g i0 l).shows.coherent.fault

/-- and it reports the number of uses, as long as an `int` can -/
theorem Telemetry.now_boxUsed (c : Climate) (curWeight : BitVec 32) (link : Bool) (g : Gpio)
    (i0 : Inputs) (l : List Step) (h : uses g i0 l < 2 ^ 31) :
    (Telemetry.now c curWeight link (run g i0 l)).boxUsed.toInt = uses g i0 l := by
  show (BitVec.ofInt 32 (run g i0 l).boxUsed).toInt = _
  rw [run_boxUsed, BitVec.toInt_ofInt]
  exact Int.bmod_eq_of_le (by omega) (by omega)

/-! ## what is published -/

/-- a text that fits is what the library reads from the buffer -/
theorem halSnprintf_eq {fmt text : Text} {args : List Arg} {n : Nat}
    (h : format fmt args = some text) (hfit : text.length < n) (h0 : 0 ∉ text) :
    ∃ buf, halSnprintf (List.replicate n 0) fmt args = some buf ∧ cstr buf = text := by
  have hbuf : text.length < (List.replicate n (0 : UInt8)).length := by
    rw [List.length_replicate]
    exact hfit
  unfold halSnprintf
  rw [h]
  exact ⟨_, rfl, Format.cstr_snprintf hbuf h0⟩

/-- **what one call publishes**, and that it frees what it takes -/
theorem myPublish_eq (d : Device) (t : Telemetry) (payloadMemory topicMemory : Bool) (res : Int) :
    ∃ r, myPublish d t payloadMemory topicMemory res = some r ∧ r.taken = r.freed ∧
      r.sent = (if payloadMemory && topicMemory then some (d.topic, Json.print t.value)
        else none) := by
  obtain ⟨payload, hp, hpc⟩ := halSnprintf_eq (format_payload t) (payload_length t)
    (Json.zero_notMem_print t.value t.value_plain)
  obtain ⟨topic, ht, htc⟩ := halSnprintf_eq (format_topic d) (topic_length d) (topic_noNul d)
  unfold myPublish
  rw [hp, ht]
  cases payloadMemory with
  | false => exact ⟨_, rfl, rfl, rfl⟩
  | true =>
    cases topicMemory with
    | false => exact ⟨_, rfl, rfl, rfl⟩
    | true =>
      rw [← hpc, ← htc]
      by_cases hr : res < 0
      · exact ⟨⟨-1, some (cstr topic, cstr payload), 2, 2⟩, by simp [hr], rfl, rfl⟩
      · exact ⟨⟨0, some (cstr topic, cstr payload), 2, 2⟩, by simp [hr], rfl, rfl⟩

theorem step_payloadMalloc {p : Session} (hp : p.pc = .payloadMalloc) (a : Answer) :
    p.step a = { p with pc := if a.memory = true then .topicMalloc else .yield } := by
  unfold Session.step
  rw [hp]
  dsimp only
  split
  · rfl
  · rfl

theorem step_topicMalloc {p : Session} (hp : p.pc = .topicMalloc) (a : Answer) :
    p.step a = { p with pc := if a.memory = true then .publish else .yield } := by
  unfold Session.step
  rw [hp]
  dsimp only
  split
  · rfl
  · rfl

theorem step_publish {p : Session} (hp : p.pc = .publish) (a : Answer) :
    p.step a = { p with pc := .yield, calls := .publish none :: p.calls } := by
  unfold Session.step
  rw [hp]
  rfl

/-- the steps of `Mqtt_Task` inside `my_publish` call `IOT_MQTT_Publish_Simple` when it does -/
theorem myPublish_session (d : Device) (t : Telemetry) {p : Session} (hp : p.pc = .payloadMalloc)
    (a b c : Answer) :
    ∃ r l, myPublish d t a.memory b.memory c.res = some r ∧ l <+: [a, b, c] ∧
      (Runs.run Session.step p l).pc = .yield ∧
      (Runs.run Session.step p l).calls =
        (if r.sent.isSome then [.publish none] else []) ++ p.calls := by
  obtain ⟨r, hr, -, hs⟩ := myPublish_eq d t a.memory b.memory c.res
  have h1 := step_payloadMalloc hp a
  cases ha : a.memory with
  | false =>
    rw [ha] at hr hs h1
    refine ⟨r, [a], hr, List.prefix_append [a] [b, c], ?_⟩
    rw [Runs.run_cons, Runs.run_nil, h1, hs]
    exact ⟨rfl, rfl⟩
  | true =>
    rw [ha] at hr hs h1
    have h2 := step_topicMalloc (p := p.step a) (by rw [h1]; rfl) b
    cases hb : b.memory with
    | false =>
      rw [hb] at hr hs h2
      refine ⟨r, [a, b], hr, List.prefix_append [a, b] [c], ?_⟩
      rw [Runs.run_cons, Runs.run_cons, Runs.run_nil, h2, h1, hs]
      exact ⟨rfl, rfl⟩
    | true =>
      rw [hb] at hr hs h2
      have h3 := step_publish (p := (p.step a).step b) (by rw [h2]; rfl) c
      refine ⟨r, [a, b, c], hr, List.prefix_rfl, ?_⟩
      rw [Runs.run_cons, Runs.run_cons, Runs.run_cons, Runs.run_nil, h3, h2, h1, hs]
      exact ⟨rfl, rfl⟩

/-- **the payload says what was passed**: it fits its buffer, the topic fits its own, what is
published is the text formatted, and that text is a JSON object with the eleven fields -/
theorem telemetry_decodable (d : Device) (t : Telemetry) :
    ∃ payload topic,
      format fmtPayload t.args = some payload ∧ payload.length + 1 ≤ payloadLen ∧
      format fmtTopic d.args = some topic ∧ topic.length + 1 ≤ d.topicLen ∧
      (∀ payloadMemory topicMemory res, ∃ r,
        myPublish d t payloadMemory topicMemory res = some r ∧
        r.sent = (if payloadMemory && topicMemory then some (topic, payload) else none)) ∧
      Json.parse payload = some (.obj [(bytes "params", .obj t.fields)]) := by
  have hp := Nat.succ_le_of_lt (payload_length t)
  have ht := Nat.succ_le_of_lt (topic_length d)
  have hparse := Json.parse_print t.value_plain
  refine ⟨Json.print t.value, d.topic, format_payload t, hp, format_topic d, ht, ?_, hparse⟩
  intro payloadMemory topicMemory res
  obtain ⟨r, hr, -, hs⟩ := myPublish_eq d t payloadMemory topicMemory res
  exact ⟨r, hr, hs⟩

end LitterBox
