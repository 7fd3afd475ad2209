import LitterBox.Fsm.Model
import LitterBox.Kernel.Mailbox
import LitterBox.Kernel.Semaphore
import LitterBox.Net.Telemetry

/-!
# From the sensor to the control task: `app_logic/app_init.c`

`ReadSensor_Task` sends each reading as two mails in two mailboxes and then releases a semaphore;
`StartControl_Task` takes the semaphore and receives from both (`Sensor_Logic_UpdateInputs`).  The
two tasks run in any interleaving of their calls into the kernel; the timer of the control task may
expire at any time.

Neither call of `rt_mb_send` is looked at by the sensor task, so a full box costs a mail, and the
boxes are out of step from then on.  As long as no send is refused:

* `Aligned`           the two boxes and the semaphore agree, an invariant of both tasks;
* `readings_arrive`   `cur_tem` and `cur_hum` are one reading, and no reading is lost or doubled.
-/

namespace LitterBox

/-! ## calls that do not wait -/

/-- `rt_mb_send` to a box without receivers -/
def rtMbSend (value : BitVec 32) (mb : RtMailbox) : RtMailbox × RtErr :=
  if mb.entry = mb.size then (mb, .efull) else mb.put value

/-- `rt_mb_recv` with `RT_WAITING_NO` from a box without senders -/
def rtMbRecvNo (mb : RtMailbox) : RtMailbox × Option (BitVec 32) :=
  if mb.entry = 0 then (mb, none) else (mb.take.1, some mb.take.2)

theorem rtMbSend_eq {s : MbSystem} (hs : s.suspendThread = []) (prio : Nat → BitVec 8)
    (now : BitVec 32) (t : Nat) (v : BitVec 32) :
    rtMbSendWait prio now ⟨t, 0, 0, v⟩ s =
      ({ s with mb := (rtMbSend v s.mb).1 },
        some (if (rtMbSend v s.mb).2 = .eok then .sent v else .full)) := by
  unfold rtMbSendWait rtMbSend
  by_cases hf : s.mb.entry = s.mb.size
  · rw [if_pos hf, if_pos rfl, if_pos hf]
    rfl
  · rw [if_neg hf, if_neg hf]
    dsimp only
    by_cases he : (s.mb.put v).2 = .eok
    · rw [if_pos he, if_pos he]
      unfold MbSystem.resumeReceiver
      dsimp only
      rw [hs]
    · rw [if_neg he, if_neg he]

theorem rtMbRecvNo_eq {s : MbSystem} (hs : s.suspendSenderThread = []) (prio : Nat → BitVec 8)
    (now : BitVec 32) (t : Nat) :
    rtMbRecv prio now ⟨t, 0, 0, ()⟩ s =
      ({ s with mb := (rtMbRecvNo s.mb).1 },
        some (((rtMbRecvNo s.mb).2.map MbReturn.received).getD .empty)) := by
  unfold rtMbRecv rtMbRecvNo
  by_cases he : s.mb.entry = 0
  · rw [if_pos he, if_pos rfl, if_pos he]
    rfl
  · rw [if_neg he, if_neg he]
    unfold MbSystem.resumeSender
    dsimp only
    rw [hs]
    rfl

/-! ## the tasks -/

/-- the next call of `ReadSensor_Task` -/
inductive SensorPc where
  | read
  | sendTem
  | sendHum
  | release
  deriving DecidableEq, Repr

/-- the next call of `StartControl_Task`; `waiting` is amid `rt_sem_take` -/
inductive ControlPc where
  | take
  | waiting
  | recvTem
  | recvHum
  | running
  deriving DecidableEq, Repr

/-- the variables of `app_init.c` and `logic.c` that the readings go through -/
structure Pipeline where
  climate : Climate
  sensorPc : SensorPc
  temMb : RtMailbox
  humMb : RtMailbox
  dynamicSem : SemSystem
  controlPc : ControlPc
  curTem : BitVec 32
  curHum : BitVec 32

/-- `sizeof(mb_tem_pool)`, and of the other pool -/
def mbPoolSize : BitVec 32 := 128

/-- `start_rt_thread`, with any contents of the pools -/
def startRtThread (mbTemPool mbHumPool : Nat → BitVec 32) : Pipeline where
  climate := ⟨0, 0, by decide, by decide⟩
  sensorPc := .read
  temMb := rtMbInit mbTemPool (mbPoolSize / 4)
  humMb := rtMbInit mbHumPool (mbPoolSize / 4)
  dynamicSem := .start 0 .prio
  controlPc := .take
  curTem := 0
  curHum := 0

/-- `ReadSensor_Task` up to its next call into the kernel, and what `rt_mb_send` returned; only this
task takes the mutex -/
def sensorTaskStep (temp : BitVec 32) (s : Pipeline) : Pipeline × RtErr :=
  match s.sensorPc with
  | .read => ({ s with climate := readSensorTask temp s.climate, sensorPc := .sendTem }, .eok)
  | .sendTem =>
    let p := rtMbSend s.climate.tem s.temMb
    ({ s with temMb := p.1, sensorPc := .sendHum }, p.2)
  | .sendHum =>
    let p := rtMbSend s.climate.hum s.humMb
    ({ s with humMb := p.1, sensorPc := .release }, p.2)
  | .release => ({ s with dynamicSem := (rtSemRelease s.dynamicSem).1, sensorPc := .read }, .eok)

/-- the thread number of the control task -/
def controlTask : Nat := 0

/-- `CONTROL_PRIORITY` -/
def controlPriority : Nat → BitVec 8 := fun _ => 14

/-- `rt_sem_take` has returned, or the task waits -/
def ControlPc.after : Option RtErr → ControlPc
  | some .eok => .recvTem
  | some _ => .running
  | none => .waiting

/-- `StartControl_Task` up to its next call into the kernel -/
def startControlTask (s : Pipeline) : Pipeline :=
  match s.controlPc with
  | .take =>
    let p := rtSemTake controlPriority controlTask (rtTickFromMillisecond 10) s.dynamicSem
    { s with dynamicSem := p.1, controlPc := .after p.2 }
  | .waiting =>
    let p := rtSemTakeResumed controlTask s.dynamicSem
    { s with dynamicSem := p.1, controlPc := .after p.2 }
  | .recvTem =>
    let p := rtMbRecvNo s.temMb
    { s with temMb := p.1, curTem := p.2.getD s.curTem, controlPc := .recvHum }
  | .recvHum =>
    let p := rtMbRecvNo s.humMb
    { s with humMb := p.1, curHum := p.2.getD s.curHum, controlPc := .running }
  | .running => { s with controlPc := .take }

/-- who makes the next call -/
inductive PipeCall where
  | sensor (temp : BitVec 32)
  | control
  | timerExpires
  deriving DecidableEq, Repr

def Pipeline.step (s : Pipeline) : PipeCall → Pipeline
  | .sensor temp => (sensorTaskStep temp s).1
  | .control => startControlTask s
  | .timerExpires => { s with dynamicSem := semThreadTimeout controlTask s.dynamicSem }

/-- **a run**: any interleaving -/
def pipeRun (mbTemPool mbHumPool : Nat → BitVec 32) (l : List PipeCall) : Pipeline :=
  Runs.run Pipeline.step (startRtThread mbTemPool mbHumPool) l

/-! ## the readings of a run -/

/-- the readings sent, those received, and the number of sends refused -/
structure Readings where
  sent : List (BitVec 32 × BitVec 32)
  got : List (BitVec 32 × BitVec 32)
  refused : Nat
  deriving DecidableEq, Repr

/-- the reading is complete with the second mail -/
def SensorPc.sends (x : BitVec 32 × BitVec 32) : SensorPc → List (BitVec 32 × BitVec 32)
  | .sendHum => [x]
  | _ => []

/-- the reading has come with the second mail -/
def ControlPc.gets (x : BitVec 32 × BitVec 32) : ControlPc → List (BitVec 32 × BitVec 32)
  | .recvHum => [x]
  | _ => []

def Readings.note (s : Pipeline) (c : PipeCall) (o : Readings) : Readings :=
  match c with
  | .sensor temp =>
    { o with
      sent := o.sent ++ s.sensorPc.sends (s.climate.tem, s.climate.hum)
      refused := if (sensorTaskStep temp s).2 = .eok then o.refused else o.refused + 1 }
  | .control => { o with got := o.got ++ s.controlPc.gets (s.curTem, (s.step c).curHum) }
  | .timerExpires => o

def readings (mbTemPool mbHumPool : Nat → BitVec 32) (l : List PipeCall) : Readings :=
  Runs.observe Pipeline.step Readings.note (startRtThread mbTemPool mbHumPool) ⟨[], [], 0⟩ l

/-! ## the boxes and the semaphore -/

/-- the control task has taken a token and has yet to receive -/
def ControlPc.holds : ControlPc → Nat
  | .recvTem => 1
  | .recvHum => 1
  | _ => 0

/-- the sensor task has sent a reading and has yet to release the semaphore -/
def SensorPc.owes : SensorPc → Nat
  | .release => 1
  | _ => 0

/-- the temperature that is in its box before its reading is complete -/
def SensorPc.ahead (tem : BitVec 32) : SensorPc → List (BitVec 32)
  | .sendHum => [tem]
  | _ => []

/-- of the readings `p` under way, those whose temperature is in its box -/
def ControlPc.left (p : List (BitVec 32 × BitVec 32)) : ControlPc → List (BitVec 32 × BitVec 32)
  | .recvHum => p.tail
  | _ => p

/-- the temperatures in their box, if the readings `p` are under way -/
def Pipeline.temMails (s : Pipeline) (p : List (BitVec 32 × BitVec 32)) : List (BitVec 32) :=
  (s.controlPc.left p).map Prod.fst ++ s.sensorPc.ahead s.climate.tem

/-- **the invariant**: `p` are the readings sent and not yet received -/
structure Aligned (s : Pipeline) (o : Readings) (p : List (BitVec 32 × BitVec 32)) : Prop where
  sent : o.sent = o.got ++ p
  temSize : s.temMb.size.toNat = 32
  humSize : s.humMb.size.toNat = 32
  tem : s.temMb.Holds (s.temMails p)
  hum : s.humMb.Holds (p.map Prod.snd)
  tokens : ∃ b : SemLedger, s.dynamicSem.Balanced b ∧ b.put + s.sensorPc.owes = o.sent.length ∧
    b.got = o.got.length + s.controlPc.holds
  settled : s.controlPc ≠ .recvHum → (s.curTem, s.curHum) = o.got.getLastD (0, 0)
  amid : s.controlPc = .recvHum → ∃ x ∈ p.head?, s.curTem = x.1

section aligned

variable {s : Pipeline} {o : Readings} {p : List (BitVec 32 × BitVec 32)}

/-- a token stands for a reading under way -/
theorem Aligned.token (h : Aligned s o p) (hc : s.controlPc.holds = 1) : ∃ x q, p = x :: q := by
  obtain ⟨b, hb, hput, hgot⟩ := h.tokens
  have htok := hb.tokens
  have hlen : o.sent.length = o.got.length + p.length := by rw [h.sent, List.length_append]
  cases p with
  | nil =>
    rw [List.length_nil] at hlen
    omega
  | cons x q => exact ⟨x, q, rfl⟩

theorem Aligned.few (h : Aligned s o p) : p.length ≤ 32 := by
  have hle := h.hum.ring.fits
  rw [h.humSize, List.length_map] at hle
  exact hle

/-- `rt_mb_send` that is not refused -/
theorem rtMbSend_holds {mb : RtMailbox} {q : List (BitVec 32)} {v : BitVec 32} (h : mb.Holds q)
    (hv : (rtMbSend v mb).2 = .eok) :
    (rtMbSend v mb).1.Holds (q ++ [v]) ∧ (rtMbSend v mb).1.size = mb.size := by
  unfold rtMbSend at hv ⊢
  by_cases hf : mb.entry = mb.size
  · rw [if_pos hf] at hv
    cases hv
  · rw [if_neg hf] at hv ⊢
    have hlt : q.length < mb.size.toNat :=
      Nat.lt_of_le_of_ne h.ring.fits fun e => hf (h.full_iff.mpr e)
    exact (h.put hlt v).2

/-- `rt_mb_recv` that finds a mail -/
theorem rtMbRecvNo_holds {mb : RtMailbox} {q : List (BitVec 32)} {v : BitVec 32}
    (h : mb.Holds (v :: q)) :
    (rtMbRecvNo mb).2 = some v ∧ (rtMbRecvNo mb).1.Holds q ∧ (rtMbRecvNo mb).1.size = mb.size := by
  have hne : mb.entry ≠ 0 := fun e => by cases h.empty_iff.mp e
  obtain ⟨hv, hh⟩ := h.take
  unfold rtMbRecvNo
  rw [if_neg hne]
  exact ⟨congrArg some hv, hh, rfl⟩

theorem ControlPc.left_append {c : ControlPc} {x : BitVec 32 × BitVec 32}
    (hc : c.holds = 1 → p ≠ []) : c.left (p ++ [x]) = c.left p ++ [x] := by
  cases c with
  | recvHum => exact List.tail_append_of_ne_nil (hc rfl)
  | _ => rfl

/-- **the sensor task** -/
theorem Aligned.sensor (h : Aligned s o p) (temp : BitVec 32)
    (hr : (sensorTaskStep temp s).2 = .eok) :
    ∃ p', Aligned (s.step (.sensor temp)) (o.note s (.sensor temp)) p' := by
  have htem := h.tem
  unfold Pipeline.temMails at htem
  obtain ⟨b, hb, hput, hgot⟩ := h.tokens
  unfold Pipeline.step Readings.note
  dsimp only
  rw [if_pos hr]
  unfold sensorTaskStep at hr ⊢
  cases hpc : s.sensorPc with
  | read =>
    rw [hpc] at htem hput
    exact ⟨p, (List.append_nil _).trans h.sent, h.temSize, h.humSize, htem, h.hum,
      ⟨b, hb, hput.trans (congrArg List.length (List.append_nil o.sent)).symm, hgot⟩, h.settled,
      h.amid⟩
  | sendTem =>
    rw [hpc] at htem hput hr
    rw [show SensorPc.ahead s.climate.tem .sendTem = [] from rfl, List.append_nil] at htem
    obtain ⟨hh, hs⟩ := rtMbSend_holds htem hr
    exact ⟨p, (List.append_nil _).trans h.sent, (congrArg BitVec.toNat hs).trans h.temSize,
      h.humSize, hh, h.hum,
      ⟨b, hb, hput.trans (congrArg List.length (List.append_nil o.sent)).symm, hgot⟩, h.settled,
      h.amid⟩
  | sendHum =>
    rw [hpc] at htem hput hr
    obtain ⟨hh, hs⟩ := rtMbSend_holds h.hum hr
    have hne : s.controlPc.holds = 1 → p ≠ [] := by
      intro hc
      obtain ⟨x, q, rfl⟩ := h.token hc
      exact List.cons_ne_nil x q
    refine ⟨p ++ [(s.climate.tem, s.climate.hum)], ?_, h.temSize,
      (congrArg BitVec.toNat hs).trans h.humSize, ?_, ?_, ⟨b, hb, ?_, hgot⟩, h.settled,
      fun hc => ?_⟩
    · show o.sent ++ [(s.climate.tem, s.climate.hum)] = _
      rw [h.sent, List.append_assoc]
    · show s.temMb.Holds
        ((s.controlPc.left (p ++ [(s.climate.tem, s.climate.hum)])).map Prod.fst ++ [])
      rw [List.append_nil, ControlPc.left_append hne, List.map_append]
      exact htem
    · rw [List.map_append]
      exact hh
    · show b.put + 1 = (o.sent ++ [(s.climate.tem, s.climate.hum)]).length
      rw [List.length_append, ← hput]
      rfl
    · obtain ⟨x, hx, e⟩ := h.amid hc
      refine ⟨x, ?_, e⟩
      cases p with
      | nil => cases hx
      | cons y q => exact hx
  | release =>
    rw [hpc] at htem hput
    have hrel := release_balanced hb
    have hok : (rtSemRelease s.dynamicSem).2 = some .eok := by
      have htok := hb.tokens
      have hfew := h.few
      have hlen : o.sent.length = o.got.length + p.length := by rw [h.sent, List.length_append]
      have howes : SensorPc.owes .release = 1 := rfl
      unfold rtSemRelease
      split
      · rfl
      · rw [if_pos]
        unfold rtSemValueMax
        bv_omega
    rw [hok] at hrel
    refine ⟨p, (List.append_nil _).trans h.sent, h.temSize, h.humSize, htem, h.hum,
      ⟨_, hrel, ?_, hgot⟩, h.settled, h.amid⟩
    show b.put + 1 + 0 = (o.sent ++ []).length
    rw [List.append_nil]
    exact hput

/-- the control task, at or amid `rt_sem_take` -/
theorem Aligned.took (h : Aligned s o p) {m : SemSystem} {r : Option RtErr}
    (hb : ∀ b, s.dynamicSem.Balanced b → m.Balanced (b.take r))
    (hc : s.controlPc = .take ∨ s.controlPc = .waiting) :
    Aligned { s with dynamicSem := m, controlPc := .after r } { o with got := o.got ++ [] } p := by
  obtain ⟨b, hbal, hput, hgot⟩ := h.tokens
  have hholds : s.controlPc.holds = 0 := by rcases hc with e | e <;> rw [e] <;> rfl
  have hne : s.controlPc ≠ .recvHum := by rcases hc with e | e <;> rw [e] <;> nofun
  have hleft : ∀ c : ControlPc, c ≠ .recvHum → c.left p = p := by
    intro c hc
    cases c with
    | recvHum => exact absurd rfl hc
    | _ => rfl
  have hafter : ControlPc.after r ≠ .recvHum := by
    cases r with
    | none => nofun
    | some e => cases e <;> nofun
  have htem := h.tem
  unfold Pipeline.temMails at htem
  rw [hleft _ hne] at htem
  rw [List.append_nil]
  refine ⟨h.sent, h.temSize, h.humSize, ?_, h.hum, ⟨b.take r, hb b hbal, ?_, ?_⟩,
    fun _ => h.settled hne, fun e => absurd e hafter⟩
  · show s.temMb.Holds
      (((ControlPc.after r).left p).map Prod.fst ++ s.sensorPc.ahead s.climate.tem)
    rw [hleft _ hafter]
    exact htem
  · unfold SemLedger.take
    split <;> exact hput
  · show (b.take r).got = o.got.length + (ControlPc.after r).holds
    rw [hholds, Nat.add_zero] at hgot
    unfold SemLedger.take
    cases r with
    | none => exact hgot
    | some e =>
      cases e with
      | eok => exact congrArg (· + 1) hgot
      | _ => exact hgot

/-- **the control task** -/
theorem Aligned.control (h : Aligned s o p) :
    ∃ p', Aligned (s.step .control) (o.note s .control) p' := by
  have htem := h.tem
  unfold Pipeline.temMails at htem
  obtain ⟨b, hb, hput, hgot⟩ := h.tokens
  unfold Readings.note
  dsimp only
  unfold Pipeline.step startControlTask
  dsimp only
  cases hpc : s.controlPc with
  | take =>
    exact ⟨p, h.took (fun _ hb => take_balanced hb _ _) (Or.inl hpc)⟩
  | waiting =>
    exact ⟨p, h.took (fun _ hb => goOn_balanced hb _) (Or.inr hpc)⟩
  | recvTem =>
    rw [hpc] at htem hgot
    obtain ⟨x, q, rfl⟩ := h.token (by rw [hpc]; rfl)
    obtain ⟨hv, hh, hs⟩ := rtMbRecvNo_holds (v := x.1)
      (q := q.map Prod.fst ++ s.sensorPc.ahead s.climate.tem) htem
    dsimp only
    rw [hv]
    rw [show ControlPc.gets _ .recvTem = [] from rfl, List.append_nil]
    exact ⟨x :: q, h.sent, (congrArg BitVec.toNat hs).trans h.temSize, h.humSize, hh, h.hum,
      ⟨b, hb, hput, hgot⟩, nofun, fun _ => ⟨x, rfl, rfl⟩⟩
  | recvHum =>
    rw [hpc] at htem hgot
    obtain ⟨x, q, rfl⟩ := h.token (by rw [hpc]; rfl)
    obtain ⟨y, hy, hcur⟩ := h.amid hpc
    obtain rfl : x = y := Option.some.inj hy
    obtain ⟨hv, hh, hs⟩ := rtMbRecvNo_holds (v := x.2) (q := q.map Prod.snd) h.hum
    dsimp only
    rw [hv]
    have hx : (s.curTem, x.2) = x := by rw [hcur]
    refine ⟨q, ?_, h.temSize, (congrArg BitVec.toNat hs).trans h.humSize, htem, hh,
      ⟨b, hb, hput, ?_⟩, fun _ => ?_, nofun⟩
    · show o.sent = (o.got ++ [(s.curTem, x.2)]) ++ q
      rw [hx, List.append_assoc]
      exact h.sent
    · show b.got = (o.got ++ [(s.curTem, x.2)]).length + 0
      rw [List.length_append]
      exact hgot
    · show (s.curTem, x.2) = (o.got ++ [(s.curTem, x.2)]).getLastD (0, 0)
      rw [List.getLastD_concat]
  | running =>
    rw [hpc] at htem hgot
    rw [show ControlPc.gets _ .running = [] from rfl, List.append_nil]
    exact ⟨p, h.sent, h.temSize, h.humSize, htem, h.hum, ⟨b, hb, hput, hgot⟩,
      fun _ => h.settled (by rw [hpc]; nofun), nofun⟩

/-- **one call of either task** -/
theorem Aligned.step (h : Aligned s o p) (c : PipeCall)
    (hr : (o.note s c).refused = o.refused) : ∃ p', Aligned (s.step c) (o.note s c) p' := by
  cases c with
  | sensor temp =>
    refine h.sensor temp ?_
    by_contra he
    have e : (o.note s (.sensor temp)).refused = o.refused + 1 := if_neg he
    omega
  | control => exact h.control
  | timerExpires =>
    obtain ⟨b, hb, hput, hgot⟩ := h.tokens
    exact ⟨p, h.sent, h.temSize, h.humSize, h.tem, h.hum,
      ⟨b, timeout_balanced hb controlTask, hput, hgot⟩, h.settled, h.amid⟩

end aligned

theorem startRtThread_aligned (mbTemPool mbHumPool : Nat → BitVec 32) :
    Aligned (startRtThread mbTemPool mbHumPool) ⟨[], [], 0⟩ [] where
  sent := rfl
  temSize := rfl
  humSize := rfl
  tem := rtMbInit_holds mbTemPool _
  hum := rtMbInit_holds mbHumPool _
  tokens := ⟨⟨0, 0⟩, ⟨rfl, fun _ => rfl⟩, rfl, rfl⟩
  settled := fun _ => rfl
  amid := nofun

theorem note_refused (s : Pipeline) (c : PipeCall) (o : Readings) :
    o.refused ≤ (o.note s c).refused := by
  cases c with
  | sensor temp =>
    show o.refused ≤ if (sensorTaskStep temp s).2 = .eok then o.refused else o.refused + 1
    split
    · exact Nat.le_refl _
    · exact Nat.le_succ _
  | _ => exact Nat.le_refl _

/-- **One reading at a time.**  In every interleaving of the two tasks in which no send is refused,
the readings arrive in their order, none lost and none doubled; outside the two receives `cur_tem`
and `cur_hum` are the last reading that arrived; and a task that took the semaphore finds its
reading there. -/
theorem readings_arrive (mbTemPool mbHumPool : Nat → BitVec 32) (l : List PipeCall)
    (hr : (readings mbTemPool mbHumPool l).refused = 0) :
    let s := pipeRun mbTemPool mbHumPool l
    let o := readings mbTemPool mbHumPool l
    ∃ p, o.sent = o.got ++ p ∧ p.length ≤ 32 ∧
      (s.controlPc ≠ .recvHum → (s.curTem, s.curHum) = o.got.getLastD (0, 0)) ∧
      (s.controlPc = .recvTem ∨ s.controlPc = .recvHum → p ≠ []) := by
  intro s o
  have h : ∃ p, Aligned s o p := by
    induction l using List.reverseRecOn with
    | nil => exact ⟨[], startRtThread_aligned mbTemPool mbHumPool⟩
    | append_singleton l c ih =>
      have es : s = (pipeRun mbTemPool mbHumPool l).step c := Runs.run_snoc _ _ l c
      have eo : o = (readings mbTemPool mbHumPool l).note (pipeRun mbTemPool mbHumPool l) c :=
        Runs.observe_snoc _ _ _ _ l c
      have hle := note_refused (pipeRun mbTemPool mbHumPool l) c (readings mbTemPool mbHumPool l)
      have hz : o.refused = 0 := hr
      rw [eo] at hz
      obtain ⟨p, hp⟩ := ih (by omega)
      rw [es, eo]
      exact hp.step c (by omega)
  obtain ⟨p, hp⟩ := h
  refine ⟨p, hp.sent, hp.few, hp.settled, fun hc => ?_⟩
  obtain ⟨x, q, rfl⟩ := hp.token (by rcases hc with e | e <;> rw [e] <;> rfl)
  exact List.cons_ne_nil x q

/-- two readings, the second one sent while the control task is amid its two receives -/
theorem readings_arrive_two :
    ∃ p, (readings (fun _ => 0) (fun _ => 0) ([.sensor 0x370018, .sensor 0, .sensor 0, .sensor 0,
        .control, .control, .sensor 0x380019, .sensor 0, .control])).sent =
      (readings (fun _ => 0) (fun _ => 0) ([.sensor 0x370018, .sensor 0, .sensor 0, .sensor 0,
        .control, .control, .sensor 0x380019, .sensor 0, .control])).got ++ p := by
  obtain ⟨p, h, -⟩ := readings_arrive (fun _ => 0) (fun _ => 0) [.sensor 0x370018, .sensor 0,
    .sensor 0, .sensor 0, .control, .control, .sensor 0x380019, .sensor 0, .control] (by decide)
  exact ⟨p, h⟩

end LitterBox
