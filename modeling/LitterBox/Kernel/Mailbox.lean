import LitterBox.Kernel.Ipc
import LitterBox.Lib.Clock
import LitterBox.Lib.Ring
import LitterBox.Lib.Runs

/-!
# Mailboxes of `rt-thread/src/ipc.c`

A mailbox is a ring of words with two lists of suspended threads, the receivers of an empty box and
the senders of a full one.  A thread that was resumed tries again, so it may find that another one
was faster.  As for semaphores, a run is a list of atomic sections of any threads in any order.

* `RtMailbox.put`, `.putFront`, `.take`   what the calls do to the ring;
* `MbSystem.exec`                         one section, and what the call in it returns;
* `MbRequest.answer`                      what a bounded deque answers;
* `mailbox_refines`                       every section returns what the deque answers to its call;
* `mailbox_fifo`                          without urgent mails every mail arrives once, in order;
* `mailbox_wakes`                         no thread is left waiting for what is there.
-/

namespace LitterBox

/-! ## the ring -/

/-- `RT_MB_ENTRY_MAX` -/
def rtMbEntryMax : BitVec 16 := 0xffff

/-- `struct rt_mailbox`, less its name and the lists of threads -/
structure RtMailbox where
  msgPool : Nat → BitVec 32
  size : BitVec 16
  entry : BitVec 16
  inOffset : BitVec 16
  outOffset : BitVec 16

/-- `rt_mb_init` -/
def rtMbInit (msgpool : Nat → BitVec 32) (size : BitVec 32) : RtMailbox where
  msgPool := msgpool
  size := size.setWidth 16
  entry := 0
  inOffset := 0
  outOffset := 0

/-- `++offset`, and back to `0` at the end of the pool -/
def RtMailbox.bump (mb : RtMailbox) (offset : BitVec 16) : BitVec 16 :=
  if mb.size ≤ offset + 1 then 0 else offset + 1

/-- `rt_mb_send_wait` once there is room -/
def RtMailbox.put (value : BitVec 32) (mb : RtMailbox) : RtMailbox × RtErr :=
  let mb := { mb with
    msgPool := Function.update mb.msgPool mb.inOffset.toNat value
    inOffset := mb.bump mb.inOffset }
  if mb.entry < rtMbEntryMax then ({ mb with entry := mb.entry + 1 }, .eok) else (mb, .efull)

/-- `rt_mb_urgent` once there is room -/
def RtMailbox.putFront (value : BitVec 32) (mb : RtMailbox) : RtMailbox :=
  let outOffset := if 0 < mb.outOffset then mb.outOffset - 1 else mb.size - 1
  { mb with
    outOffset := outOffset
    msgPool := Function.update mb.msgPool outOffset.toNat value
    entry := mb.entry + 1 }

/-- `rt_mb_recv` once there is a mail -/
def RtMailbox.take (mb : RtMailbox) : RtMailbox × BitVec 32 :=
  ({ mb with
    outOffset := mb.bump mb.outOffset
    entry := if 0 < mb.entry then mb.entry - 1 else mb.entry }, mb.msgPool mb.outOffset.toNat)

/-- **the mailbox holds the mails** `q`, oldest first -/
structure RtMailbox.Holds (mb : RtMailbox) (q : List (BitVec 32)) : Prop where
  ring : Ring.Holds mb.size.toNat mb.msgPool mb.outOffset.toNat mb.inOffset.toNat q
  entry : mb.entry.toNat = q.length

section ring

variable {mb : RtMailbox} {q : List (BitVec 32)}

theorem rtMbInit_holds (msgpool : Nat → BitVec 32) (size : BitVec 32) :
    (rtMbInit msgpool size).Holds [] :=
  ⟨Ring.Holds.empty _ _, rfl⟩

theorem RtMailbox.bump_toNat {offset : BitVec 16} (h : offset.toNat < mb.size.toNat) :
    (mb.bump offset).toNat = Ring.next mb.size.toNat offset.toNat := by
  have hs := mb.size.isLt
  have hadd : (offset + 1).toNat = offset.toNat + 1 := by bv_omega
  unfold RtMailbox.bump Ring.next
  by_cases hle : mb.size ≤ offset + 1
  · rw [if_pos hle, if_pos (by bv_omega)]
    rfl
  · rw [if_neg hle, if_neg (by bv_omega)]
    exact hadd

theorem RtMailbox.Holds.full_iff (h : mb.Holds q) :
    mb.entry = mb.size ↔ q.length = mb.size.toNat := by
  rw [← h.entry]
  exact ⟨fun e => by rw [e], fun e => BitVec.eq_of_toNat_eq e⟩

theorem RtMailbox.Holds.empty_iff (h : mb.Holds q) : mb.entry = 0 ↔ q = [] := by
  rw [← List.length_eq_zero_iff, ← h.entry]
  exact ⟨fun e => by rw [e]; rfl, fun e => BitVec.eq_of_toNat_eq e⟩

/-- **a mail put in** is the last one; the overflow of the counter does not occur -/
theorem RtMailbox.Holds.put (h : mb.Holds q) (hlt : q.length < mb.size.toNat) (v : BitVec 32) :
    (mb.put v).2 = .eok ∧ (mb.put v).1.Holds (q ++ [v]) ∧ (mb.put v).1.size = mb.size := by
  have hs := mb.size.isLt
  have he := h.entry
  have hin := h.ring.inn_lt hlt
  have hmax : mb.entry < rtMbEntryMax := by
    unfold rtMbEntryMax
    bv_omega
  unfold RtMailbox.put
  dsimp only
  rw [if_pos hmax]
  refine ⟨rfl, ⟨?_, ?_⟩, rfl⟩
  · show Ring.Holds mb.size.toNat _ mb.outOffset.toNat (mb.bump mb.inOffset).toNat _
    rw [RtMailbox.bump_toNat hin]
    exact h.ring.push hlt v
  · rw [List.length_append, ← he]
    show (mb.entry + 1).toNat = mb.entry.toNat + 1
    bv_omega

/-- **an urgent mail** is the first one -/
theorem RtMailbox.Holds.putFront (h : mb.Holds q) (hlt : q.length < mb.size.toNat)
    (v : BitVec 32) : (mb.putFront v).Holds (v :: q) := by
  have hs := mb.size.isLt
  have he := h.entry
  have hout := h.ring.start
  have hprev : (if 0 < mb.outOffset then mb.outOffset - 1 else mb.size - 1).toNat =
      Ring.prev mb.size.toNat mb.outOffset.toNat := by
    unfold Ring.prev
    split
    next hp =>
      rw [if_pos (by bv_omega)]
      bv_omega
    next hp =>
      rw [if_neg (by bv_omega)]
      bv_omega
  refine ⟨?_, ?_⟩
  · show Ring.Holds mb.size.toNat (Function.update mb.msgPool
      (if 0 < mb.outOffset then mb.outOffset - 1 else mb.size - 1).toNat v)
      (if 0 < mb.outOffset then mb.outOffset - 1 else mb.size - 1).toNat mb.inOffset.toNat _
    rw [hprev]
    exact h.ring.unpop hlt v
  · show (mb.entry + 1).toNat = q.length + 1
    bv_omega

/-- **a mail taken out** is the first one -/
theorem RtMailbox.Holds.take {v : BitVec 32} (h : mb.Holds (v :: q)) :
    mb.take.2 = v ∧ mb.take.1.Holds q := by
  have he := h.entry
  have hout := h.ring.out_lt (List.cons_ne_nil v q)
  obtain ⟨hv, hr⟩ := h.ring.pop
  refine ⟨hv, ⟨?_, ?_⟩⟩
  · show Ring.Holds mb.size.toNat mb.msgPool (mb.bump mb.outOffset).toNat mb.inOffset.toNat q
    rw [RtMailbox.bump_toNat hout]
    exact hr
  · have hlen : mb.entry.toNat = q.length + 1 := he
    show (if 0 < mb.entry then mb.entry - 1 else mb.entry).toNat = q.length
    rw [if_pos (by bv_omega)]
    bv_omega

/-- only the cells of the pool are written -/
theorem RtMailbox.Holds.put_outside (h : mb.Holds q) (hlt : q.length < mb.size.toNat)
    (v : BitVec 32) {i : Nat} (hi : mb.size.toNat ≤ i) :
    (mb.put v).1.msgPool i = mb.msgPool i := by
  have hin := h.ring.inn_lt hlt
  have hne : i ≠ mb.inOffset.toNat := by omega
  unfold RtMailbox.put
  dsimp only
  split <;> exact Function.update_of_ne hne _ _

theorem RtMailbox.Holds.putFront_outside (h : mb.Holds q) (hlt : q.length < mb.size.toNat)
    (v : BitVec 32) {i : Nat} (hi : mb.size.toNat ≤ i) :
    (mb.putFront v).msgPool i = mb.msgPool i := by
  have hout := (h.putFront hlt v).ring.out_lt (List.cons_ne_nil v q)
  have hout' : (mb.putFront v).outOffset.toNat < mb.size.toNat := hout
  have hne : i ≠ (mb.putFront v).outOffset.toNat := by omega
  exact Function.update_of_ne hne _ _

end ring

/-! ## the calls -/

/-- a suspended call: its thread and its variables -/
structure Pending (α : Type) where
  thread : Nat
  timeout : BitVec 32
  tickDelta : BitVec 32
  value : α
  deriving DecidableEq, Repr

/-- `timeout` after a wait that may have cost time -/
def Pending.again {α : Type} (now : BitVec 32) (w : Pending α) : Pending α :=
  if 0 < w.timeout.toInt then
    let tickDelta := now - w.tickDelta
    let timeout := w.timeout - tickDelta
    { w with tickDelta := tickDelta, timeout := if timeout.toInt < 0 then 0 else timeout }
  else w

/-- the thread is about to be suspended; a thread with a timeout notes the tick -/
def Pending.from {α : Type} (now : BitVec 32) (w : Pending α) : Pending α :=
  if 0 < w.timeout.toInt then { w with tickDelta := now } else w

/-- what a call returns -/
inductive MbReturn where
  /-- `RT_EOK` of `rt_mb_send_wait` -/
  | sent (value : BitVec 32)
  /-- `RT_EOK` of `rt_mb_urgent` -/
  | urgent (value : BitVec 32)
  /-- `RT_EOK` of `rt_mb_recv`, and `*value` -/
  | received (value : BitVec 32)
  /-- `-RT_EFULL` -/
  | full
  /-- `-RT_ETIMEOUT` of a call that finds the box empty -/
  | empty
  /-- `thread->error` of a call that was woken with an error -/
  | woken (e : RtErr)
  /-- `RT_EOK` of `rt_mb_control` -/
  | reset
  deriving DecidableEq, Repr

/-- a mailbox with its suspended threads, and the threads that were resumed amid a call, with their
`thread->error` -/
structure MbSystem where
  mb : RtMailbox
  flag : IpcFlag
  suspendThread : List (Pending Unit)
  suspendSenderThread : List (Pending (BitVec 32))
  resumed : List (Pending Unit × RtErr)
  resumedSender : List (Pending (BitVec 32) × RtErr)

def MbSystem.resumeReceiver (s : MbSystem) : MbSystem :=
  match s.suspendThread with
  | w :: l => { s with suspendThread := l, resumed := s.resumed ++ [(w, .eok)] }
  | [] => s

def MbSystem.resumeSender (s : MbSystem) : MbSystem :=
  match s.suspendSenderThread with
  | w :: l => { s with suspendSenderThread := l, resumedSender := s.resumedSender ++ [(w, .eok)] }
  | [] => s

/-- `rt_mb_send_wait` from the head of its loop on; the call `w` of a thread that does not wait
returns here as well -/
def rtMbSendWait (prio : Nat → BitVec 8) (now : BitVec 32) (w : Pending (BitVec 32))
    (s : MbSystem) : MbSystem × Option MbReturn :=
  if s.mb.entry = s.mb.size then
    if w.timeout = 0 then (s, some .full)
    else
      let list := ipcListSuspend (fun w : Pending (BitVec 32) => prio w.thread) s.flag (w.from now)
        s.suspendSenderThread
      ({ s with suspendSenderThread := list }, none)
  else
    let p := s.mb.put w.value
    if p.2 = .eok then (MbSystem.resumeReceiver { s with mb := p.1 }, some (.sent w.value))
    else ({ s with mb := p.1 }, some .full)

/-- `rt_mb_recv` from the head of its loop on -/
def rtMbRecv (prio : Nat → BitVec 8) (now : BitVec 32) (w : Pending Unit) (s : MbSystem) :
    MbSystem × Option MbReturn :=
  if s.mb.entry = 0 then
    if w.timeout = 0 then (s, some .empty)
    else
      let list := ipcListSuspend (fun w : Pending Unit => prio w.thread) s.flag (w.from now)
        s.suspendThread
      ({ s with suspendThread := list }, none)
  else
    let p := s.mb.take
    (MbSystem.resumeSender { s with mb := p.1 }, some (.received p.2))

def rtMbUrgent (value : BitVec 32) (s : MbSystem) : MbSystem × Option MbReturn :=
  if s.mb.entry = s.mb.size then (s, some .full)
  else (MbSystem.resumeReceiver { s with mb := s.mb.putFront value }, some (.urgent value))

/-- `rt_mb_control` with `RT_IPC_CMD_RESET` -/
def rtMbReset (s : MbSystem) : MbSystem where
  mb := { s.mb with entry := 0, inOffset := 0, outOffset := 0 }
  flag := s.flag
  suspendThread := []
  suspendSenderThread := []
  resumed := s.resumed ++ s.suspendThread.map fun w => (w, .error)
  resumedSender := s.resumedSender ++ s.suspendSenderThread.map fun w => (w, .error)

/-- `_thread_timeout`, for one of the lists -/
def expire {α : Type} [DecidableEq α] (t : Nat) (list : List (Pending α))
    (resumed : List (Pending α × RtErr)) : List (Pending α) × List (Pending α × RtErr) :=
  match list.find? (fun w => w.thread = t ∧ 0 < w.timeout.toInt) with
  | some w => (list.erase w, resumed ++ [(w, .etimeout)])
  | none => (list, resumed)

def mbThreadTimeout (t : Nat) (s : MbSystem) : MbSystem :=
  let r := expire t s.suspendThread s.resumed
  let p := expire t s.suspendSenderThread s.resumedSender
  { s with
    suspendThread := r.1, resumed := r.2
    suspendSenderThread := p.1, resumedSender := p.2 }

/-- one atomic section; `now` is the tick -/
inductive MbCall where
  | send (t : Nat) (value : BitVec 32) (timeout now : BitVec 32)
  | recv (t : Nat) (timeout now : BitVec 32)
  | urgent (value : BitVec 32)
  /-- the thread runs on in `rt_mb_send_wait` -/
  | goOnSend (t : Nat) (now : BitVec 32)
  /-- the thread runs on in `rt_mb_recv` -/
  | goOnRecv (t : Nat) (now : BitVec 32)
  | timerExpires (t : Nat)
  | reset
  deriving DecidableEq, Repr

/-- the threads that are amid a call -/
def MbSystem.busy (s : MbSystem) : List Nat :=
  s.suspendThread.map Pending.thread ++ s.suspendSenderThread.map Pending.thread ++
    s.resumed.map (fun r => r.1.thread) ++ s.resumedSender.map (fun r => r.1.thread)

/-- a thread that was resumed in `rt_mb_send_wait` -/
def MbSystem.goOnSend (prio : Nat → BitVec 8) (t : Nat) (now : BitVec 32) (s : MbSystem) :
    MbSystem × Option MbReturn :=
  match s.resumedSender.find? (fun r => r.1.thread = t) with
  | some r =>
    let s := { s with resumedSender := s.resumedSender.erase r }
    if r.2 = .eok then rtMbSendWait prio now (r.1.again now) s else (s, some (.woken r.2))
  | none => (s, none)

/-- a thread that was resumed in `rt_mb_recv` -/
def MbSystem.goOnRecv (prio : Nat → BitVec 8) (t : Nat) (now : BitVec 32) (s : MbSystem) :
    MbSystem × Option MbReturn :=
  match s.resumed.find? (fun r => r.1.thread = t) with
  | some r =>
    let s := { s with resumed := s.resumed.erase r }
    if r.2 = .eok then rtMbRecv prio now (r.1.again now) s else (s, some (.woken r.2))
  | none => (s, none)

/-- the section, and what the call returns if it ends there; a thread that is amid a call cannot
make another one -/
def MbSystem.exec (prio : Nat → BitVec 8) (s : MbSystem) : MbCall → MbSystem × Option MbReturn
  | .send t value timeout now =>
    if t ∈ s.busy then (s, none) else rtMbSendWait prio now ⟨t, timeout, 0, value⟩ s
  | .recv t timeout now =>
    if t ∈ s.busy then (s, none) else rtMbRecv prio now ⟨t, timeout, 0, ()⟩ s
  | .urgent value => rtMbUrgent value s
  | .goOnSend t now => s.goOnSend prio t now
  | .goOnRecv t now => s.goOnRecv prio t now
  | .timerExpires t => (mbThreadTimeout t s, none)
  | .reset => (rtMbReset s, some .reset)

def MbSystem.step (prio : Nat → BitVec 8) (s : MbSystem) (c : MbCall) : MbSystem :=
  (s.exec prio c).1

/-- a mailbox just initialised -/
def MbSystem.start (msgpool : Nat → BitVec 32) (size : BitVec 32) (flag : IpcFlag) : MbSystem where
  mb := rtMbInit msgpool size
  flag := flag
  suspendThread := []
  suspendSenderThread := []
  resumed := []
  resumedSender := []

/-- **a run**: sections of any threads in any order -/
def mbRun (prio : Nat → BitVec 8) (msgpool : Nat → BitVec 32) (size : BitVec 32) (flag : IpcFlag)
    (l : List MbCall) : MbSystem :=
  Runs.run (MbSystem.step prio) (.start msgpool size flag) l

/-! ## the bounded deque -/

/-- the mails after a call that returned `r` -/
def MbReturn.after (q : List (BitVec 32)) : MbReturn → List (BitVec 32)
  | .sent v => q ++ [v]
  | .urgent v => v :: q
  | .received _ => q.tail
  | .reset => []
  | _ => q

/-- what the thread that acts in a section wants -/
inductive MbRequest where
  /-- a mail goes in at the end; `waits` says whether the thread waits for room -/
  | put (value : BitVec 32) (waits : Bool)
  /-- a mail goes in at the front -/
  | putFront (value : BitVec 32)
  /-- a mail comes out; `waits` says whether the thread waits for one -/
  | take (waits : Bool)
  /-- all mails are dropped -/
  | clear
  /-- the call gives up, with the error its thread was resumed with -/
  | giveUp (e : RtErr)
  | nothing
  deriving DecidableEq, Repr

/-- **the answer of a bounded deque** that holds `q`; with `none` the thread waits -/
def MbRequest.answer (cap : Nat) (q : List (BitVec 32)) : MbRequest → Option MbReturn
  | .put v waits => if q.length < cap then some (.sent v) else if waits then none else some .full
  | .putFront v => if q.length < cap then some (.urgent v) else some .full
  | .take waits =>
    match q with
    | v :: _ => some (.received v)
    | [] => if waits then none else some .empty
  | .clear => some .reset
  | .giveUp e => some (.woken e)
  | .nothing => none

/-- the request of a section; a thread that was resumed without an error asks again -/
def MbSystem.request (s : MbSystem) : MbCall → MbRequest
  | .send t value timeout _ =>
    if t ∈ s.busy then .nothing else .put value (decide (timeout ≠ 0))
  | .recv t timeout _ => if t ∈ s.busy then .nothing else .take (decide (timeout ≠ 0))
  | .urgent value => .putFront value
  | .goOnSend t now =>
    match s.resumedSender.find? (fun r => r.1.thread = t) with
    | some r =>
      if r.2 = .eok then .put r.1.value (decide ((r.1.again now).timeout ≠ 0)) else .giveUp r.2
    | none => .nothing
  | .goOnRecv t now =>
    match s.resumed.find? (fun r => r.1.thread = t) with
    | some r => if r.2 = .eok then .take (decide ((r.1.again now).timeout ≠ 0)) else .giveUp r.2
    | none => .nothing
  | .timerExpires _ => .nothing
  | .reset => .clear

/-- the mails after a section -/
def mailsAfter (q : List (BitVec 32)) (r : Option MbReturn) : List (BitVec 32) :=
  (r.map (MbReturn.after q)).getD q

/-- the mails in the box after a run, as the returns of its calls have it -/
def mails (prio : Nat → BitVec 8) (msgpool : Nat → BitVec 32) (size : BitVec 32) (flag : IpcFlag)
    (l : List MbCall) : List (BitVec 32) :=
  Runs.observe (MbSystem.step prio) (fun s c q => mailsAfter q (s.exec prio c).2)
    (.start msgpool size flag) [] l

/-- the threads resumed without an error -/
def okCount {α : Type} (l : List (α × RtErr)) : Nat := l.countP fun r => r.2 = .eok

theorem okCount_append {α : Type} (l l' : List (α × RtErr)) :
    okCount (l ++ l') = okCount l + okCount l' :=
  List.countP_append

theorem okCount_erase {α : Type} [DecidableEq α] {l : List (α × RtErr)} {r : α × RtErr}
    (h : r ∈ l) : okCount l = okCount (l.erase r) + if r.2 = .eok then 1 else 0 := by
  unfold okCount
  rw [(List.perm_cons_erase h).countP_eq, List.countP_cons]
  simp

theorem okCount_map {α : Type} (l : List α) (e : RtErr) (he : e ≠ .eok) :
    okCount (l.map fun w => (w, e)) = 0 := by
  unfold okCount
  rw [List.countP_eq_zero]
  intro r hr
  obtain ⟨w, -, rfl⟩ := List.mem_map.mp hr
  rw [decide_eq_true_eq]
  exact he

/-- **the invariant**: the ring holds the mails `q`, nothing else was written, and as long as
threads wait there is a resumed one for every mail, or for every free cell; `r` and `p` are such
threads that are just about to act -/
structure MbSystem.Inv (msgpool : Nat → BitVec 32) (size : BitVec 16) (r p : Nat) (s : MbSystem)
    (q : List (BitVec 32)) : Prop where
  holds : s.mb.Holds q
  size_eq : s.mb.size = size
  outside : ∀ i, size.toNat ≤ i → s.mb.msgPool i = msgpool i
  receivers : s.suspendThread ≠ [] → q.length ≤ okCount s.resumed + r
  senders : s.suspendSenderThread ≠ [] → size.toNat ≤ q.length + okCount s.resumedSender + p

section inv

variable {prio : Nat → BitVec 8} {msgpool : Nat → BitVec 32} {size : BitVec 16} {r p : Nat}
  {s : MbSystem} {q : List (BitVec 32)}

theorem MbSystem.Inv.mono {r' p' : Nat} (h : s.Inv msgpool size r p q) (hr : r ≤ r') (hp : p ≤ p') :
    s.Inv msgpool size r' p' q :=
  ⟨h.holds, h.size_eq, h.outside, fun hn => by have := h.receivers hn; omega,
    fun hn => by have := h.senders hn; omega⟩

/-- a new mail wakes a receiver, if one waits -/
theorem MbSystem.resumeReceiver_inv {q' : List (BitVec 32)} {mb : RtMailbox}
    (h : s.Inv msgpool size r p q) (hm : mb.Holds q') (hs : mb.size = size)
    (ho : ∀ i, size.toNat ≤ i → mb.msgPool i = msgpool i) (hl : q'.length = q.length + 1) :
    (MbSystem.resumeReceiver { s with mb := mb }).Inv msgpool size r (p - 1) q' := by
  have hsend : s.suspendSenderThread ≠ [] →
      size.toNat ≤ q'.length + okCount s.resumedSender + (p - 1) := by
    intro hn
    have hh := h.senders hn
    omega
  unfold MbSystem.resumeReceiver
  dsimp only
  split
  next w l hl' =>
    refine ⟨hm, hs, ho, fun _ => ?_, hsend⟩
    have hr := h.receivers (by rw [hl']; exact List.cons_ne_nil w l)
    show q'.length ≤ okCount (s.resumed ++ [(w, .eok)]) + r
    rw [okCount_append]
    show q'.length ≤ okCount s.resumed + 1 + r
    omega
  next hl' => exact ⟨hm, hs, ho, fun hn => absurd hl' hn, hsend⟩

/-- a mail taken out wakes a sender, if one waits -/
theorem MbSystem.resumeSender_inv {q' : List (BitVec 32)} {mb : RtMailbox}
    (h : s.Inv msgpool size r p q) (hm : mb.Holds q') (hs : mb.size = size)
    (ho : ∀ i, size.toNat ≤ i → mb.msgPool i = msgpool i) (hl : q.length = q'.length + 1) :
    (MbSystem.resumeSender { s with mb := mb }).Inv msgpool size (r - 1) p q' := by
  have hrecv : s.suspendThread ≠ [] → q'.length ≤ okCount s.resumed + (r - 1) := by
    intro hn
    have hh := h.receivers hn
    omega
  unfold MbSystem.resumeSender
  dsimp only
  split
  next w l hl' =>
    refine ⟨hm, hs, ho, hrecv, fun _ => ?_⟩
    have hp := h.senders (by rw [hl']; exact List.cons_ne_nil w l)
    show size.toNat ≤ q'.length + okCount (s.resumedSender ++ [(w, .eok)]) + p
    rw [okCount_append]
    show size.toNat ≤ q'.length + (okCount s.resumedSender + 1) + p
    omega
  next hl' => exact ⟨hm, hs, ho, hrecv, fun hn => absurd hl' hn⟩

/-- what a section with the request `y` has to keep, and its answer -/
def MbKept (msgpool : Nat → BitVec 32) (size : BitVec 16) (q : List (BitVec 32)) (y : MbRequest)
    (x : MbSystem × Option MbReturn) : Prop :=
  x.1.Inv msgpool size 0 0 (mailsAfter q x.2) ∧ x.2 = y.answer size.toNat q

/-- the mail of a call stays the same while its thread waits -/
theorem Pending.again_value {α : Type} (now : BitVec 32) (w : Pending α) :
    (w.again now).value = w.value := by
  unfold Pending.again
  split <;> rfl

/-- **a round of `rt_mb_send_wait`**; a sender that was resumed for it may be at work -/
theorem rtMbSendWait_kept (h : s.Inv msgpool size 0 1 q) (now : BitVec 32)
    (w : Pending (BitVec 32)) :
    MbKept msgpool size q (.put w.value (decide (w.timeout ≠ 0))) (rtMbSendWait prio now w s) := by
  have hfull := h.holds.full_iff
  rw [h.size_eq] at hfull
  unfold rtMbSendWait
  rw [h.size_eq]
  by_cases hf : s.mb.entry = size
  · rw [if_pos hf]
    have hlen := hfull.mp hf
    have hno : ¬ q.length < size.toNat := by omega
    have hstay : s.Inv msgpool size 0 0 q :=
      ⟨h.holds, h.size_eq, h.outside, h.receivers, fun _ => by omega⟩
    by_cases ht : w.timeout = 0
    · rw [if_pos ht]
      refine ⟨hstay, ?_⟩
      show some MbReturn.full = if _ then _ else if decide (w.timeout ≠ 0) = true then _ else _
      rw [if_neg hno, if_neg (by simp [ht])]
    · rw [if_neg ht]
      refine ⟨⟨h.holds, h.size_eq, h.outside, h.receivers, fun _ => ?_⟩, ?_⟩
      · show size.toNat ≤ q.length + _ + 0
        omega
      · show none = if _ then _ else if decide (w.timeout ≠ 0) = true then _ else _
        rw [if_neg hno, if_pos (decide_eq_true ht)]
  · rw [if_neg hf]
    have hle := h.holds.ring.fits
    rw [h.size_eq] at hle
    have hlt : q.length < size.toNat :=
      Nat.lt_of_le_of_ne hle fun e => hf (hfull.mpr e)
    have hlt' : q.length < s.mb.size.toNat := by rw [h.size_eq]; exact hlt
    obtain ⟨hok, hh, hs⟩ := h.holds.put hlt' w.value
    dsimp only
    rw [if_pos hok]
    refine ⟨MbSystem.resumeReceiver_inv h hh (hs.trans h.size_eq) (fun i hi => ?_)
      (List.length_append), (if_pos hlt).symm⟩
    rw [h.holds.put_outside hlt' w.value (by rw [h.size_eq]; exact hi)]
    exact h.outside i hi

/-- **a round of `rt_mb_recv`**; a receiver that was resumed for it may be at work -/
theorem rtMbRecv_kept (h : s.Inv msgpool size 1 0 q) (now : BitVec 32) (w : Pending Unit) :
    MbKept msgpool size q (.take (decide (w.timeout ≠ 0))) (rtMbRecv prio now w s) := by
  unfold rtMbRecv
  by_cases he : s.mb.entry = 0
  · rw [if_pos he]
    have hq : q = [] := h.holds.empty_iff.mp he
    subst hq
    by_cases ht : w.timeout = 0
    · rw [if_pos ht]
      refine ⟨⟨h.holds, h.size_eq, h.outside, fun _ => Nat.zero_le _, h.senders⟩, ?_⟩
      show some MbReturn.empty = if decide (w.timeout ≠ 0) = true then _ else _
      rw [if_neg (by simp [ht])]
    · rw [if_neg ht]
      refine ⟨⟨h.holds, h.size_eq, h.outside, fun _ => Nat.zero_le _, h.senders⟩, ?_⟩
      show none = if decide (w.timeout ≠ 0) = true then _ else _
      rw [if_pos (decide_eq_true ht)]
  · rw [if_neg he]
    cases q with
    | nil => exact absurd (h.holds.empty_iff.mpr rfl) he
    | cons v q =>
      obtain ⟨hv, hh⟩ := h.holds.take
      refine ⟨MbSystem.resumeSender_inv h hh h.size_eq h.outside rfl, ?_⟩
      show some (MbReturn.received s.mb.take.2) = some (.received v)
      rw [hv]

theorem rtMbUrgent_kept (h : s.Inv msgpool size 0 0 q) (v : BitVec 32) :
    MbKept msgpool size q (.putFront v) (rtMbUrgent v s) := by
  have hfull := h.holds.full_iff
  rw [h.size_eq] at hfull
  unfold rtMbUrgent
  rw [h.size_eq]
  by_cases hf : s.mb.entry = size
  · rw [if_pos hf]
    have hno : ¬ q.length < size.toNat := by
      rw [hfull.mp hf]
      exact Nat.lt_irrefl _
    exact ⟨h, (if_neg hno).symm⟩
  · rw [if_neg hf]
    have hle := h.holds.ring.fits
    rw [h.size_eq] at hle
    have hlt : q.length < size.toNat :=
      Nat.lt_of_le_of_ne hle fun e => hf (hfull.mpr e)
    have hlt' : q.length < s.mb.size.toNat := by rw [h.size_eq]; exact hlt
    refine ⟨MbSystem.resumeReceiver_inv h (h.holds.putFront hlt' v) h.size_eq (fun i hi => ?_) rfl,
      (if_pos hlt).symm⟩
    rw [h.holds.putFront_outside hlt' v (by rw [h.size_eq]; exact hi)]
    exact h.outside i hi

theorem rtMbReset_kept (h : s.Inv msgpool size 0 0 q) :
    MbKept msgpool size q .clear (rtMbReset s, some .reset) :=
  ⟨⟨⟨Ring.Holds.empty _ _, rfl⟩, h.size_eq, h.outside, fun hn => absurd rfl hn,
    fun hn => absurd rfl hn⟩, rfl⟩

/-- an expired timer shortens a list, and the thread it resumes has an error -/
theorem expire_count {α : Type} [DecidableEq α] (t : Nat) (list : List (Pending α))
    (resumed : List (Pending α × RtErr)) :
    ((expire t list resumed).1 ≠ [] → list ≠ []) ∧
      okCount (expire t list resumed).2 = okCount resumed := by
  unfold expire
  split
  next w hw =>
    refine ⟨fun hn e => hn ?_, ?_⟩
    · dsimp only
      rw [e]
      rfl
    · dsimp only
      rw [okCount_append]
      rfl
  · exact ⟨fun hn => hn, rfl⟩

theorem mbThreadTimeout_kept (h : s.Inv msgpool size 0 0 q) (t : Nat) :
    MbKept msgpool size q .nothing (mbThreadTimeout t s, none) := by
  obtain ⟨n1, c1⟩ := expire_count t s.suspendThread s.resumed
  obtain ⟨n2, c2⟩ := expire_count t s.suspendSenderThread s.resumedSender
  refine ⟨⟨h.holds, h.size_eq, h.outside, fun hn => ?_, fun hn => ?_⟩, rfl⟩
  · show q.length ≤ okCount (expire t s.suspendThread s.resumed).2 + 0
    rw [c1]
    exact h.receivers (n1 hn)
  · show size.toNat ≤ q.length + okCount (expire t s.suspendSenderThread s.resumedSender).2 + 0
    rw [c2]
    exact h.senders (n2 hn)

theorem goOnSend_kept (h : s.Inv msgpool size 0 0 q) (t : Nat) (now : BitVec 32) :
    MbKept msgpool size q (s.request (.goOnSend t now)) (s.goOnSend prio t now) := by
  unfold MbSystem.goOnSend MbSystem.request
  dsimp only
  split
  next x hx =>
    have hcount := okCount_erase (List.mem_of_find?_eq_some hx)
    by_cases he : x.2 = .eok
    · rw [if_pos he] at hcount ⊢
      have h' : ({ s with resumedSender := s.resumedSender.erase x } : MbSystem).Inv
          msgpool size 0 1 q := by
        refine ⟨h.holds, h.size_eq, h.outside, h.receivers, fun hn => ?_⟩
        have hh := h.senders hn
        show size.toNat ≤ q.length + okCount (s.resumedSender.erase x) + 1
        omega
      rw [if_pos he, ← Pending.again_value now x.1]
      exact rtMbSendWait_kept h' now _
    · rw [if_neg he] at hcount ⊢
      rw [if_neg he]
      refine ⟨⟨h.holds, h.size_eq, h.outside, h.receivers, fun hn => ?_⟩, rfl⟩
      have hh := h.senders hn
      show size.toNat ≤ q.length + okCount (s.resumedSender.erase x) + 0
      omega
  · exact ⟨h, rfl⟩

theorem goOnRecv_kept (h : s.Inv msgpool size 0 0 q) (t : Nat) (now : BitVec 32) :
    MbKept msgpool size q (s.request (.goOnRecv t now)) (s.goOnRecv prio t now) := by
  unfold MbSystem.goOnRecv MbSystem.request
  dsimp only
  split
  next x hx =>
    have hcount := okCount_erase (List.mem_of_find?_eq_some hx)
    by_cases he : x.2 = .eok
    · rw [if_pos he] at hcount ⊢
      have h' : ({ s with resumed := s.resumed.erase x } : MbSystem).Inv msgpool size 1 0 q := by
        refine ⟨h.holds, h.size_eq, h.outside, fun hn => ?_, h.senders⟩
        have hh := h.receivers hn
        show q.length ≤ okCount (s.resumed.erase x) + 1
        omega
      rw [if_pos he]
      exact rtMbRecv_kept h' now _
    · rw [if_neg he] at hcount ⊢
      rw [if_neg he]
      refine ⟨⟨h.holds, h.size_eq, h.outside, fun hn => ?_, h.senders⟩, rfl⟩
      have hh := h.receivers hn
      show q.length ≤ okCount (s.resumed.erase x) + 0
      omega
  · exact ⟨h, rfl⟩

/-- **one section** -/
theorem MbSystem.Inv.exec (h : s.Inv msgpool size 0 0 q) (c : MbCall) :
    MbKept msgpool size q (s.request c) (s.exec prio c) := by
  cases c with
  | send t value timeout now =>
    unfold MbSystem.request MbSystem.exec
    dsimp only
    split
    · exact ⟨h, rfl⟩
    · exact rtMbSendWait_kept (h.mono (Nat.le_refl 0) (Nat.zero_le 1)) now _
  | recv t timeout now =>
    unfold MbSystem.request MbSystem.exec
    dsimp only
    split
    · exact ⟨h, rfl⟩
    · exact rtMbRecv_kept (h.mono (Nat.zero_le 1) (Nat.le_refl 0)) now _
  | urgent value => exact rtMbUrgent_kept h value
  | goOnSend t now => exact goOnSend_kept h t now
  | goOnRecv t now => exact goOnRecv_kept h t now
  | timerExpires t => exact mbThreadTimeout_kept h t
  | reset => exact rtMbReset_kept h

end inv

/-- **every state of a run** -/
theorem mbRun_inv (prio : Nat → BitVec 8) (msgpool : Nat → BitVec 32) (size : BitVec 32)
    (flag : IpcFlag) (l : List MbCall) :
    (mbRun prio msgpool size flag l).Inv msgpool (size.setWidth 16) 0 0
      (mails prio msgpool size flag l) := by
  have h0 : (MbSystem.start msgpool size flag).Inv msgpool (size.setWidth 16) 0 0 [] :=
    ⟨rtMbInit_holds msgpool size, rfl, fun _ _ => rfl, fun hn => absurd rfl hn,
      fun hn => absurd rfl hn⟩
  have hstep : ∀ (s : MbSystem) q c, s.Inv msgpool (size.setWidth 16) 0 0 q →
      MbKept msgpool (size.setWidth 16) q (s.request c) (s.exec prio c) :=
    fun s q c h => h.exec c
  exact Runs.observe_inv (I := MbSystem.Inv msgpool (size.setWidth 16) 0 0)
    (fun s q c h => (hstep s q c h).1) h0 l

/-- **A mailbox is a bounded deque**, whatever threads use it and however their calls interleave:
the ring holds the mails that the calls so far have left, the next section returns exactly what a
deque of `size` places answers to its request, a mail goes and comes as that answer says, and nothing
outside the pool has been written. -/
theorem mailbox_refines (prio : Nat → BitVec 8) (msgpool : Nat → BitVec 32) (size : BitVec 32)
    (flag : IpcFlag) (l : List MbCall) (c : MbCall) :
    let s := mbRun prio msgpool size flag l
    let q := mails prio msgpool size flag l
    let cap := (size.setWidth 16 : BitVec 16).toNat
    s.mb.Holds q ∧ q.length ≤ cap ∧ (s.exec prio c).2 = (s.request c).answer cap q ∧
      mails prio msgpool size flag (l ++ [c]) = mailsAfter q ((s.request c).answer cap q) ∧
      ∀ i, cap ≤ i → s.mb.msgPool i = msgpool i := by
  intro s q cap
  have h := mbRun_inv prio msgpool size flag l
  have hle := h.holds.ring.fits
  rw [h.size_eq] at hle
  have hans : (s.exec prio c).2 = (s.request c).answer cap q := (h.exec c).2
  refine ⟨h.holds, hle, hans, ?_, h.outside⟩
  rw [← hans]
  exact Runs.observe_snoc _ _ _ _ l c

/-- what a deque gives out is what it holds first -/
theorem MbRequest.answer_received {cap : Nat} {q : List (BitVec 32)} {y : MbRequest} {v : BitVec 32}
    (h : y.answer cap q = some (.received v)) : q.head? = some v := by
  cases y with
  | take waits =>
    cases q with
    | nil =>
      unfold MbRequest.answer at h
      dsimp only at h
      split at h <;> cases h
    | cons x q =>
      cases h
      rfl
  | put x waits =>
    unfold MbRequest.answer at h
    dsimp only at h
    split at h
    · cases h
    · split at h <;> cases h
  | putFront x =>
    unfold MbRequest.answer at h
    dsimp only at h
    split at h <;> cases h
  | _ => cases h

/-- the mails sent and received, oldest first -/
structure MailLog where
  sent : List (BitVec 32)
  received : List (BitVec 32)

def MailLog.note (r : Option MbReturn) (o : MailLog) : MailLog :=
  match r with
  | some (.sent v) => { o with sent := o.sent ++ [v] }
  | some (.received v) => { o with received := o.received ++ [v] }
  | _ => o

/-- what the calls of a run have sent and received -/
def mailLog (prio : Nat → BitVec 8) (msgpool : Nat → BitVec 32) (size : BitVec 32) (flag : IpcFlag)
    (l : List MbCall) : MailLog :=
  Runs.observe (MbSystem.step prio) (fun s c o => o.note (s.exec prio c).2)
    (.start msgpool size flag) ⟨[], []⟩ l

/-- neither an urgent mail nor a reset -/
def MbCall.plain : MbCall → Prop
  | .urgent _ => False
  | .reset => False
  | _ => True

instance : DecidablePred MbCall.plain := fun c =>
  match c with
  | .urgent _ => .isFalse nofun
  | .reset => .isFalse nofun
  | .send _ _ _ _ => .isTrue trivial
  | .recv _ _ _ => .isTrue trivial
  | .goOnSend _ _ => .isTrue trivial
  | .goOnRecv _ _ => .isTrue trivial
  | .timerExpires _ => .isTrue trivial

/-- neither `rt_mb_urgent` nor `rt_mb_control` returned -/
def Plain (r : Option MbReturn) : Prop := (∀ v, r ≠ some (.urgent v)) ∧ r ≠ some .reset

section plain

variable {prio : Nat → BitVec 8} {s : MbSystem}

theorem rtMbSendWait_plain (now : BitVec 32) (w : Pending (BitVec 32)) :
    Plain (rtMbSendWait prio now w s).2 := by
  unfold rtMbSendWait
  split
  · split <;> exact ⟨nofun, nofun⟩
  · dsimp only
    split <;> exact ⟨nofun, nofun⟩

theorem rtMbRecv_plain (now : BitVec 32) (w : Pending Unit) :
    Plain (rtMbRecv prio now w s).2 := by
  unfold rtMbRecv
  split
  · split <;> exact ⟨nofun, nofun⟩
  · exact ⟨nofun, nofun⟩

theorem MbCall.plain.return {c : MbCall} (hc : c.plain) : Plain (s.exec prio c).2 := by
  cases c with
  | send t value timeout now =>
    show Plain (if t ∈ s.busy then (s, none) else rtMbSendWait prio now ⟨t, timeout, 0, value⟩ s).2
    split
    · exact ⟨nofun, nofun⟩
    · exact rtMbSendWait_plain now _
  | recv t timeout now =>
    show Plain (if t ∈ s.busy then (s, none) else rtMbRecv prio now ⟨t, timeout, 0, ()⟩ s).2
    split
    · exact ⟨nofun, nofun⟩
    · exact rtMbRecv_plain now _
  | urgent value => cases hc
  | goOnSend t now =>
    show Plain (s.goOnSend prio t now).2
    unfold MbSystem.goOnSend
    split
    · dsimp only
      split
      · exact rtMbSendWait_plain now _
      · exact ⟨nofun, nofun⟩
    · exact ⟨nofun, nofun⟩
  | goOnRecv t now =>
    show Plain (s.goOnRecv prio t now).2
    unfold MbSystem.goOnRecv
    split
    · dsimp only
      split
      · exact rtMbRecv_plain now _
      · exact ⟨nofun, nofun⟩
    · exact ⟨nofun, nofun⟩
  | timerExpires t => exact ⟨nofun, nofun⟩
  | reset => cases hc

end plain

/-- the books of a plain run -/
theorem mailLog_sent (prio : Nat → BitVec 8) (msgpool : Nat → BitVec 32) (size : BitVec 32)
    (flag : IpcFlag) (l : List MbCall) (hl : ∀ c ∈ l, c.plain) :
    (mailLog prio msgpool size flag l).sent =
      (mailLog prio msgpool size flag l).received ++ mails prio msgpool size flag l := by
  induction l using List.reverseRecOn with
  | nil => rfl
  | append_singleton l c ih =>
    have hlog : mailLog prio msgpool size flag (l ++ [c]) =
        (mailLog prio msgpool size flag l).note ((mbRun prio msgpool size flag l).exec prio c).2 :=
      Runs.observe_snoc _ _ _ _ l c
    have hmails : mails prio msgpool size flag (l ++ [c]) =
        mailsAfter (mails prio msgpool size flag l)
          ((mbRun prio msgpool size flag l).exec prio c).2 := Runs.observe_snoc _ _ _ _ l c
    have hkept : MbKept msgpool (size.setWidth 16) (mails prio msgpool size flag l)
        ((mbRun prio msgpool size flag l).request c)
        ((mbRun prio msgpool size flag l).exec prio c) :=
      (mbRun_inv prio msgpool size flag l).exec c
    have hanswer := hkept.2
    obtain ⟨hurgent, hreset⟩ : Plain ((mbRun prio msgpool size flag l).exec prio c).2 :=
      MbCall.plain.return (hl c (List.mem_append_right _ List.mem_cons_self))
    have ih := ih fun x hx => hl x (List.mem_append_left _ hx)
    rw [hlog, hmails]
    generalize ((mbRun prio msgpool size flag l).exec prio c).2 = r at *
    cases r with
    | none => exact ih
    | some y =>
      cases y with
      | sent v =>
        show _ ++ [v] = _ ++ (_ ++ [v])
        rw [ih, List.append_assoc]
        rfl
      | urgent v => exact absurd rfl (hurgent v)
      | received v =>
        have hv : (mails prio msgpool size flag l).head? = some v :=
          MbRequest.answer_received hanswer.symm
        show _ = (_ ++ [v]) ++ (mails prio msgpool size flag l).tail
        rw [List.append_assoc, List.singleton_append, List.cons_head?_tail hv]
        exact ih
      | full => exact ih
      | empty => exact ih
      | woken e => exact ih
      | reset => exact absurd rfl hreset

/-- **Every mail arrives once, in the order of the sends**, with any number of senders and receivers
in any interleaving: what was sent is what was received, and then what the ring still holds. -/
theorem mailbox_fifo (prio : Nat → BitVec 8) (msgpool : Nat → BitVec 32) (size : BitVec 32)
    (flag : IpcFlag) (l : List MbCall) (hl : ∀ c ∈ l, c.plain) :
    let o := mailLog prio msgpool size flag l
    let q := mails prio msgpool size flag l
    (mbRun prio msgpool size flag l).mb.Holds q ∧ o.sent = o.received ++ q :=
  ⟨(mbRun_inv prio msgpool size flag l).holds, mailLog_sent prio msgpool size flag l hl⟩

/-- two senders, a receiver that waits and one that is faster -/
def fasterReceiver : List MbCall :=
  [.recv 1 0xffffffff 0, .send 2 7 0 5, .recv 3 0 6, .goOnRecv 1 7, .send 2 8 0 8, .goOnRecv 1 9,
    .send 4 9 0 10]

theorem mailbox_fifo_race :
    let run := mbRun (fun _ => 14) (fun _ => 0) 1 .fifo fasterReceiver
    let o := mailLog (fun _ => 14) (fun _ => 0) 1 .fifo fasterReceiver
    let q := mails (fun _ => 14) (fun _ => 0) 1 .fifo fasterReceiver
    (o.sent = [7, 8, 9] ∧ o.received = [7, 8] ∧ q = [9]) ∧
      (run.mb.Holds q ∧ o.sent = o.received ++ q) := by
  refine ⟨⟨?_, ?_, ?_⟩, mailbox_fifo (fun _ => 14) (fun _ => 0) 1 .fifo _ (by decide)⟩
  · decide +kernel
  · decide +kernel
  · decide +kernel

/-- **No wakeup is lost**: as long as a receiver waits, every mail in the box has a receiver of its
own that was resumed for it and has yet to run, and as long as a sender waits, so has every free
cell.  When all resumed threads have run, nobody waits for what is there. -/
theorem mailbox_wakes (prio : Nat → BitVec 8) (msgpool : Nat → BitVec 32) (size : BitVec 32)
    (flag : IpcFlag) (l : List MbCall) :
    let s := mbRun prio msgpool size flag l
    (s.suspendThread ≠ [] → s.mb.entry.toNat ≤ okCount s.resumed) ∧
    (s.suspendSenderThread ≠ [] →
      s.mb.size.toNat ≤ s.mb.entry.toNat + okCount s.resumedSender) := by
  intro s
  have h := mbRun_inv prio msgpool size flag l
  refine ⟨fun hn => ?_, fun hn => ?_⟩
  · rw [h.holds.entry]
    exact h.receivers hn
  · rw [h.holds.entry, h.size_eq]
    exact h.senders hn

end LitterBox
