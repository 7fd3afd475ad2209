import LitterBox.Kernel.Ipc
import LitterBox.Kernel.Scheduler
import LitterBox.Lib.Stable

/-!
# Mutexes of `rt-thread/src/ipc.c`

A thread that finds the mutex taken lends its priority to the owner, if it is the higher one, and
waits in the suspend list.  With its last `rt_mutex_release` the owner goes back to the priority it
had, and the first thread of the list is the next owner.  As with the scheduler, a run is a list of
the sections that are atomic, of any threads and of interrupts: `MutexCall`.

There is one mutex, and the loan is the only change of a priority: in a run nobody calls
`RT_THREAD_CTRL_CHANGE_PRIORITY`, ends a thread, or resumes one that waits for the mutex.  With a
second mutex an owner may fall back below a thread that waits for the first.

* `rtMutexTake`, `rtMutexRelease`   the calls, over the tables of the scheduler;
* `MutexSystem.exec`   one section, and what the call in it returns;
* `Took`, `Gave`       all that a take and a release can do;
* `mutex_exclusive`    at most one thread is inside;
* `mutex_inherits`     nobody who waits has a higher priority than the owner;
* `mutex_inversion`    and so no third thread keeps them waiting;
* `mutex_order`        whom a release lets in.
-/

namespace LitterBox

/-! ## the mutex -/

/-- `RT_MUTEX_HOLD_MAX` -/
def rtMutexHoldMax : BitVec 8 := 0xff

/-- `RT_MUTEX_VALUE_MAX` -/
def rtMutexValueMax : BitVec 16 := 0xffff

/-- `struct rt_mutex`, less its name -/
structure RtMutex (ι : Type) where
  value : BitVec 16
  originalPriority : BitVec 8
  hold : BitVec 8
  owner : Option ι
  flag : IpcFlag
  suspendThread : List ι
  deriving DecidableEq, Repr

/-- `rt_mutex_init`, `rt_mutex_create` -/
def rtMutexInit (ι : Type) : RtMutex ι where
  value := 1
  originalPriority := 0xff
  hold := 0
  owner := none
  flag := .prio
  suspendThread := []

/-- a mutex and the scheduler -/
structure MutexSystem (ι : Type) where
  sched : Scheduler ι
  mutex : RtMutex ι
  /-- `thread_timer` has been started -/
  timer : ι → Bool
  /-- `thread->error` -/
  error : ι → RtErr
  /-- the threads that have been resumed but are not yet back from `rt_mutex_take` -/
  resumed : List ι

variable {ι : Type} [DecidableEq ι]

/-- the owner inherits the priority of the thread that waits, if that is the higher one -/
def Scheduler.lend (t owner : ι) (s : Scheduler ι) : Scheduler ι :=
  if (s.thread t).currentPriority < (s.thread owner).currentPriority then
    s.changePriority owner (s.thread t).currentPriority
  else s

/-- the owner goes back to its original priority -/
def Scheduler.giveBack (owner : ι) (priority : BitVec 8) (s : Scheduler ι) : Scheduler ι :=
  if priority ≠ (s.thread owner).currentPriority then s.changePriority owner priority else s

namespace MutexSystem

def setError (t : ι) (err : RtErr) (s : MutexSystem ι) : MutexSystem ι :=
  { s with error := Function.update s.error t err }

/-- `rt_thread_resume` of a thread that waits for the mutex -/
def resumeWaiter (w : ι) (s : MutexSystem ι) : MutexSystem ι :=
  if (s.sched.thread w).stat = .suspend then
    { s with
      sched := s.sched.rtThreadResume w
      mutex := { s.mutex with suspendThread := s.mutex.suspendThread.erase w }
      timer := Function.update s.timer w false
      resumed := s.resumed ++ [w] }
  else s

/-- the branch of `rt_mutex_take` that waits, up to its `rt_schedule` -/
def wait (t owner : ι) (timeout : BitVec 32) (s : MutexSystem ι) : MutexSystem ι :=
  let sched := (s.sched.lend t owner).rtThreadSuspend t
  { s with
    sched := sched
    mutex := { s.mutex with
      suspendThread := ipcListSuspend (fun u => (sched.thread u).currentPriority) s.mutex.flag t
        s.mutex.suspendThread }
    timer := Function.update s.timer t (decide (0 < timeout.toInt)) }

end MutexSystem

/-- `rt_mutex_take` of the thread `t`, up to its return or to `rt_schedule`; `none`: a pointer that
leads nowhere -/
def rtMutexTake (t : ι) (timeout : BitVec 32) (s : MutexSystem ι) :
    Option (MutexSystem ι × Option RtErr) :=
  let s := s.setError t .eok
  if s.mutex.owner = some t then
    if s.mutex.hold < rtMutexHoldMax then
      some ({ s with mutex := { s.mutex with hold := s.mutex.hold + 1 } }, some .eok)
    else some (s, some .efull)
  else if 0 < s.mutex.value then
    let m : RtMutex ι := { s.mutex with
      value := s.mutex.value - 1
      owner := some t
      originalPriority := (s.sched.thread t).currentPriority }
    if m.hold < rtMutexHoldMax then
      some ({ s with mutex := { m with hold := m.hold + 1 } }, some .eok)
    else some ({ s with mutex := m }, some .efull)
  else if timeout = 0 then some (s.setError t .etimeout, some .etimeout)
  else s.mutex.owner.map fun owner => (s.wait t owner timeout, none)

/-- the rest of `rt_mutex_take`, once the thread runs again -/
def rtMutexTakeResumed (t : ι) (s : MutexSystem ι) : MutexSystem ι × Option RtErr :=
  ({ s with resumed := s.resumed.erase t }, some (s.error t))

/-- `rt_mutex_release` of the thread `t`, up to its `rt_schedule` -/
def rtMutexRelease (t : ι) (s : MutexSystem ι) : MutexSystem ι × Option RtErr :=
  if s.mutex.owner ≠ some t then (s.setError t .error, some .error)
  else
    let m : RtMutex ι := { s.mutex with hold := s.mutex.hold - 1 }
    if m.hold = 0 then
      let sched := s.sched.giveBack t m.originalPriority
      match m.suspendThread with
      | w :: _ =>
        let m : RtMutex ι :=
          { m with owner := some w, originalPriority := (sched.thread w).currentPriority }
        if m.hold < rtMutexHoldMax then
          (MutexSystem.resumeWaiter w
            { s with sched := sched, mutex := { m with hold := m.hold + 1 } }, some .eok)
        else ({ s with sched := sched, mutex := m }, some .efull)
      | [] =>
        if m.value < rtMutexValueMax then
          ({ s with
            sched := sched
            mutex := { m with value := m.value + 1, owner := none, originalPriority := 0xff } },
            some .eok)
        else ({ s with sched := sched, mutex := m }, some .efull)
    else ({ s with mutex := m }, some .eok)

/-- the thread `t` has waited in vain -/
def MutexSystem.expire (t : ι) (sched : Scheduler ι) (s : MutexSystem ι) : MutexSystem ι :=
  { s.setError t .etimeout with
    sched := sched
    mutex := { s.mutex with suspendThread := s.mutex.suspendThread.erase t }
    timer := Function.update s.timer t false
    resumed := s.resumed ++ [t] }

/-- `_thread_timeout` of a thread that waits for the mutex -/
def mutexThreadTimeout (t : ι) (s : MutexSystem ι) : Option (MutexSystem ι) :=
  (s.sched.exec (.timeout t)).map fun sched => s.expire t sched

/-! ## runs -/

/-- one atomic section; the calls of the mutex are calls of the current thread -/
inductive MutexCall (ι : Type) where
  | take (timeout : BitVec 32)
  /-- the thread runs on in `rt_mutex_take` -/
  | goOn
  | release
  | timerExpires (t : ι)
  /-- whatever the threads and the interrupts ask of the scheduler -/
  | other (c : SchedCall ι)
  deriving DecidableEq, Repr

namespace MutexSystem

/-- the current thread, if it is RUNNING -/
def self (s : MutexSystem ι) : Option ι :=
  s.sched.currentThread.filter fun t => (s.sched.thread t).stat = .running

/-- the section, and what the call returns if it ends there; `none`: nobody can make the call, or
`RT_DEBUG_SCHEDULER_AVAILABLE` stops it.  A thread that is amid `rt_mutex_take` does not call
anything else and is resumed by nobody else; threads neither end nor change their priorities by
themselves. -/
def exec (s : MutexSystem ι) : MutexCall ι → Option (MutexSystem ι × Option RtErr)
  | .take timeout => s.self.bind fun t =>
    if s.sched.lockNest = 0 ∧ t ∉ s.resumed then rtMutexTake t timeout s else none
  | .goOn => s.self.bind fun t => if t ∈ s.resumed then some (rtMutexTakeResumed t s) else none
  | .release => s.self.bind fun t => if t ∉ s.resumed then some (rtMutexRelease t s) else none
  | .timerExpires t =>
    if t ∈ s.mutex.suspendThread ∧ s.timer t = true then
      (mutexThreadTimeout t s).map fun s' => (s', none)
    else none
  | .other c =>
    if c.plain = true ∧ ∀ t ∈ s.mutex.suspendThread, c.wakes t = false then
      (s.sched.exec c).map fun sched => ({ s with sched := sched }, none)
    else none

/-- a call that does not get through changes nothing -/
def step (s : MutexSystem ι) (c : MutexCall ι) : MutexSystem ι := ((s.exec c).map Prod.fst).getD s

/-- a mutex just initialised, before any thread has been started -/
def boot (priority : ι → BitVec 8) (tick : ι → BitVec 32) : MutexSystem ι where
  sched := .boot priority tick
  mutex := rtMutexInit ι
  timer _ := false
  error _ := .eok
  resumed := []

end MutexSystem

/-- **a run**: sections of any threads in any order -/
def mutexRun (priority : ι → BitVec 8) (tick : ι → BitVec 32) (l : List (MutexCall ι)) :
    MutexSystem ι :=
  Runs.run MutexSystem.step (.boot priority tick) l

/-! ## what the calls do to the scheduler -/

namespace Scheduler

variable {s : Scheduler ι} {t u owner : ι}

theorem changePriority_ne (hu : u ≠ t) (priority : BitVec 8) :
    (s.changePriority t priority).thread u = s.thread u := by
  unfold Scheduler.changePriority
  split
  · rw [insert_ne hu, setThread_ne hu]
    rfl
  · exact setThread_ne hu s _

theorem changePriority_prio (priority : BitVec 8) :
    ((s.changePriority t priority).thread t).prio = priority.toNat := by
  unfold Scheduler.changePriority
  split
  · generalize hs₁ : (s.rtScheduleRemoveThread t).setThread t
      ((s.thread t).setPriority priority) = s₁
    have hf : s₁.Frame (s₁.rtScheduleInsertThread t) t true := insert_frame fun _ => rfl
    have hself : s₁.thread t = (s.thread t).setPriority priority := by rw [← hs₁, setThread_self]
    exact (congrArg BitVec.toNat hf.priority).trans (congrArg RtThread.prio hself)
  · rw [setThread_self]
    rfl

theorem lend_ne (hu : u ≠ owner) : (s.lend t owner).thread u = s.thread u := by
  unfold lend
  split
  · exact changePriority_ne hu _
  · rfl

/-- the owner has the better of the two priorities -/
theorem lend_prio :
    ((s.lend t owner).thread owner).prio = min (s.thread owner).prio (s.thread t).prio := by
  unfold lend
  split
  next hlt =>
    rw [changePriority_prio]
    exact (Nat.min_eq_right (Nat.le_of_lt hlt)).symm
  next hle => exact (Nat.min_eq_left (Nat.le_of_not_lt hle)).symm

theorem Sound.lend (h : s.Sound) : (s.lend t owner).Sound := by
  unfold Scheduler.lend
  split
  · exact h.changePriority owner (h.below t)
  · exact h

theorem giveBack_ne (hu : u ≠ owner) (priority : BitVec 8) :
    (s.giveBack owner priority).thread u = s.thread u := by
  unfold giveBack
  split
  · exact changePriority_ne hu _
  · rfl

theorem giveBack_currentThread (priority : BitVec 8) :
    (s.giveBack owner priority).currentThread = s.currentThread := by
  unfold giveBack Scheduler.changePriority
  split
  · split
    · exact insert_currentThread _ owner
    · rfl
  · rfl

theorem giveBack_prio (priority : BitVec 8) :
    ((s.giveBack owner priority).thread owner).prio = priority.toNat := by
  unfold giveBack
  split
  · exact changePriority_prio priority
  next he => exact congrArg BitVec.toNat (not_not.mp he).symm

theorem Sound.giveBack (h : s.Sound) {priority : BitVec 8} (hp : priority < 32) :
    (s.giveBack owner priority).Sound := by
  unfold Scheduler.giveBack
  split
  · exact h.changePriority owner hp
  · exact h

theorem suspend_ne (hu : u ≠ t) : (s.rtThreadSuspend t).thread u = s.thread u := by
  unfold rtThreadSuspend
  split
  · rw [setStat_ne hu]
    rfl
  · rfl

theorem suspend_self (ht : (s.thread t).stat = .running) :
    (s.rtThreadSuspend t).thread t = (s.thread t).setStat .suspend := by
  unfold rtThreadSuspend
  rw [if_pos (Or.inr ht), setStat_self]
  rfl

theorem suspend_prio : ((s.rtThreadSuspend t).thread u).prio = (s.thread u).prio := by
  by_cases hu : u = t
  · subst hu
    unfold rtThreadSuspend
    split
    · rw [setStat_self]
      rfl
    · rfl
  · rw [suspend_ne hu]

theorem resume_prio : ((s.rtThreadResume t).thread u).prio = (s.thread u).prio := by
  have hf : s.Frame (s.rtThreadResume t) u true := resume_frame fun _ => rfl
  exact congrArg BitVec.toNat hf.priority

theorem resume_ready (hc : s.currentThread ≠ some t) (hs : (s.thread t).stat = .suspend) :
    ((s.rtThreadResume t).thread t).stat = .ready := by
  have hi : ((s.unlink t).rtScheduleInsertThread t).thread t = (s.thread t).setStat .ready :=
    insert_self hc
  unfold rtThreadResume
  rw [if_pos hs, hi]
  rfl

/-- a thread that is not resumed stays SUSPEND -/
theorem resume_suspend (hu : u ≠ t) (hs : (s.thread u).stat = .suspend) :
    ((s.rtThreadResume t).thread u).stat = .suspend := by
  have hf : s.Frame (s.rtThreadResume t) u false := resume_frame fun e => absurd e hu
  exact hf.suspend rfl hs

end Scheduler

/-! ## the invariant -/

namespace MutexSystem

/-- the priority of the thread -/
def prio (s : MutexSystem ι) (t : ι) : Nat := (s.sched.thread t).prio

/-- the thread `c` owns the mutex; `base` are the priorities that the threads have of themselves -/
structure Owned (base : ι → Nat) (s : MutexSystem ι) (c : ι) : Prop where
  value : s.mutex.value = 0
  hold : 0 < s.mutex.hold
  out : c ∉ s.mutex.suspendThread
  original : s.mutex.originalPriority.toNat = base c
  raised : s.prio c ≤ base c
  inherits : ∀ w ∈ s.mutex.suspendThread, s.prio c ≤ base w

/-- a thread in the suspend list -/
structure Waits (s : MutexSystem ι) (w : ι) : Prop where
  stat : (s.sched.thread w).stat = .suspend
  error : s.error w = .eok
  out : w ∉ s.resumed

/-- **the invariant**; `queue` are the threads that wait, in the order of their calls -/
structure Sound (base : ι → Nat) (s : MutexSystem ι) (queue : List ι) : Prop where
  sched : s.sched.Sound
  flag : s.mutex.flag = .prio
  free : s.mutex.owner = none → s.mutex.value = 1 ∧ s.mutex.hold = 0 ∧ s.mutex.suspendThread = []
  owned : ∀ c, s.mutex.owner = some c → s.Owned base c
  own : ∀ t, s.mutex.owner ≠ some t → s.prio t = base t
  waits : ∀ w ∈ s.mutex.suspendThread, s.Waits w
  nodup : s.mutex.suspendThread.Nodup
  line : Stable.Queue base queue s.mutex.suspendThread
  once : s.resumed.Nodup
  handed : ∀ w ∈ s.resumed, s.error w = .eok ↔ s.mutex.owner = some w

omit [DecidableEq ι] in
theorem Sound.lent {base : ι → Nat} {s : MutexSystem ι} {q : List ι} (h : s.Sound base q) {c w : ι}
    (hc : s.mutex.owner = some c) (hw : w ∈ s.mutex.suspendThread) : s.prio c ≤ s.prio w := by
  rw [h.own w fun ho => (h.owned w ho).out hw]
  exact (h.owned c hc).inherits w hw

/-! ## what a take and a release can do -/

/-- the owner hands the mutex to the first thread of the list -/
def handOn (t w : ι) (l : List ι) (s : MutexSystem ι) : MutexSystem ι :=
  let sched := s.sched.giveBack t s.mutex.originalPriority
  { s with
    sched := sched.rtThreadResume w
    mutex := { s.mutex with
      hold := 1
      owner := some w
      originalPriority := (sched.thread w).currentPriority
      suspendThread := l }
    timer := Function.update s.timer w false
    resumed := s.resumed ++ [w] }

/-- nobody waits, and the owner leaves the mutex as it was at first -/
def setFree (t : ι) (s : MutexSystem ι) : MutexSystem ι :=
  { s with
    sched := s.sched.giveBack t s.mutex.originalPriority
    mutex := { rtMutexInit ι with flag := s.mutex.flag } }

def setMutex (m : RtMutex ι) (s : MutexSystem ι) : MutexSystem ι := { s with mutex := m }

/-- the owner goes in or out once more -/
def setHold (hold : BitVec 8) (s : MutexSystem ι) : MutexSystem ι :=
  s.setMutex { s.mutex with hold := hold }

/-- a thread takes the mutex that is free -/
def seize (t : ι) (s : MutexSystem ι) : MutexSystem ι :=
  s.setMutex { s.mutex with
    value := 0
    hold := 1
    owner := some t
    originalPriority := (s.sched.thread t).currentPriority }

/-- all that `rt_mutex_take` can do -/
inductive Took (t : ι) (timeout : BitVec 32) (s : MutexSystem ι) :
    MutexSystem ι → Option RtErr → Prop where
  | refused (err r : RtErr) (hr : r ≠ .eok) : s.Took t timeout (s.setError t err) (some r)
  | nested (ho : s.mutex.owner = some t) (hh : s.mutex.hold < rtMutexHoldMax) :
    s.Took t timeout ((s.setError t .eok).setHold (s.mutex.hold + 1)) (some .eok)
  | first (ho : s.mutex.owner = none) : s.Took t timeout ((s.setError t .eok).seize t) (some .eok)
  | waits (owner : ι) (ho : s.mutex.owner = some owner) (hne : t ≠ owner) :
    s.Took t timeout ((s.setError t .eok).wait t owner timeout) none

/-- all that `rt_mutex_release` can do -/
inductive Gave (t : ι) (s : MutexSystem ι) : MutexSystem ι → Option RtErr → Prop where
  | refused (ho : s.mutex.owner ≠ some t) : s.Gave t (s.setError t .error) (some .error)
  | nested (ho : s.mutex.owner = some t) (hh : 1 < s.mutex.hold) :
    s.Gave t (s.setHold (s.mutex.hold - 1)) (some .eok)
  | hands (ho : s.mutex.owner = some t) (hh : s.mutex.hold = 1) (w : ι) (l : List ι)
    (hl : s.mutex.suspendThread = w :: l) : s.Gave t (s.handOn t w l) (some .eok)
  | frees (ho : s.mutex.owner = some t) (hh : s.mutex.hold = 1) (hl : s.mutex.suspendThread = []) :
    s.Gave t (s.setFree t) (some .eok)

variable {base : ι → Nat} {s s' : MutexSystem ι} {q : List ι} {t : ι} {r : Option RtErr}

/-- `rt_mutex_take` never reads the priority of `RT_NULL` -/
theorem Sound.take_cases (h : s.Sound base q) (t : ι) (timeout : BitVec 32) :
    ∃ s' r, rtMutexTake t timeout s = some (s', r) ∧ s.Took t timeout s' r := by
  unfold rtMutexTake
  show ∃ s' r, (if s.mutex.owner = some t then _ else _) = some (s', r) ∧ _
  by_cases ho : s.mutex.owner = some t
  · rw [if_pos ho]
    show ∃ s' r, (if s.mutex.hold < rtMutexHoldMax then _ else _) = some (s', r) ∧ _
    by_cases hh : s.mutex.hold < rtMutexHoldMax
    · rw [if_pos hh]
      exact ⟨_, _, rfl, .nested ho hh⟩
    · rw [if_neg hh]
      exact ⟨_, _, rfl, .refused _ _ nofun⟩
  · rw [if_neg ho]
    show ∃ s' r, (if 0 < s.mutex.value then _ else _) = some (s', r) ∧ _
    cases hown : s.mutex.owner with
    | none =>
      obtain ⟨hv, hh, -⟩ := h.free hown
      rw [if_pos (by rw [hv]; decide)]
      show ∃ s' r, (if s.mutex.hold < rtMutexHoldMax then _ else _) = some (s', r) ∧ _
      rw [if_pos (by rw [hh]; decide)]
      refine ⟨_, _, ?_, .first hown⟩
      show some (setMutex { s.mutex with
        value := s.mutex.value - 1
        hold := s.mutex.hold + 1
        owner := some t
        originalPriority := (s.sched.thread t).currentPriority } (s.setError t .eok), _) = _
      rw [hv, hh]
      rfl
    | some owner =>
      have hv := (h.owned owner hown).value
      rw [if_neg (by rw [hv]; decide)]
      by_cases ht : timeout = 0
      · rw [if_pos ht]
        refine ⟨_, _, rfl, ?_⟩
        have hset : (s.setError t .eok).setError t .etimeout = s.setError t .etimeout := by
          unfold setError
          rw [Function.update_idem]
        rw [hset]
        exact .refused _ _ nofun
      · rw [if_neg ht]
        refine ⟨_, _, ?_, .waits owner hown fun e => ho (by rw [hown, e])⟩
        show s.mutex.owner.map _ = _
        rw [hown]
        rfl

theorem Sound.release_hands (h : s.Sound base q) (ho : s.mutex.owner = some t)
    (hh : s.mutex.hold = 1) {w : ι} {l : List ι} (hl : s.mutex.suspendThread = w :: l) :
    rtMutexRelease t s = (s.handOn t w l, some .eok) := by
  have hw : w ∈ s.mutex.suspendThread := by
    rw [hl]
    exact List.mem_cons_self
  have hne : w ≠ t := by
    rintro rfl
    exact (h.owned w ho).out hw
  have hst : ((s.sched.giveBack t s.mutex.originalPriority).thread w).stat = .suspend := by
    rw [Scheduler.giveBack_ne hne]
    exact (h.waits w hw).stat
  have hz : s.mutex.hold - 1 = 0 := by
    rw [hh]
    rfl
  unfold rtMutexRelease
  rw [if_neg (not_not.mpr ho)]
  dsimp only
  rw [if_pos hz, hl]
  dsimp only
  rw [if_pos (by rw [hz]; decide)]
  unfold resumeWaiter
  rw [if_pos hst]
  dsimp only
  rw [List.erase_cons_head, hz]
  rfl

theorem Sound.release_frees (h : s.Sound base q) (ho : s.mutex.owner = some t)
    (hh : s.mutex.hold = 1) (hl : s.mutex.suspendThread = []) :
    rtMutexRelease t s = (s.setFree t, some .eok) := by
  have hv := (h.owned t ho).value
  have hz : s.mutex.hold - 1 = 0 := by
    rw [hh]
    rfl
  unfold rtMutexRelease
  rw [if_neg (not_not.mpr ho)]
  dsimp only
  rw [if_pos hz, hl]
  dsimp only
  rw [if_pos (by rw [hv]; decide), hz, hv]
  rfl

theorem Sound.release_cases (h : s.Sound base q) (t : ι) :
    s.Gave t (rtMutexRelease t s).1 (rtMutexRelease t s).2 := by
  by_cases ho : s.mutex.owner = some t
  · by_cases hh : s.mutex.hold = 1
    · cases hl : s.mutex.suspendThread with
      | cons w l =>
        rw [h.release_hands ho hh hl]
        exact .hands ho hh w l hl
      | nil =>
        rw [h.release_frees ho hh hl]
        exact .frees ho hh hl
    · have hpos := (h.owned t ho).hold
      unfold rtMutexRelease
      rw [if_neg (not_not.mpr ho)]
      dsimp only
      rw [if_neg (by bv_omega)]
      exact .nested ho (by bv_omega)
  · unfold rtMutexRelease
    rw [if_pos ho]
    exact .refused ho

/-! ## what keeps the invariant -/

omit [DecidableEq ι] in
theorem Owned.of_eq {c : ι} (h : s.Owned base c) (hm : s'.mutex = s.mutex)
    (hp : s'.prio c = s.prio c) : s'.Owned base c := by
  refine ⟨?_, ?_, ?_, ?_, ?_, ?_⟩
  · rw [hm]
    exact h.value
  · rw [hm]
    exact h.hold
  · rw [hm]
    exact h.out
  · rw [hm]
    exact h.original
  · rw [hp]
    exact h.raised
  · rw [hm, hp]
    exact h.inherits

omit [DecidableEq ι] in
/-- a thread that is RUNNING does not wait -/
theorem Sound.not_waiting (h : s.Sound base q) (ht : (s.sched.thread t).stat = .running) :
    t ∉ s.mutex.suspendThread := fun hw => nomatch (h.waits t hw).stat.symm.trans ht

theorem Sound.setError (h : s.Sound base q) (hl : t ∉ s.mutex.suspendThread) (hr : t ∉ s.resumed)
    (err : RtErr) : (s.setError t err).Sound base q := by
  have he : ∀ u, u ≠ t → (s.setError t err).error u = s.error u := by
    intro u hu
    show Function.update s.error t err u = s.error u
    rw [Function.update_of_ne hu]
  refine ⟨h.sched, h.flag, h.free, fun c hc => (h.owned c hc).of_eq rfl rfl, h.own, fun w hw => ?_,
    h.nodup, h.line, h.once, fun w hw => ?_⟩
  · have hww := h.waits w hw
    exact ⟨hww.stat, (he w fun e => hl (e ▸ hw)).trans hww.error, hww.out⟩
  · rw [he w fun e => hr (e ▸ hw)]
    exact h.handed w hw

omit [DecidableEq ι] in
theorem Sound.setHold (h : s.Sound base q) (ho : s.mutex.owner = some t) {hold : BitVec 8}
    (hh : 0 < hold) : (s.setHold hold).Sound base q := by
  refine ⟨h.sched, h.flag, fun hn => ?_, fun c hc => ?_, h.own, fun w hw => ?_, h.nodup, h.line,
    h.once, h.handed⟩
  · cases ho.symm.trans hn
  · have hown := h.owned c hc
    exact ⟨hown.value, hh, hown.out, hown.original, hown.raised, hown.inherits⟩
  · have hww := h.waits w hw
    exact ⟨hww.stat, hww.error, hww.out⟩

omit [DecidableEq ι] in
theorem Sound.seize (h : s.Sound base q) (ho : s.mutex.owner = none) (hr : t ∉ s.resumed) :
    (s.seize t).Sound base q := by
  obtain ⟨-, -, hl⟩ := h.free ho
  have hprio : ∀ u, s.prio u = base u := fun u => h.own u (by rw [ho]; nofun)
  have hnot : ∀ w, w ∉ s.mutex.suspendThread := fun w hw => by
    rw [hl] at hw
    exact List.not_mem_nil hw
  refine ⟨h.sched, h.flag, nofun, fun c hc => ?_, fun u _ => hprio u, fun w hw => absurd hw (hnot w),
    h.nodup, h.line, h.once, fun w hw => ?_⟩
  · obtain rfl : t = c := Option.some.inj hc
    have hone : 0 < (1 : BitVec 8) := by decide
    exact ⟨rfl, hone, hnot t, hprio t, Nat.le_of_eq (hprio t), fun w hw => absurd hw (hnot w)⟩
  · refine iff_of_false (fun he => ?_) fun e => hr (Option.some.inj e ▸ hw)
    cases ho.symm.trans ((h.handed w hw).mp he)

/-- **a thread begins to wait** -/
theorem Sound.wait (h : s.Sound base q) (hrun : (s.sched.thread t).stat = .running)
    (hr : t ∉ s.resumed) (he : s.error t = .eok) {o : ι} (ho : s.mutex.owner = some o) (hne : t ≠ o)
    (timeout : BitVec 32) : (s.wait t o timeout).Sound base (q ++ [t]) := by
  have hown := h.owned o ho
  have hin := h.not_waiting hrun
  have hself : (s.sched.lend t o).thread t = s.sched.thread t := Scheduler.lend_ne hne
  have hstat : ∀ u, u ≠ t → u ≠ o →
      ((s.wait t o timeout).sched.thread u).stat = (s.sched.thread u).stat := by
    intro u hu huo
    show (((s.sched.lend t o).rtThreadSuspend t).thread u).stat = _
    rw [Scheduler.suspend_ne hu, Scheduler.lend_ne huo]
  have hprio : ∀ u, u ≠ o → (s.wait t o timeout).prio u = base u := by
    intro u hu
    show (((s.sched.lend t o).rtThreadSuspend t).thread u).prio = _
    rw [Scheduler.suspend_prio, Scheduler.lend_ne hu]
    exact h.own u (by rw [ho]; exact fun e => hu (Option.some.inj e).symm)
  have hlent : (s.wait t o timeout).prio o = min (s.prio o) (base t) := by
    show (((s.sched.lend t o).rtThreadSuspend t).thread o).prio = _
    rw [Scheduler.suspend_prio, Scheduler.lend_prio]
    exact congrArg _ (h.own t (by rw [ho]; exact fun e => hne (Option.some.inj e).symm))
  -- the loop compares the priorities after the loan, which are those of the threads themselves
  have hlist : (s.wait t o timeout).mutex.suspendThread =
      Stable.insert base t s.mutex.suspendThread := by
    show ipcListSuspend _ s.mutex.flag t s.mutex.suspendThread = _
    rw [h.flag]
    show insertPrio _ t s.mutex.suspendThread = _
    rw [insertPrio_eq]
    exact Stable.insert_congr (hprio t hne) fun u hu => hprio u fun e => hown.out (e ▸ hu)
  have hmem : ∀ {u}, u ∈ (s.wait t o timeout).mutex.suspendThread →
      u = t ∨ u ∈ s.mutex.suspendThread := by
    intro u hu
    rw [hlist] at hu
    exact Stable.mem_insert.mp hu
  refine ⟨h.sched.lend.suspend t, h.flag, fun hn => ?_, fun c hc => ?_, fun u hu => ?_,
    fun w hw => ?_, ?_, ?_, h.once, h.handed⟩
  · cases ho.symm.trans hn
  · obtain rfl : o = c := Option.some.inj (ho.symm.trans hc)
    refine ⟨hown.value, hown.hold, fun hw => ?_, hown.original, ?_, fun w hw => ?_⟩
    · exact (hmem hw).elim hne.symm hown.out
    · rw [hlent]
      exact Nat.le_trans (Nat.min_le_left _ _) hown.raised
    · rw [hlent]
      rcases hmem hw with rfl | hw
      · exact Nat.min_le_right _ _
      · exact Nat.le_trans (Nat.min_le_left _ _) (hown.inherits w hw)
  · exact hprio u fun e => hu (by rw [e]; exact ho)
  · rcases hmem hw with rfl | hw
    · refine ⟨?_, he, hr⟩
      show (((s.sched.lend w o).rtThreadSuspend w).thread w).stat = _
      rw [Scheduler.suspend_self (by rw [hself]; exact hrun)]
      rfl
    · have hww := h.waits w hw
      refine ⟨?_, hww.error, hww.out⟩
      rw [hstat w (fun e => hin (e ▸ hw)) fun e => hown.out (e ▸ hw)]
      exact hww.stat
  · rw [hlist]
    exact Stable.insert_nodup hin h.nodup
  · rw [hlist]
    exact h.line.push t

/-- **the mutex is handed on** -/
theorem Sound.handOn (h : s.Sound base q) (hbase : base t < 32) (hr : t ∉ s.resumed)
    (ho : s.mutex.owner = some t) {w : ι} {l : List ι} (hl : s.mutex.suspendThread = w :: l) :
    (s.handOn t w l).Sound base (q.filter fun u => decide (u ∈ l)) := by
  have hown := h.owned t ho
  have hw : w ∈ s.mutex.suspendThread := by
    rw [hl]
    exact List.mem_cons_self
  have hin : ∀ {u}, u ∈ l → u ∈ s.mutex.suspendThread := by
    intro u hu
    rw [hl]
    exact List.mem_cons_of_mem w hu
  have hnodup := h.nodup
  rw [hl] at hnodup
  obtain ⟨hwl, hlnodup⟩ := List.nodup_cons.mp hnodup
  have hne : ∀ {u}, u ∈ s.mutex.suspendThread → u ≠ t := fun hu e => hown.out (e ▸ hu)
  have hww := h.waits w hw
  -- every thread has its own priority now
  have hprio : ∀ u, (s.handOn t w l).prio u = base u := by
    intro u
    show (((s.sched.giveBack t s.mutex.originalPriority).rtThreadResume w).thread u).prio = _
    rw [Scheduler.resume_prio]
    by_cases hu : u = t
    · subst hu
      rw [Scheduler.giveBack_prio]
      exact hown.original
    · rw [Scheduler.giveBack_ne hu]
      exact h.own u (by rw [ho]; exact fun e => hu (Option.some.inj e).symm)
  have hlow : s.mutex.originalPriority < 32 := by
    show s.mutex.originalPriority.toNat < 32
    rw [hown.original]
    exact hbase
  have hline : Stable.Queue base (q.filter fun u => decide (u ∈ l)) l := by
    have hres := h.line.restrict fun u => decide (u ≠ w)
    have hfilter : s.mutex.suspendThread.filter (fun u => decide (u ≠ w)) = l := by
      rw [hl, List.filter_cons_of_neg (by simp)]
      exact List.filter_eq_self.mpr fun u hu => decide_eq_true fun e => hwl (e ▸ hu)
    rw [hfilter] at hres
    exact hres
  refine ⟨(h.sched.giveBack hlow).resume w, h.flag, nofun, fun c hc => ?_, fun u _ => hprio u,
    fun u hu => ?_, hlnodup, hline, ?_, fun u hu => ?_⟩
  · obtain rfl : w = c := Option.some.inj hc
    have hone : 0 < (1 : BitVec 8) := by decide
    refine ⟨hown.value, hone, hwl, ?_, Nat.le_of_eq (hprio w), fun u hu => ?_⟩
    · show ((s.sched.giveBack t s.mutex.originalPriority).thread w).prio = _
      rw [Scheduler.giveBack_ne (hne hw)]
      exact h.own w (by rw [ho]; exact fun e => hne hw (Option.some.inj e).symm)
    · rw [hprio]
      have hsorted := h.line.sorted
      rw [hl] at hsorted
      exact (List.pairwise_cons.mp hsorted).1 u hu
  · have huw := h.waits u (hin hu)
    have hneu : u ≠ w := fun e => hwl (e ▸ hu)
    refine ⟨?_, huw.error, fun hm => ?_⟩
    · refine Scheduler.resume_suspend hneu ?_
      rw [Scheduler.giveBack_ne (hne (hin hu))]
      exact huw.stat
    · rcases List.mem_append.mp hm with hm | hm
      · exact huw.out hm
      · exact hneu (List.mem_singleton.mp hm)
  · show (s.resumed ++ [w]).Nodup
    exact List.nodup_append.mpr ⟨h.once, List.nodup_singleton w, fun a ha b hb e => hww.out (by
      rw [← List.mem_singleton.mp hb, ← e]
      exact ha)⟩
  · rcases List.mem_append.mp hu with hu | hu
    · refine iff_of_false (fun he => ?_) fun e => hww.out (Option.some.inj e ▸ hu)
      exact hr (Option.some.inj (ho.symm.trans ((h.handed u hu).mp he)) ▸ hu)
    · rw [List.mem_singleton.mp hu]
      exact iff_of_true hww.error rfl

theorem Sound.setFree (h : s.Sound base q) (hbase : base t < 32) (hr : t ∉ s.resumed)
    (ho : s.mutex.owner = some t) (hl : s.mutex.suspendThread = []) :
    (s.setFree t).Sound base q := by
  have hown := h.owned t ho
  have hlow : s.mutex.originalPriority < 32 := by
    show s.mutex.originalPriority.toNat < 32
    rw [hown.original]
    exact hbase
  have hline := h.line
  rw [hl] at hline
  refine ⟨h.sched.giveBack hlow, h.flag, fun _ => ⟨rfl, rfl, rfl⟩, nofun, fun u _ => ?_,
    fun u hu => absurd hu List.not_mem_nil, List.nodup_nil, hline, h.once, fun u hu => ?_⟩
  · show ((s.sched.giveBack t s.mutex.originalPriority).thread u).prio = _
    by_cases hu : u = t
    · subst hu
      rw [Scheduler.giveBack_prio]
      exact hown.original
    · rw [Scheduler.giveBack_ne hu]
      exact h.own u (by rw [ho]; exact fun e => hu (Option.some.inj e).symm)
  · refine iff_of_false (fun he => ?_) nofun
    exact hr (Option.some.inj (ho.symm.trans ((h.handed u hu).mp he)) ▸ hu)

/-- the thread is back -/
theorem Sound.back (h : s.Sound base q) (t : ι) :
    ({ s with resumed := s.resumed.erase t } : MutexSystem ι).Sound base q := by
  refine ⟨h.sched, h.flag, h.free, fun c hc => (h.owned c hc).of_eq rfl rfl, h.own, fun w hw => ?_,
    h.nodup, h.line, h.once.erase t, fun w hw => h.handed w (List.mem_of_mem_erase hw)⟩
  have hww := h.waits w hw
  exact ⟨hww.stat, hww.error, fun hm => hww.out (List.mem_of_mem_erase hm)⟩

/-- the scheduler has done something else -/
theorem Sound.other (h : s.Sound base q) {c : SchedCall ι} (hc : c.plain = true)
    (hw : ∀ w ∈ s.mutex.suspendThread, c.wakes w = false) {sched : Scheduler ι}
    (e : s.sched.exec c = some sched) :
    ({ s with sched := sched } : MutexSystem ι).Sound base q := by
  have hprio : ∀ u, (sched.thread u).prio = s.prio u := fun u =>
    congrArg BitVec.toNat (h.sched.exec_frame c hc e).priority
  refine ⟨h.sched.exec c e, h.flag, h.free, fun o ho => (h.owned o ho).of_eq rfl (hprio o),
    fun u hu => (hprio u).trans (h.own u hu), fun w hm => ?_, h.nodup, h.line, h.once, h.handed⟩
  have hww := h.waits w hm
  exact ⟨(h.sched.exec_frame c hc e).suspend (hw w hm) hww.stat, hww.error, hww.out⟩

/-- **a thread has waited in vain** -/
theorem Sound.expire (h : s.Sound base q) (ht : t ∈ s.mutex.suspendThread) {sched : Scheduler ι}
    (e : s.sched.exec (.timeout t) = some sched) : (s.expire t sched).Sound base
      (q.filter fun u => decide (u ∈ (s.expire t sched).mutex.suspendThread)) := by
  have hframe : ∀ u, s.sched.Frame sched u ((SchedCall.timeout t).wakes u) := fun u =>
    h.sched.exec_frame (.timeout t) rfl e
  have hprio : ∀ u, (sched.thread u).prio = s.prio u := fun u =>
    congrArg BitVec.toNat (hframe u).priority
  have herror : ∀ u, u ≠ t → (s.expire t sched).error u = s.error u := by
    intro u hu
    show Function.update s.error t .etimeout u = s.error u
    rw [Function.update_of_ne hu]
  have hself : (s.expire t sched).error t = .etimeout := Function.update_self _ _ _
  have hlist : (s.expire t sched).mutex.suspendThread =
      s.mutex.suspendThread.filter fun u => decide (u ≠ t) := by
    show s.mutex.suspendThread.erase t = _
    rw [h.nodup.erase_eq_filter]
    exact List.filter_congr fun u _ => by rw [Bool.eq_iff_iff, bne_iff_ne, decide_eq_true_eq]
  have hmem : ∀ {u}, u ∈ (s.expire t sched).mutex.suspendThread →
      u ∈ s.mutex.suspendThread ∧ u ≠ t := by
    intro u hu
    rw [hlist] at hu
    obtain ⟨hu, hd⟩ := List.mem_filter.mp hu
    exact ⟨hu, of_decide_eq_true hd⟩
  have hline := h.line.restrict fun u => decide (u ≠ t)
  rw [← hlist] at hline
  refine ⟨h.sched.exec _ e, h.flag, fun hn => ?_, fun c hc => ?_, fun u hu => ?_, fun u hu => ?_,
    h.nodup.erase t, hline, ?_, fun u hu => ?_⟩
  · rw [(h.free hn).2.2] at ht
    exact absurd ht List.not_mem_nil
  · have hown := h.owned c hc
    refine ⟨hown.value, hown.hold, fun hm => hown.out (hmem hm).1, hown.original, ?_, fun u hu => ?_⟩
    · show (sched.thread c).prio ≤ _
      rw [hprio]
      exact hown.raised
    · show (sched.thread c).prio ≤ _
      rw [hprio]
      exact hown.inherits u (hmem hu).1
  · exact (hprio u).trans (h.own u hu)
  · obtain ⟨hu, hne⟩ := hmem hu
    have huw := h.waits u hu
    refine ⟨(hframe u).suspend (decide_eq_false hne) huw.stat, (herror u hne).trans huw.error,
      fun hm => ?_⟩
    exact (List.mem_append.mp hm).elim huw.out fun hm => hne (List.mem_singleton.mp hm)
  · show (s.resumed ++ [t]).Nodup
    exact List.nodup_append.mpr ⟨h.once, List.nodup_singleton t, fun a ha b hb e =>
      (h.waits t ht).out (by
        rw [← List.mem_singleton.mp hb, ← e]
        exact ha)⟩
  · rcases List.mem_append.mp hu with hu | hu
    · rw [herror u fun e => (h.waits t ht).out (e ▸ hu)]
      exact h.handed u hu
    · rw [List.mem_singleton.mp hu, hself]
      exact iff_of_false nofun fun ho => (h.owned t ho).out ht

/-! ## one section -/

/-- all that a section can do -/
inductive Did (s : MutexSystem ι) : MutexCall ι → MutexSystem ι → Option RtErr → Prop where
  | take {t : ι} {timeout : BitVec 32} {s' : MutexSystem ι} {r : Option RtErr}
    (hself : s.self = some t) (hr : t ∉ s.resumed) (h : s.Took t timeout s' r) :
    s.Did (.take timeout) s' r
  | goOn {t : ι} (hself : s.self = some t) (hr : t ∈ s.resumed) :
    s.Did .goOn { s with resumed := s.resumed.erase t } (some (s.error t))
  | release {t : ι} {s' : MutexSystem ι} {r : Option RtErr} (hself : s.self = some t)
    (hr : t ∉ s.resumed) (h : s.Gave t s' r) : s.Did .release s' r
  | timerExpires {t : ι} {sched : Scheduler ι} (ht : t ∈ s.mutex.suspendThread)
    (e : s.sched.exec (.timeout t) = some sched) :
    s.Did (.timerExpires t) (s.expire t sched) none
  | other {c : SchedCall ι} {sched : Scheduler ι} (hc : c.plain = true)
    (hw : ∀ w ∈ s.mutex.suspendThread, c.wakes w = false) (e : s.sched.exec c = some sched) :
    s.Did (.other c) { s with sched := sched } none

theorem Sound.did (h : s.Sound base q) {c : MutexCall ι} (e : s.exec c = some (s', r)) :
    s.Did c s' r := by
  cases c with
  | take timeout =>
    obtain ⟨t, hself, e⟩ := Option.bind_eq_some_iff.mp e
    obtain ⟨⟨-, hr⟩, e⟩ := Option.ite_none_right_eq_some.mp e
    obtain ⟨s₁, r₁, e₁, ht⟩ := h.take_cases t timeout
    obtain ⟨rfl, rfl⟩ := Prod.mk.inj (Option.some.inj (e₁.symm.trans e))
    exact .take hself hr ht
  | goOn =>
    obtain ⟨t, hself, e⟩ := Option.bind_eq_some_iff.mp e
    obtain ⟨hr, e⟩ := Option.ite_none_right_eq_some.mp e
    obtain ⟨rfl, rfl⟩ := Prod.mk.inj (Option.some.inj e)
    exact .goOn hself hr
  | release =>
    obtain ⟨t, hself, e⟩ := Option.bind_eq_some_iff.mp e
    obtain ⟨hr, e⟩ := Option.ite_none_right_eq_some.mp e
    have hg := h.release_cases t
    rw [Option.some.inj e] at hg
    exact .release hself hr hg
  | timerExpires t =>
    obtain ⟨⟨ht, -⟩, e⟩ := Option.ite_none_right_eq_some.mp e
    obtain ⟨s₁, e₁, e⟩ := Option.map_eq_some_iff.mp e
    obtain ⟨sched, e₂, rfl⟩ := Option.map_eq_some_iff.mp e₁
    obtain ⟨rfl, rfl⟩ := Prod.mk.inj e
    exact .timerExpires ht e₂
  | other c =>
    obtain ⟨⟨hc, hw⟩, e⟩ := Option.ite_none_right_eq_some.mp e
    obtain ⟨sched, e₁, e⟩ := Option.map_eq_some_iff.mp e
    obtain ⟨rfl, rfl⟩ := Prod.mk.inj e
    exact .other hc hw e₁

end MutexSystem

/-! ## what an observer notes -/

/-- the calls of every thread that succeeded, and who waits, in the order of their calls -/
structure MutexLedger (ι : Type) where
  got : ι → Nat
  gave : ι → Nat
  queue : List ι

namespace MutexSystem

variable {base : ι → Nat} {s s' : MutexSystem ι} {q : List ι} {t : ι} {r : Option RtErr}
  {o : MutexLedger ι} {c : MutexCall ι}

/-- the thread to which the call returns `RT_EOK` -/
def succeeds (s : MutexSystem ι) (c : MutexCall ι) : Option ι :=
  if (s.exec c).bind Prod.snd = some .eok then s.self else none

/-- one more of the thread -/
def count (t : Option ι) (f : ι → Nat) (u : ι) : Nat := if t = some u then f u + 1 else f u

/-- who may wait after the section, in the order of the calls -/
def line (s : MutexSystem ι) (c : MutexCall ι) (queue : List ι) : List ι :=
  match c with
  | .take _ => queue ++ s.self.toList
  | _ => queue

def note (s : MutexSystem ι) (c : MutexCall ι) (o : MutexLedger ι) : MutexLedger ι where
  got :=
    match c with
    | .release => o.got
    | _ => count (s.succeeds c) o.got
  gave :=
    match c with
    | .release => count (s.succeeds c) o.gave
    | _ => o.gave
  queue := (s.line c o.queue).filter fun u => decide (u ∈ (s.step c).mutex.suspendThread)

omit [DecidableEq ι] in
theorem self_running (h : s.self = some t) :
    s.sched.currentThread = some t ∧ (s.sched.thread t).stat = .running := by
  obtain ⟨hc, hr⟩ := Option.filter_eq_some_iff.mp h
  exact ⟨hc, of_decide_eq_true hr⟩

theorem step_of_exec (e : s.exec c = some (s', r)) : s.step c = s' := by
  unfold step
  rw [e]
  rfl

theorem succeeds_of_exec (e : s.exec c = some (s', r)) :
    s.succeeds c = if r = some .eok then s.self else none := by
  unfold succeeds
  rw [e]
  rfl

/-- whoever is in the queue waits -/
theorem Sound.queue_eq (h : s.Sound base q) :
    q.filter (fun u => decide (u ∈ s.mutex.suspendThread)) = q :=
  List.filter_eq_self.mpr fun u hu => decide_eq_true ((h.line.mem u).mpr hu)

/-- a thread that does not wait is not put into the queue -/
theorem Sound.queue_self (h : s.Sound base q) :
    (q ++ s.self.toList).filter (fun u => decide (u ∈ s.mutex.suspendThread)) = q := by
  have hnone : s.self.toList.filter (fun u => decide (u ∈ s.mutex.suspendThread)) = [] := by
    refine List.filter_eq_nil_iff.mpr fun u hu => ?_
    rw [decide_eq_true_eq]
    exact h.not_waiting (self_running (Option.mem_toList.mp hu)).2
  rw [List.filter_append, h.queue_eq, hnone, List.append_nil]

theorem Sound.took {timeout : BitVec 32} (h : s.Sound base q) (hself : s.self = some t)
    (hr : t ∉ s.resumed) (ht : s.Took t timeout s' r) : s'.Sound base
      ((q ++ s.self.toList).filter fun u => decide (u ∈ s'.mutex.suspendThread)) := by
  have hrun := (self_running hself).2
  have hin := h.not_waiting hrun
  cases ht with
  | refused err r hne =>
    have hs := h.setError hin hr err
    rw [show (s.setError t err).mutex = s.mutex from rfl, h.queue_self]
    exact hs
  | nested ho hh =>
    have hpos : 0 < s.mutex.hold + 1 := by
      unfold rtMutexHoldMax at hh
      bv_omega
    have hs := (h.setError hin hr .eok).setHold ho hpos
    show ((s.setError t .eok).setHold (s.mutex.hold + 1)).Sound base
      ((q ++ s.self.toList).filter fun u => decide (u ∈ s.mutex.suspendThread))
    rw [h.queue_self]
    exact hs
  | first ho =>
    have hs := (h.setError hin hr .eok).seize ho hr
    show ((s.setError t .eok).seize t).Sound base
      ((q ++ s.self.toList).filter fun u => decide (u ∈ s.mutex.suspendThread))
    rw [h.queue_self]
    exact hs
  | waits owner ho hne =>
    have hs := (h.setError hin hr .eok).wait hrun hr (Function.update_self _ _ _) ho hne timeout
    rw [hself]
    show ((s.setError t .eok).wait t owner timeout).Sound base ((q ++ [t]).filter _)
    rw [hs.queue_eq]
    exact hs

theorem Sound.gave (h : s.Sound base q) (hbase : base t < 32) (hself : s.self = some t)
    (hr : t ∉ s.resumed) (hg : s.Gave t s' r) :
    s'.Sound base (q.filter fun u => decide (u ∈ s'.mutex.suspendThread)) := by
  have hin := h.not_waiting (self_running hself).2
  cases hg with
  | refused ho =>
    have hs := h.setError hin hr .error
    rw [hs.queue_eq]
    exact hs
  | nested ho hh =>
    have hpos : 0 < s.mutex.hold - 1 := by bv_omega
    have hs := h.setHold ho hpos
    rw [hs.queue_eq]
    exact hs
  | hands ho hh w l hl => exact h.handOn hbase hr ho hl
  | frees ho hh hl =>
    have hs := h.setFree hbase hr ho hl
    rw [hs.queue_eq]
    exact hs

/-- **one section keeps the invariant** -/
theorem Sound.step (hbase : ∀ t, base t < 32) (h : s.Sound base o.queue) (c : MutexCall ι) :
    (s.step c).Sound base (s.note c o).queue := by
  cases e : s.exec c with
  | none =>
    have hs : s.step c = s := by
      unfold MutexSystem.step
      rw [e]
      rfl
    have hq : (s.note c o).queue = o.queue := by
      show (s.line c o.queue).filter (fun u => decide (u ∈ (s.step c).mutex.suspendThread)) = _
      rw [hs]
      cases c with
      | take timeout => exact h.queue_self
      | _ => exact h.queue_eq
    rw [hs, hq]
    exact h
  | some p =>
    obtain ⟨s', r⟩ := p
    show (s.step c).Sound base
      ((s.line c o.queue).filter fun u => decide (u ∈ (s.step c).mutex.suspendThread))
    rw [step_of_exec e]
    cases h.did e with
    | take hself hr ht => exact h.took hself hr ht
    | @goOn t hself hr =>
      have hs := h.back t
      show Sound base _ (o.queue.filter _)
      rw [hs.queue_eq]
      exact hs
    | release hself hr hg => exact h.gave (hbase _) hself hr hg
    | timerExpires ht e' => exact h.expire ht e'
    | other hc hw e' =>
      have hs := h.other hc hw e'
      show Sound base _ (o.queue.filter _)
      rw [hs.queue_eq]
      exact hs

/-! ## at most one thread inside -/

/-- **the invariant of the ledger**; a thread that has been handed the mutex gets it when it goes
on -/
structure Balanced (s : MutexSystem ι) (o : MutexLedger ι) : Prop where
  outside : ∀ t, s.mutex.owner ≠ some t → o.got t = o.gave t
  inside : ∀ t, s.mutex.owner = some t →
    o.got t + (if t ∈ s.resumed then 1 else 0) = o.gave t + s.mutex.hold.toNat

theorem count_none (f : ι → Nat) : count none f = f := by
  funext u
  exact if_neg nofun

theorem count_self (f : ι → Nat) : count (some t) f t = f t + 1 := if_pos rfl

theorem count_ne {u : ι} (hu : u ≠ t) (f : ι → Nat) : count (some t) f u = f u :=
  if_neg fun e => hu (Option.some.inj e).symm

/-- nothing that the ledger is about has changed -/
theorem Balanced.of_eq {o' : MutexLedger ι} (h : s.Balanced o) (hg : o'.got = o.got)
    (hv : o'.gave = o.gave) (hm : s'.mutex.owner = s.mutex.owner) (hh : s'.mutex.hold = s.mutex.hold)
    (hr : ∀ t, s.mutex.owner = some t → (t ∈ s'.resumed ↔ t ∈ s.resumed)) : s'.Balanced o' := by
  refine ⟨fun t ht => ?_, fun t ht => ?_⟩
  · rw [hg, hv]
    exact h.outside t (by rw [← hm]; exact ht)
  · rw [hm] at ht
    rw [hg, hv, hh, if_congr (hr t ht) rfl rfl]
    exact h.inside t ht

theorem Balanced.took {timeout : BitVec 32} (h : s.Balanced o) (hr : t ∉ s.resumed)
    (ht : s.Took t timeout s' r) :
    s'.Balanced { o with got := count (if r = some .eok then some t else none) o.got } := by
  cases ht with
  | refused err r hne =>
    refine h.of_eq ?_ rfl rfl rfl fun _ _ => Iff.rfl
    rw [if_neg fun e => hne (Option.some.inj e)]
    exact count_none _
  | nested ho hh =>
    have hin := h.inside t ho
    rw [if_neg hr] at hin
    have hhold : (s.mutex.hold + 1).toNat = s.mutex.hold.toNat + 1 := by
      unfold rtMutexHoldMax at hh
      bv_omega
    rw [if_pos rfl]
    refine ⟨fun u hu => ?_, fun u hu => ?_⟩
    · show count (some t) o.got u = o.gave u
      rw [count_ne fun e => hu (by rw [e]; exact ho)]
      exact h.outside u hu
    · obtain rfl : t = u := Option.some.inj (ho.symm.trans hu)
      show count (some t) o.got t + (if t ∈ s.resumed then 1 else 0) =
        o.gave t + (s.mutex.hold + 1).toNat
      rw [count_self, if_neg hr, hhold]
      omega
  | first ho =>
    have hout : ∀ u, o.got u = o.gave u := fun u => h.outside u (by rw [ho]; nofun)
    rw [if_pos rfl]
    refine ⟨fun u hu => ?_, fun u hu => ?_⟩
    · show count (some t) o.got u = o.gave u
      rw [count_ne fun e => hu (by rw [e]; rfl)]
      exact hout u
    · obtain rfl : t = u := Option.some.inj hu
      show count (some t) o.got t + (if t ∈ s.resumed then 1 else 0) = o.gave t + 1
      rw [count_self, if_neg hr, hout]
  | waits owner ho hne => exact h.of_eq (count_none _) rfl rfl rfl fun _ _ => Iff.rfl

theorem Balanced.back (h : s.Balanced o) (hs : s.Sound base q) (hr : t ∈ s.resumed) :
    Balanced { s with resumed := s.resumed.erase t }
      { o with got := count (if some (s.error t) = some .eok then some t else none) o.got } := by
  have hother : ∀ u, u ≠ t → (u ∈ s.resumed.erase t ↔ u ∈ s.resumed) := fun u hu =>
    List.mem_erase_of_ne hu
  by_cases he : s.error t = .eok
  · have ho := (hs.handed t hr).mp he
    have hin := h.inside t ho
    rw [if_pos hr] at hin
    rw [if_pos (congrArg some he)]
    refine ⟨fun u hu => ?_, fun u hu => ?_⟩
    · show count (some t) o.got u = o.gave u
      rw [count_ne fun e => hu (by rw [e]; exact ho)]
      exact h.outside u hu
    · obtain rfl : t = u := Option.some.inj (ho.symm.trans hu)
      show count (some t) o.got t + (if t ∈ s.resumed.erase t then 1 else 0) =
        o.gave t + s.mutex.hold.toNat
      rw [count_self, if_neg (hs.once.not_mem_erase)]
      omega
  · rw [if_neg fun e => he (Option.some.inj e)]
    refine h.of_eq (count_none _) rfl rfl rfl fun u hu => hother u ?_
    rintro rfl
    exact he ((hs.handed u hr).mpr hu)

theorem Balanced.gave (h : s.Balanced o) (hs : s.Sound base q) (hr : t ∉ s.resumed)
    (hg : s.Gave t s' r) :
    s'.Balanced { o with gave := count (if r = some .eok then some t else none) o.gave } := by
  cases hg with
  | refused ho => exact h.of_eq rfl (count_none _) rfl rfl fun _ _ => Iff.rfl
  | nested ho hh =>
    have hin := h.inside t ho
    rw [if_neg hr] at hin
    have hhold : s.mutex.hold.toNat = (s.mutex.hold - 1).toNat + 1 := by bv_omega
    rw [if_pos rfl]
    refine ⟨fun u hu => ?_, fun u hu => ?_⟩
    · show o.got u = count (some t) o.gave u
      rw [count_ne fun e => hu (by rw [e]; exact ho)]
      exact h.outside u hu
    · obtain rfl : t = u := Option.some.inj (ho.symm.trans hu)
      show o.got t + (if t ∈ s.resumed then 1 else 0) =
        count (some t) o.gave t + (s.mutex.hold - 1).toNat
      rw [count_self, if_neg hr]
      omega
  | hands ho hh w l hl =>
    have hin := h.inside t ho
    rw [if_neg hr, hh] at hin
    have hw : w ∈ s.mutex.suspendThread := by
      rw [hl]
      exact List.mem_cons_self
    have hne : w ≠ t := fun e => (hs.owned t ho).out (e ▸ hw)
    rw [if_pos rfl]
    refine ⟨fun u hu => ?_, fun u hu => ?_⟩
    · show o.got u = count (some t) o.gave u
      by_cases hut : u = t
      · rw [hut, count_self]
        exact hin
      · rw [count_ne hut]
        exact h.outside u (by rw [ho]; exact fun e => hut (Option.some.inj e).symm)
    · obtain rfl : w = u := Option.some.inj hu
      show o.got w + (if w ∈ s.resumed ++ [w] then 1 else 0) = count (some t) o.gave w + 1
      rw [if_pos (List.mem_append_right _ (List.mem_singleton.mpr rfl)), count_ne hne,
        h.outside w (by rw [ho]; exact fun e => hne (Option.some.inj e).symm)]
  | frees ho hh hl =>
    have hin := h.inside t ho
    rw [if_neg hr, hh] at hin
    rw [if_pos rfl]
    refine ⟨fun u hu => ?_, nofun⟩
    show o.got u = count (some t) o.gave u
    by_cases hut : u = t
    · rw [hut, count_self]
      exact hin
    · rw [count_ne hut]
      exact h.outside u (by rw [ho]; exact fun e => hut (Option.some.inj e).symm)

theorem Balanced.step (h : s.Balanced o) (hs : s.Sound base o.queue) (c : MutexCall ι) :
    (s.step c).Balanced (s.note c o) := by
  have hqueue : ∀ {s' : MutexSystem ι} {o' o'' : MutexLedger ι}, s'.Balanced o' →
      o'.got = o''.got → o'.gave = o''.gave → s'.Balanced o'' := fun h hg hv =>
    h.of_eq hg.symm hv.symm rfl rfl fun _ _ => Iff.rfl
  cases e : s.exec c with
  | none =>
    have hn : s.succeeds c = none := by
      unfold succeeds
      rw [e]
      rfl
    have hst : s.step c = s := by
      unfold MutexSystem.step
      rw [e]
      rfl
    rw [hst]
    refine hqueue h ?_ ?_
    · show o.got = _
      unfold note
      rw [hn, count_none]
      cases c <;> rfl
    · unfold note
      rw [hn, count_none]
      cases c <;> rfl
  | some p =>
    obtain ⟨s', r⟩ := p
    have hn := succeeds_of_exec e
    rw [step_of_exec e]
    cases hs.did e with
    | take hself hr ht =>
      rw [hself] at hn
      refine hqueue (h.took hr ht) ?_ rfl
      rw [← hn]
      rfl
    | goOn hself hr =>
      rw [hself] at hn
      refine hqueue (h.back hs hr) ?_ rfl
      rw [← hn]
      rfl
    | release hself hr hg =>
      rw [hself] at hn
      refine hqueue (h.gave hs hr hg) rfl ?_
      rw [← hn]
      rfl
    | @timerExpires t sched ht e' =>
      refine h.of_eq ?_ rfl rfl rfl fun u hu => ?_
      · show count (s.succeeds _) o.got = o.got
        rw [hn]
        exact count_none _
      · have hne : u ≠ t := fun e => (hs.owned u hu).out (e ▸ ht)
        show u ∈ s.resumed ++ [t] ↔ u ∈ s.resumed
        rw [List.mem_append, List.mem_singleton]
        exact or_iff_left hne
    | other hc hw e' =>
      refine h.of_eq ?_ rfl rfl rfl fun _ _ => Iff.rfl
      show count (s.succeeds _) o.got = o.got
      rw [hn]
      exact count_none _

end MutexSystem

/-- the ledger of a run -/
def mutexLedger (priority : ι → BitVec 8) (tick : ι → BitVec 32) (l : List (MutexCall ι)) :
    MutexLedger ι :=
  Runs.observe MutexSystem.step MutexSystem.note (.boot priority tick) ⟨fun _ => 0, fun _ => 0, []⟩ l

theorem mutexRun_sound (priority : ι → BitVec 8) (tick : ι → BitVec 32)
    (hp : ∀ t, priority t < 32) (l : List (MutexCall ι)) :
    let s := mutexRun priority tick l
    let o := mutexLedger priority tick l
    s.Sound (fun t => (priority t).toNat) o.queue ∧ s.Balanced o := by
  have hstep : ∀ (s : MutexSystem ι) (o : MutexLedger ι) (c : MutexCall ι),
      s.Sound (fun t => (priority t).toNat) o.queue ∧ s.Balanced o →
      (s.step c).Sound (fun t => (priority t).toNat) (s.note c o).queue ∧
        (s.step c).Balanced (s.note c o) := fun s o c h => ⟨h.1.step hp c, h.2.step h.1 c⟩
  have h₀ : (MutexSystem.boot priority tick).Sound (fun t => (priority t).toNat) [] :=
    ⟨Scheduler.boot_sound priority tick hp, rfl, fun _ => ⟨rfl, rfl, rfl⟩, nofun, fun _ _ => rfl,
      fun _ hw => absurd hw List.not_mem_nil, List.nodup_nil, Stable.Queue.nil, List.nodup_nil,
      fun _ hw => absurd hw List.not_mem_nil⟩
  have hb₀ : (MutexSystem.boot priority tick).Balanced ⟨fun _ => 0, fun _ => 0, []⟩ :=
    ⟨fun _ _ => rfl, fun _ ho => absurd ho (Option.some_ne_none _).symm⟩
  intro s o
  exact Runs.observe_inv (I := fun (s : MutexSystem ι) (o : MutexLedger ι) =>
    s.Sound (fun t => (priority t).toNat) o.queue ∧ s.Balanced o) hstep ⟨h₀, hb₀⟩ l

/-- **At most one thread is inside**, in any interleaving: between a successful `rt_mutex_take` and
the last of its successful releases a thread is the owner of the mutex, which counts its calls;
nobody waits for a mutex without an owner. -/
theorem mutex_exclusive (priority : ι → BitVec 8) (tick : ι → BitVec 32)
    (hp : ∀ t, priority t < 32) (l : List (MutexCall ι)) :
    let s := mutexRun priority tick l
    let o := mutexLedger priority tick l
    (∀ t, o.gave t ≤ o.got t) ∧
      (∀ t, o.gave t < o.got t → s.mutex.owner = some t ∧
        o.got t + (if t ∈ s.resumed then 1 else 0) = o.gave t + s.mutex.hold.toNat) ∧
      (∀ t u, o.gave t < o.got t → o.gave u < o.got u → t = u) ∧
      (s.mutex.owner = none → s.mutex.value = 1 ∧ s.mutex.suspendThread = []) := by
  intro s o
  obtain ⟨hs, hb⟩ : s.Sound (fun t => (priority t).toNat) o.queue ∧ s.Balanced o :=
    mutexRun_sound priority tick hp l
  have hin : ∀ t, o.gave t < o.got t → s.mutex.owner = some t := by
    intro t ht
    by_contra hne
    exact absurd (hb.outside t hne) (Nat.ne_of_gt ht)
  refine ⟨fun t => ?_, fun t ht => ⟨hin t ht, hb.inside t (hin t ht)⟩, fun t u ht hu => ?_,
    fun hn => ⟨(hs.free hn).1, (hs.free hn).2.2⟩⟩
  · by_cases ho : s.mutex.owner = some t
    · have hi := hb.inside t ho
      have hpos : 0 < s.mutex.hold.toNat := (hs.owned t ho).hold
      split at hi <;> omega
    · exact Nat.le_of_eq (hb.outside t ho).symm
  · exact Option.some.inj ((hin t ht).symm.trans (hin u hu))

/-- a thread of low priority is inside, and one of high priority waits -/
theorem mutex_exclusive_three :
    let l : List (MutexCall (Fin 3)) := [.other (.startup 0), .other .systemStart,
      .take 0xffffffff, .other (.startup 1), .other .schedule, .take 0xffffffff]
    let o := mutexLedger (fun t : Fin 3 => if t = 0 then 20 else 5) (fun _ => 20) l
    ∀ u, o.gave u < o.got u → u = 0 := by
  intro l o u hu
  exact (mutex_exclusive (fun t : Fin 3 => if t = 0 then 20 else 5) (fun _ => 20) (by decide)
    l).2.2.1 u 0 hu (by decide +kernel)

/-- **The loan.**  In every reachable state no thread that waits for the mutex has a higher priority
than its owner; whoever does not own the mutex has the priority it was created with, and the owner
has that one or a higher one. -/
theorem mutex_inherits (priority : ι → BitVec 8) (tick : ι → BitVec 32)
    (hp : ∀ t, priority t < 32) (l : List (MutexCall ι)) :
    let s := mutexRun priority tick l
    (∀ c w, s.mutex.owner = some c → w ∈ s.mutex.suspendThread → s.prio c ≤ s.prio w) ∧
      (∀ t, s.mutex.owner ≠ some t → s.prio t = (priority t).toNat) ∧
      ∀ t, s.prio t ≤ (priority t).toNat := by
  intro s
  have hs := (mutexRun_sound priority tick hp l).1
  refine ⟨fun c w hc hw => hs.lent hc hw, hs.own, fun t => ?_⟩
  · by_cases ho : s.mutex.owner = some t
    · exact (hs.owned t ho).raised
    · exact Nat.le_of_eq (hs.own t ho)

/-- the thread 0 has lent the priority of the thread 1 -/
theorem mutex_inherits_three :
    let l : List (MutexCall (Fin 3)) := [.other (.startup 0), .other .systemStart,
      .take 0xffffffff, .other (.startup 1), .other .schedule, .take 0xffffffff]
    let s := mutexRun (fun t : Fin 3 => if t = 0 then 20 else 5) (fun _ => 20) l
    s.prio 0 ≤ s.prio 1 := by
  intro l s
  exact (mutex_inherits (fun t : Fin 3 => if t = 0 then 20 else 5) (fun _ => 20) (by decide)
    l).1 0 1 (by decide +kernel) (by decide +kernel)

/-- **No third thread comes between.**  If the owner of the mutex can run at all, a thread that is
RUNNING after `rt_schedule` has at least the priority of every thread that waits for the mutex. -/
theorem mutex_inversion (priority : ι → BitVec 8) (tick : ι → BitVec 32)
    (hp : ∀ t, priority t < 32) (l : List (MutexCall ι))
    (hl : (mutexRun priority tick l).sched.lockNest = 0) (c d w : ι) :
    let s := mutexRun priority tick (l ++ [.other .schedule])
    s.mutex.owner = some c →
      (s.sched.thread c).stat = .ready ∨ (s.sched.thread c).stat = .running →
      s.self = some d → w ∈ s.mutex.suspendThread → s.prio d ≤ s.prio w := by
  intro s hc hstat hd hw
  have h₀ := (mutexRun_sound priority tick hp l).1
  have hs : s.Sound (fun t => (priority t).toNat) _ := (mutexRun_sound priority tick hp _).1
  refine Nat.le_trans ?_ (hs.lent hc hw)
  obtain ⟨hcur, hrun⟩ := MutexSystem.self_running hd
  rcases hstat with hready | hrunc
  · have hstep : s = (mutexRun priority tick l).step (.other .schedule) := Runs.run_snoc _ _ l _
    generalize mutexRun priority tick l = s₀ at *
    have hexec : s₀.exec (.other .schedule) =
        s₀.sched.rtSchedule.map fun sched => ({ s₀ with sched := sched }, none) :=
      if_pos ⟨rfl, fun _ _ => rfl⟩
    cases e : s₀.sched.rtSchedule with
    | none =>
      -- then no thread has run yet
      rw [e] at hexec
      have hsame : s = s₀ := by
        rw [hstep]
        unfold MutexSystem.step
        rw [hexec]
        rfl
      rw [hsame] at hcur
      rcases h₀.sched.schedule hcur with ⟨-, he⟩ | ⟨-, _, _, _, -, -, ⟨-, he⟩ | ⟨-, he⟩⟩
      · cases e.symm.trans he
      · cases e.symm.trans he
      · cases e.symm.trans he
    | some x =>
      rw [e] at hexec
      have hx : s = { s₀ with sched := x } := hstep.trans (MutexSystem.step_of_exec hexec)
      rw [hx] at hcur hrun hready ⊢
      exact h₀.sched.schedule_best hl e hcur hrun hready
  · have hcd : c = d := Option.some.inj ((hs.sched.running c hrunc).symm.trans hcur)
    exact Nat.le_of_eq (by rw [hcd])

/-- the thread 2 has to wait for the thread 0, which runs for the thread 1 -/
theorem mutex_inversion_three :
    let l : List (MutexCall (Fin 3)) := [.other (.startup 0), .other .systemStart,
      .take 0xffffffff, .other (.startup 1), .other .schedule, .take 0xffffffff,
      .other (.startup 2)]
    let s := mutexRun (fun t : Fin 3 => if t = 0 then 20 else if t = 1 then 5 else 10)
      (fun _ => 20) (l ++ [.other .schedule])
    s.prio 0 ≤ s.prio 1 := by
  intro l s
  exact mutex_inversion (fun t : Fin 3 => if t = 0 then 20 else if t = 1 then 5 else 10)
    (fun _ => 20) (by decide) l (by decide +kernel) 0 0 1 (by decide +kernel)
    (by decide +kernel) (by decide +kernel) (by decide +kernel)

/-- **Whom a release lets in.**  With its last release the owner hands the mutex to a thread that
waits, which is READY then: none of the others has a higher priority, and none of the same priority
has called before it.  The others stay in their order. -/
theorem mutex_order (priority : ι → BitVec 8) (tick : ι → BitVec 32)
    (hp : ∀ t, priority t < 32) (l : List (MutexCall ι)) (t : ι)
    (hself : (mutexRun priority tick l).self = some t)
    (hback : t ∉ (mutexRun priority tick l).resumed)
    (ho : (mutexRun priority tick l).mutex.owner = some t)
    (hh : (mutexRun priority tick l).mutex.hold = 1)
    (hw : (mutexRun priority tick l).mutex.suspendThread ≠ []) :
    let s := mutexRun priority tick l
    let s' := mutexRun priority tick (l ++ [.release])
    ∃ w, s.mutex.suspendThread = w :: s'.mutex.suspendThread ∧ s'.mutex.owner = some w ∧
      s'.resumed = s.resumed ++ [w] ∧ (s'.sched.thread w).stat = .ready ∧
      ∀ x ∈ s'.mutex.suspendThread, (priority w).toNat < (priority x).toNat ∨
        (priority w).toNat = (priority x).toNat ∧
          [w, x].Sublist (mutexLedger priority tick l).queue := by
  intro s s'
  have hs : s.Sound (fun t => (priority t).toNat) (mutexLedger priority tick l).queue :=
    (mutexRun_sound priority tick hp l).1
  cases hl : s.mutex.suspendThread with
  | nil => exact absurd hl hw
  | cons w rest =>
    have hexec : s.exec .release = some (s.handOn t w rest, some .eok) := by
      show s.self.bind _ = _
      rw [show s.self = some t from hself]
      show (if t ∉ s.resumed then some (rtMutexRelease t s) else none) = _
      rw [if_pos hback, hs.release_hands ho hh hl]
    have e : s' = s.handOn t w rest :=
      (Runs.run_snoc _ _ l _).trans (MutexSystem.step_of_exec hexec)
    have hin : w ∈ s.mutex.suspendThread := by
      rw [hl]
      exact List.mem_cons_self
    have hne : w ≠ t := fun e => (hs.owned t ho).out (e ▸ hin)
    have hline := hs.line
    rw [hl] at hline
    rw [e]
    refine ⟨w, rfl, rfl, rfl, ?_, fun x hx => hline.head hx⟩
    refine Scheduler.resume_ready ?_ ?_
    · rw [Scheduler.giveBack_currentThread, (MutexSystem.self_running hself).1]
      exact fun e => hne (Option.some.inj e).symm
    · rw [Scheduler.giveBack_ne hne]
      exact (hs.waits w hin).stat

/-- the thread 2 has called later, but has the higher priority -/
theorem mutex_order_three :
    let l : List (MutexCall (Fin 3)) := [.other (.startup 0), .other .systemStart,
      .take 0xffffffff, .other (.startup 1), .other .schedule, .take 0xffffffff,
      .other (.startup 2), .other .schedule, .take 10, .other .schedule]
    (mutexRun (fun t : Fin 3 => if t = 0 then 20 else if t = 1 then 10 else 5) (fun _ => 20)
      (l ++ [.release])).mutex.suspendThread = [1] := by
  intro l
  obtain ⟨w, hw, -, -, -, -⟩ := mutex_order
    (fun t : Fin 3 => if t = 0 then 20 else if t = 1 then 10 else 5) (fun _ => 20) (by decide) l 0
    (by decide +kernel) (by decide +kernel) (by decide +kernel) (by decide +kernel)
    (by decide +kernel)
  have hl : (mutexRun (fun t : Fin 3 => if t = 0 then 20 else if t = 1 then 10 else 5)
      (fun _ => 20) l).mutex.suspendThread = [2, 1] := by decide +kernel
  exact (List.cons.inj (hw.symm.trans hl)).2

end LitterBox
