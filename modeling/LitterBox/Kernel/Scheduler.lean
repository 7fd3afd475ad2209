import LitterBox.Kernel.Ffs
import LitterBox.Lib.Runs
import Mathlib.Logic.Function.Basic

/-!
# The scheduler of `rt-thread/src/scheduler.c`

Every priority has a list of ready threads, and a word has a bit for every list that is not empty.
What `thread.c` and `clock.c` do between `rt_hw_interrupt_disable` and `rt_hw_interrupt_enable` is
atomic, and so is `rt_schedule`; an interrupt may come between the two, so they are separate calls
of a run: `SchedCall`.  The exception is `rtThreadDetach`: its two sections are one call here, so the
runs leave out a timer that comes between them and puts the thread back into the tables.

* `rtScheduleInsertThread`, `rtScheduleRemoveThread`   the lists and the word;
* `rtSchedule`        which thread runs on;
* `Scheduler.exec`    one call, of any thread or of an interrupt;
* `Sound`             what the lists, the word and the states of the threads have to do with each
                      other;
* `scheduler_tables`  it holds after every run.
-/

namespace LitterBox

/-! ## the tables -/

/-- `stat & RT_THREAD_STAT_MASK` -/
inductive ThreadStat where
  | init
  | ready
  | suspend
  | running
  | close
  deriving DecidableEq, Repr

/-- what the scheduler uses of `struct rt_thread` -/
structure RtThread where
  stat : ThreadStat
  /-- `stat & RT_THREAD_STAT_YIELD` -/
  yield : Bool
  currentPriority : BitVec 8
  numberMask : BitVec 32
  initTick : BitVec 32
  remainingTick : BitVec 32
  deriving DecidableEq, Repr

/-- the index of `rt_thread_priority_table` -/
def RtThread.prio (th : RtThread) : Nat := th.currentPriority.toNat

/-- the state changes, the flags stay -/
def RtThread.setStat (th : RtThread) (stat : ThreadStat) : RtThread := { th with stat := stat }

def RtThread.setYield (th : RtThread) (yield : Bool) : RtThread := { th with yield := yield }

/-- the state in which `rt_thread_startup` resumes the thread -/
def RtThread.started (th : RtThread) : RtThread :=
  { th with numberMask := 1#32 <<< th.prio, stat := .suspend, yield := false }

def RtThread.setPriority (th : RtThread) (priority : BitVec 8) : RtThread :=
  { th with currentPriority := priority, numberMask := 1#32 <<< priority.toNat }

/-- the time slice begins anew, and `RT_THREAD_STAT_YIELD` is set -/
def RtThread.reload (th : RtThread) : RtThread :=
  { th with remainingTick := th.initTick, yield := true }

/-- the threads and the variables of `scheduler.c` -/
structure Scheduler (ι : Type) where
  thread : ι → RtThread
  /-- `rt_thread_priority_table` -/
  priorityTable : Nat → List ι
  /-- `rt_thread_ready_priority_group` -/
  readyPriorityGroup : BitVec 32
  /-- `rt_current_thread` -/
  currentThread : Option ι
  /-- `rt_scheduler_lock_nest` -/
  lockNest : BitVec 16

variable {ι : Type} [DecidableEq ι]

namespace Scheduler

def setThread (t : ι) (th : RtThread) (s : Scheduler ι) : Scheduler ι :=
  { s with thread := Function.update s.thread t th }

def setStat (t : ι) (stat : ThreadStat) (s : Scheduler ι) : Scheduler ι :=
  s.setThread t ((s.thread t).setStat stat)

/-- `rt_list_remove(&thread->tlist)` -/
def unlink (t : ι) (s : Scheduler ι) : Scheduler ι :=
  { s with priorityTable := fun p => (s.priorityTable p).erase t }

/-- `rt_schedule_insert_thread` -/
def rtScheduleInsertThread (t : ι) (s : Scheduler ι) : Scheduler ι :=
  if s.currentThread = some t then s.setStat t .running
  else
    let p := (s.thread t).prio
    { s.setStat t .ready with
      priorityTable := Function.update s.priorityTable p (s.priorityTable p ++ [t])
      readyPriorityGroup := s.readyPriorityGroup ||| (s.thread t).numberMask }

/-- `rt_schedule_remove_thread` -/
def rtScheduleRemoveThread (t : ι) (s : Scheduler ι) : Scheduler ι :=
  let s' := s.unlink t
  { s' with
    readyPriorityGroup :=
      if s'.priorityTable (s.thread t).prio = [] then
        s.readyPriorityGroup &&& ~~~(s.thread t).numberMask
      else s.readyPriorityGroup }

/-- `_scheduler_get_highest_priority_thread`: the thread and `*highest_prio` -/
def highestPriorityThread (s : Scheduler ι) : Option (ι × Nat) :=
  let highest := (rtFfs s.readyPriorityGroup - 1).toNat
  (s.priorityTable highest).head?.map fun t => (t, highest)

/-- the branches of `rt_schedule` that leave `to_thread` at `rt_current_thread` -/
def keeps (s : Scheduler ι) (c : ι) (highest : Nat) : Bool :=
  (s.thread c).stat = .running &&
    ((s.thread c).prio < highest || (s.thread c).prio = highest && !(s.thread c).yield)

/-- `rt_current_thread->stat &= ~RT_THREAD_STAT_YIELD_MASK`, of a running thread -/
def clearYield (c : ι) (s : Scheduler ι) : Scheduler ι :=
  if (s.thread c).stat = .running then s.setThread c ((s.thread c).setYield false) else s

def setCurrent (t : ι) (s : Scheduler ι) : Scheduler ι := { s with currentThread := some t }

/-- `rt_current_thread` becomes `toThread`; if `c` was running it goes back to its list -/
def handOver (c toThread : ι) (s : Scheduler ι) : Scheduler ι :=
  if (s.thread c).stat = .running then (s.setCurrent toThread).rtScheduleInsertThread c
  else s.setCurrent toThread

/-- the switch from `c` to another thread in `rt_schedule` -/
def switchTo (c toThread : ι) (s : Scheduler ι) : Scheduler ι :=
  ((s.handOver c toThread).rtScheduleRemoveThread toThread).setStat toThread .running

/-- `rt_schedule`; `none`: a pointer that leads nowhere -/
def rtSchedule (s : Scheduler ι) : Option (Scheduler ι) :=
  if s.lockNest = 0 then
    if s.readyPriorityGroup ≠ 0 then
      match s.highestPriorityThread, s.currentThread with
      | some (head, highest), some c =>
        let toThread := if s.keeps c highest then c else head
        let s₁ := s.clearYield c
        if toThread ≠ c then some (s₁.switchTo c toThread)
        else some ((s₁.rtScheduleRemoveThread c).setStat c .running)
      | _, _ => none
    else some s
  else some s

/-- `rt_system_scheduler_start` -/
def rtSystemSchedulerStart (s : Scheduler ι) : Option (Scheduler ι) :=
  s.highestPriorityThread.map fun (toThread, _) =>
    let s₁ := (s.setCurrent toThread).rtScheduleRemoveThread toThread
    s₁.setThread toThread (((s₁.thread toThread).setStat .running).setYield false)

/-! ## the calls -/

/-- `rt_thread_resume` -/
def rtThreadResume (t : ι) (s : Scheduler ι) : Scheduler ι :=
  if (s.thread t).stat = .suspend then (s.unlink t).rtScheduleInsertThread t else s

/-- `rt_thread_startup` -/
def rtThreadStartup (t : ι) (s : Scheduler ι) : Scheduler ι :=
  rtThreadResume t (s.setThread t (s.thread t).started)

/-- `rt_thread_suspend` -/
def rtThreadSuspend (t : ι) (s : Scheduler ι) : Scheduler ι :=
  if (s.thread t).stat = .ready ∨ (s.thread t).stat = .running then
    (s.rtScheduleRemoveThread t).setStat t .suspend
  else s

/-- `RT_THREAD_CTRL_CHANGE_PRIORITY` of `rt_thread_control` -/
def changePriority (t : ι) (priority : BitVec 8) (s : Scheduler ι) : Scheduler ι :=
  if (s.thread t).stat = .ready then
    ((s.rtScheduleRemoveThread t).setThread t
      ((s.thread t).setPriority priority)).rtScheduleInsertThread t
  else s.setThread t ((s.thread t).setPriority priority)

/-- `stat = RT_THREAD_CLOSE` -/
def closeThread (t : ι) (s : Scheduler ι) : Scheduler ι :=
  s.setThread t (((s.thread t).setStat .close).setYield false)

/-- `rt_thread_detach`, `rt_thread_delete`, without an interrupt between their two sections -/
def rtThreadDetach (t : ι) (s : Scheduler ι) : Scheduler ι :=
  if (s.thread t).stat = .close then s
  else if (s.thread t).stat = .init then s.closeThread t
  else (s.rtScheduleRemoveThread t).closeThread t

/-- in `rt_thread_yield`, and in `rt_tick_increase` at the end of a time slice -/
def reload (c : ι) (s : Scheduler ι) : Scheduler ι := s.setThread c (s.thread c).reload

/-- the time slice in `rt_tick_increase`, and whether it is over -/
def sliceTick (c : ι) (s : Scheduler ι) : Scheduler ι × Bool :=
  let remainingTick := (s.thread c).remainingTick - 1
  if remainingTick = 0 then (s.reload c, true)
  else (s.setThread c { s.thread c with remainingTick := remainingTick }, false)

/-- `rt_exit_critical` -/
def rtExitCritical (s : Scheduler ι) : Scheduler ι :=
  { s with lockNest := if (s.lockNest - 1).toInt ≤ 0 then 0 else s.lockNest - 1 }

end Scheduler

/-- a call, up to its `rt_schedule`, which is a call of its own -/
inductive SchedCall (ι : Type) where
  | startup (t : ι)
  /-- `rt_system_scheduler_start` -/
  | systemStart
  | schedule
  /-- `rt_thread_yield`; its `rt_schedule` is under the same lock -/
  | yield
  /-- of the current thread -/
  | suspend
  | resume (t : ι)
  /-- `_thread_timeout` -/
  | timeout (t : ι)
  | changePriority (t : ι) (priority : BitVec 8)
  /-- `_thread_exit` of the current thread -/
  | exit
  | detach (t : ι)
  /-- `rt_tick_increase` -/
  | tick
  | enterCritical
  | exitCritical
  deriving DecidableEq, Repr

namespace Scheduler

/-- the call; `none`: an assertion of it fails, or there is no thread that could make it, or the
priority has no list -/
def exec (s : Scheduler ι) : SchedCall ι → Option (Scheduler ι)
  | .startup t => if (s.thread t).stat = .init then some (s.rtThreadStartup t) else none
  | .systemStart => if s.currentThread = none then s.rtSystemSchedulerStart else none
  | .schedule => s.rtSchedule
  | .yield => s.currentThread.bind fun c => (s.reload c).rtSchedule
  | .suspend => s.currentThread.map fun c => s.rtThreadSuspend c
  | .resume t => some (s.rtThreadResume t)
  | .timeout t =>
    if (s.thread t).stat = .suspend then some ((s.unlink t).rtScheduleInsertThread t) else none
  | .changePriority t priority => if priority < 32 then some (s.changePriority t priority) else none
  | .exit => s.currentThread.map fun c => (s.rtScheduleRemoveThread c).closeThread c
  | .detach t => some (s.rtThreadDetach t)
  | .tick => s.currentThread.map fun c => (s.sliceTick c).1
  | .enterCritical => some { s with lockNest := s.lockNest + 1 }
  | .exitCritical => some s.rtExitCritical

/-- a call that does not get through leaves the scheduler to the others -/
def step (s : Scheduler ι) (c : SchedCall ι) : Scheduler ι := (s.exec c).getD s

/-- `_thread_init` of all threads, `rt_system_scheduler_init` -/
def boot (priority : ι → BitVec 8) (tick : ι → BitVec 32) : Scheduler ι where
  thread t := ⟨.init, false, priority t, 0, tick t, tick t⟩
  priorityTable _ := []
  readyPriorityGroup := 0
  currentThread := none
  lockNest := 0

end Scheduler

/-- **a run** of the scheduler -/
def schedRun (priority : ι → BitVec 8) (tick : ι → BitVec 32) (l : List (SchedCall ι)) :
    Scheduler ι :=
  Runs.run Scheduler.step (.boot priority tick) l

/-! ## one thread -/

/-- the number mask of the thread is the bit of its priority -/
structure RtThread.Marked (th : RtThread) : Prop where
  below : th.prio < 32
  mask : th.numberMask = 1#32 <<< th.prio

theorem RtThread.Marked.getLsbD {th : RtThread} (h : th.Marked) (p : Nat) :
    th.numberMask.getLsbD p = decide (th.prio = p) := by
  rw [h.mask]
  show (BitVec.twoPow 32 th.prio).getLsbD p = _
  rw [BitVec.getLsbD_twoPow, decide_eq_true h.below, Bool.true_and]

namespace Scheduler

variable {s s' : Scheduler ι} {R R' : ι → Prop}

@[simp] theorem setThread_self (s : Scheduler ι) (t : ι) (th : RtThread) :
    (s.setThread t th).thread t = th := by
  show Function.update s.thread t th t = th
  rw [Function.update_self]

@[simp] theorem setThread_ne {t u : ι} (h : u ≠ t) (s : Scheduler ι) (th : RtThread) :
    (s.setThread t th).thread u = s.thread u := by
  show Function.update s.thread t th u = s.thread u
  rw [Function.update_of_ne h]

theorem setThread_setThread (s : Scheduler ι) (t : ι) (th th' : RtThread) :
    (s.setThread t th).setThread t th' = s.setThread t th' := by
  show { s with thread := Function.update (Function.update s.thread t th) t th' } = _
  rw [Function.update_idem]
  rfl

@[simp] theorem setStat_self (s : Scheduler ι) (t : ι) (stat : ThreadStat) :
    (s.setStat t stat).thread t = (s.thread t).setStat stat := setThread_self s t _

@[simp] theorem setStat_ne {t u : ι} (h : u ≠ t) (s : Scheduler ι) (stat : ThreadStat) :
    (s.setStat t stat).thread u = s.thread u := setThread_ne h s _

/-- the thread that runs on is put into no list -/
theorem insert_current {t : ι} (h : s.currentThread = some t) :
    s.rtScheduleInsertThread t = s.setStat t .running := if_pos h

theorem insert_of_ne {t : ι} (h : s.currentThread ≠ some t) :
    s.rtScheduleInsertThread t = { s.setStat t .ready with
      priorityTable := Function.update s.priorityTable (s.thread t).prio
        (s.priorityTable (s.thread t).prio ++ [t])
      readyPriorityGroup := s.readyPriorityGroup ||| (s.thread t).numberMask } := if_neg h

theorem insert_self {t : ι} (h : s.currentThread ≠ some t) :
    (s.rtScheduleInsertThread t).thread t = (s.thread t).setStat .ready := by
  rw [insert_of_ne h]
  exact setStat_self s t .ready

theorem insert_ne {t u : ι} (hu : u ≠ t) :
    (s.rtScheduleInsertThread t).thread u = s.thread u := by
  unfold rtScheduleInsertThread
  split
  · exact setStat_ne hu s .running
  · exact setStat_ne hu s .ready

theorem insert_currentThread (s : Scheduler ι) (t : ι) :
    (s.rtScheduleInsertThread t).currentThread = s.currentThread := by
  unfold rtScheduleInsertThread
  split <;> rfl

theorem insert_lockNest (s : Scheduler ι) (t : ι) :
    (s.rtScheduleInsertThread t).lockNest = s.lockNest := by
  unfold rtScheduleInsertThread
  split <;> rfl

theorem insert_table {t : ι} (h : s.currentThread ≠ some t) (p : Nat) :
    (s.rtScheduleInsertThread t).priorityTable p =
      s.priorityTable p ++ if (s.thread t).prio = p then [t] else [] := by
  rw [insert_of_ne h]
  show Function.update s.priorityTable _ _ p = _
  by_cases hp : (s.thread t).prio = p
  · rw [if_pos hp, ← hp, Function.update_self]
  · rw [if_neg hp, List.append_nil, Function.update_of_ne fun e => hp e.symm]

/-! ## the lists and the word -/

/-- **the ready lists hold the threads `R`**, each in the list of its priority, and the word has a
bit for every list that is not empty -/
structure Listed (s : Scheduler ι) (R : ι → Prop) : Prop where
  mem : ∀ p t, t ∈ s.priorityTable p ↔ R t ∧ (s.thread t).prio = p
  nodup : ∀ p, (s.priorityTable p).Nodup
  group : ∀ p, s.readyPriorityGroup.getLsbD p = true ↔ s.priorityTable p ≠ []

omit [DecidableEq ι] in
/-- other fields of the threads do not matter -/
theorem Listed.of_eq (h : s.Listed R) (htable : s'.priorityTable = s.priorityTable)
    (hgroup : s'.readyPriorityGroup = s.readyPriorityGroup)
    (hprio : ∀ t, R t → (s'.thread t).prio = (s.thread t).prio) (hR : ∀ t, R' t ↔ R t) :
    s'.Listed R' where
  mem p t := by
    rw [htable, h.mem, hR]
    exact and_congr_right fun ht => by rw [hprio t ht]
  nodup p := by
    rw [htable]
    exact h.nodup p
  group p := by
    rw [htable, hgroup]
    exact h.group p

/-- a thread in the list of a priority has that priority, so it is in no other -/
theorem Listed.erase_table (h : s.Listed R) {t : ι} {p : Nat} (hp : (s.thread t).prio ≠ p) :
    (s.priorityTable p).erase t = s.priorityTable p :=
  List.erase_of_not_mem fun hm => hp ((h.mem p t).mp hm).2

omit [DecidableEq ι] in
theorem Listed.head (h : s.Listed R) {p : Nat} {head : ι} {rest : List ι}
    (htable : s.priorityTable p = head :: rest) : R head ∧ (s.thread head).prio = p := by
  refine (h.mem p head).mp ?_
  rw [htable]
  exact List.mem_cons_self

omit [DecidableEq ι] in
/-- below the first list there is nobody -/
theorem Listed.least (h : s.Listed R) {p : Nat} (hbelow : ∀ q < p, s.priorityTable q = []) {t : ι}
    (ht : R t) : p ≤ (s.thread t).prio := by
  by_contra hlt
  have hnil := hbelow _ (Nat.lt_of_not_le hlt)
  exact List.not_mem_nil (hnil ▸ (h.mem _ t).mpr ⟨ht, rfl⟩)

theorem Listed.remove (h : s.Listed R) {t : ι} (ht : (s.thread t).Marked) :
    (s.rtScheduleRemoveThread t).Listed fun u => R u ∧ u ≠ t where
  mem p u := by
    show u ∈ (s.priorityTable p).erase t ↔ (R u ∧ u ≠ t) ∧ (s.thread u).prio = p
    rw [(h.nodup p).mem_erase_iff, h.mem]
    exact and_left_comm.trans and_assoc.symm
  nodup p := (h.nodup p).erase t
  group p := by
    show (if (s.priorityTable (s.thread t).prio).erase t = [] then
      s.readyPriorityGroup &&& ~~~(s.thread t).numberMask
      else s.readyPriorityGroup).getLsbD p = true ↔ (s.priorityTable p).erase t ≠ []
    by_cases hp : (s.thread t).prio = p
    · subst hp
      split
      next he =>
        rw [BitVec.getLsbD_and, BitVec.getLsbD_not, ht.getLsbD, decide_eq_true rfl, he]
        simp
      next he =>
        refine iff_of_true ((h.group _).mpr fun h0 => he ?_) he
        rw [h0]
        rfl
    · rw [h.erase_table hp]
      split
      · rw [BitVec.getLsbD_and, BitVec.getLsbD_not, ht.getLsbD, decide_eq_false hp, ← h.group p]
        by_cases h32 : p < 32
        · simp [h32]
        · rw [BitVec.getLsbD_of_ge _ _ (Nat.le_of_not_lt h32)]
          simp
      · exact h.group p

theorem Listed.append (h : s.Listed R) {t : ι} (hc : s.currentThread ≠ some t)
    (ht : (s.thread t).Marked) (hR : ¬ R t) :
    (s.rtScheduleInsertThread t).Listed fun u => R u ∨ u = t := by
  have hnew : ∀ p, t ∉ s.priorityTable p := fun p hm => hR ((h.mem p t).mp hm).1
  have hprio : ∀ u, ((s.setStat t .ready).thread u).prio = (s.thread u).prio := by
    intro u
    by_cases hu : u = t
    · rw [hu, setStat_self]
      rfl
    · rw [setStat_ne hu]
  rw [insert_of_ne hc]
  refine ⟨fun p u => ?_, fun p => ?_, fun p => ?_⟩
  · show u ∈ Function.update s.priorityTable _ _ p ↔
      (R u ∨ u = t) ∧ ((s.setStat t .ready).thread u).prio = p
    rw [hprio]
    by_cases hp : p = (s.thread t).prio
    · subst hp
      rw [Function.update_self, List.mem_append, List.mem_singleton, h.mem, or_and_right]
      exact or_congr_right ⟨fun e => ⟨e, by rw [e]⟩, fun e => e.1⟩
    · rw [Function.update_of_ne hp, h.mem, or_and_right]
      exact (or_iff_left fun e => hp (by rw [← e.2, e.1])).symm
  · show (Function.update s.priorityTable _ _ p).Nodup
    by_cases hp : p = (s.thread t).prio
    · subst hp
      rw [Function.update_self]
      refine List.nodup_append.mpr ⟨h.nodup _, List.pairwise_singleton _ t, fun u hu v hv e => ?_⟩
      rw [List.mem_singleton.mp hv] at e
      exact hnew _ (e ▸ hu)
    · rw [Function.update_of_ne hp]
      exact h.nodup p
  · show (s.readyPriorityGroup ||| (s.thread t).numberMask).getLsbD p = true ↔
      Function.update s.priorityTable _ _ p ≠ []
    rw [BitVec.getLsbD_or, ht.getLsbD]
    by_cases hp : p = (s.thread t).prio
    · subst hp
      rw [Function.update_self, decide_eq_true rfl, Bool.or_true]
      exact iff_of_true rfl (List.append_ne_nil_of_right_ne_nil _ (List.cons_ne_nil t []))
    · rw [Function.update_of_ne hp, decide_eq_false fun e => hp e.symm, Bool.or_false]
      exact h.group p

/-! ## the states -/

/-- the thread has been started, and the scheduler may have to do with it -/
def InUse (s : Scheduler ι) (t : ι) (th : RtThread) : Prop :=
  th.stat ≠ .init ∧ (th.stat ≠ .close ∨ s.currentThread = some t)

/-- **the invariant of the scheduler**: the ready lists hold the READY threads, and no thread but
`rt_current_thread` is RUNNING -/
structure Sound (s : Scheduler ι) : Prop where
  listed : s.Listed fun t => (s.thread t).stat = .ready
  below : ∀ t, (s.thread t).prio < 32
  mask : ∀ t, s.InUse t (s.thread t) → (s.thread t).numberMask = 1#32 <<< (s.thread t).prio
  running : ∀ t, (s.thread t).stat = .running → s.currentThread = some t
  current : ∀ t, s.currentThread = some t → (s.thread t).stat ≠ .ready ∧ (s.thread t).stat ≠ .init

omit [DecidableEq ι] in
theorem Sound.marked (h : s.Sound) {t : ι} (ht : s.InUse t (s.thread t)) : (s.thread t).Marked :=
  ⟨h.below t, h.mask t ht⟩

omit [DecidableEq ι] in
theorem Sound.inUse (h : s.Sound) {t : ι} (ht : s.currentThread = some t) :
    s.InUse t (s.thread t) := ⟨(h.current t ht).2, Or.inr ht⟩

omit [DecidableEq ι] in
theorem InUse.of_stat {t : ι} {th : RtThread}
    (ht : th.stat = .ready ∨ th.stat = .suspend ∨ th.stat = .running) : s.InUse t th := by
  rcases ht with e | e | e
  · exact ⟨by rw [e]; decide, Or.inl (by rw [e]; decide)⟩
  · exact ⟨by rw [e]; decide, Or.inl (by rw [e]; decide)⟩
  · exact ⟨by rw [e]; decide, Or.inl (by rw [e]; decide)⟩

/-- what a call may do to one thread -/
structure Fits (s : Scheduler ι) (t : ι) (th : RtThread) : Prop where
  below : th.prio < 32
  mask : s.InUse t th → th.numberMask = 1#32 <<< th.prio
  running : th.stat = .running → s.currentThread = some t
  current : s.currentThread = some t → th.stat ≠ .ready ∧ th.stat ≠ .init

/-- **rule for a call about one thread** -/
theorem Sound.update (h : s.Sound) {t : ι} (hothers : ∀ u, u ≠ t → s'.thread u = s.thread u)
    (hcurrent : s'.currentThread = s.currentThread) (hl : s'.Listed R)
    (hR : ∀ u, u ≠ t → (R u ↔ (s.thread u).stat = .ready))
    (ht : R t ↔ (s'.thread t).stat = .ready) (hf : s.Fits t (s'.thread t)) : s'.Sound where
  listed := by
    refine hl.of_eq rfl rfl (fun _ _ => rfl) fun u => ?_
    by_cases hu : u = t
    · rw [hu, ht]
    · rw [hR u hu, hothers u hu]
  below u := by
    by_cases hu : u = t
    · rw [hu]
      exact hf.below
    · rw [hothers u hu]
      exact h.below u
  mask u hi := by
    have hi' : s.InUse u (s'.thread u) := ⟨hi.1, hcurrent ▸ hi.2⟩
    by_cases hu : u = t
    · rw [hu] at hi' ⊢
      exact hf.mask hi'
    · rw [hothers u hu] at hi' ⊢
      exact h.mask u hi'
  running u hr := by
    rw [hcurrent]
    by_cases hu : u = t
    · rw [hu] at hr ⊢
      exact hf.running hr
    · rw [hothers u hu] at hr
      exact h.running u hr
  current u hc := by
    rw [hcurrent] at hc
    by_cases hu : u = t
    · rw [hu] at hc ⊢
      exact hf.current hc
    · rw [hothers u hu]
      exact h.current u hc

/-- a thread that stays in its list, or out of it -/
theorem Sound.setThread (h : s.Sound) {t : ι} {th : RtThread} (hf : s.Fits t th)
    (hready : th.stat = .ready ↔ (s.thread t).stat = .ready)
    (hprio : th.stat = .ready → th.prio = (s.thread t).prio) : (s.setThread t th).Sound := by
  refine h.update (t := t) (R := fun u => (s.thread u).stat = .ready)
    (fun u hu => setThread_ne hu s th) rfl (h.listed.of_eq rfl rfl (fun u hu => ?_) fun _ => Iff.rfl)
    (fun _ _ => Iff.rfl) ?_ ?_
  · by_cases hut : u = t
    · rw [hut] at hu ⊢
      rw [setThread_self]
      exact hprio (hready.mpr hu)
    · rw [setThread_ne hut]
  · rw [setThread_self, hready]
  · rw [setThread_self]
    exact hf

/-- a thread that leaves its list, or is in none -/
theorem Sound.remove (h : s.Sound) {t : ι} {th : RtThread} (ht : s.InUse t (s.thread t))
    (hf : s.Fits t th) (hready : th.stat ≠ .ready) :
    ((s.rtScheduleRemoveThread t).setThread t th).Sound := by
  have hl := h.listed.remove (h.marked ht)
  refine h.update (t := t) (R := fun u => (s.thread u).stat = .ready ∧ u ≠ t)
    (fun u hu => setThread_ne hu _ th) rfl (hl.of_eq rfl rfl (fun u hu => ?_) fun _ => Iff.rfl)
    (fun u hu => and_iff_left hu) ?_ ?_
  · rw [setThread_ne hu.2]
  · rw [setThread_self]
    exact iff_of_false (fun hx => hx.2 rfl) hready
  · rw [setThread_self]
    exact hf

/-- a suspended thread that goes to its list, or runs on -/
theorem Sound.insert (h : s.Sound) {t : ι} (ht : (s.thread t).stat = .suspend) :
    (s.rtScheduleInsertThread t).Sound := by
  have hm : (s.thread t).Marked := h.marked (.of_stat (Or.inr (Or.inl ht)))
  by_cases hc : s.currentThread = some t
  · rw [insert_current hc]
    refine h.setThread ⟨hm.below, fun _ => hm.mask, fun _ => hc, fun _ => ⟨nofun, nofun⟩⟩ ?_ nofun
    exact iff_of_false nofun (by rw [ht]; decide)
  · have hl := h.listed.append hc hm (by rw [ht]; decide)
    refine h.update (t := t) (fun u hu => insert_ne hu) (insert_currentThread s t) hl
      (fun u hu => or_iff_left hu) ?_ ?_
    · rw [insert_self hc]
      exact iff_of_true (Or.inr rfl) rfl
    · rw [insert_self hc]
      exact ⟨hm.below, fun _ => hm.mask, nofun, fun e => absurd e hc⟩

/-- a thread that is not READY is linked into no ready list -/
theorem Sound.unlink (h : s.Sound) {t : ι} (ht : (s.thread t).stat ≠ .ready) : s.unlink t = s := by
  have he : (fun p => (s.priorityTable p).erase t) = s.priorityTable :=
    funext fun p => List.erase_of_not_mem fun hm => ht ((h.listed.mem p t).mp hm).1
  show { s with priorityTable := fun p => (s.priorityTable p).erase t } = s
  rw [he]

/-- so removing it changes nothing -/
theorem Sound.remove_eq (h : s.Sound) {t : ι} (hr : (s.thread t).stat ≠ .ready)
    (hi : s.InUse t (s.thread t)) : s.rtScheduleRemoveThread t = s := by
  have hm := h.marked hi
  have hg : (if s.priorityTable (s.thread t).prio = [] then
      s.readyPriorityGroup &&& ~~~(s.thread t).numberMask else s.readyPriorityGroup) =
      s.readyPriorityGroup := by
    split
    next he =>
      refine BitVec.eq_of_getLsbD_eq fun i hi => ?_
      rw [BitVec.getLsbD_and, BitVec.getLsbD_not, hm.getLsbD, decide_eq_true hi, Bool.true_and]
      by_cases hp : (s.thread t).prio = i
      · have hbit : s.readyPriorityGroup.getLsbD i = false := by
          rw [← Bool.not_eq_true, h.listed.group, ← hp, he]
          exact fun hne => hne rfl
        rw [hbit, Bool.false_and]
      · rw [decide_eq_false hp, Bool.not_false, Bool.and_true]
    next => rfl
  unfold rtScheduleRemoveThread
  rw [h.unlink hr]
  show { s with readyPriorityGroup := if s.priorityTable (s.thread t).prio = [] then
    s.readyPriorityGroup &&& ~~~(s.thread t).numberMask else s.readyPriorityGroup } = s
  rw [hg]

/-! ## `rt_schedule` -/

omit [DecidableEq ι] in
/-- the lowest set bit of the word names the first list that is not empty -/
theorem Sound.highest (h : s.Sound) (hg : s.readyPriorityGroup ≠ 0) :
    ∃ head rest p, s.priorityTable p = head :: rest ∧ (∀ q < p, s.priorityTable q = []) ∧
      s.highestPriorityThread = some (head, p) := by
  obtain ⟨p, hp⟩ : ∃ p, LowBit.IsLow s.readyPriorityGroup p := ⟨_, LowBit.isLow_ctz hg⟩
  have hlt := hp.lt
  have hidx : (rtFfs s.readyPriorityGroup - 1).toNat = p := by
    rw [rtFfs_low hp]
    have : (BitVec.ofNat 32 (p + 1)).toNat = p + 1 := by
      rw [BitVec.toNat_ofNat]
      omega
    bv_omega
  cases htable : s.priorityTable p with
  | nil => exact absurd htable ((h.listed.group p).mp hp.set)
  | cons head rest =>
    refine ⟨head, rest, p, htable, fun q hq => ?_, ?_⟩
    · by_contra hne
      have hbit := (h.listed.group q).mpr hne
      rw [hp.below q hq] at hbit
      cases hbit
    · show ((s.priorityTable _).head?.map fun t => (t, _)) = some (head, p)
      rw [hidx, htable]
      rfl

omit [DecidableEq ι] in
/-- the word is zero if nobody is READY -/
theorem Sound.group_eq_zero (h : s.Sound) :
    s.readyPriorityGroup = 0 ↔ ∀ t, (s.thread t).stat ≠ .ready := by
  constructor
  · intro hg t ht
    have hbit : s.readyPriorityGroup.getLsbD (s.thread t).prio = true :=
      (h.listed.group _).mpr (List.ne_nil_of_mem ((h.listed.mem _ t).mpr ⟨ht, rfl⟩))
    rw [hg, BitVec.ofNat_eq_ofNat, BitVec.getLsbD_zero] at hbit
    cases hbit
  · intro hno
    by_contra hg
    obtain ⟨head, rest, p, htable, -⟩ := h.highest hg
    exact hno head (h.listed.head htable).1

theorem Sound.clearYield (h : s.Sound) {c : ι} (hc : s.currentThread = some c) :
    (s.clearYield c).Sound := by
  unfold Scheduler.clearYield
  split
  next hr =>
    have hm := h.marked (h.inUse hc)
    exact h.setThread ⟨hm.below, fun _ => hm.mask, fun _ => hc, fun _ => h.current c hc⟩ Iff.rfl
      fun _ => rfl
  · exact h

/-- the running thread stays: all that happens is that its flag is cleared -/
theorem Sound.stay (h : s.Sound) {c : ι} (hr : (s.thread c).stat = .running) :
    ((s.clearYield c).rtScheduleRemoveThread c).setStat c .running =
      s.setThread c ((s.thread c).setYield false) := by
  have hc := h.running c hr
  have hs := h.clearYield hc
  have e : s.clearYield c = s.setThread c ((s.thread c).setYield false) := if_pos hr
  rw [e] at hs ⊢
  rw [hs.remove_eq (hs.current c hc).1 (hs.inUse hc)]
  unfold Scheduler.setStat
  rw [setThread_self, setThread_setThread]
  refine congrArg (fun th => s.setThread c th) ?_
  show { (s.thread c).setYield false with stat := .running } = _
  rw [← hr]
  rfl

/-- `rt_schedule` has taken the processor from `c`: a running thread is in its list again -/
structure HandOver (s : Scheduler ι) (c head : ι) (s' : Scheduler ι) : Prop where
  thread : s'.thread c = if (s.thread c).stat = .running then
    ((s.thread c).setYield false).setStat .ready else s.thread c
  others : ∀ u, u ≠ c → s'.thread u = s.thread u
  table : ∀ q, s'.priorityTable q = s.priorityTable q ++
    if (s.thread c).stat = .running ∧ (s.thread c).prio = q then [c] else []
  listed : s'.Listed fun u => (s.thread u).stat = .ready ∨ (s.thread c).stat = .running ∧ u = c
  currentThread : s'.currentThread = some head
  lockNest : s'.lockNest = s.lockNest

theorem Sound.handOver (h : s.Sound) {c head : ι} (hc : s.currentThread = some c)
    (hne : head ≠ c) : s.HandOver c head ((s.clearYield c).handOver c head) := by
  by_cases hr : (s.thread c).stat = .running
  · have e : s.clearYield c = s.setThread c ((s.thread c).setYield false) := if_pos hr
    have hs := h.clearYield hc
    rw [e] at hs ⊢
    generalize hs₁ : s.setThread c ((s.thread c).setYield false) = s₁ at hs ⊢
    have hself : s₁.thread c = (s.thread c).setYield false := by rw [← hs₁, setThread_self]
    have hothers : ∀ u, u ≠ c → s₁.thread u = s.thread u := fun u hu => by
      rw [← hs₁, setThread_ne hu]
    have hr₁ : (s₁.thread c).stat = .running := by
      rw [hself]
      exact hr
    have hc₁ : (s₁.setCurrent head).currentThread ≠ some c := fun hx => hne (Option.some.inj hx)
    have hm : ((s₁.setCurrent head).thread c).Marked := hs.marked (.of_stat (Or.inr (Or.inr hr₁)))
    have hl : (s₁.setCurrent head).Listed fun u => (s.thread u).stat = .ready := by
      refine hs.listed.of_eq rfl rfl (fun _ _ => rfl) fun u => ?_
      by_cases hu : u = c
      · rw [hu, hr₁, hr]
      · rw [hothers u hu]
    rw [show s₁.handOver c head = (s₁.setCurrent head).rtScheduleInsertThread c from if_pos hr₁]
    refine ⟨?_, fun u hu => ?_, fun q => ?_, ?_, ?_, ?_⟩
    · rw [if_pos hr, insert_self hc₁, ← hself]
      rfl
    · rw [insert_ne hu, ← hothers u hu]
      rfl
    · have htab : s₁.priorityTable = s.priorityTable := by
        rw [← hs₁]
        rfl
      rw [insert_table hc₁]
      show s₁.priorityTable q ++ (if (s₁.thread c).prio = q then [c] else []) = _
      rw [htab, hself]
      exact congrArg _ (if_congr (and_iff_right hr).symm rfl rfl)
    · refine (hl.append hc₁ hm (by rw [hr]; decide)).of_eq rfl rfl (fun _ _ => rfl) fun u => ?_
      exact or_congr_right (and_iff_right hr)
    · exact insert_currentThread _ c
    · rw [insert_lockNest, ← hs₁]
      rfl
  · have e : s.clearYield c = s := if_neg hr
    rw [e, show s.handOver c head = s.setCurrent head from if_neg hr]
    refine ⟨(if_neg hr).symm, fun _ _ => rfl, fun q => ?_, ?_, rfl, rfl⟩
    · rw [if_neg fun hx => hr hx.1, List.append_nil]
      rfl
    · exact h.listed.of_eq rfl rfl (fun _ _ => rfl) fun u => or_iff_left fun hx => hr hx.1

/-- **the switch** to the first thread of a list -/
structure Switch (s : Scheduler ι) (c head : ι) (s' : Scheduler ι) : Prop where
  taken : s'.thread head = (s.thread head).setStat .running
  thread : s'.thread c = if (s.thread c).stat = .running then
    ((s.thread c).setYield false).setStat .ready else s.thread c
  others : ∀ u, u ≠ head → u ≠ c → s'.thread u = s.thread u
  table : ∀ q, s'.priorityTable q = (s.priorityTable q ++
    if (s.thread c).stat = .running ∧ (s.thread c).prio = q then [c] else []).erase head
  currentThread : s'.currentThread = some head
  lockNest : s'.lockNest = s.lockNest
  sound : s'.Sound

theorem Sound.switch (h : s.Sound) {c head : ι} (hc : s.currentThread = some c)
    (hhead : (s.thread head).stat = .ready) :
    s.Switch c head ((s.clearYield c).switchTo c head) := by
  have hne : head ≠ c := by
    rintro rfl
    exact (h.current head hc).1 hhead
  have hh := h.handOver hc hne
  unfold switchTo
  generalize (s.clearYield c).handOver c head = s₁ at hh ⊢
  have hhead₁ : s₁.thread head = s.thread head := hh.others head hne
  have hm : (s₁.thread head).Marked := by
    rw [hhead₁]
    exact h.marked (.of_stat (Or.inl hhead))
  have hl := hh.listed.remove hm
  have hs₂ : ∀ u, u ≠ head → ((s₁.rtScheduleRemoveThread head).setStat head .running).thread u =
      s₁.thread u := fun u hu => setStat_ne hu _ .running
  have hhead₂ : ((s₁.rtScheduleRemoveThread head).setStat head .running).thread head =
      (s.thread head).setStat .running := by
    rw [setStat_self, ← hhead₁]
    rfl
  have hc₂ : ((s₁.rtScheduleRemoveThread head).setStat head .running).thread c =
      if (s.thread c).stat = .running then ((s.thread c).setYield false).setStat .ready
      else s.thread c := (hs₂ c hne.symm).trans hh.thread
  have ho₂ : ∀ u, u ≠ head → u ≠ c →
      ((s₁.rtScheduleRemoveThread head).setStat head .running).thread u = s.thread u :=
    fun u hu huc => (hs₂ u hu).trans (hh.others u huc)
  refine ⟨hhead₂, hc₂, ho₂, fun q => ?_, hh.currentThread, hh.lockNest, ?_⟩
  · rw [← hh.table q]
    rfl
  generalize hs' : (s₁.rtScheduleRemoveThread head).setStat head .running = s' at hhead₂ hc₂ ho₂
  have hcur : s'.currentThread = some head := by
    rw [← hs']
    exact hh.currentThread
  have hl' : s'.Listed fun u =>
      ((s.thread u).stat = .ready ∨ (s.thread c).stat = .running ∧ u = c) ∧ u ≠ head := by
    refine hl.of_eq (by rw [← hs']; rfl) (by rw [← hs']; rfl) (fun u hu => ?_) fun _ => Iff.rfl
    rw [← hs', setStat_ne hu.2]
  -- whatever holds of the four kinds of threads holds of all
  have hall : ∀ P : ι → RtThread → Prop, P head ((s.thread head).setStat .running) →
      ((s.thread c).stat = .running → P c (((s.thread c).setYield false).setStat .ready)) →
      ((s.thread c).stat ≠ .running → P c (s.thread c)) →
      (∀ u, u ≠ head → u ≠ c → P u (s.thread u)) → ∀ u, P u (s'.thread u) := by
    intro P h1 h2 h3 h4 u
    by_cases hu : u = head
    · rw [hu, hhead₂]
      exact h1
    by_cases huc : u = c
    · rw [huc, hc₂]
      split
      next hr => exact h2 hr
      next hr => exact h3 hr
    · rw [ho₂ u hu huc]
      exact h4 u hu huc
  have hmc := h.marked (h.inUse hc)
  have hmh := h.marked (.of_stat (Or.inl hhead))
  refine ⟨hl'.of_eq rfl rfl (fun _ _ => rfl) ?_, ?_, ?_, ?_, ?_⟩
  · refine hall (fun u th => th.stat = .ready ↔ _) ?_ (fun hr => ?_) (fun hr => ?_)
      fun u hu huc => ?_
    · exact iff_of_false nofun fun hx => hx.2 rfl
    · exact iff_of_true rfl ⟨Or.inr ⟨hr, rfl⟩, hne.symm⟩
    · refine iff_of_false (h.current c hc).1 fun hx => ?_
      exact hx.1.elim (h.current c hc).1 fun hy => hr hy.1
    · exact ⟨fun hx => ⟨Or.inl hx, hu⟩, fun hx => hx.1.resolve_right fun hy => huc hy.2⟩
  · exact hall (fun _ th => th.prio < 32) hmh.below (fun _ => hmc.below) (fun _ => hmc.below)
      fun u _ _ => h.below u
  · refine hall (fun u th => s'.InUse u th → th.numberMask = 1#32 <<< th.prio)
      (fun _ => hmh.mask) (fun _ _ => hmc.mask) (fun _ _ => hmc.mask) fun u hu _ hx => h.mask u ?_
    exact ⟨hx.1, Or.inl (hx.2.resolve_right fun e => hu (Option.some.inj (hcur.symm.trans e)).symm)⟩
  · refine hall (fun u th => th.stat = .running → s'.currentThread = some u) (fun _ => hcur)
      (fun _ => nofun) (fun hr hx => absurd hx hr) fun u _ huc hx => ?_
    exact absurd (Option.some.inj (hc.symm.trans (h.running u hx))).symm huc
  · rw [hcur]
    refine hall (fun u th => some head = some u → th.stat ≠ .ready ∧ th.stat ≠ .init)
      (fun _ => ⟨nofun, nofun⟩) (fun _ hx => ?_) (fun _ hx => ?_) fun u hu _ hx => ?_
    · exact absurd (Option.some.inj hx) hne
    · exact absurd (Option.some.inj hx) hne
    · exact absurd (Option.some.inj hx).symm hu

/-- **What `rt_schedule` does**, once a thread runs: nothing, if the scheduler is locked or nobody is
READY; else it leaves the processor to the running thread, or switches to the first thread of the
first list. -/
theorem Sound.schedule (h : s.Sound) {c : ι} (hc : s.currentThread = some c) :
    (s.lockNest ≠ 0 ∨ ∀ t, (s.thread t).stat ≠ .ready) ∧ s.rtSchedule = some s ∨
    s.lockNest = 0 ∧ ∃ head rest p, s.priorityTable p = head :: rest ∧
      (∀ q < p, s.priorityTable q = []) ∧
      (s.keeps c p = true ∧ s.rtSchedule = some (s.setThread c ((s.thread c).setYield false)) ∨
        s.keeps c p = false ∧ s.rtSchedule = some ((s.clearYield c).switchTo c head)) := by
  unfold rtSchedule
  by_cases hl : s.lockNest = 0
  · rw [if_pos hl]
    by_cases hg : s.readyPriorityGroup = 0
    · rw [if_neg (not_not.mpr hg)]
      exact Or.inl ⟨Or.inr (h.group_eq_zero.mp hg), rfl⟩
    · rw [if_pos hg]
      obtain ⟨head, rest, p, htable, hbelow, hhigh⟩ := h.highest hg
      have hhead : (s.thread head).stat = .ready := (h.listed.head htable).1
      have hne : head ≠ c := by
        rintro rfl
        exact (h.current head hc).1 hhead
      rw [hhigh, hc]
      refine Or.inr ⟨hl, head, rest, p, htable, hbelow, ?_⟩
      dsimp only
      cases hk : s.keeps c p with
      | true =>
        have hr : (s.thread c).stat = .running :=
          of_decide_eq_true (Bool.and_eq_true_iff.mp hk).1
        rw [if_pos rfl, if_neg (not_not.mpr rfl), h.stay hr]
        exact Or.inl ⟨rfl, rfl⟩
      | false =>
        rw [if_neg Bool.false_ne_true, if_pos hne]
        exact Or.inr ⟨rfl, rfl⟩
  · rw [if_neg hl]
    exact Or.inl ⟨Or.inl hl, rfl⟩

/-! ## every call -/

/-- before the start `rt_schedule` does nothing, or does not come back -/
theorem schedule_none (hc : s.currentThread = none) (e : s.rtSchedule = some s') : s' = s := by
  unfold Scheduler.rtSchedule at e
  rw [hc] at e
  split at e
  · split at e
    · split at e
      next hx => cases hx
      next => cases e
    · exact (Option.some.inj e).symm
  · exact (Option.some.inj e).symm

theorem Sound.rtSchedule (h : s.Sound) (e : s.rtSchedule = some s') : s'.Sound := by
  cases hc : s.currentThread with
  | none =>
    rw [schedule_none hc e]
    exact h
  | some c =>
    rcases h.schedule hc with ⟨-, he⟩ | ⟨-, head, rest, p, htable, -, ⟨hk, he⟩ | ⟨-, he⟩⟩
    · rw [← Option.some.inj (he.symm.trans e)]
      exact h
    · rw [← Option.some.inj (he.symm.trans e)]
      have hr : (s.thread c).stat = .running := of_decide_eq_true (Bool.and_eq_true_iff.mp hk).1
      have hs := h.clearYield hc
      rw [show s.clearYield c = s.setThread c ((s.thread c).setYield false) from if_pos hr] at hs
      exact hs
    · rw [← Option.some.inj (he.symm.trans e)]
      exact (h.switch hc (h.listed.head htable).1).sound

/-- **the best runs on**: unlocked, `rt_schedule` leaves no READY thread with the better of the
priority of the thread that is RUNNING then -/
theorem Sound.schedule_best (h : s.Sound) (hl : s.lockNest = 0) (e : s.rtSchedule = some s') {d : ι}
    (hd : s'.currentThread = some d) (hrun : (s'.thread d).stat = .running) {t : ι}
    (ht : (s'.thread t).stat = .ready) : (s'.thread d).prio ≤ (s'.thread t).prio := by
  cases hc : s.currentThread with
  | none =>
    rw [schedule_none hc e, hc] at hd
    cases hd
  | some c =>
    rcases h.schedule hc with ⟨hno, he⟩ | ⟨-, head, rest, p, htable, hbelow, hcase⟩
    · have hs : s = s' := Option.some.inj (he.symm.trans e)
      exact absurd ht (hs ▸ hno.resolve_left (not_not.mpr hl) t)
    have hhead := h.listed.head htable
    have hle : ∀ u, (s.thread u).stat = .ready → p ≤ (s.thread u).prio := fun u hu =>
      h.listed.least hbelow hu
    rcases hcase with ⟨hk, he⟩ | ⟨hk, he⟩
    · have hs' : s' = s.setThread c ((s.thread c).setYield false) :=
        (Option.some.inj (he.symm.trans e)).symm
      rw [hs'] at hd ht ⊢
      obtain rfl : c = d := Option.some.inj (hc.symm.trans hd)
      have hkeep : (s.thread c).prio ≤ p := by
        unfold keeps at hk
        rw [Bool.and_eq_true, Bool.or_eq_true, Bool.and_eq_true, decide_eq_true_eq,
          decide_eq_true_eq] at hk
        exact hk.2.elim Nat.le_of_lt fun hx => Nat.le_of_eq (of_decide_eq_true hx.1)
      by_cases htc : t = c
      · exact Nat.le_of_eq (by rw [htc])
      · rw [setThread_ne htc] at ht ⊢
        rw [setThread_self]
        exact Nat.le_trans hkeep (hle t ht)
    · have hsw := h.switch hc hhead.1
      rw [Option.some.inj (he.symm.trans e)] at hsw
      obtain rfl : head = d := Option.some.inj (hsw.currentThread.symm.trans hd)
      have hprio : (s'.thread head).prio = p := by
        rw [hsw.taken]
        exact hhead.2
      rw [hprio]
      by_cases hth : t = head
      · rw [hth, hrun] at ht
        cases ht
      by_cases htc : t = c
      · -- the thread that had to go was not the better one
        subst htc
        rw [hsw.thread] at ht ⊢
        split at ht
        next hrc =>
          rw [if_pos hrc]
          refine Nat.le_of_not_lt fun hlt => ?_
          have hyes : s.keeps t p = true := by
            unfold keeps
            rw [decide_eq_true hrc, decide_eq_true (show (s.thread t).prio < p from hlt)]
            rfl
          rw [hyes] at hk
          cases hk
        next => exact absurd ht (h.current t hc).1
      · rw [hsw.others t hth htc] at ht ⊢
        exact hle t ht

theorem Sound.resume (h : s.Sound) (t : ι) : (s.rtThreadResume t).Sound := by
  unfold rtThreadResume
  split
  next ht =>
    rw [h.unlink (by rw [ht]; decide)]
    exact h.insert ht
  · exact h

theorem Sound.startup (h : s.Sound) {t : ι} (ht : (s.thread t).stat = .init) :
    (s.rtThreadStartup t).Sound := by
  have hf : s.Fits t (s.thread t).started :=
    ⟨h.below t, fun _ => rfl, nofun, fun _ => ⟨nofun, nofun⟩⟩
  refine Sound.resume (h.setThread hf ?_ nofun) t
  rw [ht]
  exact iff_of_false nofun nofun

omit [DecidableEq ι] in
/-- a state that is neither INIT, READY nor RUNNING suits every thread in use -/
theorem Sound.fits_out (h : s.Sound) {t : ι} {th : RtThread} (ht : s.InUse t (s.thread t))
    (hp : th.currentPriority = (s.thread t).currentPriority)
    (hm : th.numberMask = (s.thread t).numberMask) (hr : th.stat ≠ .ready)
    (hi : th.stat ≠ .init) (hrun : th.stat ≠ .running) : s.Fits t th := by
  have hprio : th.prio = (s.thread t).prio := congrArg BitVec.toNat hp
  refine ⟨?_, fun _ => ?_, fun e => absurd e hrun, fun _ => ⟨hr, hi⟩⟩
  · rw [hprio]
    exact h.below t
  · rw [hm, hprio]
    exact h.mask t ht

theorem Sound.suspend (h : s.Sound) (t : ι) : (s.rtThreadSuspend t).Sound := by
  unfold rtThreadSuspend
  split
  next ht =>
    have hi : s.InUse t (s.thread t) := .of_stat (ht.imp_right Or.inr)
    exact h.remove hi (h.fits_out hi rfl rfl nofun nofun nofun) nofun
  · exact h

theorem Sound.detach (h : s.Sound) (t : ι) : (s.rtThreadDetach t).Sound := by
  unfold rtThreadDetach
  split
  · exact h
  next hclose =>
    split
    next hi =>
      have hc : s.currentThread ≠ some t := fun e => (h.current t e).2 hi
      refine h.setThread ⟨h.below t, fun hx => ?_, nofun, fun e => absurd e hc⟩ ?_ nofun
      · exact absurd rfl (hx.2.resolve_right hc)
      · rw [hi]
        exact iff_of_false nofun nofun
    next hi =>
      have hu : s.InUse t (s.thread t) := ⟨hi, Or.inl hclose⟩
      exact h.remove hu (h.fits_out hu rfl rfl nofun nofun nofun) nofun

theorem Sound.exit (h : s.Sound) {c : ι} (hc : s.currentThread = some c) :
    ((s.rtScheduleRemoveThread c).closeThread c).Sound :=
  h.remove (h.inUse hc) (h.fits_out (h.inUse hc) rfl rfl nofun nofun nofun) nofun

/-- the fields of the time slice -/
theorem Sound.retime (h : s.Sound) {t : ι} (th : RtThread) (hs : th.stat = (s.thread t).stat)
    (hp : th.currentPriority = (s.thread t).currentPriority)
    (hm : th.numberMask = (s.thread t).numberMask) : (s.setThread t th).Sound := by
  have hprio : th.prio = (s.thread t).prio := congrArg BitVec.toNat hp
  refine h.setThread ⟨?_, fun hi => ?_, ?_, ?_⟩ (by rw [hs]) fun _ => hprio
  · rw [hprio]
    exact h.below t
  · rw [hm, hprio]
    refine h.mask t ?_
    rw [InUse, ← hs]
    exact hi
  · rw [hs]
    exact h.running t
  · rw [hs]
    exact h.current t

theorem Sound.changePriority (h : s.Sound) (t : ι) {priority : BitVec 8} (hp : priority < 32) :
    (s.changePriority t priority).Sound := by
  have hlt : priority.toNat < 32 := hp
  unfold Scheduler.changePriority
  split
  next hr =>
    have hc : s.currentThread ≠ some t := fun e => (h.current t e).1 hr
    have hl := h.listed.remove (h.marked (.of_stat (Or.inl hr)))
    generalize hs₁ : (s.rtScheduleRemoveThread t).setThread t ((s.thread t).setPriority priority) =
      s₁
    have hself : s₁.thread t = (s.thread t).setPriority priority := by rw [← hs₁, setThread_self]
    have hothers : ∀ u, u ≠ t → s₁.thread u = s.thread u := fun u hu => by
      rw [← hs₁, setThread_ne hu]
      rfl
    have hc₁ : s₁.currentThread ≠ some t := by
      rw [← hs₁]
      exact hc
    have hl₁ : s₁.Listed fun u => (s.thread u).stat = .ready ∧ u ≠ t := by
      refine hl.of_eq (by rw [← hs₁]; rfl) (by rw [← hs₁]; rfl) (fun u hu => ?_) fun _ => Iff.rfl
      rw [hothers u hu.2]
      rfl
    have hl₂ := hl₁.append hc₁ (by rw [hself]; exact ⟨hlt, rfl⟩) fun hx => hx.2 rfl
    refine h.update (t := t) (fun u hu => ?_) ?_ hl₂ (fun u hu => ?_) ?_ ?_
    · rw [insert_ne hu, hothers u hu]
    · rw [insert_currentThread, ← hs₁]
      rfl
    · exact (or_iff_left hu).trans (and_iff_left hu)
    · rw [insert_self hc₁]
      exact iff_of_true (Or.inr rfl) rfl
    · rw [insert_self hc₁, hself]
      exact ⟨hlt, fun _ => rfl, nofun, fun e => absurd e hc⟩
  next hr =>
    exact h.setThread ⟨hlt, fun _ => rfl, h.running t, h.current t⟩ Iff.rfl fun e => absurd e hr

/-- before the start no thread runs; the first of the first list begins -/
theorem Sound.systemStart (h : s.Sound) (hc : s.currentThread = none)
    (e : s.rtSystemSchedulerStart = some s') : s'.Sound := by
  have hg : s.readyPriorityGroup ≠ 0 := by
    intro hg
    have hempty : s.priorityTable (rtFfs s.readyPriorityGroup - 1).toNat = [] := by
      refine List.eq_nil_iff_forall_not_mem.mpr fun t ht => ?_
      exact h.group_eq_zero.mp hg t ((h.listed.mem _ t).mp ht).1
    have hnone : s.highestPriorityThread = none := by
      show ((s.priorityTable _).head?.map fun t => (t, _)) = none
      rw [hempty]
      rfl
    unfold Scheduler.rtSystemSchedulerStart at e
    rw [hnone] at e
    cases e
  obtain ⟨head, rest, p, htable, -, hhigh⟩ := h.highest hg
  have hhead : (s.thread head).stat = .ready := (h.listed.head htable).1
  have hm := h.marked (.of_stat (Or.inl hhead))
  unfold Scheduler.rtSystemSchedulerStart at e
  rw [hhigh] at e
  have hs' : ((s.setCurrent head).rtScheduleRemoveThread head).setThread head
    (((((s.setCurrent head).rtScheduleRemoveThread head).thread head).setStat
      .running).setYield false) = s' := Option.some.inj e
  have hl₁ : (s.setCurrent head).Listed fun u => (s.thread u).stat = .ready :=
    h.listed.of_eq rfl rfl (fun _ _ => rfl) fun _ => Iff.rfl
  have hl := hl₁.remove (t := head) hm
  have hrunning : ∀ u, (s.thread u).stat ≠ .running := fun u hu =>
    nomatch hc.symm.trans (h.running u hu)
  have hself : s'.thread head = ((s.thread head).setStat .running).setYield false := by
    rw [← hs', setThread_self]
    rfl
  have hothers : ∀ u, u ≠ head → s'.thread u = s.thread u := fun u hu => by
    rw [← hs', setThread_ne hu]
    rfl
  have hcur : s'.currentThread = some head := by
    rw [← hs']
    rfl
  have hl' : s'.Listed fun u => (s.thread u).stat = .ready ∧ u ≠ head := by
    refine hl.of_eq (by rw [← hs']; rfl) (by rw [← hs']; rfl) (fun u hu => ?_) fun _ => Iff.rfl
    rw [hothers u hu.2]
    rfl
  have hall : ∀ P : ι → RtThread → Prop,
      P head (((s.thread head).setStat .running).setYield false) →
      (∀ u, u ≠ head → P u (s.thread u)) → ∀ u, P u (s'.thread u) := by
    intro P h1 h2 u
    by_cases hu : u = head
    · rw [hu, hself]
      exact h1
    · rw [hothers u hu]
      exact h2 u hu
  refine ⟨hl'.of_eq rfl rfl (fun _ _ => rfl) ?_, ?_, ?_, ?_, ?_⟩
  · refine hall (fun u th => th.stat = .ready ↔ _) ?_ fun u hu => ?_
    · exact iff_of_false nofun fun hx => hx.2 rfl
    · exact (and_iff_left hu).symm
  · exact hall (fun _ th => th.prio < 32) hm.below fun u _ => h.below u
  · refine hall (fun u th => s'.InUse u th → th.numberMask = 1#32 <<< th.prio)
      (fun _ => hm.mask) fun u hu hx => h.mask u ?_
    exact ⟨hx.1, Or.inl (hx.2.resolve_right fun e => hu (Option.some.inj (hcur.symm.trans e)).symm)⟩
  · exact hall (fun u th => th.stat = .running → s'.currentThread = some u) (fun _ => hcur)
      fun u _ hx => absurd hx (hrunning u)
  · rw [hcur]
    exact hall (fun u th => some head = some u → th.stat ≠ .ready ∧ th.stat ≠ .init)
      (fun _ => ⟨nofun, nofun⟩) fun u hu hx => absurd (Option.some.inj hx).symm hu

/-- **step lemma** -/
theorem Sound.exec (h : s.Sound) (c : SchedCall ι) (e : s.exec c = some s') : s'.Sound := by
  cases c with
  | startup t =>
    obtain ⟨ht, e⟩ := Option.ite_none_right_eq_some.mp e
    rw [← Option.some.inj e]
    exact h.startup ht
  | systemStart =>
    obtain ⟨hc, e⟩ := Option.ite_none_right_eq_some.mp e
    exact h.systemStart hc e
  | schedule => exact h.rtSchedule e
  | yield =>
    obtain ⟨c, -, e⟩ := Option.bind_eq_some_iff.mp e
    exact (h.retime _ rfl rfl rfl : (s.reload c).Sound).rtSchedule e
  | suspend =>
    obtain ⟨c, -, rfl⟩ := Option.map_eq_some_iff.mp e
    exact h.suspend c
  | resume t =>
    rw [← Option.some.inj e]
    exact h.resume t
  | timeout t =>
    obtain ⟨ht, e⟩ := Option.ite_none_right_eq_some.mp e
    rw [← Option.some.inj e, h.unlink (by rw [ht]; decide)]
    exact h.insert ht
  | changePriority t priority =>
    obtain ⟨hp, e⟩ := Option.ite_none_right_eq_some.mp e
    rw [← Option.some.inj e]
    exact h.changePriority t hp
  | exit =>
    obtain ⟨c, hc, rfl⟩ := Option.map_eq_some_iff.mp e
    exact h.exit hc
  | detach t =>
    rw [← Option.some.inj e]
    exact h.detach t
  | tick =>
    obtain ⟨c, -, rfl⟩ := Option.map_eq_some_iff.mp e
    unfold sliceTick
    dsimp only
    split <;> exact h.retime _ rfl rfl rfl
  | enterCritical =>
    rw [← Option.some.inj e]
    exact ⟨⟨h.listed.mem, h.listed.nodup, h.listed.group⟩, h.below, h.mask, h.running, h.current⟩
  | exitCritical =>
    rw [← Option.some.inj e]
    exact ⟨⟨h.listed.mem, h.listed.nodup, h.listed.group⟩, h.below, h.mask, h.running, h.current⟩

/-! ## what a call leaves alone -/

/-- what a call leaves alone of the thread `t`: its priority, and the state SUSPEND unless it is
`woken` -/
structure Frame (s s' : Scheduler ι) (t : ι) (woken : Bool) : Prop where
  priority : (s'.thread t).currentPriority = (s.thread t).currentPriority
  suspend : woken = false → (s.thread t).stat = .suspend → (s'.thread t).stat = .suspend

variable {t u : ι} {woken : Bool}

omit [DecidableEq ι] in
theorem Frame.of_eq (h : s'.thread t = s.thread t) : s.Frame s' t woken := by
  refine ⟨?_, fun _ hs => ?_⟩
  · rw [h]
  · rw [h]
    exact hs

omit [DecidableEq ι] in
theorem Frame.trans {s₁ : Scheduler ι} (h : s.Frame s₁ t woken) (h' : s₁.Frame s' t woken) :
    s.Frame s' t woken :=
  ⟨h'.priority.trans h.priority, fun hw hx => h'.suspend hw (h.suspend hw hx)⟩

/-- a call that changes the thread `u` -/
theorem setThread_frame {th : RtThread} (hp : th.currentPriority = (s.thread u).currentPriority)
    (hs : t = u → woken = false → (s.thread u).stat = .suspend → th.stat = .suspend) :
    s.Frame (s.setThread u th) t woken := by
  by_cases ht : t = u
  · subst ht
    refine ⟨?_, fun hw hx => ?_⟩
    · rw [setThread_self, hp]
    · rw [setThread_self]
      exact hs rfl hw hx
  · exact Frame.of_eq (setThread_ne ht s th)

theorem insert_frame (hw : t = u → woken = true) :
    s.Frame (s.rtScheduleInsertThread u) t woken := by
  by_cases ht : t = u
  · subst ht
    refine ⟨?_, fun hx => absurd (hx.symm.trans (hw rfl)) (by decide)⟩
    by_cases hc : s.currentThread = some t
    · rw [insert_current hc, setStat_self]
      rfl
    · rw [insert_self hc]
      rfl
  · exact Frame.of_eq (insert_ne ht)

theorem resume_frame (hw : t = u → woken = true) :
    s.Frame (s.rtThreadResume u) t woken := by
  unfold rtThreadResume
  split
  · have hun : s.Frame (s.unlink u) t woken := Frame.of_eq rfl
    exact hun.trans (insert_frame hw)
  · exact Frame.of_eq rfl

theorem Sound.schedule_frame (h : s.Sound) (e : s.rtSchedule = some s') :
    s.Frame s' t woken := by
  cases hc : s.currentThread with
  | none =>
    rw [schedule_none hc e]
    exact Frame.of_eq rfl
  | some c =>
    rcases h.schedule hc with ⟨-, he⟩ | ⟨-, head, rest, p, htable, -, ⟨-, he⟩ | ⟨-, he⟩⟩
    · rw [← Option.some.inj (he.symm.trans e)]
      exact Frame.of_eq rfl
    · rw [← Option.some.inj (he.symm.trans e)]
      exact setThread_frame rfl fun _ _ hx => hx
    · rw [← Option.some.inj (he.symm.trans e)]
      have hhead : (s.thread head).stat = .ready := (h.listed.head htable).1
      have hsw := h.switch hc hhead
      by_cases ht : t = head
      · subst ht
        refine ⟨?_, fun _ hx => absurd (hhead.symm.trans hx) (by decide)⟩
        rw [hsw.taken]
        rfl
      by_cases htc : t = c
      · subst htc
        refine ⟨?_, fun _ hx => ?_⟩
        · rw [hsw.thread]
          split <;> rfl
        · rw [hsw.thread, if_neg (by rw [hx]; decide)]
          exact hx
      · exact Frame.of_eq (hsw.others t ht htc)

end Scheduler

/-- the call is not about the priority or the end of a thread -/
def SchedCall.plain : SchedCall ι → Bool
  | .changePriority _ _ | .exit | .detach _ => false
  | _ => true

/-- the call makes the thread READY if it is SUSPEND -/
def SchedCall.wakes (t : ι) : SchedCall ι → Bool
  | .resume u | .timeout u => t = u
  | _ => false

namespace Scheduler

variable {s s' : Scheduler ι} {t : ι}

theorem Sound.exec_frame (h : s.Sound) (x : SchedCall ι) (hx : x.plain = true)
    (e : s.exec x = some s') : s.Frame s' t (x.wakes t) := by
  cases x with
  | startup u =>
    obtain ⟨hu, e⟩ := Option.ite_none_right_eq_some.mp e
    rw [← Option.some.inj e]
    have hset : ∀ w, s.Frame (s.setThread u (s.thread u).started) t w := fun w =>
      setThread_frame rfl fun _ _ _ => rfl
    by_cases ht : t = u
    · have hf : s.Frame (s.rtThreadStartup u) t true := (hset true).trans (resume_frame fun _ => rfl)
      subst ht
      exact ⟨hf.priority, fun _ hx => absurd (hu.symm.trans hx) (by decide)⟩
    · exact (hset _).trans (resume_frame fun hx => absurd hx ht)
  | systemStart =>
    obtain ⟨hc, e⟩ := Option.ite_none_right_eq_some.mp e
    obtain ⟨⟨head, p⟩, hh, rfl⟩ := Option.map_eq_some_iff.mp e
    obtain ⟨u, hu, hup⟩ := Option.map_eq_some_iff.mp hh
    obtain ⟨rfl, -⟩ := Prod.mk.inj hup
    have hready := ((h.listed.mem _ u).mp (List.mem_of_mem_head? hu)).1
    have hrem : s.Frame ((s.setCurrent u).rtScheduleRemoveThread u) t false := Frame.of_eq rfl
    exact hrem.trans (setThread_frame rfl fun _ _ hx => absurd (hready.symm.trans hx) (by decide))
  | schedule => exact h.schedule_frame e
  | yield =>
    obtain ⟨c, -, e⟩ := Option.bind_eq_some_iff.mp e
    have hr : (s.reload c).Sound := h.retime _ rfl rfl rfl
    have hf : s.Frame (s.reload c) t (SchedCall.wakes t .yield) :=
      setThread_frame rfl fun _ _ hx => hx
    exact hf.trans (hr.schedule_frame e)
  | suspend =>
    obtain ⟨c, -, rfl⟩ := Option.map_eq_some_iff.mp e
    unfold rtThreadSuspend
    split
    · have hrem : s.Frame (s.rtScheduleRemoveThread c) t false := Frame.of_eq rfl
      refine hrem.trans (setThread_frame ?_ fun _ _ _ => ?_)
      · rfl
      · rfl
    · exact Frame.of_eq rfl
  | resume u =>
    rw [← Option.some.inj e]
    exact resume_frame fun e => decide_eq_true e
  | timeout u =>
    obtain ⟨ht, e⟩ := Option.ite_none_right_eq_some.mp e
    rw [← Option.some.inj e, h.unlink (by rw [ht]; decide)]
    exact insert_frame fun e => decide_eq_true e
  | tick =>
    obtain ⟨c, -, rfl⟩ := Option.map_eq_some_iff.mp e
    unfold sliceTick
    dsimp only
    split <;> exact setThread_frame rfl fun _ _ hx => hx
  | enterCritical =>
    rw [← Option.some.inj e]
    exact Frame.of_eq rfl
  | exitCritical =>
    rw [← Option.some.inj e]
    exact Frame.of_eq rfl
  | _ => cases hx

theorem Sound.step (h : s.Sound) (c : SchedCall ι) : (s.step c).Sound := by
  unfold Scheduler.step
  cases e : s.exec c with
  | none => exact h
  | some s' => exact h.exec c e

omit [DecidableEq ι] in
theorem boot_sound (priority : ι → BitVec 8) (tick : ι → BitVec 32) (hp : ∀ t, priority t < 32) :
    (boot priority tick).Sound where
  listed := ⟨fun _ _ => iff_of_false List.not_mem_nil nofun, fun _ => List.nodup_nil,
    fun p => iff_of_false (by
      show (0#32).getLsbD p ≠ true
      rw [BitVec.getLsbD_zero]
      decide) fun hne => hne rfl⟩
  below t := hp t
  mask t ht := absurd rfl ht.1
  running t ht := nomatch ht
  current t ht := nomatch ht

end Scheduler

theorem schedRun_sound (priority : ι → BitVec 8) (tick : ι → BitVec 32)
    (hp : ∀ t, priority t < 32) (l : List (SchedCall ι)) : (schedRun priority tick l).Sound :=
  Runs.run_inv (fun _ c h => h.step c) (Scheduler.boot_sound priority tick hp) l

/-- **The tables.**  After every run the list of a priority holds the READY threads of that
priority, each once, the word has a bit exactly for the priorities of READY threads, and a RUNNING
thread is the current one. -/
theorem scheduler_tables (priority : ι → BitVec 8) (tick : ι → BitVec 32)
    (hp : ∀ t, priority t < 32) (l : List (SchedCall ι)) :
    let s := schedRun priority tick l
    (∀ p t, t ∈ s.priorityTable p ↔ (s.thread t).stat = .ready ∧ (s.thread t).prio = p) ∧
      (∀ p, (s.priorityTable p).Nodup) ∧
      (∀ p, s.readyPriorityGroup.getLsbD p = true ↔
        ∃ t, (s.thread t).stat = .ready ∧ (s.thread t).prio = p) ∧
      ∀ t, (s.thread t).stat = .running → s.currentThread = some t := by
  intro s
  have h := schedRun_sound priority tick hp l
  refine ⟨h.listed.mem, h.listed.nodup, fun p => ?_, h.running⟩
  rw [h.listed.group]
  constructor
  · intro hne
    obtain ⟨t, ht⟩ := List.exists_mem_of_ne_nil _ hne
    exact ⟨t, (h.listed.mem p t).mp ht⟩
  · rintro ⟨t, ht⟩
    exact List.ne_nil_of_mem ((h.listed.mem p t).mpr ht)

/-- one thread is preempted by another -/
theorem scheduler_tables_preempt :
    let s := schedRun (fun t : Bool => if t then 5 else 10) (fun _ => 20)
      [.startup false, .systemStart, .startup true, .schedule]
    s.readyPriorityGroup.getLsbD 10 = true ↔
      ∃ t, (s.thread t).stat = .ready ∧ (s.thread t).prio = 10 :=
  (scheduler_tables (fun t : Bool => if t then 5 else 10) (fun _ => 20) (by decide)
    [.startup false, .systemStart, .startup true, .schedule]).2.2.1 10

end LitterBox
