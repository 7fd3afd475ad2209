import LitterBox.Kernel.Ipc
import LitterBox.Lib.Runs

/-!
# Semaphores of `rt-thread/src/ipc.c`

A thread that calls `rt_sem_take` in vain is put into the suspend list of the semaphore and leaves
the processor in `rt_schedule`.  It goes on when somebody has resumed it: `rt_sem_release`, which
hands it the token, its timer, or a reset of the semaphore; `thread->error` says which.  The code
between `rt_hw_interrupt_disable` and `rt_hw_interrupt_enable` is atomic, so a run is a list of
such sections, of any threads, in any order: `SemCall`.  The threads keep their priorities through a
run; nothing in `ipc.c` sorts the list anew when the priority of a thread in it changes.

* `SemSystem.step`       one section, and what the call in it returns;
* `semaphore_conserves`  tokens are neither lost nor doubled, and nobody waits beside a token;
* `semaphore_order`      whom a release resumes: priority first, then the time of waiting.
-/

namespace LitterBox

/-! ## the semaphore -/

/-- `RT_SEM_VALUE_MAX` -/
def rtSemValueMax : BitVec 16 := 0xffff

/-- a thread that waits for a semaphore -/
structure Waiter where
  thread : Nat
  /-- `thread_timer` has been started -/
  timer : Bool
  deriving DecidableEq, Repr

/-- `struct rt_semaphore`, less its name -/
structure RtSemaphore where
  value : BitVec 16
  flag : IpcFlag
  suspendThread : List Waiter
  deriving DecidableEq, Repr

/-- a semaphore, and the threads that were resumed but are not yet back from `rt_sem_take`, with
their `thread->error` -/
structure SemSystem where
  sem : RtSemaphore
  resumed : List (Nat × RtErr)
  deriving DecidableEq, Repr

/-- `rt_sem_init` -/
def rtSemInit (value : BitVec 32) (flag : IpcFlag) : RtSemaphore where
  value := value.setWidth 16
  flag := flag
  suspendThread := []

/-- `rt_sem_take` of the thread `t`, up to its return or to `rt_schedule` -/
def rtSemTake (prio : Nat → BitVec 8) (t : Nat) (timeout : BitVec 32) (s : SemSystem) :
    SemSystem × Option RtErr :=
  if 0 < s.sem.value then
    ({ s with sem := { s.sem with value := s.sem.value - 1 } }, some .eok)
  else if timeout = 0 then (s, some .etimeout)
  else
    let list := ipcListSuspend (fun w : Waiter => prio w.thread) s.sem.flag
      ⟨t, decide (0 < timeout.toInt)⟩ s.sem.suspendThread
    ({ s with sem := { s.sem with suspendThread := list } }, none)

/-- the rest of `rt_sem_take`, once the thread has been resumed -/
def rtSemTakeResumed (t : Nat) (s : SemSystem) : SemSystem × Option RtErr :=
  match s.resumed.find? (fun r => r.1 = t) with
  | some r => ({ s with resumed := s.resumed.erase r }, some r.2)
  | none => (s, none)

/-- `rt_sem_release` -/
def rtSemRelease (s : SemSystem) : SemSystem × Option RtErr :=
  match s.sem.suspendThread with
  | w :: l =>
    ({ sem := { s.sem with suspendThread := l }, resumed := s.resumed ++ [(w.thread, .eok)] },
      some .eok)
  | [] =>
    if s.sem.value < rtSemValueMax then
      ({ s with sem := { s.sem with value := s.sem.value + 1 } }, some .eok)
    else (s, some .efull)

/-- `_thread_timeout` of a thread that waits for the semaphore -/
def semThreadTimeout (t : Nat) (s : SemSystem) : SemSystem :=
  match s.sem.suspendThread.find? (fun w => w.thread = t ∧ w.timer = true) with
  | some w =>
    { sem := { s.sem with suspendThread := s.sem.suspendThread.erase w }
      resumed := s.resumed ++ [(t, .etimeout)] }
  | none => s

/-- `rt_sem_control` with `RT_IPC_CMD_RESET` -/
def rtSemReset (value : BitVec 32) (s : SemSystem) : SemSystem where
  sem := { s.sem with value := value.setWidth 16, suspendThread := [] }
  resumed := s.resumed ++ s.sem.suspendThread.map fun w => (w.thread, .error)

/-- one atomic section -/
inductive SemCall where
  | take (t : Nat) (timeout : BitVec 32)
  /-- the thread runs on in `rt_sem_take` -/
  | goOn (t : Nat)
  | release
  | timerExpires (t : Nat)
  | reset (value : BitVec 32)
  deriving DecidableEq, Repr

/-- the threads that are amid `rt_sem_take` -/
def SemSystem.busy (s : SemSystem) : List Nat :=
  s.sem.suspendThread.map Waiter.thread ++ s.resumed.map Prod.fst

/-- the section, and what the call returns if it ends there; a thread that is amid `rt_sem_take`
cannot call it again -/
def SemSystem.exec (prio : Nat → BitVec 8) (s : SemSystem) : SemCall → SemSystem × Option RtErr
  | .take t timeout => if t ∈ s.busy then (s, none) else rtSemTake prio t timeout s
  | .goOn t => rtSemTakeResumed t s
  | .release => rtSemRelease s
  | .timerExpires t => (semThreadTimeout t s, none)
  | .reset value => (rtSemReset value s, none)

def SemSystem.step (prio : Nat → BitVec 8) (s : SemSystem) (c : SemCall) : SemSystem :=
  (s.exec prio c).1

/-- a semaphore just initialised -/
def SemSystem.start (value : BitVec 32) (flag : IpcFlag) : SemSystem := ⟨rtSemInit value flag, []⟩

/-- **a run**: sections of any threads in any order -/
def semRun (prio : Nat → BitVec 8) (value : BitVec 32) (flag : IpcFlag) (l : List SemCall) :
    SemSystem :=
  Runs.run (SemSystem.step prio) (.start value flag) l

/-! ## tokens -/

/-- the threads that have been handed a token and are not yet back -/
def SemSystem.granted (s : SemSystem) : Nat := s.resumed.countP fun r => r.2 = .eok

/-- tokens put in and taken out since the last reset -/
structure SemLedger where
  put : Nat
  got : Nat
  deriving DecidableEq, Repr

/-- a take that returned `r` -/
def SemLedger.take (r : Option RtErr) (o : SemLedger) : SemLedger :=
  if r = some .eok then { o with got := o.got + 1 } else o

/-- a release that returned `r` -/
def SemLedger.release (r : Option RtErr) (o : SemLedger) : SemLedger :=
  if r = some .eok then { o with put := o.put + 1 } else o

/-- what the section means for the tokens; a reset sets the value, and leaves the tokens on their
way to their threads -/
def SemSystem.book (prio : Nat → BitVec 8) (s : SemSystem) (c : SemCall) (o : SemLedger) : SemLedger :=
  match c with
  | .reset value => ⟨(value.setWidth 16 : BitVec 16).toNat + s.granted, 0⟩
  | .release => o.release (s.exec prio c).2
  | _ => o.take (s.exec prio c).2

/-- the ledger of a run; the initial value counts as put in -/
def semLedger (prio : Nat → BitVec 8) (value : BitVec 32) (flag : IpcFlag) (l : List SemCall) :
    SemLedger :=
  Runs.observe (SemSystem.step prio) (SemSystem.book prio) (.start value flag)
    ⟨(value.setWidth 16 : BitVec 16).toNat, 0⟩ l

/-- **the invariant of the tokens** -/
structure SemSystem.Balanced (s : SemSystem) (o : SemLedger) : Prop where
  tokens : s.sem.value.toNat + s.granted + o.got = o.put
  idle : s.sem.value ≠ 0 → s.sem.suspendThread = []

theorem SemSystem.granted_append (s : SemSystem) (m : RtSemaphore) (r : List (Nat × RtErr)) :
    SemSystem.granted ⟨m, s.resumed ++ r⟩ = s.granted + r.countP fun x => x.2 = .eok :=
  List.countP_append

theorem take_balanced {prio : Nat → BitVec 8} {s : SemSystem} {o : SemLedger} (h : s.Balanced o)
    (t : Nat) (timeout : BitVec 32) :
    (rtSemTake prio t timeout s).1.Balanced (o.take (rtSemTake prio t timeout s).2) := by
  have htok := h.tokens
  unfold rtSemTake
  by_cases hv : 0 < s.sem.value
  · rw [if_pos hv]
    have hsub : (s.sem.value - 1).toNat = s.sem.value.toNat - 1 := by bv_omega
    have hpos : 0 < s.sem.value.toNat := by bv_omega
    refine ⟨?_, fun _ => h.idle (by bv_omega)⟩
    show (s.sem.value - 1).toNat + s.granted + (o.got + 1) = o.put
    omega
  · have hz : s.sem.value = 0 := by bv_omega
    rw [if_neg hv]
    by_cases ht : timeout = 0
    · rw [if_pos ht]
      exact h
    · rw [if_neg ht]
      exact ⟨htok, fun hv => absurd hz hv⟩

theorem goOn_balanced {s : SemSystem} {o : SemLedger} (h : s.Balanced o) (t : Nat) :
    (rtSemTakeResumed t s).1.Balanced (o.take (rtSemTakeResumed t s).2) := by
  have htok := h.tokens
  unfold rtSemTakeResumed
  cases hf : s.resumed.find? (fun r => r.1 = t) with
  | none => exact h
  | some r =>
    have hmem : r ∈ s.resumed := List.mem_of_find?_eq_some hf
    have hcount : s.granted =
        (s.resumed.erase r).countP (fun x => x.2 = .eok) + if r.2 = .eok then 1 else 0 := by
      unfold SemSystem.granted
      rw [(List.perm_cons_erase hmem).countP_eq, List.countP_cons]
      simp
    dsimp only
    unfold SemLedger.take
    by_cases he : r.2 = .eok
    · rw [if_pos he] at hcount
      rw [if_pos (congrArg some he)]
      refine ⟨?_, h.idle⟩
      show s.sem.value.toNat + (s.resumed.erase r).countP (fun x => x.2 = .eok) + (o.got + 1) =
        o.put
      omega
    · rw [if_neg he, Nat.add_zero] at hcount
      rw [if_neg fun hh => he (Option.some.inj hh)]
      refine ⟨?_, h.idle⟩
      show s.sem.value.toNat + (s.resumed.erase r).countP (fun x => x.2 = .eok) + o.got = o.put
      omega

theorem release_balanced {s : SemSystem} {o : SemLedger} (h : s.Balanced o) :
    (rtSemRelease s).1.Balanced (o.release (rtSemRelease s).2) := by
  have htok := h.tokens
  unfold rtSemRelease
  cases hl : s.sem.suspendThread with
  | cons w l =>
    refine ⟨?_, fun hv => ?_⟩
    · rw [SemSystem.granted_append]
      show s.sem.value.toNat + (s.granted + 1) + o.got = o.put + 1
      omega
    · exact absurd ((h.idle hv).symm.trans hl) nofun
  | nil =>
    dsimp only
    by_cases hv : s.sem.value < rtSemValueMax
    · rw [if_pos hv]
      have hadd : (s.sem.value + 1).toNat = s.sem.value.toNat + 1 := by
        unfold rtSemValueMax at hv
        bv_omega
      refine ⟨?_, fun _ => hl⟩
      show (s.sem.value + 1).toNat + s.granted + o.got = o.put + 1
      omega
    · rw [if_neg hv]
      exact h

theorem timeout_balanced {s : SemSystem} {o : SemLedger} (h : s.Balanced o) (t : Nat) :
    (semThreadTimeout t s).Balanced o := by
  unfold semThreadTimeout
  cases hf : s.sem.suspendThread.find? (fun w => w.thread = t ∧ w.timer = true) with
  | none => exact h
  | some w =>
    refine ⟨?_, fun hv => ?_⟩
    · rw [SemSystem.granted_append]
      exact h.tokens
    · show s.sem.suspendThread.erase w = []
      rw [h.idle hv]
      rfl

theorem reset_balanced (s : SemSystem) (value : BitVec 32) :
    (rtSemReset value s).Balanced ⟨(value.setWidth 16 : BitVec 16).toNat + s.granted, 0⟩ := by
  refine ⟨?_, fun _ => rfl⟩
  unfold rtSemReset
  rw [SemSystem.granted_append, List.countP_map]
  have hnone : s.sem.suspendThread.countP
      ((fun x : Nat × RtErr => decide (x.2 = .eok)) ∘ fun w => (w.thread, .error)) = 0 := by
    rw [List.countP_eq_zero]
    intro w _
    simp
  rw [hnone]
  rfl

/-- **one section keeps the tokens** -/
theorem SemSystem.Balanced.step {prio : Nat → BitVec 8} {s : SemSystem} {o : SemLedger}
    (h : s.Balanced o) (c : SemCall) : (s.step prio c).Balanced (s.book prio c o) := by
  cases c with
  | take t timeout =>
    show (if t ∈ s.busy then (s, none) else rtSemTake prio t timeout s).1.Balanced
      (o.take (if t ∈ s.busy then (s, none) else rtSemTake prio t timeout s).2)
    split
    · exact h
    · exact take_balanced h t timeout
  | goOn t => exact goOn_balanced h t
  | release => exact release_balanced h
  | timerExpires t => exact timeout_balanced h t
  | reset value => exact reset_balanced s value

/-- **Tokens are neither lost nor doubled**, in any interleaving: what was put into the semaphore is
in its value, on its way to a resumed thread, or was returned by `rt_sem_take`; and no thread is
left waiting while the value is not zero. -/
theorem semaphore_conserves (prio : Nat → BitVec 8) (value : BitVec 32) (flag : IpcFlag)
    (l : List SemCall) :
    let s := semRun prio value flag l
    let o := semLedger prio value flag l
    s.sem.value.toNat + s.granted + o.got = o.put ∧
      (s.sem.value ≠ 0 → s.sem.suspendThread = []) := by
  have hstep : ∀ (s : SemSystem) o c, s.Balanced o →
      (s.step prio c).Balanced (s.book prio c o) := fun _ _ c h => h.step c
  have h := Runs.observe_inv (I := SemSystem.Balanced) (fun s o c h => hstep s o c h)
    (show (SemSystem.start value flag).Balanced ⟨(value.setWidth 16 : BitVec 16).toNat, 0⟩ from
      ⟨rfl, fun _ => rfl⟩) l
  exact ⟨h.tokens, h.idle⟩

/-! ## order -/

/-- the queueing rule: with `RT_IPC_FLAG_PRIO` the higher priority first; `since` is when the threads
began to wait -/
def Before (prio : Nat → BitVec 8) (since : Nat → Nat) (flag : IpcFlag) (a b : Waiter) : Prop :=
  match flag with
  | .fifo => since a.thread < since b.thread
  | .prio => prio a.thread < prio b.thread ∨
      prio a.thread = prio b.thread ∧ since a.thread < since b.thread

/-- a list in the order of its flag -/
def InLine (prio : Nat → BitVec 8) (since : Nat → Nat) (flag : IpcFlag) (l : List Waiter) : Prop :=
  l.Pairwise (Before prio since flag)

section order

variable {prio : Nat → BitVec 8} {since : Nat → Nat} {flag : IpcFlag} {w : Waiter}
  {l : List Waiter}

/-- **the loop of `_ipc_list_suspend`** puts a newcomer behind all of its own priority -/
theorem insertPrio_inLine (h : InLine prio since .prio l)
    (hw : ∀ x ∈ l, since x.thread < since w.thread) :
    InLine prio since .prio (insertPrio (fun w => prio w.thread) w l) := by
  induction l with
  | nil => exact List.pairwise_singleton _ w
  | cons s l ih =>
    obtain ⟨hs, hl⟩ := List.pairwise_cons.mp h
    unfold insertPrio
    split
    next hlt =>
      refine List.pairwise_cons.mpr ⟨fun x hx => Or.inl ?_, h⟩
      rcases List.mem_cons.mp hx with rfl | hx
      · exact hlt
      · rcases hs x hx with hb | ⟨hb, -⟩
        · exact BitVec.lt_trans hlt hb
        · rw [← hb]
          exact hlt
    next hge =>
      refine List.pairwise_cons.mpr ⟨fun x hx => ?_,
        ih hl fun x hx => hw x (List.mem_cons_of_mem s hx)⟩
      rcases mem_insertPrio.mp hx with rfl | hx
      · by_cases he : prio s.thread = prio x.thread
        · exact Or.inr ⟨he, hw s List.mem_cons_self⟩
        · left
          bv_omega
      · exact hs x hx

theorem ipcListSuspend_inLine (h : InLine prio since flag l)
    (hw : ∀ x ∈ l, since x.thread < since w.thread) :
    InLine prio since flag (ipcListSuspend (fun w => prio w.thread) flag w l) := by
  cases flag with
  | fifo =>
    refine List.pairwise_append.mpr ⟨h, List.pairwise_singleton _ w, fun x hx y hy => ?_⟩
    rw [List.mem_singleton.mp hy]
    exact hw x hx
  | prio => exact insertPrio_inLine h hw

/-- only the threads of the list matter -/
theorem InLine.congr {since' : Nat → Nat} (h : InLine prio since flag l)
    (hs : ∀ x ∈ l, since' x.thread = since x.thread) : InLine prio since' flag l := by
  refine List.Pairwise.imp_of_mem (fun {a b} ha hb hab => ?_) h
  cases flag with
  | fifo =>
    show since' a.thread < since' b.thread
    rw [hs a ha, hs b hb]
    exact hab
  | prio =>
    show prio a.thread < prio b.thread ∨
      prio a.thread = prio b.thread ∧ since' a.thread < since' b.thread
    rw [hs a ha, hs b hb]
    exact hab

end order

/-- the number of the section in which each thread last called `rt_sem_take`; a thread that waits has
waited since then -/
structure Clerk where
  count : Nat
  since : Nat → Nat

def SemSystem.watch (s : SemSystem) (c : SemCall) (k : Clerk) : Clerk where
  count := k.count + 1
  since :=
    match c with
    | .take t _ => if t ∈ s.busy then k.since else Function.update k.since t k.count
    | _ => k.since

/-- when the threads last called `rt_sem_take`, in a run -/
def clerk (prio : Nat → BitVec 8) (value : BitVec 32) (flag : IpcFlag) (l : List SemCall) : Clerk :=
  Runs.observe (SemSystem.step prio) SemSystem.watch (.start value flag) ⟨0, fun _ => 0⟩ l

/-- **the invariant of the suspend list** -/
structure SemSystem.InOrder (prio : Nat → BitVec 8) (flag : IpcFlag) (s : SemSystem) (k : Clerk) :
    Prop where
  flag_eq : s.sem.flag = flag
  ordered : InLine prio k.since flag s.sem.suspendThread
  past : ∀ w ∈ s.sem.suspendThread, k.since w.thread < k.count

/-- a section that shortens the list -/
theorem SemSystem.InOrder.sublist {prio : Nat → BitVec 8} {flag : IpcFlag} {s s' : SemSystem}
    {k : Clerk} (h : s.InOrder prio flag k) (hf : s'.sem.flag = s.sem.flag)
    (hl : s'.sem.suspendThread.Sublist s.sem.suspendThread) :
    s'.InOrder prio flag ⟨k.count + 1, k.since⟩ :=
  ⟨hf.trans h.flag_eq, h.ordered.sublist hl, fun w hw => Nat.lt_succ_of_lt (h.past w (hl.subset hw))⟩

theorem SemSystem.InOrder.step {prio : Nat → BitVec 8} {flag : IpcFlag} {s : SemSystem} {k : Clerk}
    (h : s.InOrder prio flag k) (c : SemCall) : (s.step prio c).InOrder prio flag (s.watch c k) := by
  cases c with
  | take t timeout =>
    show ((if t ∈ s.busy then (s, none) else rtSemTake prio t timeout s).1).InOrder prio flag
      ⟨k.count + 1, if t ∈ s.busy then k.since else Function.update k.since t k.count⟩
    split
    · exact h.sublist rfl (List.Sublist.refl _)
    next hb =>
      -- the thread is in no list yet, so nobody's time of waiting changes
      have hne : ∀ w ∈ s.sem.suspendThread, w.thread ≠ t := by
        rintro w hw rfl
        exact hb (List.mem_append_left _ (List.mem_map_of_mem hw))
      have hsame : ∀ w ∈ s.sem.suspendThread,
          Function.update k.since t k.count w.thread = k.since w.thread :=
        fun w hw => Function.update_of_ne (hne w hw) _ _
      have hstay : s.InOrder prio flag ⟨k.count + 1, Function.update k.since t k.count⟩ := by
        refine ⟨h.flag_eq, h.ordered.congr hsame, fun w hw => ?_⟩
        show Function.update k.since t k.count w.thread < k.count + 1
        rw [hsame w hw]
        exact Nat.lt_succ_of_lt (h.past w hw)
      unfold rtSemTake
      split
      · exact ⟨hstay.flag_eq, hstay.ordered, hstay.past⟩
      split
      · exact hstay
      · refine ⟨h.flag_eq, ?_, fun w hw => ?_⟩
        · show InLine prio _ flag (ipcListSuspend _ s.sem.flag _ _)
          rw [h.flag_eq]
          refine ipcListSuspend_inLine hstay.ordered fun w hw => ?_
          show Function.update k.since t k.count w.thread < Function.update k.since t k.count t
          rw [hsame w hw, Function.update_self]
          exact h.past w hw
        · show Function.update k.since t k.count w.thread < k.count + 1
          rcases mem_ipcListSuspend.mp hw with rfl | hw
          · rw [Function.update_self]
            exact Nat.lt_succ_self _
          · exact hstay.past w hw
  | goOn t =>
    show ((rtSemTakeResumed t s).1).InOrder prio flag ⟨k.count + 1, k.since⟩
    unfold rtSemTakeResumed
    split <;> exact h.sublist rfl (List.Sublist.refl _)
  | release =>
    show ((rtSemRelease s).1).InOrder prio flag ⟨k.count + 1, k.since⟩
    unfold rtSemRelease
    split
    next w l hl => exact h.sublist rfl (by rw [hl]; exact List.sublist_cons_self w l)
    · split <;> exact h.sublist rfl (List.Sublist.refl _)
  | timerExpires t =>
    show (semThreadTimeout t s).InOrder prio flag ⟨k.count + 1, k.since⟩
    unfold semThreadTimeout
    split
    · exact h.sublist rfl List.erase_sublist
    · exact h.sublist rfl (List.Sublist.refl _)
  | reset value => exact h.sublist rfl (List.nil_sublist _)

/-- **Whom a release resumes.**  Whenever threads wait, `rt_sem_release` hands the token to one of
them: with `RT_IPC_FLAG_PRIO` none of the others has a higher priority, and none of the same
priority has waited longer; with `RT_IPC_FLAG_FIFO` none has waited longer.  The others stay in
their order.  The priorities `prio` are those of the whole run. -/
theorem semaphore_order (prio : Nat → BitVec 8) (value : BitVec 32) (flag : IpcFlag)
    (l : List SemCall) (hw : (semRun prio value flag l).sem.suspendThread ≠ []) :
    let s := semRun prio value flag l
    let s' := semRun prio value flag (l ++ [.release])
    ∃ w, s.sem.suspendThread = w :: s'.sem.suspendThread ∧
      s'.resumed = s.resumed ++ [(w.thread, .eok)] ∧ s'.sem.value = s.sem.value ∧
      ∀ x ∈ s'.sem.suspendThread, Before prio (clerk prio value flag l).since flag w x := by
  intro s s'
  have h0 : (SemSystem.start value flag).InOrder prio flag ⟨0, fun _ => 0⟩ :=
    ⟨rfl, List.Pairwise.nil, fun w hw => absurd hw List.not_mem_nil⟩
  have h : s.InOrder prio flag (clerk prio value flag l) :=
    Runs.observe_inv (I := SemSystem.InOrder prio flag) (fun _ _ c h => h.step c) h0 l
  have e : s' = (rtSemRelease s).1 := Runs.run_snoc _ _ _ _
  cases hl : s.sem.suspendThread with
  | nil => exact absurd hl hw
  | cons w rest =>
    have hr : s' = ⟨{ s.sem with suspendThread := rest }, s.resumed ++ [(w.thread, .eok)]⟩ := by
      rw [e]
      unfold rtSemRelease
      rw [hl]
    have ho := h.ordered
    rw [hl] at ho
    rw [hr]
    exact ⟨w, rfl, rfl, rfl, (List.pairwise_cons.mp ho).1⟩

/-- three threads wait, and the last one has the highest priority -/
theorem semaphore_order_three :
    (semRun (fun t => if t = 3 then 12 else 14) 0 .prio
      ([.take 1 0xffffffff, .take 2 10, .take 3 10] ++ [.release])).resumed = [(3, .eok)] := by
  obtain ⟨w, hw, hr, -, -⟩ := semaphore_order (fun t => if t = 3 then 12 else 14) 0 .prio
    [.take 1 0xffffffff, .take 2 10, .take 3 10] (by decide)
  rw [hr, ← (List.cons.inj hw).1]
  rfl

end LitterBox
