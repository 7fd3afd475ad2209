import LitterBox.Kernel.Scheduler
import LitterBox.Lib.Robin

/-!
# Who runs

Among the READY threads `rt_schedule` looks at the priority first; in a list the threads stand in
the order in which they have become READY, and `rt_tick_increase` makes threads of the same priority
take turns.

* `schedule_picks`   the thread that `rt_schedule` runs;
* `round_robin`      which thread runs at every tick, as long as no thread becomes READY and the
                     running one neither waits nor yields.
-/

namespace LitterBox

variable {ι : Type} [DecidableEq ι]

/-! ## the order of the lists -/

/-- `RT_THREAD_CTRL_CHANGE_PRIORITY` puts a READY thread behind the others, even of its old list -/
def SchedCall.requeues (t : ι) : SchedCall ι → Bool
  | .changePriority u priority => t = u ∧ priority < 32
  | _ => false

/-- how many calls there have been, and since when the threads are READY -/
structure Entries (ι : Type) where
  count : Nat
  since : ι → Nat

/-- the threads that have become READY in the call -/
def Scheduler.becomesReady (s : Scheduler ι) (c : SchedCall ι) (t : ι) : Prop :=
  ((s.step c).thread t).stat = .ready ∧ ((s.thread t).stat ≠ .ready ∨ c.requeues t = true)

instance (s : Scheduler ι) (c : SchedCall ι) (t : ι) : Decidable (s.becomesReady c t) :=
  inferInstanceAs (Decidable (_ ∧ (_ ∨ _)))

def Scheduler.note (s : Scheduler ι) (c : SchedCall ι) (o : Entries ι) : Entries ι where
  count := o.count + 1
  since t := if s.becomesReady c t then o.count else o.since t

namespace Scheduler

variable {s s' : Scheduler ι} {c : ι} {l : List ι}

/-- the call has taken threads out of the lists, and put at most one thread, which was in none of
them before, behind the others of its list -/
def Extends (s s' : Scheduler ι) : Prop :=
  ∀ p, ∃ l x, s'.priorityTable p = l ++ x ∧ l.Sublist (s.priorityTable p) ∧
    (x = [] ∨ ∃ t, x = [t] ∧ (s.thread t).stat ≠ .ready)

omit [DecidableEq ι] in
theorem Extends.of_eq (h : s'.priorityTable = s.priorityTable) : s.Extends s' := fun p =>
  ⟨s.priorityTable p, [], by rw [h, List.append_nil], List.Sublist.refl _, Or.inl rfl⟩

omit [DecidableEq ι] in
/-- a change before that has nothing to do with the lists -/
theorem Extends.of_before {s₁ : Scheduler ι} (h : s₁.Extends s')
    (ht : s₁.priorityTable = s.priorityTable)
    (hs : ∀ t, (s₁.thread t).stat ≠ .ready → (s.thread t).stat ≠ .ready) : s.Extends s' := by
  intro p
  obtain ⟨l, x, hl, hsub, hx⟩ := h p
  rw [ht] at hsub
  exact ⟨l, x, hl, hsub, hx.imp_right fun ⟨t, e, hn⟩ => ⟨t, e, hs t hn⟩⟩

theorem Extends.of_erase {t : ι} (h : ∀ p, s'.priorityTable p = (s.priorityTable p).erase t) :
    s.Extends s' := fun p =>
  ⟨(s.priorityTable p).erase t, [], by rw [h, List.append_nil], List.erase_sublist, Or.inl rfl⟩

theorem insert_extends {t : ι} (ht : (s.thread t).stat ≠ .ready) :
    s.Extends (s.rtScheduleInsertThread t) := by
  by_cases hc : s.currentThread = some t
  · rw [insert_current hc]
    exact Extends.of_eq rfl
  · intro p
    rw [insert_table hc]
    refine ⟨_, _, rfl, List.Sublist.refl _, ?_⟩
    by_cases hp : (s.thread t).prio = p
    · rw [if_pos hp]
      exact Or.inr ⟨t, rfl, ht⟩
    · rw [if_neg hp]
      exact Or.inl rfl

theorem Sound.schedule_extends (h : s.Sound) (e : s.rtSchedule = some s') : s.Extends s' := by
  cases hc : s.currentThread with
  | none =>
    rw [schedule_none hc e]
    exact Extends.of_eq rfl
  | some c =>
    rcases h.schedule hc with ⟨-, he⟩ | ⟨-, head, rest, p, htable, -, ⟨-, he⟩ | ⟨-, he⟩⟩
    · rw [← Option.some.inj (he.symm.trans e)]
      exact Extends.of_eq rfl
    · rw [← Option.some.inj (he.symm.trans e)]
      exact Extends.of_eq rfl
    · rw [← Option.some.inj (he.symm.trans e)]
      have hmem : head ∈ s.priorityTable p := by
        rw [htable]
        exact List.mem_cons_self
      have hsw := h.switch hc ((h.listed.mem p head).mp hmem).1
      have hne : head ≠ c := by
        rintro rfl
        exact (h.current head hc).1 ((h.listed.mem p head).mp hmem).1
      intro q
      rw [hsw.table q]
      by_cases hx : (s.thread c).stat = .running ∧ (s.thread c).prio = q
      · refine ⟨(s.priorityTable q).erase head, [c], ?_, List.erase_sublist,
          Or.inr ⟨c, rfl, (h.current c hc).1⟩⟩
        rw [if_pos hx, List.erase_append]
        split
        · rfl
        next hm =>
          have hskip : [c].erase head = [c] :=
            List.erase_of_not_mem fun hx => hne (List.mem_singleton.mp hx)
          rw [hskip, List.erase_of_not_mem hm]
      · rw [if_neg hx, List.append_nil]
        exact ⟨_, [], (List.append_nil _).symm, List.erase_sublist, Or.inl rfl⟩

/-- **what a call does to the lists**; a change of the priority is the exception -/
theorem Sound.exec_extends (h : s.Sound) (x : SchedCall ι) (hx : ∀ t, x.requeues t = false)
    (e : s.exec x = some s') : s.Extends s' := by
  cases x with
  | startup t =>
    obtain ⟨ht, e⟩ := Option.ite_none_right_eq_some.mp e
    rw [← Option.some.inj e]
    have hf : s.Fits t (s.thread t).started :=
      ⟨h.below t, fun _ => rfl, nofun, fun _ => ⟨nofun, nofun⟩⟩
    have hs := h.setThread hf (by rw [ht]; exact iff_of_false nofun nofun) nofun
    have hself := setThread_self s t (s.thread t).started
    have hst : ((s.setThread t (s.thread t).started).thread t).stat = .suspend := by
      rw [hself]
      rfl
    unfold rtThreadStartup rtThreadResume
    rw [if_pos hst, hs.unlink (by rw [hst]; decide)]
    refine (insert_extends (by rw [hst]; decide)).of_before rfl fun u hu => ?_
    by_cases hut : u = t
    · rw [hut, ht]
      decide
    · rw [setThread_ne hut] at hu
      exact hu
  | systemStart =>
    obtain ⟨hc, e⟩ := Option.ite_none_right_eq_some.mp e
    obtain ⟨⟨head, p⟩, -, rfl⟩ := Option.map_eq_some_iff.mp e
    exact Extends.of_erase fun _ => rfl
  | schedule => exact h.schedule_extends e
  | yield =>
    obtain ⟨c, -, e⟩ := Option.bind_eq_some_iff.mp e
    have hr : (s.reload c).Sound := h.retime _ rfl rfl rfl
    refine (hr.schedule_extends e).of_before rfl fun u hu => ?_
    by_cases huc : u = c
    · rw [huc] at hu ⊢
      rw [show (s.reload c).thread c = _ from setThread_self s c _] at hu
      exact hu
    · rw [show (s.reload c).thread u = _ from setThread_ne huc s _] at hu
      exact hu
  | suspend =>
    obtain ⟨c, -, rfl⟩ := Option.map_eq_some_iff.mp e
    unfold rtThreadSuspend
    split
    · exact Extends.of_erase fun _ => rfl
    · exact Extends.of_eq rfl
  | resume t =>
    rw [← Option.some.inj e]
    unfold rtThreadResume
    split
    next ht =>
      rw [h.unlink (by rw [ht]; decide)]
      exact insert_extends (by rw [ht]; decide)
    · exact Extends.of_eq rfl
  | timeout t =>
    obtain ⟨ht, e⟩ := Option.ite_none_right_eq_some.mp e
    rw [← Option.some.inj e, h.unlink (by rw [ht]; decide)]
    exact insert_extends (by rw [ht]; decide)
  | changePriority t priority =>
    obtain ⟨hp, -⟩ := Option.ite_none_right_eq_some.mp e
    exact absurd ⟨rfl, hp⟩ (of_decide_eq_false (hx t))
  | exit =>
    obtain ⟨c, hc, rfl⟩ := Option.map_eq_some_iff.mp e
    exact Extends.of_erase fun _ => rfl
  | detach t =>
    rw [← Option.some.inj e]
    unfold rtThreadDetach
    split
    · exact Extends.of_eq rfl
    split
    · exact Extends.of_eq rfl
    · exact Extends.of_erase fun _ => rfl
  | tick =>
    obtain ⟨c, -, rfl⟩ := Option.map_eq_some_iff.mp e
    unfold sliceTick
    dsimp only
    split <;> exact Extends.of_eq rfl
  | enterCritical =>
    rw [← Option.some.inj e]
    exact Extends.of_eq rfl
  | exitCritical =>
    rw [← Option.some.inj e]
    exact Extends.of_eq rfl

/-- a thread that changes its priority goes to the end of the new list -/
theorem Sound.changePriority_table (h : s.Sound) {t : ι} (ht : (s.thread t).stat = .ready)
    (priority : BitVec 8) (p : Nat) : (s.changePriority t priority).priorityTable p =
      (s.priorityTable p).erase t ++ if priority.toNat = p then [t] else [] := by
  have hc : s.currentThread ≠ some t := fun e => (h.current t e).1 ht
  unfold Scheduler.changePriority
  rw [if_pos ht, insert_table (s := (s.rtScheduleRemoveThread t).setThread t _) hc,
    setThread_self]
  rfl

/-- **what a call does to the lists**, and to the threads that become READY -/
theorem Sound.lists (h : s.Sound) (x : SchedCall ι) (p : Nat) :
    ∃ l y, (s.step x).priorityTable p = l ++ y ∧ l.Sublist (s.priorityTable p) ∧
      (∀ t ∈ l, ¬ s.becomesReady x t) ∧ (y = [] ∨ ∃ t, y = [t] ∧ s.becomesReady x t) := by
  have hs' := h.step x
  -- who is READY already does not become READY, unless it is put behind the others
  have hold : ∀ t ∈ s.priorityTable p, x.requeues t = false → ¬ s.becomesReady x t := by
    rintro t ht hx ⟨-, hn | hq⟩
    · exact hn ((h.listed.mem p t).mp ht).1
    · rw [hx] at hq
      cases hq
  by_cases hx : ∀ t, x.requeues t = false
  · have hext : s.Extends (s.step x) := by
      unfold Scheduler.step
      cases e : s.exec x with
      | none => exact Extends.of_eq rfl
      | some s' => exact h.exec_extends x hx e
    obtain ⟨l, y, he, hl, hy⟩ := hext p
    refine ⟨l, y, he, hl, fun t ht => hold t (hl.subset ht) (hx t), hy.imp_right ?_⟩
    rintro ⟨t, rfl, hn⟩
    refine ⟨t, rfl, ((hs'.listed.mem p t).mp ?_).1, Or.inl hn⟩
    rw [he]
    exact List.mem_append_right l List.mem_cons_self
  · obtain ⟨t, ht⟩ := not_forall.mp hx
    cases x with
    | changePriority u priority =>
      obtain ⟨rfl, hp⟩ := of_decide_eq_true (Bool.of_not_eq_false ht)
      have hother : ∀ v, v ≠ t → SchedCall.requeues v (.changePriority t priority) = false :=
        fun v hv => decide_eq_false fun hx => hv hx.1
      have hstep : s.step (.changePriority t priority) = s.changePriority t priority := by
        show (if priority < 32 then some (s.changePriority t priority) else none).getD s = _
        rw [if_pos hp]
        rfl
      rw [hstep] at hs' ⊢
      by_cases hr : (s.thread t).stat = .ready
      · refine ⟨_, _, h.changePriority_table hr priority p, List.erase_sublist, fun v hv => ?_, ?_⟩
        · obtain ⟨hne, hv⟩ := ((h.listed.nodup p).mem_erase_iff).mp hv
          exact hold v hv (hother v hne)
        · by_cases hp' : priority.toNat = p
          · rw [if_pos hp']
            refine Or.inr ⟨t, rfl, ?_, Or.inr (Bool.of_not_eq_false ht)⟩
            rw [hstep]
            refine ((hs'.listed.mem p t).mp ?_).1
            rw [h.changePriority_table hr, if_pos hp']
            exact List.mem_append_right _ List.mem_cons_self
          · rw [if_neg hp']
            exact Or.inl rfl
      · have e : s.changePriority t priority =
            s.setThread t ((s.thread t).setPriority priority) := if_neg hr
        refine ⟨s.priorityTable p, [], ?_, List.Sublist.refl _, fun v hv => ?_, Or.inl rfl⟩
        · rw [e, List.append_nil]
          rfl
        · refine hold v hv (hother v ?_)
          rintro rfl
          exact hr ((h.listed.mem p v).mp hv).1
    | _ => exact absurd rfl ht

/-- **the invariant of the order** -/
structure InOrder (s : Scheduler ι) (o : Entries ι) : Prop where
  sound : s.Sound
  ordered : ∀ p, (s.priorityTable p).Pairwise fun a b => o.since a < o.since b
  past : ∀ p, ∀ t ∈ s.priorityTable p, o.since t < o.count

/-- a list that has kept some of its threads and got one that has just become READY -/
theorem InOrder.extend {x : SchedCall ι} {o : Entries ι} {p : Nat} {l y : List ι}
    (h : s.InOrder o) (hl : l.Sublist (s.priorityTable p)) (hold : ∀ t ∈ l, ¬ s.becomesReady x t)
    (hy : y = [] ∨ ∃ t, y = [t] ∧ s.becomesReady x t) :
    (l ++ y).Pairwise (fun a b => (s.note x o).since a < (s.note x o).since b) ∧
      ∀ t ∈ l ++ y, (s.note x o).since t < (s.note x o).count := by
  have hsame : ∀ t ∈ l, (s.note x o).since t = o.since t := fun t ht => if_neg (hold t ht)
  have hpast : ∀ t ∈ l, o.since t < o.count := fun t ht => h.past p t (hl.subset ht)
  have hnew : ∀ t ∈ y, (s.note x o).since t = o.count := by
    rcases hy with rfl | ⟨t, rfl, ht⟩
    · nofun
    · intro u hu
      rw [List.mem_singleton.mp hu]
      exact if_pos ht
  have hsingle : y.Pairwise fun a b => (s.note x o).since a < (s.note x o).since b := by
    rcases hy with rfl | ⟨t, rfl, -⟩
    · exact List.Pairwise.nil
    · exact List.pairwise_singleton _ _
  refine ⟨List.pairwise_append.mpr ⟨?_, hsingle, fun a ha b hb => ?_⟩, fun t ht => ?_⟩
  · refine ((h.ordered p).sublist hl).imp_of_mem fun ha hb hab => ?_
    rw [hsame _ ha, hsame _ hb]
    exact hab
  · rw [hsame a ha, hnew b hb]
    exact hpast a ha
  · show _ < o.count + 1
    rcases List.mem_append.mp ht with ht | ht
    · rw [hsame t ht]
      exact Nat.lt_succ_of_lt (hpast t ht)
    · rw [hnew t ht]
      exact Nat.lt_succ_self _

/-- **step lemma**: whatever the call does to the lists, those that come last stand last -/
theorem InOrder.step {o : Entries ι} (h : s.InOrder o) (x : SchedCall ι) :
    (s.step x).InOrder (s.note x o) := by
  refine ⟨h.sound.step x, fun p => ?_, fun p => ?_⟩
  · obtain ⟨l, y, he, hl, hold, hy⟩ := h.sound.lists x p
    rw [he]
    exact (h.extend hl hold hy).1
  · obtain ⟨l, y, he, hl, hold, hy⟩ := h.sound.lists x p
    rw [he]
    exact (h.extend hl hold hy).2

end Scheduler

namespace Scheduler

variable {s s' : Scheduler ι} {c : ι} {l : List ι}

/-! ## time slices -/

/-- `rt_tick_increase`, without `rt_timer_check` -/
def rtTickIncrease (s : Scheduler ι) : Option (Scheduler ι) :=
  s.currentThread.bind fun c =>
    if (s.sliceTick c).2 then (s.sliceTick c).1.rtSchedule else some (s.sliceTick c).1

/-- so many ticks, and nothing else -/
def rtTicks : Nat → Scheduler ι → Option (Scheduler ι)
  | 0, s => some s
  | n + 1, s => s.rtTickIncrease.bind (rtTicks n)

/-- how many times `remaining_tick` can be decremented until it is zero -/
def ticksOf (tick : BitVec 32) : Nat := (tick - 1).toNat + 1

theorem ticksOf_pos (tick : BitVec 32) : 0 < ticksOf tick := Nat.succ_pos _

theorem ticksOf_eq_one {tick : BitVec 32} : ticksOf tick = 1 ↔ tick - 1 = 0 := by
  unfold ticksOf
  bv_omega

theorem ticksOf_pred {tick : BitVec 32} (h : tick - 1 ≠ 0) :
    ticksOf (tick - 1) = ticksOf tick - 1 := by
  unfold ticksOf
  bv_omega

/-- the turn of a thread -/
def turn (s : Scheduler ι) (t : ι) : Robin.Turn ι where
  who := t
  left := ticksOf (s.thread t).remainingTick
  slice := ticksOf (s.thread t).initTick
  left_pos := ticksOf_pos _
  slice_pos := ticksOf_pos _

/-- the thread `c` runs, the threads `l` are READY at its priority, and none above it -/
structure Top (s : Scheduler ι) (c : ι) (l : List ι) : Prop where
  currentThread : s.currentThread = some c
  running : (s.thread c).stat = .running
  table : s.priorityTable (s.thread c).prio = l
  below : ∀ p < (s.thread c).prio, s.priorityTable p = []
  lockNest : s.lockNest = 0

omit [DecidableEq ι] in
theorem turn_congr {t : ι} (hr : (s'.thread t).remainingTick = (s.thread t).remainingTick)
    (hi : (s'.thread t).initTick = (s.thread t).initTick) : s'.turn t = s.turn t := by
  refine Robin.Turn.ext rfl ?_ ?_
  · exact congrArg ticksOf hr
  · exact congrArg ticksOf hi

omit [DecidableEq ι] in
theorem Top.mem (h : s.Top c l) (hs : s.Sound) {t : ι} :
    t ∈ l ↔ (s.thread t).stat = .ready ∧ (s.thread t).prio = (s.thread c).prio := by
  rw [← h.table]
  exact hs.listed.mem _ t

omit [DecidableEq ι] in
/-- the thread that runs is in no list -/
theorem Top.ne (h : s.Top c l) (hs : s.Sound) {t : ι} (ht : t ∈ l) : t ≠ c := by
  rintro rfl
  exact (hs.current t h.currentThread).1 ((h.mem hs).mp ht).1

omit [DecidableEq ι] in
/-- the running thread has only been given another time -/
theorem Top.retime (h : s.Top c l) (hcurrent : s'.currentThread = s.currentThread)
    (hstat : (s'.thread c).stat = (s.thread c).stat)
    (hprio : (s'.thread c).prio = (s.thread c).prio)
    (htable : s'.priorityTable = s.priorityTable) (hlock : s'.lockNest = s.lockNest) :
    s'.Top c l where
  currentThread := hcurrent.trans h.currentThread
  running := hstat.trans h.running
  table := by
    rw [hprio, htable]
    exact h.table
  below p hp := by
    rw [htable]
    rw [hprio] at hp
    exact h.below p hp
  lockNest := hlock.trans h.lockNest

omit [DecidableEq ι] in
theorem map_turn_congr {l : List ι} (h : ∀ t ∈ l, s'.thread t = s.thread t) :
    l.map s'.turn = l.map s.turn := by
  refine List.map_congr_left fun t ht => turn_congr ?_ ?_
  · rw [h t ht]
  · rw [h t ht]

omit [DecidableEq ι] in
/-- a thread alone at the top goes on, with a new time slice -/
theorem tick_alone (hover : (s.turn c).left = 1) (hturn : s'.turn c = (s.turn c).renew) :
    [c].map s'.turn = Robin.tick ([c].map s.turn) := by
  rw [List.map_singleton, List.map_singleton, Robin.tick_over hover, hturn]
  rfl

theorem reload_turn (s : Scheduler ι) (c : ι) : (s.reload c).turn c = (s.turn c).renew := by
  have hself : (s.reload c).thread c = (s.thread c).reload := setThread_self s c _
  refine Robin.Turn.ext rfl ?_ ?_
  · show ticksOf ((s.reload c).thread c).remainingTick = ticksOf (s.thread c).initTick
    rw [hself]
    rfl
  · show ticksOf ((s.reload c).thread c).initTick = ticksOf (s.thread c).initTick
    rw [hself]
    rfl

/-- at the end of its time slice the thread stays only if all others are below it -/
theorem keeps_reload {p : Nat} :
    (s.reload c).keeps c p = true ↔ (s.thread c).stat = .running ∧ (s.thread c).prio < p := by
  have hself : (s.reload c).thread c = (s.thread c).reload := setThread_self s c _
  unfold keeps
  rw [hself]
  show ((decide ((s.thread c).stat = .running) &&
    (decide ((s.thread c).prio < p) || decide ((s.thread c).prio = p) && !true)) = true) ↔ _
  rw [Bool.not_true, Bool.and_false, Bool.or_false, Bool.and_eq_true, decide_eq_true_eq,
    decide_eq_true_eq]

/-- the end of a time slice, with other threads of the same priority -/
theorem Top.rotate {head : ι} {rest : List ι} (h : s.Top c (head :: rest)) (hs : s.Sound)
    (hover : (s.turn c).left = 1)
    (hsw : (s.reload c).Switch c head s') :
    s'.Top head (rest ++ [c]) ∧
      (head :: (rest ++ [c])).map s'.turn = Robin.tick ((c :: head :: rest).map s.turn) := by
  have hself : (s.reload c).thread c = (s.thread c).reload := setThread_self s c _
  have hothers : ∀ t, t ≠ c → (s.reload c).thread t = s.thread t := fun t ht => setThread_ne ht s _
  have hhead := (h.mem hs).mp List.mem_cons_self
  have hne := h.ne hs List.mem_cons_self
  have hrest : ∀ t ∈ rest, t ≠ head := by
    have hn := hs.listed.nodup (s.thread c).prio
    rw [h.table] at hn
    rintro t ht rfl
    exact (List.nodup_cons.mp hn).1 ht
  have hrunning : ((s.reload c).thread c).stat = .running := by
    rw [hself]
    exact h.running
  have hprio : (s'.thread head).prio = (s.thread c).prio := by
    rw [hsw.taken, hothers head hne]
    exact hhead.2
  have hcprio : ((s.reload c).thread c).prio = (s.thread c).prio := by
    rw [hself]
    rfl
  have htable : ∀ p, s'.priorityTable p =
      (s.priorityTable p ++ if (s.thread c).prio = p then [c] else []).erase head := by
    intro p
    rw [hsw.table p, hcprio]
    exact congrArg (fun l => (s.priorityTable p ++ l).erase head)
      (if_congr (and_iff_right hrunning) rfl rfl)
  constructor
  · refine ⟨hsw.currentThread, ?_, ?_, fun p hp => ?_, hsw.lockNest.trans h.lockNest⟩
    · rw [hsw.taken]
      rfl
    · rw [hprio, htable, if_pos rfl, h.table, List.cons_append, List.erase_cons_head]
    · rw [hprio] at hp
      rw [htable, if_neg (Nat.ne_of_gt hp), h.below p hp]
      rfl
  · have hturn : s'.turn head = s.turn head := by
      refine turn_congr ?_ ?_
      · rw [hsw.taken, hothers head hne]
        rfl
      · rw [hsw.taken, hothers head hne]
        rfl
    have hturns : rest.map s'.turn = rest.map s.turn := map_turn_congr fun t ht => by
      have htc := h.ne hs (List.mem_cons_of_mem head ht)
      rw [hsw.others t (hrest t ht) htc, hothers t htc]
    have hlast : s'.turn c = (s.turn c).renew := by
      rw [← reload_turn s c]
      refine turn_congr ?_ ?_
      · rw [hsw.thread, if_pos hrunning]
        rfl
      · rw [hsw.thread, if_pos hrunning]
        rfl
    calc (head :: (rest ++ [c])).map s'.turn
        = s'.turn head :: (rest.map s'.turn ++ [s'.turn c]) := by
          rw [List.map_cons, List.map_append, List.map_singleton]
      _ = (s.turn head :: rest.map s.turn) ++ [(s.turn c).renew] := by
          rw [hturn, hturns, hlast, List.cons_append]
      _ = Robin.tick ((c :: head :: rest).map s.turn) := (Robin.tick_over hover _).symm

/-- **one tick is one tick of the turns** -/
theorem Top.tick (h : s.Top c l) (hs : s.Sound) :
    ∃ s' c' l', s.rtTickIncrease = some s' ∧ s'.Sound ∧ s'.Top c' l' ∧
      (c' :: l').map s'.turn = Robin.tick ((c :: l).map s.turn) := by
  have e : s.rtTickIncrease =
      if (s.sliceTick c).2 then (s.sliceTick c).1.rtSchedule else some (s.sliceTick c).1 := by
    unfold rtTickIncrease
    rw [h.currentThread]
    rfl
  rw [e]
  by_cases hz : (s.thread c).remainingTick - 1 = 0
  · have hslice : s.sliceTick c = (s.reload c, true) := if_pos hz
    have hover : (s.turn c).left = 1 := ticksOf_eq_one.mpr hz
    have hself : (s.reload c).thread c = (s.thread c).reload := setThread_self s c _
    have hr : (s.reload c).Sound := hs.retime _ rfl rfl rfl
    have htop : (s.reload c).Top c l :=
      h.retime rfl (by rw [hself]; rfl) (by rw [hself]; rfl) rfl rfl
    rw [hslice, if_pos rfl]
    rcases hr.schedule htop.currentThread with
      ⟨hno, he⟩ | ⟨-, head, rest, p, htable, hbelow, ⟨hk, he⟩ | ⟨hk, he⟩⟩
    · have hl : l = [] := List.eq_nil_iff_forall_not_mem.mpr fun t ht =>
        hno.elim (fun hlock => hlock htop.lockNest) fun hn => hn t ((htop.mem hr).mp ht).1
      subst hl
      exact ⟨_, c, [], he, hr, htop, tick_alone hover (reload_turn s c)⟩
    · -- all READY threads are below the running one
      have hl : l = [] := by
        rw [← h.table]
        exact hbelow _ (keeps_reload.mp hk).2
      subst hl
      have hself' := setThread_self (s.reload c) c (((s.reload c).thread c).setYield false)
      have hs' := hr.retime (t := c) (((s.reload c).thread c).setYield false) rfl rfl rfl
      refine ⟨_, c, [], he, hs', htop.retime rfl (by rw [hself']; rfl) (by rw [hself']; rfl) rfl rfl,
        tick_alone hover ?_⟩
      rw [← reload_turn s c]
      exact turn_congr (by rw [hself']; rfl) (by rw [hself']; rfl)
    · -- the first of the others is next
      have hp : (s.thread c).prio = p := by
        refine Nat.le_antisymm (Nat.le_of_not_lt fun hlt => ?_) (Nat.le_of_not_lt fun hlt => ?_)
        · exact absurd ((h.below p hlt).symm.trans htable) nofun
        · rw [keeps_reload.mpr ⟨h.running, hlt⟩] at hk
          cases hk
      have hl : l = head :: rest := by
        rw [← h.table, hp]
        exact htable
      subst hl
      have hsw := hr.switch htop.currentThread ((htop.mem hr).mp List.mem_cons_self).1
      exact ⟨_, head, rest ++ [c], he, hsw.sound, h.rotate hs hover hsw⟩
  · have hslice : s.sliceTick c = (s.setThread c
      { s.thread c with remainingTick := (s.thread c).remainingTick - 1 }, false) := if_neg hz
    rw [hslice, if_neg Bool.false_ne_true]
    have hself := setThread_self s c
      { s.thread c with remainingTick := (s.thread c).remainingTick - 1 }
    refine ⟨_, c, l, rfl, hs.retime _ rfl rfl rfl,
      h.retime rfl (by rw [hself]) (by rw [hself]; rfl) rfl rfl, ?_⟩
    have hleft : (s.turn c).left ≠ 1 := fun hx => hz (ticksOf_eq_one.mp hx)
    rw [List.map_cons, List.map_cons, Robin.tick_on hleft,
      map_turn_congr fun t ht => setThread_ne (h.ne hs ht) s _]
    refine congrArg (· :: l.map s.turn) (Robin.Turn.ext rfl ?_ ?_)
    · show ticksOf ((s.setThread c _).thread c).remainingTick = ticksOf (s.thread c).remainingTick - 1
      rw [hself]
      exact ticksOf_pred hz
    · show ticksOf ((s.setThread c _).thread c).initTick = ticksOf (s.thread c).initTick
      rw [hself]

/-- **so many ticks are so many ticks of the turns** -/
theorem Top.ticks (n : Nat) (h : s.Top c l) (hs : s.Sound) :
    ∃ s' c' l', s.rtTicks n = some s' ∧ s'.Top c' l' ∧
      (c' :: l').map s'.turn = Robin.tick^[n] ((c :: l).map s.turn) := by
  induction n generalizing s c l with
  | zero => exact ⟨s, c, l, rfl, h, rfl⟩
  | succ n ih =>
    obtain ⟨s₁, c₁, l₁, he, hs₁, h₁, ht⟩ := h.tick hs
    obtain ⟨s', c', l', he', h', ht'⟩ := ih h₁ hs₁
    refine ⟨s', c', l', ?_, h', ?_⟩
    · show s.rtTickIncrease.bind (rtTicks n) = some s'
      rw [he]
      exact he'
    · rw [ht', ht, Function.iterate_succ_apply]

/-- after so many ticks it is the turn of `t` -/
theorem Top.turn_of {n : Nat} {t : ι} (h : s.Top c l) (hs : s.Sound)
    (ht : ∃ y q, Robin.tick^[n] ((c :: l).map s.turn) = y :: q ∧ y.who = t) :
    ∃ s', s.rtTicks n = some s' ∧ s'.currentThread = some t ∧ (s'.thread t).stat = .running := by
  obtain ⟨s', c', l', he, h', hturns⟩ := h.ticks n hs
  obtain ⟨y, q, hq, hy⟩ := ht
  have hc : c' = t := by
    rw [hq, List.map_cons] at hturns
    rw [← hy, ← (List.cons.inj hturns).1]
    rfl
  subst hc
  exact ⟨s', he, h'.currentThread, h'.running⟩

end Scheduler

/-- **Round robin.**  In any reachable state let `c` run, with the scheduler unlocked, and let `l` be
the READY threads of its priority, none READY above them.  As long as nothing but ticks happens, the
threads of `c :: l` run one after the other, each for what is left of its time slice, and from then
on in rounds, each for its whole time slice. -/
theorem round_robin (priority : ι → BitVec 8) (tick : ι → BitVec 32) (hp : ∀ t, priority t < 32)
    (m : List (SchedCall ι)) (c : ι) (l a b : List ι) (t : ι)
    (h : (schedRun priority tick m).Top c l) (ht : c :: l = a ++ t :: b) :
    let s := schedRun priority tick m
    let left := fun u : ι => Scheduler.ticksOf (s.thread u).remainingTick
    let slice := fun u : ι => Scheduler.ticksOf (s.thread u).initTick
    (∀ n < left t, ∃ s', s.rtTicks ((a.map left).sum + n) = some s' ∧
      s'.currentThread = some t ∧ (s'.thread t).stat = .running) ∧
    ∀ r, ∀ n < slice t, ∃ s',
      s.rtTicks (((c :: l).map left).sum + r * ((c :: l).map slice).sum + (a.map slice).sum + n) =
        some s' ∧ s'.currentThread = some t ∧ (s'.thread t).stat = .running := by
  intro s left slice
  have hs : s.Sound := schedRun_sound priority tick hp m
  have hq : (c :: l).map s.turn = a.map s.turn ++ s.turn t :: b.map s.turn := by
    rw [ht, List.map_append, List.map_cons]
  have hleft : ∀ q : List ι, Robin.left (q.map s.turn) = (q.map left).sum := fun q => by
    unfold Robin.left
    rw [List.map_map]
    rfl
  have hround : ∀ q : List ι, Robin.round (q.map s.turn) = (q.map slice).sum := fun q => by
    unfold Robin.round
    rw [List.map_map]
    rfl
  refine ⟨fun n hn => h.turn_of hs ?_, fun r n hn => h.turn_of hs ?_⟩
  · obtain ⟨y, q, hy, hw⟩ := Robin.first_round (a.map s.turn) (b.map s.turn) (s.turn t) n hn
    rw [hleft a, ← hq] at hy
    exact ⟨y, q, hy, hw⟩
  · obtain ⟨y, q, hy, hw⟩ := Robin.later_rounds (a.map s.turn) (b.map s.turn) (s.turn t) r n hn
    rw [← hq, hleft, hround, hround] at hy
    exact ⟨y, q, hy, hw⟩

/-- two threads of one priority, each with a time slice of 20 ticks -/
theorem round_robin_two :
    ∃ s', (schedRun (fun t : Fin 3 => if t = 0 then 31 else 10) (fun _ => 20)
        [.startup 0, .startup 1, .startup 2, .systemStart]).rtTicks 20 = some s' ∧
      s'.currentThread = some 2 ∧ (s'.thread 2).stat = .running := by
  have htop : (schedRun (fun t : Fin 3 => if t = 0 then 31 else 10) (fun _ => 20)
      [.startup 0, .startup 1, .startup 2, .systemStart]).Top 1 [2] :=
    ⟨by decide +kernel, by decide +kernel, by decide +kernel, by decide +kernel, by decide +kernel⟩
  have hn : ([1].map fun u => Scheduler.ticksOf ((schedRun (fun t : Fin 3 => if t = 0 then 31
      else 10) (fun _ => 20) [.startup 0, .startup 1, .startup 2, .systemStart]).thread
        u).remainingTick).sum + 0 = 20 := by decide +kernel
  obtain ⟨s', he, hc⟩ := (round_robin (fun t : Fin 3 => if t = 0 then 31 else 10) (fun _ => 20)
    (by decide) [.startup 0, .startup 1, .startup 2, .systemStart] 1 [2] [1] [] 2 htop rfl).1 0
    (Scheduler.ticksOf_pos _)
  rw [hn] at he
  exact ⟨s', he, hc⟩

end LitterBox
