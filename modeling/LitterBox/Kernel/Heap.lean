import LitterBox.Kernel.Alloc
import LitterBox.Lib.Runs

/-!
# The heap and its callers

`HeapSystem` is the heap with the blocks that have been handed out; a call is allowed if it names
such a block, and if it writes there.  `rt_malloc`, `rt_realloc` and `rt_free` hold the mutex of the
heap, so a run is a list of whole calls; the callers write to their blocks between them.

* `HeapSystem.exec`   one call;
* `heap_sound`        every call gets through, and no two blocks overlap;
* `heap_first_fit`    `rt_malloc` gives the first item that is long enough;
* `heap_restored`     once everything has been freed the heap is one free item;
* `heap_keeps`        what a block contains stays there until its holder writes or gives it back;
* `heap_realloc`      what becomes of a block that gets another size.
-/

namespace LitterBox

open Segments

/-- the blocks that have been handed out: where they are, and how many bytes they have, which is the
size asked for after `RT_ALIGN` -/
structure HeapSystem where
  mem : SmallMem
  live : List (Nat × Nat)

inductive HeapCall where
  | malloc (size : BitVec 32)
  | realloc (rmem : Option Nat) (newsize : BitVec 32)
  | free (rmem : Option Nat)
  /-- the holder of a block writes a word of it -/
  | store (q : Nat) (v : BitVec 32)

namespace HeapSystem

/-- the callers name blocks that they have, and write only there -/
def Allowed (x : HeapSystem) : HeapCall → Prop
  | .malloc _ => True
  | .realloc rmem _ => ∀ r ∈ rmem, r ∈ x.live.map Prod.fst
  | .free rmem => ∀ r ∈ rmem, r ∈ x.live.map Prod.fst
  | .store q _ => q % 4 = 0 ∧ ∃ b ∈ x.live, b.1 ≤ q ∧ q < b.1 + b.2

instance (x : HeapSystem) : DecidablePred x.Allowed
  | .malloc _ => inferInstanceAs (Decidable True)
  | .realloc rmem _ => inferInstanceAs (Decidable (∀ r ∈ rmem, r ∈ x.live.map Prod.fst))
  | .free rmem => inferInstanceAs (Decidable (∀ r ∈ rmem, r ∈ x.live.map Prod.fst))
  | .store q _ => inferInstanceAs
    (Decidable (q % 4 = 0 ∧ ∃ b ∈ x.live, b.1 ≤ q ∧ q < b.1 + b.2))

/-- `rmem` is no longer a block -/
def drop (rmem : Option Nat) (live : List (Nat × Nat)) : List (Nat × Nat) :=
  live.filter fun b => some b.1 ≠ rmem

/-- `rt_malloc`; the caller may use `RT_ALIGN(size)` bytes -/
def rtMalloc (size : BitVec 32) (x : HeapSystem) : Option (HeapSystem × Option Nat) :=
  (rtSmemAlloc size x.mem).map fun
    | (m, none) => (⟨m, x.live⟩, none)
    | (m, some p) => (⟨m, (p, (rtAlign size).toNat) :: x.live⟩, some p)

/-- `rt_realloc` -/
def rtRealloc (rmem : Option Nat) (newsize : BitVec 32) (x : HeapSystem) :
    Option (HeapSystem × Option Nat) :=
  (rtSmemRealloc rmem newsize x.mem).map fun
    | (m, none) => (⟨m, if rtAlign newsize = 0 then drop rmem x.live else x.live⟩, none)
    | (m, some p) => (⟨m, (p, (rtAlign newsize).toNat) :: drop rmem x.live⟩, some p)

/-- `rt_free` -/
def rtFree (rmem : Option Nat) (x : HeapSystem) : Option (HeapSystem × Option Nat) :=
  (rtSmemFree rmem x.mem).map fun m => (⟨m, drop rmem x.live⟩, none)

/-- one call, and the pointer that it returns; `none`: an assertion fails or a loop does not end -/
def exec (x : HeapSystem) : HeapCall → Option (HeapSystem × Option Nat)
  | .malloc size => x.rtMalloc size
  | .realloc rmem newsize => x.rtRealloc rmem newsize
  | .free rmem => x.rtFree rmem
  | .store q v => some (⟨x.mem.set q v, x.live⟩, none)

def step (x : HeapSystem) (c : HeapCall) : HeapSystem :=
  if x.Allowed c then ((x.exec c).map Prod.fst).getD x else x

end HeapSystem

/-- **a run**: the heap after the calls `l` -/
def heapRun (m : SmallMem) (l : List HeapCall) : HeapSystem := Runs.run HeapSystem.step ⟨m, []⟩ l

/-- the call is not about the block `b` -/
def HeapCall.Spares (b : Nat × Nat) : HeapCall → Prop
  | .malloc _ => True
  | .realloc rmem _ => rmem ≠ some b.1
  | .free rmem => rmem ≠ some b.1
  | .store q _ => q < b.1 ∨ b.1 + b.2 ≤ q

/-! ## one call -/

namespace HeapSystem

/-- the blocks that have been handed out are the segments in use -/
structure Sound (x : HeapSystem) (l : List (Seg Nat)) : Prop where
  mem : x.mem.Sound l
  live : x.live.Perm (blocks 12 0 l)

/-- the blocks that the call `c` is not about are still there, with what they contain -/
def Keeps (x y : HeapSystem) (c : HeapCall) : Prop :=
  ∀ b ∈ x.live, c.Spares b → b ∈ y.live ∧ ∀ q, b.1 ≤ q → q < b.1 + b.2 →
    y.mem.heap q = x.mem.heap q

variable {x y : HeapSystem} {m : SmallMem} {l l' : List (Seg Nat)} {b : Nat × Nat} {c : HeapCall}

theorem Sound.pointers (h : x.Sound l) : (x.live.map Prod.fst).Nodup :=
  (h.live.map Prod.fst).nodup_iff.mpr h.mem.holds.pointers

theorem drop_none (live : List (Nat × Nat)) : drop none live = live :=
  List.filter_eq_self.mpr fun _ _ => rfl

/-- the other blocks, if `b` is one -/
theorem Sound.drop_perm (h : x.Sound l) {k : List (Nat × Nat)}
    (hk : (blocks 12 0 l).Perm (b :: k)) : (drop (some b.1) x.live).Perm k := by
  have hperm := h.live.trans hk
  have hnodup := (hperm.map Prod.fst).nodup_iff.mp h.pointers
  have hk' : drop (some b.1) (b :: k) = k := by
    have hself : drop (some b.1) (b :: k) = drop (some b.1) k :=
      List.filter_cons_of_neg (by simp)
    rw [hself]
    refine List.filter_eq_self.mpr fun z hz => decide_eq_true fun he => ?_
    exact (List.nodup_cons.mp hnodup).1 (Option.some.inj he ▸ List.mem_map_of_mem hz)
  have hfilter := hperm.filter fun z => decide (some z.1 ≠ some b.1)
  exact hfilter.trans (List.Perm.of_eq hk')

/-- nothing has happened -/
theorem keeps_refl (x : HeapSystem) (c : HeapCall) : x.Keeps x c := fun _ hb _ =>
  ⟨hb, fun _ _ _ => rfl⟩

theorem Sound.handed (h : x.Sound l) (hm : x.mem.Handed l b m l') :
    Sound ⟨m, b :: x.live⟩ l' ∧ x.Keeps ⟨m, b :: x.live⟩ c := by
  refine ⟨⟨hm.sound, (h.live.cons b).trans hm.blocks.symm⟩, fun z hz _ => ?_⟩
  refine ⟨List.mem_cons_of_mem b hz, fun q h₁ h₂ => hm.heap q ?_⟩
  exact h.mem.holds.covers (h.live.mem_iff.mp hz) h₁ h₂

theorem Sound.freed (h : x.Sound l) (hm : x.mem.Freed l b m l') (hc : ∀ z, c.Spares z → z.1 ≠ b.1) :
    Sound ⟨m, drop (some b.1) x.live⟩ l' ∧ x.Keeps ⟨m, drop (some b.1) x.live⟩ c := by
  have hdrop := h.drop_perm hm.blocks
  refine ⟨⟨hm.sound, hdrop⟩, fun z hz hz' => ?_⟩
  have hin : z ∈ drop (some b.1) x.live :=
    List.mem_filter.mpr ⟨hz, decide_eq_true fun he => hc z hz' (Option.some.inj he)⟩
  refine ⟨hin, fun q h₁ h₂ => hm.heap q ?_⟩
  exact hm.sound.holds.covers (hdrop.mem_iff.mp hin) h₁ h₂

theorem Sound.moved (h : x.Sound l) {b' : Nat × Nat} (hm : x.mem.Moved l b b' m l')
    (hc : ∀ z, c.Spares z → z.1 ≠ b.1) :
    Sound ⟨m, b' :: drop (some b.1) x.live⟩ l' ∧
      x.Keeps ⟨m, b' :: drop (some b.1) x.live⟩ c := by
  obtain ⟨k, hk, hk'⟩ := hm.blocks
  refine ⟨⟨hm.sound, ((h.drop_perm hk).cons b').trans hk'.symm⟩, fun z hz hz' => ?_⟩
  have hne := hc z hz'
  refine ⟨List.mem_cons_of_mem b' (List.mem_filter.mpr ⟨hz, decide_eq_true fun he =>
    hne (Option.some.inj he)⟩), ?_⟩
  exact hm.heap z (h.live.mem_iff.mp hz) hne

theorem Sound.block (h : x.Sound l) {r : Nat} (hr : r ∈ x.live.map Prod.fst) :
    ∃ n, (r, n) ∈ x.live ∧ (r, n) ∈ blocks 12 0 l := by
  obtain ⟨b, hb, rfl⟩ := List.mem_map.mp hr
  exact ⟨b.2, hb, h.live.mem_iff.mp hb⟩

theorem Sound.malloc (h : x.Sound l) (size : BitVec 32) : ∃ y l',
    x.rtMalloc size = some (y, if size = 0 then none else
      (fitAt (allocSize size + 12) 0 l).map (· + 12)) ∧
    y.Sound l' ∧ x.mem.Alike y.mem ∧ ∀ c, x.Keeps y c := by
  unfold rtMalloc
  rcases h.mem.alloc size with ⟨hno, he⟩ | ⟨a, m', l', h₀, hf, he, hm⟩
  · refine ⟨x, l, ?_, h, .refl _, x.keeps_refl⟩
    rw [he]
    by_cases h₀ : size = 0
    · rw [if_pos h₀]
      rfl
    · rw [if_neg h₀, hno.resolve_left h₀]
      rfl
  · refine ⟨⟨m', (a + 12, (rtAlign size).toNat) :: x.live⟩, l', ?_,
      (h.handed hm (c := .malloc 0)).1, hm.alike, fun c => (h.handed hm).2⟩
    rw [he, if_neg h₀, hf]
    rfl

theorem Sound.release (h : x.Sound l) {r : Nat} (hr : r ∈ x.live.map Prod.fst) : ∃ y l',
    x.rtFree (some r) = some (y, none) ∧ y.Sound l' ∧ x.mem.Alike y.mem ∧
      x.Keeps y (.free (some r)) := by
  obtain ⟨n, -, hb⟩ := h.block hr
  obtain ⟨m', l', he, hm⟩ := h.mem.free hb
  obtain ⟨hs, hk⟩ := h.freed hm (c := .free (some r)) fun z hz he' => hz (congrArg some he'.symm)
  refine ⟨_, l', ?_, hs, hm.alike, hk⟩
  unfold rtFree
  dsimp only at he
  rw [he]
  rfl

/-- a block that gets another size: it is given back, nothing happens, or it is there with the new
size and the front of what it contained -/
theorem Sound.resize (h : x.Sound l) {r n : Nat} (hr : (r, n) ∈ x.live) (newsize : BitVec 32) :
    ∃ y p l', x.rtRealloc (some r) newsize = some (y, p) ∧ y.Sound l' ∧ x.mem.Alike y.mem ∧
      x.Keeps y (.realloc (some r) newsize) ∧
      (rtAlign newsize = 0 → p = none ∧ y.live = drop (some r) x.live) ∧
      (rtAlign newsize ≠ 0 → p = none → y = x) ∧
      ∀ q, p = some q → (q, (rtAlign newsize).toNat) ∈ y.live ∧
        ∀ i < Nat.min n (rtAlign newsize).toNat, y.mem.heap (q + i) = x.mem.heap (r + i) := by
  have hspares : ∀ z : Nat × Nat, HeapCall.Spares z (.realloc (some r) newsize) → z.1 ≠ (r, n).1 :=
    fun z hz he => hz (congrArg some he.symm)
  unfold rtRealloc
  rcases h.mem.realloc (h.live.mem_iff.mp hr) newsize with ⟨h₀, m', l', he, hm⟩ | ⟨h₀, he⟩ |
    ⟨h₀, p, m', l', he, hm⟩
  · obtain ⟨hs, hk⟩ := h.freed hm hspares
    refine ⟨_, none, l', ?_, hs, hm.alike, hk, fun _ => ⟨rfl, rfl⟩, fun hne => absurd h₀ hne,
      nofun⟩
    dsimp only at he
    rw [he, Option.map_some, if_pos h₀]
  · refine ⟨x, none, l, ?_, h, .refl _, x.keeps_refl _, fun he => absurd he h₀,
      fun _ _ => rfl, nofun⟩
    dsimp only at he
    rw [he, Option.map_some, if_neg h₀]
  · obtain ⟨hs, hk⟩ := h.moved hm hspares
    refine ⟨_, some p, l', ?_, hs, hm.alike, hk, fun he => absurd he h₀, nofun, fun q hq => ?_⟩
    · dsimp only at he
      rw [he, Option.map_some]
    · obtain rfl := Option.some.inj hq
      exact ⟨List.mem_cons_self, hm.front⟩

/-- `rt_realloc` without a block is `rt_malloc` -/
theorem Sound.realloc_none (h : x.Sound l) (newsize : BitVec 32) : ∃ y p l',
    x.rtRealloc none newsize = some (y, p) ∧ y.Sound l' ∧ x.mem.Alike y.mem ∧ ∀ c, x.Keeps y c := by
  have hsame : rtSmemRealloc none newsize x.mem = some (x.mem, none) →
      x.rtRealloc none newsize = some (x, none) := by
    intro he
    unfold rtRealloc
    rw [he, Option.map_some, drop_none, ite_self]
  by_cases hbig : x.mem.memSizeAligned < (rtAlign newsize).toNat
  · exact ⟨x, none, l, hsame (if_pos hbig), h, .refl _, x.keeps_refl⟩
  by_cases h₀ : rtAlign newsize = 0
  · exact ⟨x, none, l, hsame ((if_neg hbig).trans (if_pos h₀)), h, .refl _, x.keeps_refl⟩
  have hcall : rtSmemRealloc none newsize x.mem = rtSmemAlloc (rtAlign newsize) x.mem :=
    (if_neg hbig).trans (if_neg h₀)
  rcases h.mem.alloc (rtAlign newsize) with ⟨-, he⟩ | ⟨a, m', l', -, -, he, hm⟩
  · exact ⟨x, none, l, hsame (hcall.trans he), h, .refl _, x.keeps_refl⟩
  · rw [SmallMem.rtAlign_idem] at hm
    refine ⟨_, some (a + 12), l', ?_, (h.handed hm (c := .malloc 0)).1, hm.alike,
      fun c => (h.handed hm).2⟩
    unfold rtRealloc
    rw [hcall, he, Option.map_some, drop_none]

/-- **every call that is allowed gets through** -/
theorem Sound.exec (h : x.Sound l) (ha : x.Allowed c) : ∃ y r l', x.exec c = some (y, r) ∧
    y.Sound l' ∧ x.mem.Alike y.mem ∧ x.Keeps y c := by
  cases c with
  | malloc size =>
    obtain ⟨y, l', he, hs, halike, hk⟩ := h.malloc size
    exact ⟨y, _, l', he, hs, halike, hk _⟩
  | free rmem =>
    cases rmem with
    | none =>
      refine ⟨x, none, l, ?_, h, .refl _, x.keeps_refl _⟩
      show some (HeapSystem.mk x.mem (drop none x.live), _) = _
      rw [drop_none]
    | some r =>
      obtain ⟨y, l', he, hs⟩ := h.release (ha r rfl)
      exact ⟨y, none, l', he, hs⟩
  | realloc rmem newsize =>
    cases rmem with
    | none =>
      obtain ⟨y, p, l', he, hs, halike, hk⟩ := h.realloc_none newsize
      exact ⟨y, p, l', he, hs, halike, hk _⟩
    | some r =>
      obtain ⟨n, hr, -⟩ := h.block (ha r rfl)
      obtain ⟨y, p, l', he, hs, halike, hk, -⟩ := h.resize hr newsize
      exact ⟨y, p, l', he, hs, halike, hk⟩
  | store q v =>
    obtain ⟨-, b, hb, h₁, h₂⟩ := ha
    have hw := h.mem.write (h.live.mem_iff.mp hb) (w := Function.update x.mem.heap q v)
      fun r hr => Function.update_of_ne (by omega) _ _
    refine ⟨_, none, l, rfl, ⟨hw, h.live⟩, ⟨rfl, rfl, rfl⟩, fun z hz hz' => ⟨hz, fun r h₁ h₂ => ?_⟩⟩
    have hne : q < z.1 ∨ z.1 + z.2 ≤ q := hz'
    exact SmallMem.set_ne (by omega) v x.mem

/-- **step**: a call that is not allowed does not happen -/
theorem Sound.step (h : x.Sound l) (c : HeapCall) :
    ∃ l', (x.step c).Sound l' ∧ x.mem.Alike (x.step c).mem ∧ x.Keeps (x.step c) c := by
  unfold HeapSystem.step
  by_cases ha : x.Allowed c
  · obtain ⟨y, r, l', he, hs, halike, hk⟩ := h.exec ha
    rw [if_pos ha, he]
    exact ⟨l', hs, halike, hk⟩
  · rw [if_neg ha]
    exact ⟨l, h, .refl _, x.keeps_refl c⟩

end HeapSystem

/-! ## runs of the board's heap -/

section board

variable {heap : Nat → BitVec 32} {beginAddr : BitVec 32} {m : SmallMem}

/-- **run** -/
theorem heapRun_sound (h₀ : beginAddr ≠ 0) (hle : beginAddr ≤ heapEndAddr)
    (hm : rtSystemHeapInit heap beginAddr heapEndAddr = some m) (l : List HeapCall) :
    ∃ k, (heapRun m l).Sound k ∧ m.Alike (heapRun m l).mem := by
  have hinit : (HeapSystem.mk m []).Sound [⟨m.heapEnd, none⟩] :=
    ⟨SmallMem.init_sound h₀ hle hm, List.Perm.refl _⟩
  have hstep : ∀ (x : HeapSystem) (c : HeapCall), (∃ k, x.Sound k ∧ m.Alike x.mem) →
      ∃ k, (x.step c).Sound k ∧ m.Alike (x.step c).mem := by
    rintro x c ⟨k, hx, ha⟩
    obtain ⟨k', hx', ha', -⟩ := hx.step c
    exact ⟨k', hx', ha.trans ha'⟩
  exact Runs.run_inv hstep ⟨_, hinit, .refl m⟩ l

/-- **No call of the heap fails an assertion or goes on forever**, and the blocks that have been
handed out are aligned, inside the heap and apart from each other, with an item in front of each.
`used` covers them all and is never above `max`. -/
theorem heap_sound (h₀ : beginAddr ≠ 0) (hle : beginAddr ≤ heapEndAddr)
    (hm : rtSystemHeapInit heap beginAddr heapEndAddr = some m) (l : List HeapCall) :
    let x := heapRun m l
    (∀ c, x.Allowed c → (x.exec c).isSome = true) ∧
      (∀ b ∈ x.live, b.1 % 4 = 0 ∧ 12 ≤ b.1 ∧ b.1 + b.2 ≤ m.heapEnd) ∧
      x.live.Pairwise SmallMem.Apart ∧
      (x.live.map fun b => b.2 + 12).sum ≤ x.mem.used ∧ x.mem.used ≤ x.mem.max ∧
      x.mem.max ≤ m.heapEnd := by
  intro x
  obtain ⟨k, hx, ha⟩ := heapRun_sound h₀ hle hm l
  have hholds := hx.mem.holds
  refine ⟨fun c hc => ?_, fun b hb => ?_, ?_, ?_, hx.mem.le_max, ?_⟩
  · obtain ⟨y, r, -, he, -⟩ := hx.exec hc
    exact Option.isSome_of_eq_some he
  · have hb' := hx.live.mem_iff.mp hb
    have hbound : 0 + 12 ≤ b.1 ∧ b.1 + id b.2 ≤ 0 + total k := blocks_bound hholds.fits hb'
    obtain ⟨k₁, s, k₂, rfl, hp, -⟩ := blocks_split hb'
    have hstart : total k₁ % 4 = 0 := hholds.start_mod
    have htotal := hholds.total_eq
    rw [← ha.heapEnd]
    refine ⟨by omega, by omega, ?_⟩
    rw [htotal, Nat.zero_add, Nat.zero_add] at hbound
    exact hbound.2
  · exact hholds.pairwise.perm hx.live.symm Or.symm
  · have hsum : ((blocks 12 0 k).map fun b => id b.2 + 12).sum ≤ inUse k :=
      sum_blocks_le hholds.fits
    rw [hx.mem.used, (hx.live.map fun b : Nat × Nat => b.2 + 12).sum_nat]
    exact hsum
  · rw [← ha.heapEnd]
    exact hx.mem.max_le

theorem heap_sound_two : ∃ m, rtSystemHeapInit (fun _ => 0) 0x20026f00 heapEndAddr = some m ∧
    (heapRun m [.malloc 20, .malloc 8]).live.Pairwise SmallMem.Apart := by
  obtain ⟨m, hm⟩ : ∃ m, rtSystemHeapInit (fun _ => 0) 0x20026f00 heapEndAddr = some m :=
    Option.isSome_iff_exists.mp (by decide +kernel)
  exact ⟨m, hm, (heap_sound (by decide) (by decide) hm _).2.2.1⟩

/-- **`rt_malloc` is first fit**: the memory stands for a row of segments without free neighbours,
those in use are the blocks that have been handed out, and the first free one that is long enough is
taken; `NULL` says that there is none.  What is looked for is at least `size`, up to the sizes at
which `RT_ALIGN` wraps to `0`. -/
theorem heap_first_fit (h₀ : beginAddr ≠ 0) (hle : beginAddr ≤ heapEndAddr)
    (hm : rtSystemHeapInit heap beginAddr heapEndAddr = some m) (l : List HeapCall) :
    let x := heapRun m l
    ∃ k, x.mem.Holds k ∧ Tight k ∧ x.live.Perm (blocks 12 0 k) ∧ x.mem.used = inUse k ∧
      ∀ size, size ≠ 0 → (size ≤ 0xfffffffc → size.toNat ≤ allocSize size) ∧
        ∃ y, x.exec (.malloc size) =
          some (y, (fitAt (allocSize size + 12) 0 k).map (· + 12)) := by
  intro x
  obtain ⟨k, hx, -⟩ := heapRun_sound h₀ hle hm l
  refine ⟨k, hx.mem.holds, hx.mem.tight, hx.live, hx.mem.used, fun size hsize => ?_⟩
  refine ⟨SmallMem.size_le_allocSize, ?_⟩
  obtain ⟨y, -, he, -⟩ := hx.malloc size
  rw [if_neg hsize] at he
  exact ⟨y, he⟩

theorem heap_first_fit_two : ∃ m, rtSystemHeapInit (fun _ => 0) 0x20026f00 heapEndAddr = some m ∧
    ∃ k, (heapRun m [.malloc 20, .malloc 8, .free (some 12)]).mem.Holds k ∧ Tight k ∧
      8 ≤ allocSize 8 ∧ ∃ y, (heapRun m [.malloc 20, .malloc 8, .free (some 12)]).exec (.malloc 8) =
        some (y, (fitAt (allocSize 8 + 12) 0 k).map (· + 12)) := by
  obtain ⟨m, hm⟩ : ∃ m, rtSystemHeapInit (fun _ => 0) 0x20026f00 heapEndAddr = some m :=
    Option.isSome_iff_exists.mp (by decide +kernel)
  obtain ⟨k, hk, ht, -, -, hfit⟩ := heap_first_fit (by decide) (by decide) hm
    [.malloc 20, .malloc 8, .free (some 12)]
  obtain ⟨hsize, y, hy⟩ := hfit 8 (by decide)
  exact ⟨m, hm, k, hk, ht, hsize (by decide), y, hy⟩

/-- **Nothing is lost.**  Once every block has been given back the heap is one free item again:
nothing is in use, and every size other than `0` and up to that of the heap has room. -/
theorem heap_restored (h₀ : beginAddr ≠ 0) (hle : beginAddr ≤ heapEndAddr)
    (hm : rtSystemHeapInit heap beginAddr heapEndAddr = some m) (l : List HeapCall) :
    let x := heapRun m l
    x.live = [] → x.mem.Holds [⟨m.heapEnd, none⟩] ∧ x.mem.used = 0 ∧ x.mem.lfree = 0 ∧
      ∀ size, size ≠ 0 → allocSize size ≤ m.memSizeAligned →
        ∃ y, x.exec (.malloc size) = some (y, some 12) := by
  intro x hlive
  obtain ⟨k, hx, ha⟩ := heapRun_sound h₀ hle hm l
  have hblocks : blocks 12 0 k = [] := by
    have hperm := hx.live
    rw [show (heapRun m l).live = [] from hlive] at hperm
    exact List.nil_perm.mp hperm
  have hfree := allFree_of_blocks hblocks
  have hone : k = [⟨m.heapEnd, none⟩] := by
    have hlen := hx.mem.tight.allFree hfree
    have htotal := hx.mem.holds.total_eq
    have hsize := hx.mem.holds.size_eq
    rw [ha.heapEnd] at htotal hsize
    match k, hlen with
    | [], _ =>
      have hzero : 0 = m.heapEnd := htotal
      omega
    | [s], _ =>
      have hlen' : s.len + 0 = m.heapEnd := htotal
      rw [← hlen', ← hfree s (List.mem_singleton.mpr rfl)]
      rfl
  obtain rfl := hone
  refine ⟨hx.mem.holds, hx.mem.used, hx.mem.lfree, fun size hsize hfit => ?_⟩
  have hend := hx.mem.holds.size_eq
  rw [ha.heapEnd, ha.memSizeAligned] at hend
  obtain ⟨y, -, he, -⟩ := hx.malloc size
  have hfirst : fitAt (allocSize size + 12) 0 [(⟨m.heapEnd, none⟩ : Seg Nat)] = some 0 :=
    if_pos ⟨rfl, by show allocSize size + 12 ≤ m.heapEnd; omega⟩
  rw [if_neg hsize, hfirst] at he
  exact ⟨y, he⟩

theorem heap_restored_two : ∃ m, rtSystemHeapInit (fun _ => 0) 0x20026f00 heapEndAddr = some m ∧
    (heapRun m [.malloc 20, .malloc 8, .free (some 12), .free (some 44)]).mem.used = 0 := by
  have hm : rtSystemHeapInit (fun _ => 0) 0x20026f00 heapEndAddr =
      some ((rtSystemHeapInit (fun _ => 0) 0x20026f00 heapEndAddr).get (by decide +kernel)) :=
    (Option.some_get _).symm
  exact ⟨_, hm, (heap_restored (by decide) (by decide) hm _ (by decide +kernel)).2.1⟩

/-- **What a block contains stays there** through all calls that are not about this block. -/
theorem heap_keeps (h₀ : beginAddr ≠ 0) (hle : beginAddr ≤ heapEndAddr)
    (hm : rtSystemHeapInit heap beginAddr heapEndAddr = some m) (l l' : List HeapCall)
    (b : Nat × Nat) (hb : b ∈ (heapRun m l).live) (hl : ∀ c ∈ l', c.Spares b) :
    b ∈ (heapRun m (l ++ l')).live ∧ ∀ q, b.1 ≤ q → q < b.1 + b.2 →
      (heapRun m (l ++ l')).mem.heap q = (heapRun m l).mem.heap q := by
  induction l' using List.reverseRecOn with
  | nil =>
    rw [List.append_nil]
    exact ⟨hb, fun _ _ _ => rfl⟩
  | append_singleton l' c ih =>
    obtain ⟨hin, hsame⟩ := ih fun c hc => hl c (List.mem_append_left _ hc)
    obtain ⟨k, hx, -⟩ := heapRun_sound h₀ hle hm (l ++ l')
    obtain ⟨-, -, -, hk⟩ := hx.step c
    have hlast : heapRun m (l ++ (l' ++ [c])) = (heapRun m (l ++ l')).step c := by
      rw [← List.append_assoc]
      exact Runs.run_snoc _ _ _ c
    obtain ⟨hin', hsame'⟩ := hk b hin (hl c (List.mem_append_right _ (List.mem_singleton.mpr rfl)))
    rw [hlast]
    exact ⟨hin', fun q h₁ h₂ => (hsame' q h₁ h₂).trans (hsame q h₁ h₂)⟩

theorem heap_keeps_two : ∃ m, rtSystemHeapInit (fun _ => 0) 0x20026f00 heapEndAddr = some m ∧
    (heapRun m ([.malloc 20, .store 16 7] ++ [.malloc 8, .store 44 1])).mem.heap 16 =
      (heapRun m [.malloc 20, .store 16 7]).mem.heap 16 := by
  have hm : rtSystemHeapInit (fun _ => 0) 0x20026f00 heapEndAddr =
      some ((rtSystemHeapInit (fun _ => 0) 0x20026f00 heapEndAddr).get (by decide +kernel)) :=
    (Option.some_get _).symm
  exact ⟨_, hm, (heap_keeps (by decide) (by decide) hm [.malloc 20, .store 16 7]
    [.malloc 8, .store 44 1] (12, 20) (by decide +kernel) (by simp [HeapCall.Spares])).2 16
    (by decide) (by decide)⟩

/-- **`rt_realloc`** gives the block back if the new size is 0 once it is aligned, and leaves
everything as it is if there is no room; otherwise the front of the block is where it says. -/
theorem heap_realloc (h₀ : beginAddr ≠ 0) (hle : beginAddr ≤ heapEndAddr)
    (hm : rtSystemHeapInit heap beginAddr heapEndAddr = some m) (l : List HeapCall) (r n : Nat)
    (newsize : BitVec 32) :
    let x := heapRun m l
    (r, n) ∈ x.live → ∃ y p, x.exec (.realloc (some r) newsize) = some (y, p) ∧
      (rtAlign newsize = 0 → p = none ∧ y.live = HeapSystem.drop (some r) x.live) ∧
      (rtAlign newsize ≠ 0 → p = none → y = x) ∧
      ∀ q, p = some q → (q, (rtAlign newsize).toNat) ∈ y.live ∧
        ∀ i < Nat.min n (rtAlign newsize).toNat, y.mem.heap (q + i) = x.mem.heap (r + i) := by
  intro x hr
  obtain ⟨k, hx, -⟩ := heapRun_sound h₀ hle hm l
  obtain ⟨y, p, -, he, -, -, -, hres⟩ := hx.resize hr newsize
  exact ⟨y, p, he, hres⟩

theorem heap_realloc_two : ∃ m, rtSystemHeapInit (fun _ => 0) 0x20026f00 heapEndAddr = some m ∧
    ∃ y p, (heapRun m [.malloc 20, .malloc 8]).exec (.realloc (some 12) 40) = some (y, p) ∧
      ∀ q, p = some q → (q, (rtAlign 40).toNat) ∈ y.live := by
  have hm : rtSystemHeapInit (fun _ => 0) 0x20026f00 heapEndAddr =
      some ((rtSystemHeapInit (fun _ => 0) 0x20026f00 heapEndAddr).get (by decide +kernel)) :=
    (Option.some_get _).symm
  obtain ⟨y, p, he, -, -, hp⟩ := heap_realloc (by decide) (by decide) hm [.malloc 20, .malloc 8]
    12 20 40 (by decide +kernel)
  exact ⟨_, hm, y, p, he, fun q hq => (hp q hq).1⟩

end board

end LitterBox
