import LitterBox.Kernel.Items

/-!
# What the small memory algorithm does to the row of items

Between two calls the items stand for a row of segments without free neighbours, and `lfree`, `used`
and `max` agree with it.  Each call gets through, and keeps what the other blocks contain.

* `SmallMem.Sound`   the row of segments and the books about it;
* `SmallMem.Loose`   the same while a free item may have free neighbours;
* `Holds.findFit`, `Holds.findFree`   the two loops are `fitAt` and `firstFree`;
* `Sound.alloc`, `Sound.free`, `Sound.realloc`   what the calls do: `Handed`, `Freed`, `Moved`;
* `init_sound`       the heap of the board begins as one free item.
-/

namespace LitterBox

open Segments

namespace SmallMem

variable {m m' : SmallMem} {q n size : Nat} {s t : Seg Nat} {l l₁ l₂ : List (Seg Nat)}

/-! ## the two searches -/

theorem Holds.pos (h : m.Holds l) : ∀ s ∈ l, 0 < s.len := fun s hs =>
  Nat.lt_of_lt_of_le (by decide) (h.roomy s hs)

theorem Holds.length_le (h : m.Holds (l₁ ++ l₂)) : l₂.length < m.heapEnd + 1 := by
  have ht := h.total_eq
  have hlen := Segments.length_le fun s hs => h.pos s (List.mem_append_right l₁ hs)
  rw [total_append] at ht
  omega

theorem Holds.total_le (h : m.Holds (l₁ ++ l₂)) : total l₁ + total l₂ = m.heapEnd := by
  rw [← h.total_eq, total_append]

theorem Holds.findFit (h : m.Holds (l₁ ++ l₂)) (hsize : size ≤ m.memSizeAligned)
    (hn : l₂.length < n) :
    m.findFit size n (total l₁) = some (fitAt (size + 12) (total l₁) l₂) := by
  induction l₂ generalizing l₁ n with
  | nil =>
    obtain ⟨n, rfl⟩ := Nat.exists_eq_add_one_of_ne_zero (Nat.ne_zero_of_lt hn)
    have hend : total l₁ + 0 = m.heapEnd := h.total_le
    have hs := h.size_eq
    unfold SmallMem.findFit
    rw [if_neg (by omega)]
    rfl
  | cons s l ih =>
    obtain ⟨n, rfl⟩ := Nat.exists_eq_add_one_of_ne_zero (Nat.ne_zero_of_lt hn)
    have hend := h.end_eq
    have hs := h.size_eq
    have hlen := h.roomy_mid.2.1
    unfold SmallMem.findFit
    split
    · rw [h.next_eq, h.isUsed_eq]
      unfold fitAt
      have hiff : (decide (s.tag ≠ none) = false ∧
          size ≤ total l₁ + s.len - (total l₁ + sizeofStructMem)) ↔
          s.tag = none ∧ size + 12 ≤ s.len := by
        unfold sizeofStructMem
        rw [decide_eq_false_iff_not, not_not]
        exact and_congr_right fun _ => by omega
      by_cases hfit : s.tag = none ∧ size + 12 ≤ s.len
      · rw [if_pos (hiff.mpr hfit), if_pos hfit]
      · rw [if_neg fun hc => hfit (hiff.mp hc), if_neg hfit, ← total_snoc]
        exact ih h.shift (Nat.lt_of_succ_lt_succ hn)
    · rw [fitAt_none_of_total]
      show s.len + total l < size + 12
      omega

theorem Holds.findFree (h : m.Holds (l₁ ++ l₂)) (hn : l₂.length < n) :
    m.findFree n (total l₁) = some (firstFree (total l₁) l₂) := by
  induction l₂ generalizing l₁ n with
  | nil =>
    obtain ⟨n, rfl⟩ := Nat.exists_eq_add_one_of_ne_zero (Nat.ne_zero_of_lt hn)
    have hend : total l₁ + 0 = m.heapEnd := h.total_le
    unfold SmallMem.findFree
    rw [if_neg fun hc => hc.2 hend]
    rfl
  | cons s l ih =>
    obtain ⟨n, rfl⟩ := Nat.exists_eq_add_one_of_ne_zero (Nat.ne_zero_of_lt hn)
    have hend := h.end_eq
    have hlen := h.roomy_mid.2.1
    unfold SmallMem.findFree firstFree
    rw [h.next_eq, h.isUsed_eq]
    by_cases hs : s.tag = none
    · have hfree : ¬ (decide (s.tag ≠ none) = true ∧ total l₁ ≠ m.heapEnd) := fun hc =>
        of_decide_eq_true hc.1 hs
      rw [if_pos hs, if_neg hfree]
    · rw [if_neg hs, if_pos ⟨decide_eq_true hs, by omega⟩, ← total_snoc]
      exact ih h.shift (Nat.lt_of_succ_lt_succ hn)

/-- the lowest free item, once the free segment `s` is in use -/
theorem Holds.raise (h : m.Holds (l₁ ++ t :: l₂)) {k : List (Seg Nat)} (hs : s.tag = none)
    (hl : m.lfree = firstFree 0 (l₁ ++ s :: k)) :
    m.raise (total l₁) = some { m with lfree := firstFree 0 (l₁ ++ t :: l₂) } := by
  unfold SmallMem.raise
  by_cases hu : AllUsed l₁
  · have he : m.lfree = total l₁ := by
      rw [hl, firstFree_allUsed hu, Nat.zero_add]
      exact if_pos hs
    rw [if_pos he.symm, he, h.findFree h.length_le, firstFree_allUsed hu, Nat.zero_add]
    rfl
  · have hlow := firstFree_lt (a := 0) (fun s hs => h.pos s (List.mem_append_left _ hs)) hu
    rw [firstFree_append hu] at hl ⊢
    rw [if_neg (by omega), ← hl]

/-! ## the books -/

/-- **what holds between two calls**: the items stand for the segments `l`, and the object knows the
lowest free one, and how much is in use -/
structure Sound (m : SmallMem) (l : List (Seg Nat)) : Prop where
  holds : m.Holds l
  tight : Tight l
  /-- a block in use has room for more than its item -/
  big : ∀ s ∈ l, s.tag ≠ none → 12 < s.len
  lfree : m.lfree = firstFree 0 l
  used : m.used = inUse l
  le_max : m.used ≤ m.max
  max_le : m.max ≤ m.heapEnd

/-- the objects agree on where the heap is -/
structure Alike (m m' : SmallMem) : Prop where
  self : m'.self = m.self
  heapEnd : m'.heapEnd = m.heapEnd
  memSizeAligned : m'.memSizeAligned = m.memSizeAligned

theorem lower_eq (mem : Nat) (m : SmallMem) :
    m.lower mem = { m with lfree := if mem < m.lfree then mem else m.lfree } := by
  unfold lower
  split <;> rfl

/-- a free segment comes in where there was none -/
theorem lower_firstFree {f : Nat} (hpos : ∀ s ∈ l₁, 0 < s.len) (hs : s.tag = none)
    (hu : AllUsed l₁ → total l₁ < f) (hn : ¬ AllUsed l₁ → f = firstFree 0 l₁) :
    (if total l₁ < f then total l₁ else f) = firstFree 0 (l₁ ++ s :: l₂) := by
  by_cases h : AllUsed l₁
  · rw [if_pos (hu h), firstFree_allUsed h, Nat.zero_add]
    exact (if_pos hs).symm
  · have hlow := firstFree_lt (a := 0) hpos h
    rw [hn h, firstFree_append h, if_neg (by omega)]

/-- the lowest free item is not in front of the end of a segment in use, or it is before it -/
theorem Sound.lfree_used (h : m.Sound (l₁ ++ s :: l₂)) (hs : s.tag ≠ none) :
    (AllUsed l₁ → total l₁ + s.len ≤ m.lfree) ∧ (¬ AllUsed l₁ → m.lfree = firstFree 0 l₁) := by
  rw [h.lfree]
  refine ⟨fun hu => ?_, fun hu => firstFree_append hu⟩
  rw [firstFree_allUsed hu, Nat.zero_add]
  unfold firstFree
  rw [if_neg hs]
  exact firstFree_le.1

theorem Alike.refl (m : SmallMem) : m.Alike m := ⟨rfl, rfl, rfl⟩

theorem Alike.trans {m'' : SmallMem} (h₁ : m.Alike m') (h₂ : m'.Alike m'') : m.Alike m'' :=
  ⟨h₂.self.trans h₁.self, h₂.heapEnd.trans h₁.heapEnd, h₂.memSizeAligned.trans h₁.memSizeAligned⟩

/-! ## `rt_smem_alloc` -/

/-- the segment `s`, once `n` bytes of it have been handed out, `size` with the padding -/
def taken (size n : Nat) (s : Seg Nat) : List (Seg Nat) :=
  if size + 36 ≤ s.len then [⟨size + 12, some n⟩, ⟨s.len - (size + 12), none⟩]
  else [⟨s.len, some n⟩]

/-- the item is divided, if it is long enough -/
theorem Holds.carve (h : m.Holds (l₁ ++ s :: l₂)) (hs : s.tag = none) (h4 : size % 4 = 0)
    (hfit : size + 12 ≤ s.len) : ∃ w len k, taken size n s = ⟨len, some n⟩ :: k ∧ AllFree k ∧
      size + 12 ≤ len ∧ len + total k = s.len ∧ (Tight (s :: l₂) → Tight (k ++ l₂)) ∧
      (if size + sizeofStructMem + minSizeAligned ≤ m.next (total l₁) - (total l₁ + sizeofStructMem)
        then (m.split (total l₁) (total l₁ + sizeofStructMem + size)).addUsed
          (size + sizeofStructMem)
        else m.addUsed (m.next (total l₁) - total l₁)) =
        { m with heap := w, used := m.used + len, max := Nat.max m.max (m.used + len) } ∧
      Holds { m with heap := w } (l₁ ++ ⟨len, none⟩ :: (k ++ l₂)) ∧
      ∀ q, Covers 12 0 (l₁ ++ s :: l₂) q → w q = m.heap q := by
  have hstart : total l₁ % 4 = 0 := h.start_mod
  have hend := h.end_eq
  rw [h.next_eq]
  unfold taken sizeofStructMem minSizeAligned
  by_cases hbig : size + 36 ≤ s.len
  · have hb : total l₁ + 12 + size - total l₁ = size + 12 := by omega
    have hc : total l₁ + s.len - (total l₁ + 12 + size) = s.len - (size + 12) := by omega
    have hsplit := h.split (b := total l₁ + 12 + size) (by omega) (by omega) (by omega)
      (by rw [hs]; nofun)
    rw [hb, hc, hs, split_eta] at hsplit
    refine ⟨_, size + 12, [⟨s.len - (size + 12), none⟩], if_pos hbig,
      fun t ht => List.mem_singleton.mp ht ▸ rfl, Nat.le_refl _, ?_, fun ht => ?_, ?_, hsplit,
      fun q hq => ?_⟩
    · show size + 12 + (s.len - (size + 12) + 0) = s.len
      omega
    · obtain ⟨hh, ht⟩ := List.isChain_cons.mp ht
      exact List.isChain_cons.mpr ⟨fun t ht' _ => hh t ht' hs, ht⟩
    · rw [if_pos (by omega), split_eta]
      rfl
    · have hgap := covers_free hq hs
      exact h.split_heap (by omega) (by omega) rfl (by omega) (by omega) (by omega)
  · refine ⟨m.heap, s.len, [], if_neg hbig, nofun, hfit, Nat.add_zero _,
      fun ht => (List.isChain_cons.mp ht).2, ?_, ?_, fun _ _ => rfl⟩
    · rw [if_neg (by omega), Nat.add_sub_cancel_left]
      rfl
    · rw [← hs]
      exact h

/-- **an item is handed out** -/
theorem Sound.allocAt (h : m.Sound (l₁ ++ s :: l₂)) (hs : s.tag = none) (h4 : size % 4 = 0)
    (hpos : 0 < size) (hfit : size + 12 ≤ s.len) (hn : n ≤ size) :
    ∃ m', m.allocAt (total l₁) size = some m' ∧ m'.Sound (l₁ ++ (taken size n s ++ l₂)) ∧
      m.Alike m' ∧ ∀ q, Covers 12 0 (l₁ ++ s :: l₂) q → m'.heap q = m.heap q := by
  obtain ⟨w, len, k, htaken, hk, hlen, htotal, htight, he, hw, hheap⟩ :=
    h.holds.carve (n := n) hs h4 hfit
  have hstart : total l₁ % 4 = 0 := h.holds.start_mod
  have hend := h.holds.end_eq
  obtain ⟨ht₁, ht₂, hl⟩ := tight_mid.mp h.tight
  have hs₂ : Tight (s :: l₂) := (List.isChain_append.mp h.tight).2.1
  rw [htaken]
  -- the pool of the item, and the lowest free item
  let m₁ : SmallMem :=
    { m with heap := w, used := m.used + len, max := Nat.max m.max (m.used + len) }
  have h₁ : m₁.Holds (l₁ ++ ⟨len, none⟩ :: (k ++ l₂)) := hw.of_eq rfl rfl rfl rfl
  have hnlen : n + 12 ≤ len := by omega
  have huse := h₁.retag (some n) fun _ e => Option.some.inj e ▸ hnlen
  rw [if_neg (Option.some_ne_none n)] at huse
  have hraise := huse.raise (s := s) (k := l₂) hs h.lfree
  have hused : m.used + len = inUse (l₁ ++ ⟨len, some n⟩ :: (k ++ l₂)) := by
    rw [h.used, inUse_append, inUse_append]
    show inUse l₁ + ((if s.tag = none then 0 else s.len) + inUse l₂) + len =
      inUse l₁ + (len + inUse (k ++ l₂))
    rw [if_pos hs, inUse_append, hk.inUse]
    omega
  have hle : m.used + len ≤ m.heapEnd := by
    rw [hused]
    exact Nat.le_trans inUse_le (Nat.le_of_eq huse.total_eq)
  refine ⟨{ m₁.setPool (total l₁) m₁.memUsed with
    lfree := firstFree 0 (l₁ ++ ⟨len, some n⟩ :: (k ++ l₂)) }, ?_, ?_, ⟨rfl, rfl, rfl⟩,
    fun q hq => ?_⟩
  · unfold SmallMem.allocAt
    rw [he]
    show ((m₁.setPool (total l₁) m₁.memUsed).raise (total l₁)).bind _ = _
    rw [hraise]
    refine if_pos ⟨?_, ?_⟩
    · show total l₁ + 12 + size ≤ m.heapEnd
      omega
    · show (total l₁ + 12) % 4 = 0
      omega
  · refine ⟨huse.of_eq rfl rfl rfl rfl, tight_mid.mpr ⟨ht₁, htight hs₂, nofun⟩, ?_, rfl, hused,
      Nat.le_max_right _ _, Nat.max_le.mpr ⟨h.max_le, hle⟩⟩
    refine forall_replace (j := [s]) (k := ⟨len, some n⟩ :: k) h.big fun t ht ht' => ?_
    rcases List.mem_cons.mp ht with rfl | ht
    · show 12 < len
      omega
    · exact absurd (hk t ht) ht'
  · have hgap := covers_free hq hs
    exact (set_ne (by omega) _ m₁).trans (hheap q hq)

theorem alignDown_toNat (y : BitVec 32) : (y &&& ~~~(3 : BitVec 32)).toNat = y.toNat / 4 * 4 := by
  have hshift : y &&& ~~~(3 : BitVec 32) = (y >>> 2) <<< 2 := by
    refine BitVec.eq_of_getLsbD_eq fun i hi => ?_
    have hthree : ∀ i < 32, (~~~(3 : BitVec 32)).getLsbD i = decide (2 ≤ i) := by decide
    rw [BitVec.getLsbD_and, hthree i hi, BitVec.getLsbD_shiftLeft, BitVec.getLsbD_ushiftRight]
    by_cases h2 : 2 ≤ i
    · rw [decide_eq_true h2, Bool.and_true, decide_eq_true hi, decide_eq_false (Nat.not_lt.mpr h2),
        Nat.add_sub_of_le h2]
      rfl
    · rw [decide_eq_false h2, Bool.and_false, decide_eq_true (Nat.lt_of_not_le h2)]
      simp
  have hlt := y.isLt
  rw [hshift, BitVec.toNat_shiftLeft, BitVec.toNat_ushiftRight, Nat.shiftRight_eq_div_pow,
    Nat.shiftLeft_eq]
  exact Nat.mod_eq_of_lt (by omega)

theorem rtAlign_toNat (size : BitVec 32) :
    (rtAlign size).toNat = (size.toNat + 3) % 2 ^ 32 / 4 * 4 := by
  unfold rtAlign
  rw [alignDown_toNat, BitVec.toNat_add]
  rfl

theorem rtAlign_idem (size : BitVec 32) : rtAlign (rtAlign size) = rtAlign size := by
  have h := rtAlign_toNat size
  refine BitVec.eq_of_toNat_eq ?_
  rw [rtAlign_toNat (rtAlign size)]
  omega

theorem rtAlign_mod (size : BitVec 32) : (rtAlign size).toNat % 4 = 0 := by
  rw [rtAlign_toNat]
  exact Nat.mul_mod_left _ _

theorem allocSize_mod (size : BitVec 32) : allocSize size % 4 = 0 := by
  have h := rtAlign_mod size
  unfold allocSize minSizeAligned
  rcases Nat.le_total (rtAlign size).toNat 12 with hle | hle
  · exact congrArg (· % 4) (Nat.max_eq_right hle)
  · exact (congrArg (· % 4) (Nat.max_eq_left hle)).trans h

theorem le_allocSize (size : BitVec 32) : (rtAlign size).toNat ≤ allocSize size ∧
    12 ≤ allocSize size := ⟨Nat.le_max_left _ _, Nat.le_max_right _ _⟩

/-- up to the sizes at which `RT_ALIGN` wraps to `0` -/
theorem size_le_allocSize {size : BitVec 32} (h : size ≤ 0xfffffffc) :
    size.toNat ≤ allocSize size := by
  have hle : size.toNat ≤ 0xfffffffc := h
  have halign := rtAlign_toNat size
  refine Nat.le_trans ?_ (le_allocSize size).1
  omega

/-- the words of a block are its own -/
theorem Holds.covers (h : m.Holds l) {x : Nat × Nat} (hx : x ∈ blocks 12 0 l) (h₁ : x.1 ≤ q)
    (h₂ : q < x.1 + x.2) : Covers 12 0 l q := by
  obtain ⟨l₁, s, l₂, rfl, hp, ht⟩ := blocks_split hx
  have hfit := h.fits s (List.mem_append_right _ List.mem_cons_self) x.2 ht
  refine covers_mid (fun hn => ?_) (by omega) (by omega)
  rw [hn] at ht
  cases ht

/-- the blocks in front of the segment `s`, its own, and those behind it -/
theorem blocks_perm (hs : s.tag = some n) : (blocks 12 0 (l₁ ++ s :: l₂)).Perm
    ((total l₁ + 12, n) :: (blocks 12 0 l₁ ++ blocks 12 (total l₁ + s.len) l₂)) := by
  rw [← Nat.zero_add (total l₁)]
  exact blocks_used_perm hs

/-- the block `x` is handed out; what the others contain stays there -/
structure Handed (m : SmallMem) (l : List (Seg Nat)) (x : Nat × Nat) (m' : SmallMem)
    (l' : List (Seg Nat)) : Prop where
  sound : m'.Sound l'
  alike : m.Alike m'
  blocks : (blocks 12 0 l').Perm (x :: blocks 12 0 l)
  heap : ∀ q, Covers 12 0 l q → m'.heap q = m.heap q

theorem blocks_taken (a : Nat) : blocks 12 a (taken size n s) = [(a + 12, n)] := by
  unfold taken
  split <;> rfl

theorem total_taken : total (taken size n s) = s.len := by
  unfold taken
  split
  · show size + 12 + (s.len - (size + 12) + 0) = s.len
    omega
  · rfl

theorem fit_start (h : m.Sound l) (size : Nat) (hsize : size ≤ m.memSizeAligned) :
    m.findFit size (m.heapEnd + 1) m.lfree = some (fitAt (size + 12) 0 l) := by
  obtain ⟨l₁, l₂, rfl, hu, hf⟩ := split_firstFree 0 l
  rw [Nat.zero_add] at hf
  rw [h.lfree, hf, h.holds.findFit hsize h.holds.length_le, fitAt_append_none (fitAt_allUsed hu),
    Nat.zero_add]

/-- **`rt_smem_alloc`**: nothing happens, or the first item that is long enough is handed out -/
theorem Sound.alloc (h : m.Sound l) (size : BitVec 32) :
    (size = 0 ∨ fitAt (allocSize size + 12) 0 l = none) ∧ rtSmemAlloc size m = some (m, none) ∨
    ∃ a m' l', size ≠ 0 ∧ fitAt (allocSize size + 12) 0 l = some a ∧
      rtSmemAlloc size m = some (m', some (a + 12)) ∧
      m.Handed l (a + 12, (rtAlign size).toNat) m' l' := by
  unfold rtSmemAlloc
  by_cases h₀ : size = 0
  · exact Or.inl ⟨Or.inl h₀, if_pos h₀⟩
  rw [if_neg h₀]
  by_cases hbig : m.memSizeAligned < allocSize size
  · refine Or.inl ⟨Or.inr (fitAt_none_of_total ?_), if_pos hbig⟩
    rw [h.holds.total_eq, h.holds.size_eq]
    exact Nat.add_lt_add_right hbig 12
  rw [if_neg hbig, fit_start h _ (Nat.le_of_not_lt hbig)]
  cases hf : fitAt (allocSize size + 12) 0 l with
  | none => exact Or.inl ⟨Or.inr rfl, rfl⟩
  | some a =>
    obtain ⟨l₁, s, l₂, rfl, rfl, hs, hfit, -⟩ := fitAt_some hf
    obtain ⟨hn, h12⟩ := le_allocSize size
    obtain ⟨m', he, hsound, halike, hheap⟩ :=
      h.allocAt hs (allocSize_mod size) (by omega) hfit hn
    refine Or.inr ⟨_, m', _, h₀, rfl, ?_, hsound, halike, ?_, hheap⟩
    · show (m.allocAt (0 + total l₁) (allocSize size)).map _ = _
      rw [Nat.zero_add, he]
      rfl
    · rw [blocks_append, blocks_append, blocks_taken, total_taken, blocks_free hs]
      exact List.perm_middle

/-! ## `rt_smem_free` -/

/-- the block `x` is given back; what the others contain stays there -/
structure Freed (m : SmallMem) (l : List (Seg Nat)) (x : Nat × Nat) (m' : SmallMem)
    (l' : List (Seg Nat)) : Prop where
  sound : m'.Sound l'
  alike : m.Alike m'
  blocks : (blocks 12 0 l).Perm (x :: blocks 12 0 l')
  heap : ∀ q, Covers 12 0 l' q → m'.heap q = m.heap q

/-- the item behind is one of this heap, or its end -/
theorem Holds.pool_behind (h : m.Holds (l₁ ++ s :: l₂)) :
    m.memPool (m.next (total l₁)) = m.self := by
  rw [h.next_eq]
  cases l₂ with
  | nil =>
    have hend : total l₁ + s.len = m.heapEnd := h.end_eq
    rw [hend]
    exact memPool_used h.self_aligned h.fence
  | cons t l =>
    have hpool := h.shift.item.pool
    rw [total_snoc] at hpool
    split at hpool
    · exact memPool_freed h.self_aligned hpool
    · exact memPool_used h.self_aligned hpool

/-- a free item has come in, which may have free neighbours; everything else is as between two
calls -/
structure Loose (m : SmallMem) (l₁ : List (Seg Nat)) (len : Nat) (l₂ : List (Seg Nat)) : Prop where
  holds : m.Holds (l₁ ++ ⟨len, none⟩ :: l₂)
  left : Tight l₁
  right : Tight l₂
  big : ∀ s ∈ l₁ ++ ⟨len, none⟩ :: l₂, s.tag ≠ none → 12 < s.len
  lfree : m.lfree = firstFree 0 (l₁ ++ ⟨len, none⟩ :: l₂)
  used : m.used = inUse l₁ + inUse l₂
  le_max : m.used ≤ m.max
  max_le : m.max ≤ m.heapEnd

/-- **`plug_holes` at the end of a call** -/
theorem Loose.plug {len : Nat} (h : m.Loose l₁ len l₂) : ∃ w l, Merged l₁ len l₂ l ∧
    m.plugHoles (total l₁) = some { m with heap := w } ∧ Sound { m with heap := w } l ∧
    ∀ q, Covers 12 0 l q → Covers 12 0 (l₁ ++ ⟨len, none⟩ :: l₂) q ∧ w q = m.heap q := by
  obtain ⟨w, l, hm, he, hw, hheap⟩ := h.holds.plugHoles rfl h.left h.right h.lfree
  refine ⟨w, l, hm, he, ⟨hw, hm.tight h.left h.right, ?_, h.lfree.trans hm.firstFree.symm,
    h.used.trans hm.inUse.symm, h.le_max, h.max_le⟩, fun q hq => ?_⟩
  · exact hm.forall (fun t ht => h.big t (List.mem_append_left _ ht))
      (fun t ht => h.big t (List.mem_append_right _ (List.mem_cons_of_mem _ ht)))
      fun _ _ _ _ hne => absurd rfl hne
  · have hq' : Covers 12 0 (l₁ ++ ⟨len, none⟩ :: l₂) q := by
      rw [hm.covers] at hq
      rw [covers_append]
      exact hq.imp_right Or.inr
    exact ⟨hq', hheap q hq'⟩

/-- **`rt_smem_free`** of a block that has been handed out -/
theorem Sound.free (h : m.Sound l) {x : Nat × Nat} (hx : x ∈ blocks 12 0 l) :
    ∃ m' l', rtSmemFree (some x.1) m = some m' ∧ m.Freed l x m' l' := by
  obtain ⟨l₁, s, l₂, rfl, hp, ht⟩ := blocks_split hx
  rw [Nat.zero_add] at hp
  have hs : s.tag ≠ none := fun hn => Option.some_ne_none x.2 (ht.symm.trans hn)
  have hlen := h.big s (List.mem_append_right _ List.mem_cons_self) hs
  have hend := h.holds.end_eq
  have hstart : total l₁ % 4 = 0 := h.holds.start_mod
  have hpool := h.holds.item.pool
  rw [if_neg hs] at hpool
  obtain ⟨ht₁, ht₂, -⟩ := tight_mid.mp h.tight
  -- the item is free, and `lfree` and `used` know it
  have hfree := h.holds.retag none nofun
  rw [if_pos rfl] at hfree
  obtain ⟨hu, hn⟩ := h.lfree_used hs
  let m₁ : SmallMem := { m.setPool (total l₁) m.memFreed with
    lfree := if total l₁ < m.lfree then total l₁ else m.lfree
    used := m.used - s.len }
  have hloose : m₁.Loose l₁ s.len l₂ := by
    refine ⟨hfree.of_eq rfl rfl rfl rfl, ht₁, ht₂, ?_, ?_, ?_, ?_, h.max_le⟩
    · exact forall_replace (j := [s]) (k := [⟨s.len, none⟩]) h.big fun t ht hne =>
        absurd (List.mem_singleton.mp ht ▸ rfl) hne
    · exact lower_firstFree (fun t ht => h.holds.pos t (List.mem_append_left _ ht)) rfl
        (fun hu' => Nat.lt_of_lt_of_le (by omega) (hu hu')) hn
    · show m.used - s.len = _
      rw [h.used, inUse_append]
      show inUse l₁ + ((if s.tag = none then 0 else s.len) + inUse l₂) - s.len = _
      rw [if_neg hs]
      omega
    · exact Nat.le_trans (Nat.sub_le _ _) h.le_max
  obtain ⟨w, l', hm, he, hsound, hheap⟩ := hloose.plug
  refine ⟨{ m₁ with heap := w }, l', ?_, hsound, ⟨rfl, rfl, rfl⟩, ?_, fun q hq => ?_⟩
  · unfold rtSmemFree
    dsimp only
    rw [hp]
    show (if _ then _ else none) = _
    unfold sizeofStructMem
    rw [Nat.add_sub_cancel, if_pos, lower_eq]
    · show SmallMem.plugHoles (total l₁) { m.setPool (total l₁) m.memFreed with
        lfree := if total l₁ < m.lfree then total l₁ else m.lfree
        used := m.used - ((m.setPool (total l₁) m.memFreed).next (total l₁) - total l₁) } = _
      rw [hfree.next_eq, Nat.add_sub_cancel_left]
      exact he
    · refine ⟨by omega, ?_, memPool_used h.holds.self_aligned hpool, isUsed_used hpool, by omega,
        h.holds.pool_behind⟩
      rw [memPool_used h.holds.self_aligned hpool]
      exact h.holds.self_ne
  · have hx' : x = (0 + total l₁ + 12, x.2) := by rw [Nat.zero_add, ← hp]
    rw [hx', hm.blocks]
    exact blocks_used_perm ht
  · obtain ⟨hq', hsame⟩ := hheap q hq
    have hgap := covers_free hq' rfl
    exact hsame.trans (set_ne (by omega) _ m)

/-! ## `rt_smem_realloc` -/

/-- the words of a block belong to its holder -/
theorem Sound.write (h : m.Sound l) {x : Nat × Nat} (hx : x ∈ blocks 12 0 l) {w : Nat → BitVec 32}
    (hw : ∀ q, q < x.1 ∨ x.1 + x.2 ≤ q → w q = m.heap q) : Sound { m with heap := w } l := by
  refine ⟨?_, h.tight, h.big, h.lfree, h.used, h.le_max, h.max_le⟩
  obtain ⟨l₁, s, l₂, rfl, hp, ht⟩ := blocks_split hx
  have hfit := h.holds.fits s (List.mem_append_right _ List.mem_cons_self) x.2 ht
  exact h.holds.inside rfl rfl rfl fun q hq => hw q (by omega)

/-- the pointers of the blocks are different -/
theorem Holds.pointers (h : m.Holds l) : ((blocks 12 0 l).map Prod.fst).Nodup := by
  have hapart : (blocks 12 0 l).Pairwise fun x y => x.1 + id x.2 + 12 ≤ y.1 := blocks_apart h.fits
  refine List.pairwise_map.mpr (hapart.imp fun {x y} hxy he => ?_)
  have hle : x.1 + x.2 + 12 ≤ y.1 := hxy
  omega

/-- the block `x` has become the block `y`; what the others contain stays there, and so does the
front of the block -/
structure Moved (m : SmallMem) (l : List (Seg Nat)) (x y : Nat × Nat) (m' : SmallMem)
    (l' : List (Seg Nat)) : Prop where
  sound : m'.Sound l'
  alike : m.Alike m'
  blocks : ∃ k, (blocks 12 0 l).Perm (x :: k) ∧ (Segments.blocks 12 0 l').Perm (y :: k)
  heap : ∀ z ∈ Segments.blocks 12 0 l, z.1 ≠ x.1 → ∀ q, z.1 ≤ q → q < z.1 + z.2 →
    m'.heap q = m.heap q
  front : ∀ i < Nat.min x.2 y.2, m'.heap (y.1 + i) = m.heap (x.1 + i)

/-- a used segment with another number of bytes -/
theorem Sound.regrant (h : m.Sound (l₁ ++ s :: l₂)) (hs : s.tag ≠ none) (hn : n + 12 ≤ s.len) :
    m.Sound (l₁ ++ ⟨s.len, some n⟩ :: l₂) := by
  have hpool := h.holds.item.pool
  rw [if_neg hs] at hpool
  have hsame : m.setPool (total l₁) m.memUsed = m := by
    unfold setPool set
    rw [← hpool, Function.update_eq_self]
  have hw := h.holds.retag (some n) fun _ e => Option.some.inj e ▸ hn
  rw [if_neg (Option.some_ne_none n), hsame] at hw
  obtain ⟨ht₁, ht₂, -⟩ := tight_mid.mp h.tight
  refine ⟨hw, tight_mid.mpr ⟨ht₁, ht₂, nofun⟩, ?_, ?_, ?_, h.le_max, h.max_le⟩
  · refine forall_replace (j := [s]) (k := [⟨s.len, some n⟩]) h.big fun t ht _ => ?_
    obtain rfl := List.mem_singleton.mp ht
    exact h.big s (List.mem_append_right _ List.mem_cons_self) hs
  · rw [h.lfree]
    by_cases hu : AllUsed l₁
    · rw [firstFree_allUsed hu, firstFree_allUsed hu]
      unfold firstFree
      rw [if_neg hs]
      rfl
    · rw [firstFree_append hu, firstFree_append hu]
  · rw [h.used, inUse_append, inUse_append]
    show _ + ((if s.tag = none then 0 else s.len) + _) = _ + (s.len + _)
    rw [if_neg hs]

/-- two blocks do not overlap, and the item of one is between them -/
def Apart (x y : Nat × Nat) : Prop := x.1 + x.2 + 12 ≤ y.1 ∨ y.1 + y.2 + 12 ≤ x.1

instance : Std.Symm Apart := ⟨fun _ _ => Or.symm⟩

theorem Holds.pairwise (h : m.Holds l) : (blocks 12 0 l).Pairwise Apart := by
  have hapart : (blocks 12 0 l).Pairwise fun x y => x.1 + id x.2 + 12 ≤ y.1 := blocks_apart h.fits
  exact hapart.imp Or.inl

theorem Holds.apart (h : m.Holds l) {x y : Nat × Nat} (hx : x ∈ blocks 12 0 l)
    (hy : y ∈ blocks 12 0 l) (hne : x.1 ≠ y.1) : Apart x y :=
  h.pairwise.forall hx hy fun he => hne (congrArg Prod.fst he)

/-- the segments up to the end of a block that has become shorter -/
def shortened (l₁ : List (Seg Nat)) (size : Nat) : List (Seg Nat) :=
  l₁ ++ [⟨size + 12, some size⟩]

theorem total_shortened : total (shortened l₁ size) = total l₁ + 12 + size := by
  unfold shortened
  rw [total_snoc]
  show total l₁ + (size + 12) = _
  omega

/-- the item of a block is divided, and its rest is free -/
theorem Sound.divide (h : m.Sound (l₁ ++ s :: l₂)) (hs : s.tag ≠ none) (h4 : size % 4 = 0)
    (hpos : 0 < size) (hbig : size + 36 < s.len) :
    ∃ m', ({ m with used := m.used - (s.len - 12 - size) }.split (total l₁)
        (total l₁ + 12 + size)).lower (total l₁ + 12 + size) = m' ∧
      m'.Loose (shortened l₁ size) (s.len - (size + 12)) l₂ ∧ m.Alike m' ∧
      ∀ q, Covers 12 0 (shortened l₁ size ++ ⟨s.len - (size + 12), none⟩ :: l₂) q →
        m'.heap q = m.heap q := by
  have hgrant := h.regrant (n := size) hs (by omega)
  have hstart : total l₁ % 4 = 0 := h.holds.start_mod
  have hend := h.holds.end_eq
  have hb : total l₁ + 12 + size - total l₁ = size + 12 := by omega
  have hc : total l₁ + s.len - (total l₁ + 12 + size) = s.len - (size + 12) := by omega
  obtain ⟨ht₁, ht₂, -⟩ := tight_mid.mp h.tight
  obtain ⟨hu, hn⟩ := h.lfree_used hs
  let m₀ : SmallMem := { m with used := m.used - (s.len - 12 - size) }
  have h₀ : m₀.Holds (l₁ ++ ⟨s.len, some size⟩ :: l₂) := hgrant.holds.of_eq rfl rfl rfl rfl
  have hsplit := h₀.split (b := total l₁ + 12 + size) (by omega)
    (by show total l₁ + 12 + size + 12 ≤ total l₁ + s.len; omega) (by omega)
    (fun k hk => by rw [← Option.some.inj hk]; omega)
  have hkept := fun (q : Nat) => h₀.split_heap (q := q) (b := total l₁ + 12 + size) (by omega)
    (by omega) (rfl : total l₁ + s.len = total l₁ + s.len)
  rw [split_eta] at hsplit
  dsimp only at hsplit
  rw [hb, hc] at hsplit
  have hsame : ∀ t k, l₁ ++ ([(⟨size + 12, some size⟩ : Seg Nat), t] ++ k) =
      shortened l₁ size ++ t :: k := fun t k => (List.append_assoc l₁ [_] (t :: k)).symm
  rw [hsame] at hsplit
  refine ⟨{ m₀ with
    heap := (m₀.split (total l₁) (total l₁ + 12 + size)).heap
    lfree := if total l₁ + 12 + size < m.lfree then total l₁ + 12 + size else m.lfree },
    by rw [lower_eq, split_eta], ⟨hsplit.of_eq rfl rfl rfl rfl, ?_, ht₂, ?_, ?_, ?_, ?_, h.max_le⟩,
    ⟨rfl, rfl, rfl⟩, fun q hq => ?_⟩
  · exact tight_mid.mpr ⟨ht₁, List.isChain_nil, nofun⟩
  · rw [← hsame]
    refine forall_replace (j := [s]) h.big fun t ht hne => ?_
    rcases List.mem_cons.mp ht with rfl | ht
    · show 12 < size + 12
      omega
    · exact absurd (List.mem_singleton.mp ht ▸ rfl) hne
  · show (if total l₁ + 12 + size < m.lfree then total l₁ + 12 + size else m.lfree) = _
    rw [← total_shortened]
    refine lower_firstFree (fun t ht => hsplit.pos t (List.mem_append_left _ ht)) rfl
      (fun hk => ?_) fun hk => ?_
    · have hle := hu fun t ht => hk t (List.mem_append_left _ ht)
      rw [total_shortened]
      omega
    · have hk' : ¬ AllUsed l₁ := fun hl => hk fun t ht => (List.mem_append.mp ht).elim (hl t)
        fun ht => List.mem_singleton.mp ht ▸ Option.some_ne_none size
      rw [hn hk']
      exact (firstFree_append hk').symm
  · show m.used - (s.len - 12 - size) = inUse (l₁ ++ _) + inUse l₂
    rw [h.used, inUse_append, inUse_append]
    show inUse l₁ + ((if s.tag = none then 0 else s.len) + inUse l₂) - (s.len - 12 - size) =
      inUse l₁ + (size + 12 + 0) + inUse l₂
    rw [if_neg hs]
    omega
  · exact Nat.le_trans (Nat.sub_le _ _) h.le_max
  · have hgap := covers_free hq rfl
    rw [total_shortened] at hgap
    rw [← hsame] at hq
    have hseam := covers_seam hq
    dsimp only at hgap
    exact hkept q (by omega) (by omega) (by omega)

/-- **a block becomes shorter where it is** -/
theorem Sound.shrink (h : m.Sound (l₁ ++ s :: l₂)) (hs : s.tag = some n) (h4 : size % 4 = 0)
    (hpos : 0 < size) (hbig : size + 36 < s.len) :
    ∃ m' l', (({ m with used := m.used - (s.len - 12 - size) }.split (total l₁)
        (total l₁ + 12 + size)).lower (total l₁ + 12 + size)).plugHoles (total l₁ + 12 + size) =
        some m' ∧
      m.Moved (l₁ ++ s :: l₂) (total l₁ + 12, n) (total l₁ + 12, size) m' l' := by
  have hne : s.tag ≠ none := fun hn => Option.some_ne_none n (hs.symm.trans hn)
  obtain ⟨m₁, hm₁, hloose, halike, hkept⟩ := h.divide hne h4 hpos hbig
  obtain ⟨w, l', hm, he, hsound, hheap⟩ := hloose.plug
  rw [total_shortened] at he
  have hblocks : (blocks 12 0 l').Perm ((total l₁ + 12, size) ::
      (blocks 12 0 l₁ ++ blocks 12 (total l₁ + s.len) l₂)) := by
    have hfront : blocks 12 0 (shortened l₁ size) =
        blocks 12 0 l₁ ++ [(total l₁ + 12, size)] := by
      unfold shortened
      rw [blocks_used rfl, Nat.zero_add]
      rfl
    have hlast : 0 + total (shortened l₁ size) + (s.len - (size + 12)) = total l₁ + s.len := by
      rw [total_shortened]
      omega
    rw [hm.blocks, hfront, hlast, List.append_assoc]
    exact List.perm_middle
  have hold : (blocks 12 0 (l₁ ++ s :: l₂)).Perm _ := blocks_perm hs
  have hkeep : ∀ z ∈ blocks 12 0 l', ∀ q, z.1 ≤ q → q < z.1 + z.2 → w q = m.heap q := by
    intro z hz q h₁ h₂
    obtain ⟨hq, hsame⟩ := hheap q (hsound.holds.covers hz h₁ h₂)
    exact hsame.trans (hkept q hq)
  refine ⟨{ m₁ with heap := w }, l', hm₁ ▸ he, hsound,
    ⟨halike.self, halike.heapEnd, halike.memSizeAligned⟩, ⟨_, hold, hblocks⟩,
    fun z hz hzx q h₁ h₂ => ?_, fun i hi => ?_⟩
  · have hz' := (List.mem_cons.mp (hold.mem_iff.mp hz)).resolve_left fun e =>
      hzx (congrArg Prod.fst e)
    exact hkeep z (hblocks.mem_iff.mpr (List.mem_cons_of_mem _ hz')) q h₁ h₂
  · have hi' : i < size := Nat.lt_of_lt_of_le hi (Nat.min_le_right n size)
    exact hkeep (total l₁ + 12, size) (hblocks.mem_iff.mpr List.mem_cons_self) _
      (Nat.le_add_right _ _) (Nat.add_lt_add_left hi' _)

/-- **a block goes to another place**: it has been copied there, and is given back -/
theorem Sound.move (h : m.Sound l) {x y : Nat × Nat} (hx : x ∈ blocks 12 0 l) {l' : List (Seg Nat)}
    (hy : m.Handed l y m' l') {k : Nat} (hk : k ≤ y.2) (hfront : Nat.min x.2 y.2 ≤ k) :
    ∃ m'' l'', rtSmemFree (some x.1) (m'.copy y.1 x.1 k) = some m'' ∧ m.Moved l x y m'' l'' := by
  have hx' : x ∈ blocks 12 0 l' := hy.blocks.mem_iff.mpr (List.mem_cons_of_mem y hx)
  have hy' : y ∈ blocks 12 0 l' := hy.blocks.mem_iff.mpr List.mem_cons_self
  have hcopy : (m'.copy y.1 x.1 k).Sound l' := hy.sound.write hy' fun q hq =>
    if_neg fun hc => by omega
  obtain ⟨m'', l'', he, hf⟩ := hcopy.free hx'
  have hrest := List.perm_cons_erase hx
  have hblocks : (blocks 12 0 l'').Perm (y :: (blocks 12 0 l).erase x) := by
    have hall := hf.blocks.symm.trans hy.blocks
    exact (hall.trans ((hrest.cons y).trans (List.Perm.swap x y _))).cons_inv
  have hkeep : ∀ z ∈ blocks 12 0 l'', ∀ q, z.1 ≤ q → q < z.1 + z.2 →
      m''.heap q = (m'.copy y.1 x.1 k).heap q := fun z hz q h₁ h₂ =>
    hf.heap q (hf.sound.holds.covers hz h₁ h₂)
  have hpointers : ∀ z ∈ blocks 12 0 l, y.1 ≠ z.1 := by
    have hnodup := (hy.blocks.map Prod.fst).nodup_iff.mp hy.sound.holds.pointers
    exact fun z hz he => (List.nodup_cons.mp hnodup).1 (he ▸ List.mem_map_of_mem hz)
  refine ⟨m'', l'', he, hf.sound, hy.alike.trans ⟨hf.alike.1, hf.alike.2, hf.alike.3⟩,
    ⟨_, hrest, hblocks⟩, fun z hz hzx q h₁ h₂ => ?_, fun i hi => ?_⟩
  · have hz' := (List.mem_cons.mp (hrest.mem_iff.mp hz)).resolve_left fun e =>
      hzx (congrArg Prod.fst e)
    have hapart := hy.sound.holds.apart hy' (hy.blocks.mem_iff.mpr (List.mem_cons_of_mem y hz))
      (hpointers z hz)
    unfold Apart at hapart
    have hout : (m'.copy y.1 x.1 k).heap q = m'.heap q := if_neg fun hc => by omega
    rw [hkeep z (hblocks.mem_iff.mpr (List.mem_cons_of_mem y hz')) q h₁ h₂, hout]
    exact hy.heap q (h.holds.covers hz h₁ h₂)
  · have hi₁ : i < x.2 := Nat.lt_of_lt_of_le hi (Nat.min_le_left _ _)
    have hi₂ : i < y.2 := Nat.lt_of_lt_of_le hi (Nat.min_le_right _ _)
    have hin : (m'.copy y.1 x.1 k).heap (y.1 + i) = m'.heap (x.1 + (y.1 + i - y.1)) :=
      if_pos ⟨Nat.le_add_right _ _, Nat.add_lt_add_left (Nat.lt_of_lt_of_le hi hfront) _⟩
    rw [hkeep y (hblocks.mem_iff.mpr List.mem_cons_self) _ (Nat.le_add_right _ _)
      (Nat.add_lt_add_left hi₂ _), hin, Nat.add_sub_cancel_left]
    exact hy.heap _ (h.holds.covers hx (Nat.le_add_right _ _) (Nat.add_lt_add_left hi₁ _))

theorem Sound.stay (h : m.Sound (l₁ ++ s :: l₂)) (hs : s.tag = some n) (hn : size + 12 ≤ s.len) :
    m.Moved (l₁ ++ s :: l₂) (total l₁ + 12, n) (total l₁ + 12, size) m
      (l₁ ++ ⟨s.len, some size⟩ :: l₂) := by
  have hne : s.tag ≠ none := fun he => Option.some_ne_none n (hs.symm.trans he)
  exact ⟨h.regrant hne hn, .refl m, ⟨_, blocks_perm hs, blocks_perm rfl⟩,
    fun _ _ _ _ _ _ => rfl, fun _ _ => rfl⟩

/-- **`rt_smem_realloc`** of a block that has been handed out: it is given back, or nothing happens,
or it has the new size -/
theorem Sound.realloc (h : m.Sound l) {x : Nat × Nat} (hx : x ∈ blocks 12 0 l)
    (newsize : BitVec 32) :
    (rtAlign newsize = 0 ∧ ∃ m' l', rtSmemRealloc (some x.1) newsize m = some (m', none) ∧
      m.Freed l x m' l') ∨
    (rtAlign newsize ≠ 0 ∧ rtSmemRealloc (some x.1) newsize m = some (m, none)) ∨
    (rtAlign newsize ≠ 0 ∧ ∃ p m' l', rtSmemRealloc (some x.1) newsize m = some (m', some p) ∧
      m.Moved l x (p, (rtAlign newsize).toNat) m' l') := by
  have hfreed := h.free hx
  have hmove := fun {y : Nat × Nat} {m'} {l'} (hy : m.Handed l y m' l') {k} => h.move hx hy (k := k)
  have hx' := hx
  obtain ⟨l₁, s, l₂, rfl, hp, ht⟩ := blocks_split hx'
  have hmem : s ∈ l₁ ++ s :: l₂ := List.mem_append_right _ List.mem_cons_self
  have hend := h.holds.end_eq
  have hfits := h.holds.fits s hmem x.2 ht
  have hlen := h.big s hmem fun hn => Option.some_ne_none x.2 (ht.symm.trans hn)
  have hstart : total l₁ % 4 = 0 := h.holds.start_mod
  have h4 := rtAlign_mod newsize
  rw [Nat.zero_add] at hp
  obtain ⟨r, n⟩ := x
  obtain rfl : r = total l₁ + 12 := hp
  unfold rtSmemRealloc
  dsimp only
  by_cases h₀ : rtAlign newsize = 0
  · obtain ⟨m', l', he, hf⟩ := hfreed
    refine Or.inl ⟨h₀, m', l', ?_, hf⟩
    have hzero : ¬ m.memSizeAligned < (rtAlign newsize).toNat := by
      rw [h₀]
      exact Nat.not_lt_zero _
    rw [if_neg hzero, if_pos h₀, he]
    rfl
  refine Or.inr ?_
  by_cases hbig : m.memSizeAligned < (rtAlign newsize).toNat
  · exact Or.inl ⟨h₀, if_pos hbig⟩
  have hpos : 0 < (rtAlign newsize).toNat :=
    Nat.pos_of_ne_zero fun he => h₀ (BitVec.eq_of_toNat_eq he)
  have hsize : m.next (total l₁ + 12 - 12) - (total l₁ + 12 - 12) - 12 = s.len - 12 := by
    rw [Nat.add_sub_cancel, h.holds.next_eq]
    omega
  rw [if_neg hbig, if_neg h₀, if_pos (by omega)]
  unfold sizeofStructMem minSizeAligned
  rw [hsize, Nat.add_sub_cancel]
  by_cases hsame : s.len - 12 = (rtAlign newsize).toNat
  · exact Or.inr ⟨h₀, _, m, _, if_pos hsame, h.stay ht (by omega)⟩
  rw [if_neg hsame]
  by_cases hless : (rtAlign newsize).toNat + 12 + 12 < s.len - 12
  · obtain ⟨m', l', he, hm⟩ := h.shrink ht h4 hpos (by omega)
    refine Or.inr ⟨h₀, _, m', l', ?_, hm⟩
    rw [if_pos hless, he]
    rfl
  rw [if_neg hless]
  rcases h.alloc (rtAlign newsize) with ⟨-, he⟩ | ⟨a, m', l', -, -, he, hy⟩
  · refine Or.inl ⟨h₀, ?_⟩
    rw [he]
    rfl
  · rw [rtAlign_idem] at hy
    have hcount : Nat.min (s.len - 12) (rtAlign newsize).toNat ≤ (rtAlign newsize).toNat :=
      Nat.min_le_right _ _
    have hfront : Nat.min n (rtAlign newsize).toNat ≤
        Nat.min (s.len - 12) (rtAlign newsize).toNat :=
      Nat.le_min.mpr ⟨Nat.le_trans (Nat.min_le_left _ _) (by omega), Nat.min_le_right _ _⟩
    obtain ⟨m'', l'', he', hm⟩ := hmove hy hcount hfront
    refine Or.inr ⟨h₀, _, m'', l'', ?_, hm⟩
    rw [he]
    show (rtSmemFree _ _).map _ = _
    rw [he']
    rfl

/-! ## `rt_system_heap_init` -/

/-- the words that `rt_smem_init` writes -/
theorem init_holds {heap : Nat → BitVec 32} {self : BitVec 32} {memSize : Nat}
    (hsize : memSize % 4 = 0) (hbound : memSize + 12 < 2 ^ 32) (hself : self.toNat % 4 = 0)
    (hne : self ≠ 0) : let m : SmallMem := ⟨heap, self, memSize + 12, 0, memSize, 0, 0⟩
    ((((((m.setPool 0 m.memFreed).setNext 0 m.heapEnd).setPrev 0 0).setPool m.heapEnd
      m.memUsed).setNext m.heapEnd m.heapEnd).setPrev m.heapEnd m.heapEnd).Sound
      [⟨memSize + 12, none⟩] := by
  intro m
  have hend : m.heapEnd = memSize + 12 := rfl
  have hlow : ∀ q < memSize + 12, ((((((m.setPool 0 m.memFreed).setNext 0 m.heapEnd).setPrev 0
      0).setPool m.heapEnd m.memUsed).setNext m.heapEnd m.heapEnd).setPrev m.heapEnd
      m.heapEnd).heap q = (((m.setPool 0 m.memFreed).setNext 0 m.heapEnd).setPrev 0 0).heap q := by
    intro q hq
    refine (set_ne (by omega) _ _).trans ((set_ne (by omega) _ _).trans ?_)
    exact set_ne (by omega) _ _
  have hone : ∀ {P : Seg Nat → Prop}, P ⟨memSize + 12, none⟩ →
      ∀ t ∈ [(⟨memSize + 12, none⟩ : Seg Nat)], P t := fun hP t ht => List.mem_singleton.mp ht ▸ hP
  refine ⟨⟨⟨⟨?_, ?_, ?_⟩, trivial⟩, rfl, ?_, hone (Nat.le_add_left 12 _), hone ?_, hone nofun, rfl,
    hbound, hself, hne⟩, List.isChain_singleton _, hone fun hn => absurd rfl hn, rfl, rfl,
    Nat.le_refl 0, Nat.zero_le _⟩
  · exact (hlow 0 (by omega)).trans ((set_ne (by omega) _ _).trans
      ((set_ne (by omega) _ _).trans (set_self _ _ _)))
  · refine (hlow 4 (by omega)).trans ((set_ne (by omega) _ _).trans ((set_self _ _ _).trans ?_))
    show BitVec.ofNat 32 (memSize + 12) = BitVec.ofNat 32 (0 + (memSize + 12))
    rw [Nat.zero_add]
  · exact (hlow 8 (by omega)).trans (set_self _ _ _)
  · have hbehind : ∀ k, 0 < k → m.heapEnd ≠ m.heapEnd + k := fun k hk => by omega
    refine (set_ne (hbehind 8 (by decide)) _ _).trans ?_
    exact (set_ne (hbehind 4 (by decide)) _ _).trans (set_self _ _ _)
  · show (memSize + 12) % 4 = 0
    omega

/-- **the heap of the board begins as one free item** -/
theorem init_sound {heap : Nat → BitVec 32} {beginAddr : BitVec 32} (h₀ : beginAddr ≠ 0)
    (hle : beginAddr ≤ heapEndAddr) (hm : rtSystemHeapInit heap beginAddr heapEndAddr = some m) :
    m.Sound [⟨m.heapEnd, none⟩] := by
  have hpos : 0 < beginAddr.toNat := Nat.pos_of_ne_zero fun he => h₀ (BitVec.eq_of_toNat_eq he)
  have hle' : beginAddr.toNat ≤ 0x20027000 := hle
  have hself := rtAlign_toNat beginAddr
  unfold rtSystemHeapInit at hm
  dsimp only at hm
  split at hm
  swap
  · cases hm
  next hlt =>
  have hend : heapEndAddr &&& ~~~3 = 0x20027000 := by decide
  rw [hend] at hlt hm
  have hlt' : (rtAlign beginAddr).toNat < 0x20027000 := hlt
  have hsize : ((0x20027000 : BitVec 32) - rtAlign beginAddr).toNat =
      0x20027000 - (rtAlign beginAddr).toNat := BitVec.toNat_sub_of_le (Nat.le_of_lt hlt')
  unfold rtSmemInit at hm
  dsimp only at hm
  split at hm
  swap
  · cases hm
  next hroom =>
  generalize rtAlign beginAddr = self at *
  have hstart : (self + sizeofSmallMem).toNat = self.toNat + 56 := by
    rw [BitVec.toNat_add]
    exact Nat.mod_eq_of_lt (by show self.toNat + 56 < 2 ^ 32; omega)
  have hbegin : (rtAlign (self + sizeofSmallMem)).toNat = self.toNat + 56 := by
    rw [rtAlign_toNat, hstart]
    omega
  have hlast : (beginAddr + (0x20027000 - self) &&& ~~~3).toNat =
      (beginAddr.toNat + (0x20027000 - self.toNat)) / 4 * 4 := by
    rw [alignDown_toNat, BitVec.toNat_add, hsize, Nat.mod_eq_of_lt (by omega)]
  generalize (beginAddr + (0x20027000 - self) &&& ~~~3) = last at *
  generalize rtAlign (self + sizeofSmallMem) = start at *
  have hlong : 24 < last.toNat := hroom.1
  have hsub : (last - 24).toNat = last.toNat - 24 :=
    BitVec.toNat_sub_of_le (Nat.le_of_lt hlong)
  have hfit : self.toNat + 56 ≤ last.toNat - 24 := by
    rw [← hstart, ← hsub]
    exact hroom.2
  have hmem : (last - start - 24).toNat = last.toNat - (self.toNat + 56) - 24 := by
    have hdiff : (last - start).toNat = last.toNat - (self.toNat + 56) := by
      rw [← hbegin]
      exact BitVec.toNat_sub_of_le (by show start.toNat ≤ last.toNat; omega)
    rw [← hdiff]
    exact BitVec.toNat_sub_of_le (by show 24 ≤ (last - start).toNat; omega)
  have hne : self ≠ 0 := by
    rintro rfl
    have hzero : 0 = (beginAddr.toNat + 3) % 2 ^ 32 / 4 * 4 := hself
    omega
  rw [← Option.some.inj hm]
  exact init_holds (by omega) (by omega) (by omega) hne

end SmallMem

end LitterBox
