import LitterBox.Kernel.SmallMem
import LitterBox.Lib.Segments
import Mathlib.Tactic.Ring

/-!
# The items of the heap

The words of the items of `SmallMem.heap` stand for a row of segments, and the algorithm edits this
row: it retags a segment, divides one, and puts two together.

* `SmallMem.Item`, `SmallMem.Row`   the words of one item, and of a row of them;
* `SmallMem.Holds`                  the memory stands for the segments `l`;
* `Holds.retag`, `Holds.split`, `Holds.join`   the edits, and the words they leave alone;
* `Holds.plugHoles`                 `plug_holes` merges a free item with its neighbours.
-/

namespace LitterBox

open Segments

/-! ## the words of an item -/

namespace SmallMem

variable {m m' : SmallMem} {mem q : Nat}

theorem memMask_bit : ∀ i < 32, memMask.getLsbD i = decide (i ≠ 0) := by decide

theorem one_bit : ∀ i < 32, (1 : BitVec 32).getLsbD i = decide (i = 0) := by decide

theorem isUsed_used (h : m.heap mem = m.memUsed) : m.isUsed mem = true := by
  have hone : (m.self &&& memMask ||| 1) &&& ~~~memMask = 1 := by
    refine BitVec.eq_of_getLsbD_eq fun i hi => ?_
    rw [BitVec.getLsbD_and, BitVec.getLsbD_or, BitVec.getLsbD_and, BitVec.getLsbD_not,
      memMask_bit i hi, one_bit i hi]
    by_cases h0 : i = 0 <;> simp [h0, hi]
  unfold isUsed
  rw [h]
  unfold memUsed
  rw [hone]
  rfl

theorem isUsed_freed (h : m.heap mem = m.memFreed) : m.isUsed mem = false := by
  have hzero : (m.self &&& memMask ||| 0#32) &&& ~~~memMask = 0#32 := by
    refine BitVec.eq_of_getLsbD_eq fun i hi => ?_
    rw [BitVec.or_zero, BitVec.getLsbD_and, BitVec.getLsbD_and, BitVec.getLsbD_not,
      memMask_bit i hi]
    by_cases h0 : i = 0 <;> simp [h0]
  unfold isUsed
  rw [h]
  show decide ((m.self &&& memMask ||| 0#32) &&& ~~~memMask ≠ 0) = false
  rw [hzero]
  rfl

/-- an address that is a multiple of four -/
theorem self_masked (h : m.self.toNat % 4 = 0) : m.self &&& memMask = m.self := by
  refine BitVec.eq_of_getLsbD_eq fun i hi => ?_
  rw [BitVec.getLsbD_and, memMask_bit i hi]
  by_cases h0 : i = 0
  · have hlow : m.self.getLsbD 0 = false := by
      rw [BitVec.getLsbD, Nat.testBit_zero]
      exact decide_eq_false (by omega)
    rw [h0, hlow]
    rfl
  · simp [h0]

theorem memPool_used (hself : m.self.toNat % 4 = 0) (h : m.heap mem = m.memUsed) :
    m.memPool mem = m.self := by
  have hmask : (m.self &&& memMask ||| 1) &&& memMask = m.self &&& memMask := by
    refine BitVec.eq_of_getLsbD_eq fun i hi => ?_
    rw [BitVec.getLsbD_and, BitVec.getLsbD_or, BitVec.getLsbD_and, memMask_bit i hi, one_bit i hi]
    by_cases h0 : i = 0 <;> simp [h0]
  unfold memPool
  rw [h]
  unfold memUsed
  rw [hmask, self_masked hself]

theorem memPool_freed (hself : m.self.toNat % 4 = 0) (h : m.heap mem = m.memFreed) :
    m.memPool mem = m.self := by
  unfold memPool
  rw [h]
  show (m.self &&& memMask ||| 0#32) &&& memMask = m.self
  rw [BitVec.or_zero, self_masked hself, self_masked hself]

theorem set_self (q : Nat) (v : BitVec 32) (m : SmallMem) : (m.set q v).heap q = v := by
  show Function.update m.heap q v q = v
  rw [Function.update_self]

theorem set_ne {r : Nat} (h : r ≠ q) (v : BitVec 32) (m : SmallMem) :
    (m.set q v).heap r = m.heap r := by
  show Function.update m.heap q v r = m.heap r
  rw [Function.update_of_ne h]

end SmallMem

/-! ## the row of items -/

namespace SmallMem

/-- the item at `mem` stands for the segment `s`, behind the item at `prev` -/
structure Item (m : SmallMem) (prev mem : Nat) (s : Seg Nat) : Prop where
  pool : m.heap mem = if s.tag = none then m.memFreed else m.memUsed
  next : m.heap (mem + 4) = BitVec.ofNat 32 (mem + s.len)
  prev : m.heap (mem + 8) = BitVec.ofNat 32 prev

/-- the items from `mem` on, behind the item at `prev` -/
def Row (m : SmallMem) (prev mem : Nat) : List (Seg Nat) → Prop
  | [] => True
  | s :: l => m.Item prev mem s ∧ m.Row mem (mem + s.len) l

/-- the last item of a row; the one before it, if there is none -/
def lastItem (prev mem : Nat) : List (Seg Nat) → Nat
  | [] => prev
  | s :: l => lastItem mem (mem + s.len) l

/-- every segment has room for its item -/
def Roomy (l : List (Seg Nat)) : Prop := ∀ s ∈ l, 12 ≤ s.len

variable {m m' : SmallMem} {prev mem q : Nat} {s : Seg Nat} {l l₁ l₂ : List (Seg Nat)}

theorem Roomy.total (hr : Roomy l) : l = [] ∨ 12 ≤ Segments.total l := by
  cases l with
  | nil => exact Or.inl rfl
  | cons s l => exact Or.inr (Nat.le_add_right_of_le (hr s List.mem_cons_self))

theorem row_append : m.Row prev mem (l₁ ++ l₂) ↔
    m.Row prev mem l₁ ∧ m.Row (lastItem prev mem l₁) (mem + total l₁) l₂ := by
  induction l₁ generalizing prev mem with
  | nil =>
    show m.Row prev mem l₂ ↔ True ∧ m.Row prev mem l₂
    rw [true_and]
  | cons s l ih =>
    show _ ∧ m.Row mem (mem + s.len) (l ++ l₂) ↔ (_ ∧ m.Row mem (mem + s.len) l) ∧ _
    rw [ih, and_assoc, Nat.add_assoc]
    rfl

theorem Item.congr (h : m.Item prev mem s) (hself : m'.self = m.self)
    (hq : ∀ q, mem ≤ q → q < mem + 12 → m'.heap q = m.heap q) : m'.Item prev mem s := by
  refine ⟨?_, ?_, ?_⟩
  · rw [hq mem (Nat.le_refl mem) (by omega), h.pool]
    unfold memFreed memUsed
    rw [hself]
  · rw [hq (mem + 4) (by omega) (by omega), h.next]
  · rw [hq (mem + 8) (by omega) (by omega), h.prev]

/-- **a row depends on its own words only** -/
theorem Row.congr (h : m.Row prev mem l) (hr : Roomy l) (hself : m'.self = m.self)
    (hq : ∀ q, mem ≤ q → q < mem + total l → m'.heap q = m.heap q) : m'.Row prev mem l := by
  induction l generalizing prev mem with
  | nil => trivial
  | cons s l ih =>
    have hlen := hr s List.mem_cons_self
    unfold total at hq
    refine ⟨h.1.congr hself fun q h₁ h₂ => hq q h₁ (by omega), ?_⟩
    exact ih h.2 (fun t ht => hr t (List.mem_cons_of_mem s ht))
      fun q h₁ h₂ => hq q (by omega) (by omega)

/-- a new `prev` of the first item -/
theorem Row.setPrev (h : m.Row prev mem l) (hr : Roomy l) (p : Nat) :
    (m.setPrev mem p).Row p mem l := by
  cases l with
  | nil => trivial
  | cons s l =>
    have hlen := hr s List.mem_cons_self
    refine ⟨⟨?_, ?_, set_self _ _ m⟩, ?_⟩
    · exact (set_ne (by omega) _ m).trans h.1.pool
    · exact (set_ne (by omega) _ m).trans h.1.next
    · exact h.2.congr (fun t ht => hr t (List.mem_cons_of_mem s ht)) rfl fun q h₁ _ =>
        set_ne (by omega) _ m

/-- **the items stand for the segments `l`**, one behind the other up to the end of the heap -/
structure Holds (m : SmallMem) (l : List (Seg Nat)) : Prop where
  row : m.Row 0 0 l
  total_eq : total l = m.heapEnd
  fence : m.heap m.heapEnd = m.memUsed
  roomy : Roomy l
  aligned : ∀ s ∈ l, s.len % 4 = 0
  fits : ∀ s ∈ l, ∀ n, s.tag = some n → n + 12 ≤ s.len
  size_eq : m.heapEnd = m.memSizeAligned + 12
  bound : m.heapEnd < 2 ^ 32
  self_aligned : m.self.toNat % 4 = 0
  self_ne : m.self ≠ 0

/-- the other fields do not matter -/
theorem Holds.of_eq (h : m.Holds l) (hheap : m'.heap = m.heap) (hself : m'.self = m.self)
    (hend : m'.heapEnd = m.heapEnd) (hsize : m'.memSizeAligned = m.memSizeAligned) :
    m'.Holds l where
  row := h.row.congr h.roomy hself fun q _ _ => by rw [hheap]
  total_eq := h.total_eq.trans hend.symm
  fence := by
    rw [hheap, hend, h.fence]
    unfold memUsed
    rw [hself]
  roomy := h.roomy
  aligned := h.aligned
  fits := h.fits
  size_eq := by rw [hend, hsize, h.size_eq]
  bound := hend ▸ h.bound
  self_aligned := hself ▸ h.self_aligned
  self_ne := hself ▸ h.self_ne

/-- where the segments of a heap end -/
theorem Holds.end_eq (h : m.Holds (l₁ ++ s :: l₂)) :
    total l₁ + s.len + total l₂ = m.heapEnd := by
  have ht := h.total_eq
  rw [total_append] at ht
  show _ = m.heapEnd
  rw [← ht, Nat.add_assoc]
  rfl

theorem Holds.parts (h : m.Holds (l₁ ++ s :: l₂)) :
    m.Row 0 0 l₁ ∧ m.Item (lastItem 0 0 l₁) (total l₁) s ∧
      m.Row (total l₁) (total l₁ + s.len) l₂ := by
  have hrow := row_append.mp h.row
  rw [Nat.zero_add] at hrow
  exact hrow

theorem Holds.item (h : m.Holds (l₁ ++ s :: l₂)) :
    m.Item (lastItem 0 0 l₁) (total l₁) s := h.parts.2.1

theorem Holds.next_eq (h : m.Holds (l₁ ++ s :: l₂)) : m.next (total l₁) = total l₁ + s.len := by
  have hend := h.end_eq
  have hbound := h.bound
  unfold next
  rw [h.item.next]
  exact Nat.mod_eq_of_lt (by omega)

theorem Holds.isUsed_eq (h : m.Holds (l₁ ++ s :: l₂)) :
    m.isUsed (total l₁) = decide (s.tag ≠ none) := by
  have hpool := h.item.pool
  by_cases hs : s.tag = none
  · rw [if_pos hs] at hpool
    rw [isUsed_freed hpool]
    exact (decide_eq_false (not_not.mpr hs)).symm
  · rw [if_neg hs] at hpool
    rw [isUsed_used hpool]
    exact (decide_eq_true hs).symm

/-- a row put together again, after a change in its middle -/
theorem Holds.rebuild {j k : List (Seg Nat)} (h : m.Holds (l₁ ++ (j ++ l₂)))
    (hself : m'.self = m.self) (hend : m'.heapEnd = m.heapEnd)
    (hsize : m'.memSizeAligned = m.memSizeAligned) (hk : total k = total j) (hroomy : Roomy k)
    (haligned : ∀ t ∈ k, t.len % 4 = 0) (hfits : ∀ t ∈ k, ∀ n, t.tag = some n → n + 12 ≤ t.len)
    (hlow : ∀ q < total l₁, m'.heap q = m.heap q)
    (hfence : m'.heap m.heapEnd = m.heap m.heapEnd)
    (hrow : m'.Row (lastItem 0 0 l₁) (total l₁) (k ++ l₂)) : m'.Holds (l₁ ++ (k ++ l₂)) := by
  have hl₁ : Roomy l₁ := fun t ht => h.roomy t (List.mem_append_left _ ht)
  refine ⟨row_append.mpr ⟨?_, ?_⟩, ?_, ?_, forall_replace h.roomy hroomy,
    forall_replace h.aligned haligned, forall_replace h.fits hfits, ?_, hend ▸ h.bound,
    hself ▸ h.self_aligned, hself ▸ h.self_ne⟩
  · exact (row_append.mp h.row).1.congr hl₁ hself fun q _ h₂ => hlow q (by omega)
  · rw [Nat.zero_add]
    exact hrow
  · rw [total_append, total_append, hk, hend, ← h.total_eq, total_append, total_append]
  · rw [hend, hfence, h.fence]
    unfold memUsed
    rw [hself]
  · rw [hend, hsize, h.size_eq]

theorem Holds.roomy_mid (h : m.Holds (l₁ ++ s :: l₂)) : Roomy l₁ ∧ 12 ≤ s.len ∧ Roomy l₂ :=
  ⟨fun t ht => h.roomy t (List.mem_append_left _ ht),
    h.roomy s (List.mem_append_right _ List.mem_cons_self),
    fun t ht => h.roomy t (List.mem_append_right _ (List.mem_cons_of_mem s ht))⟩

theorem Holds.start_mod (h : m.Holds (l₁ ++ l₂)) : total l₁ % 4 = 0 :=
  total_mod fun t ht => h.aligned t (List.mem_append_left _ ht)

/-! ## what the algorithm does to the row -/

/-- a segment becomes free, or comes into use -/
theorem Holds.retag (h : m.Holds (l₁ ++ s :: l₂)) (tag : Option Nat)
    (htag : ∀ n, tag = some n → n + 12 ≤ s.len) :
    (m.setPool (total l₁) (if tag = none then m.memFreed else m.memUsed)).Holds
      (l₁ ++ ⟨s.len, tag⟩ :: l₂) := by
  obtain ⟨-, hlen, hr₂⟩ := h.roomy_mid
  have hend := h.end_eq
  have hmem : s ∈ l₁ ++ s :: l₂ := List.mem_append_right _ List.mem_cons_self
  refine h.rebuild (j := [s]) (k := [⟨s.len, tag⟩]) rfl rfl rfl rfl ?_ ?_ ?_
    (fun q hq => set_ne (by omega) _ m) (set_ne (by omega) _ m) ⟨⟨set_self _ _ m, ?_, ?_⟩, ?_⟩
  · exact fun t ht => List.mem_singleton.mp ht ▸ hlen
  · exact fun t ht => List.mem_singleton.mp ht ▸ h.aligned s hmem
  · exact fun t ht => List.mem_singleton.mp ht ▸ htag
  · exact (set_ne (by omega) _ m).trans h.item.next
  · exact (set_ne (by omega) _ m).trans h.item.prev
  · exact h.parts.2.2.congr hr₂ rfl fun q h₁ _ => set_ne (by omega) _ m

/-- what is behind the header of a segment is not the heap's business -/
theorem Holds.inside (h : m.Holds (l₁ ++ s :: l₂)) (hself : m'.self = m.self)
    (hend : m'.heapEnd = m.heapEnd) (hsize : m'.memSizeAligned = m.memSizeAligned)
    (hq : ∀ q, q < total l₁ + 12 ∨ total l₁ + s.len ≤ q → m'.heap q = m.heap q) :
    m'.Holds (l₁ ++ s :: l₂) := by
  obtain ⟨-, hlen, hr₂⟩ := h.roomy_mid
  have htotal := h.end_eq
  have hmem : s ∈ l₁ ++ s :: l₂ := List.mem_append_right _ List.mem_cons_self
  refine h.rebuild (j := [s]) (k := [s]) hself hend hsize rfl ?_ ?_ ?_
    (fun q h₁ => hq q (by omega)) (hq _ (by omega))
    ⟨h.item.congr hself fun q _ h₂ => hq q (by omega), ?_⟩
  · exact fun t ht => List.mem_singleton.mp ht ▸ hlen
  · exact fun t ht => List.mem_singleton.mp ht ▸ h.aligned s hmem
  · exact fun t ht => List.mem_singleton.mp ht ▸ h.fits s hmem
  · exact h.parts.2.2.congr hr₂ hself fun q h₁ _ => hq q (by omega)

/-- the last item has the end of the heap behind it -/
theorem Holds.nil_of_end (h : m.Holds (l₁ ++ s :: l₂)) (he : total l₁ + s.len = m.heapEnd) :
    l₂ = [] := by
  have hend := h.end_eq
  have hpos : ∀ t ∈ l₂, 0 < t.len := fun t ht =>
    Nat.lt_of_lt_of_le (by decide) (h.roomy_mid.2.2 t ht)
  exact eq_nil_of_total hpos (by omega)

section edit

variable {b c : Nat}

/-- the words that `split` writes before it turns to the item behind -/
def cut (a b c : Nat) (m : SmallMem) : SmallMem :=
  (((m.setPool b m.memFreed).setNext b c).setPrev b a).setNext a b

theorem cut_heap_ne {a : Nat} (h₁ : q ≠ b) (h₂ : q ≠ b + 4) (h₃ : q ≠ b + 8) (h₄ : q ≠ a + 4) :
    (m.cut a b c).heap q = m.heap q := by
  unfold cut
  exact (set_ne h₄ _ _).trans ((set_ne h₃ _ _).trans ((set_ne h₂ _ _).trans (set_ne h₁ _ _)))

/-- the item that `split` makes -/
theorem cut_item {a len : Nat} (hab : a + 12 ≤ b) (hc : b + len = c) :
    (m.cut a b c).Item a b ⟨len, none⟩ := by
  unfold cut
  refine ⟨?_, ?_, ?_⟩
  · refine (set_ne (by omega) _ _).trans ((set_ne (by omega) _ _).trans ?_)
    exact (set_ne (by omega) _ _).trans (set_self _ _ _)
  · refine (set_ne (by omega) _ _).trans ((set_ne (by omega) _ _).trans ?_)
    refine (set_self _ _ _).trans ?_
    rw [hc]
  · exact (set_ne (by omega) _ _).trans (set_self _ _ _)

theorem Holds.split_eq (h : m.Holds (l₁ ++ s :: l₂)) (h₁ : total l₁ + 12 ≤ b) (h₂ : b ≤ c)
    (hc : total l₁ + s.len = c) : m.split (total l₁) b =
      if c ≠ m.heapEnd then (m.cut (total l₁) b c).setPrev c b else m.cut (total l₁) b c := by
  have hend := h.end_eq
  have hbound := h.bound
  have hnext : (m.setPool b m.memFreed).next (total l₁) = c := by
    rw [← hc, ← h.next_eq]
    exact congrArg BitVec.toNat (set_ne (by omega) _ m)
  have hlast : (m.cut (total l₁) b c).next b = c := by
    have hitem := (cut_item (m := m) h₁ (Nat.add_sub_of_le h₂)).next
    unfold next
    rw [hitem, Nat.add_sub_of_le h₂]
    exact Nat.mod_eq_of_lt (by omega)
  unfold SmallMem.split
  dsimp only
  rw [hnext]
  show (if (m.cut (total l₁) b c).next b ≠ m.memSizeAligned + 12 then
    (m.cut (total l₁) b c).setPrev ((m.cut (total l₁) b c).next b) b else m.cut (total l₁) b c) = _
  rw [hlast, h.size_eq]

theorem split_eta (m : SmallMem) (a b : Nat) :
    m.split a b = { m with heap := (m.split a b).heap } := by
  unfold SmallMem.split
  dsimp only
  split <;> rfl

/-- the words of no header are as they were -/
theorem Holds.split_heap (h : m.Holds (l₁ ++ s :: l₂)) (h₁ : total l₁ + 12 ≤ b) (h₂ : b ≤ c)
    (hc : total l₁ + s.len = c) (ha : q < total l₁ ∨ total l₁ + 12 ≤ q) (hb : q < b ∨ b + 12 ≤ q)
    (hcq : q ≠ c + 8) : (m.split (total l₁) b).heap q = m.heap q := by
  have hcut : (m.cut (total l₁) b c).heap q = m.heap q :=
    cut_heap_ne (by omega) (by omega) (by omega) (by omega)
  rw [h.split_eq h₁ h₂ hc]
  split
  · exact (set_ne hcq _ _).trans hcut
  · exact hcut

/-- **an item is divided** -/
theorem Holds.split (h : m.Holds (l₁ ++ s :: l₂)) (h₁ : total l₁ + 12 ≤ b)
    (h₂ : b + 12 ≤ total l₁ + s.len) (h4 : b % 4 = 0)
    (hfit : ∀ n, s.tag = some n → n + 12 ≤ b - total l₁) : (m.split (total l₁) b).Holds
      (l₁ ++ ([⟨b - total l₁, s.tag⟩, ⟨total l₁ + s.len - b, none⟩] ++ l₂)) := by
  generalize hc : total l₁ + s.len = c at h₂ ⊢
  obtain ⟨-, hlen, hr₂⟩ := h.roomy_mid
  have hend := h.end_eq
  have hstart := h.start_mod
  have hmem : s ∈ l₁ ++ s :: l₂ := List.mem_append_right _ List.mem_cons_self
  have hs4 := h.aligned s hmem
  have hbehind : m.heapEnd ≠ c + 8 := by
    rcases hr₂.total with rfl | hlong
    · rw [← hend, ← hc]
      show total l₁ + s.len + 0 ≠ _
      omega
    · omega
  have hpair : ∀ {P : Seg Nat → Prop}, P ⟨b - total l₁, s.tag⟩ → P ⟨c - b, none⟩ →
      ∀ t ∈ [(⟨b - total l₁, s.tag⟩ : Seg Nat), ⟨c - b, none⟩], P t := by
    intro P hx hy t ht
    rcases List.mem_cons.mp ht with rfl | ht
    · exact hx
    · exact List.mem_singleton.mp ht ▸ hy
  -- the two items, and the row behind them as it was
  have hfirst : (m.cut (total l₁) b c).Item (lastItem 0 0 l₁) (total l₁) ⟨b - total l₁, s.tag⟩ := by
    refine ⟨(cut_heap_ne ?_ ?_ ?_ ?_).trans h.item.pool, ?_,
      (cut_heap_ne ?_ ?_ ?_ ?_).trans h.item.prev⟩
    rotate_left 4
    · show _ = BitVec.ofNat 32 (total l₁ + (b - total l₁))
      rw [Nat.add_sub_of_le (Nat.le_of_add_right_le h₁)]
      exact set_self _ _ _
    all_goals omega
  have hsecond : (m.cut (total l₁) b c).Item (total l₁) b ⟨c - b, none⟩ :=
    cut_item h₁ (Nat.add_sub_of_le (by omega))
  have hrest : (m.cut (total l₁) b c).Row (total l₁) c l₂ := by
    have hrow := h.parts.2.2
    rw [hc] at hrow
    refine hrow.congr hr₂ rfl fun q hq _ => cut_heap_ne ?_ ?_ ?_ ?_
    all_goals omega
  have hrow : (m.split (total l₁) b).Row (lastItem 0 0 l₁) (total l₁)
      ([⟨b - total l₁, s.tag⟩, ⟨c - b, none⟩] ++ l₂) := by
    show _ ∧ _ ∧ (m.split (total l₁) b).Row _ (total l₁ + (b - total l₁) + (c - b)) l₂
    rw [h.split_eq h₁ (by omega) hc, Nat.add_sub_of_le (Nat.le_of_add_right_le h₁),
      Nat.add_sub_of_le (Nat.le_of_add_right_le h₂)]
    split
    · refine ⟨hfirst.congr rfl fun q _ hq => set_ne (by omega) _ _, ?_, hrest.setPrev hr₂ b⟩
      exact hsecond.congr rfl fun q _ hq => set_ne (by omega) _ _
    next he =>
      rw [h.nil_of_end (hc.trans (not_not.mp he))]
      exact ⟨hfirst, hsecond, trivial⟩
  rw [split_eta] at hrow ⊢
  refine h.rebuild (j := [s]) rfl rfl rfl ?_ (hpair ?_ ?_) (hpair ?_ ?_) (hpair hfit nofun)
    (fun q hq => h.split_heap h₁ (by omega) hc (by omega) (by omega) (by omega))
    (h.split_heap h₁ (by omega) hc (by omega) (by omega) hbehind) hrow
  · show b - total l₁ + (c - b + 0) = s.len + 0
    omega
  · show 12 ≤ b - total l₁
    omega
  · show 12 ≤ c - b
    omega
  · show (b - total l₁) % 4 = 0
    omega
  · show (c - b) % 4 = 0
    omega

/-- the words that `join` writes -/
def fuse (a b c : Nat) (m : SmallMem) : SmallMem := ((m.setPool b 0).setNext a c).setPrev c a

theorem fuse_heap_ne {a : Nat} (h₁ : q ≠ b) (h₂ : q ≠ a + 4) (h₃ : q ≠ c + 8) :
    (m.fuse a b c).heap q = m.heap q := by
  unfold fuse
  exact (set_ne h₃ _ _).trans ((set_ne h₂ _ _).trans (set_ne h₁ _ _))

variable {t : Seg Nat}

/-- the segments behind the first of these -/
theorem Holds.shift (h : m.Holds (l₁ ++ s :: l₂)) : m.Holds ((l₁ ++ [s]) ++ l₂) := by
  rw [List.append_assoc]
  exact h

theorem Holds.join_eq (h : m.Holds (l₁ ++ s :: t :: l₂)) (hl : m.lfree ≠ total l₁ + s.len) :
    m.join (total l₁) (total l₁ + s.len) =
      m.fuse (total l₁) (total l₁ + s.len) (total l₁ + s.len + t.len) := by
  have hlen := h.roomy_mid.2.1
  have hnext := h.shift.next_eq
  rw [total_snoc] at hnext
  generalize total l₁ + s.len + t.len = c at *
  generalize hb : total l₁ + s.len = b at *
  have h₁ : (m.setPool b 0).next b = c := by
    rw [← hnext]
    exact congrArg BitVec.toNat (set_ne (by omega) _ m)
  have h₂ : ((m.setPool b 0).setNext (total l₁) c).next b = c := by
    rw [← h₁]
    exact congrArg BitVec.toNat (set_ne (by omega) _ _)
  unfold SmallMem.join
  rw [if_neg hl]
  dsimp only
  rw [h₁, h₂]
  rfl

/-- **two free neighbours become one item** -/
theorem Holds.join (h : m.Holds (l₁ ++ s :: t :: l₂)) (hs : s.tag = none) :
    (m.fuse (total l₁) (total l₁ + s.len) (total l₁ + s.len + t.len)).Holds
      (l₁ ++ ⟨s.len + t.len, none⟩ :: l₂) := by
  obtain ⟨-, hlen, hr⟩ := h.roomy_mid
  have hr₂ : Roomy l₂ := fun u hu => hr u (List.mem_cons_of_mem t hu)
  have hend := h.shift.end_eq
  rw [total_snoc] at hend
  have hrow := h.shift.parts.2.2
  rw [total_snoc] at hrow
  have hmem : s ∈ l₁ ++ s :: t :: l₂ := List.mem_append_right _ List.mem_cons_self
  have hmem' : t ∈ l₁ ++ s :: t :: l₂ :=
    List.mem_append_right _ (List.mem_cons_of_mem s List.mem_cons_self)
  have ht := h.roomy t hmem'
  have hs4 := h.aligned s hmem
  have ht4 := h.aligned t hmem'
  have hlen4 : (s.len + t.len) % 4 = 0 := by omega
  have hbehind : m.heapEnd ≠ total l₁ + s.len + t.len + 8 := by
    rcases hr₂.total with rfl | hlong
    · rw [← hend]
      show total l₁ + s.len + t.len + 0 ≠ _
      omega
    · omega
  refine h.rebuild (j := [s, t]) (k := [⟨s.len + t.len, none⟩]) rfl rfl rfl ?_ ?_ ?_ ?_
    (fun q hq => fuse_heap_ne ?_ ?_ ?_) (fuse_heap_ne ?_ ?_ ?_) ⟨⟨?_, ?_, ?_⟩, ?_⟩
  · show s.len + t.len + 0 = s.len + (t.len + 0)
    omega
  · exact fun u hu => List.mem_singleton.mp hu ▸ Nat.le_add_right_of_le hlen
  · exact fun u hu => List.mem_singleton.mp hu ▸ hlen4
  · exact fun u hu => List.mem_singleton.mp hu ▸ nofun
  rotate_right 4
  · refine (fuse_heap_ne ?_ ?_ ?_).trans ?_
    rotate_right 1
    · rw [h.item.pool, if_pos hs]
      rfl
    all_goals omega
  · unfold fuse
    rw [Nat.add_assoc]
    exact (set_ne (by omega) _ _).trans (set_self _ _ _)
  · exact (fuse_heap_ne (by omega) (by omega) (by omega)).trans h.item.prev
  · unfold fuse
    rw [Nat.add_assoc _ s.len] at hrow ⊢
    have hrest : ((m.setPool (total l₁ + s.len) 0).setNext (total l₁)
        (total l₁ + (s.len + t.len))).Row (total l₁ + s.len) (total l₁ + (s.len + t.len)) l₂ :=
      hrow.congr hr₂ rfl fun q hq _ => (set_ne (by omega) _ _).trans (set_ne (by omega) _ _)
    exact hrest.setPrev hr₂ (total l₁)
  all_goals omega

theorem fuse_heap (hc : Covers 12 0 (l₁ ++ s :: t :: l₂) q) :
    (m.fuse (total l₁) (total l₁ + s.len) (total l₁ + s.len + t.len)).heap q = m.heap q := by
  have h₁ := covers_seam hc
  have h₂ := covers_seam_next hc
  have hc' : Covers 12 0 ((l₁ ++ [s]) ++ t :: l₂) q := by
    rw [List.append_assoc]
    exact hc
  have h₃ := covers_seam_next hc'
  rw [total_snoc] at h₃
  exact fuse_heap_ne (by omega) (by omega) (by omega)

/-! ## `plug_holes` -/

theorem Holds.plugForward (h : m.Holds (l₁ ++ s :: l₂)) (hs : s.tag = none) (ht : Tight l₂)
    (hl : m.lfree ≤ total l₁) : ∃ w j k, l₂ = j ++ k ∧ AllFree j ∧
      (∀ y ∈ k.head?, y.tag ≠ none) ∧ m.plugForward (total l₁) = { m with heap := w } ∧
      Holds { m with heap := w } (l₁ ++ ⟨s.len + total j, none⟩ :: k) ∧
      ∀ q, Covers 12 0 (l₁ ++ s :: l₂) q → w q = m.heap q := by
  have hlen := h.roomy_mid.2.1
  have hsame : s = ⟨s.len + total ([] : List (Seg Nat)), none⟩ := by
    rw [← hs]
    rfl
  unfold SmallMem.plugForward
  rw [h.next_eq]
  cases l₂ with
  | nil =>
    -- the end of the heap is behind the item
    have hend : total l₁ + s.len = m.heapEnd := h.end_eq
    refine ⟨m.heap, [], [], rfl, nofun, nofun, if_neg fun hc => hc.2.2 hend, ?_, fun q _ => rfl⟩
    exact hsame ▸ h
  | cons t k =>
    have hused := h.shift.isUsed_eq
    rw [total_snoc] at hused
    have hpos := h.shift.roomy_mid.2.1
    have hend := h.shift.end_eq
    rw [total_snoc] at hend
    by_cases htag : t.tag = none
    · refine ⟨_, [t], k, rfl, fun u hu => List.mem_singleton.mp hu ▸ htag, fun y hy => ?_, ?_,
        h.join hs, fun q hc => fuse_heap hc⟩
      · exact (List.isChain_cons.mp ht).1 y hy htag
      · rw [if_pos ⟨by omega, hused.trans (decide_eq_false (not_not.mpr htag)), by omega⟩]
        exact h.join_eq (by omega)
    · refine ⟨m.heap, [], t :: k, rfl, nofun, fun y hy => ?_, if_neg fun hc => ?_, hsame ▸ h,
        fun q _ => rfl⟩
      · exact Option.some.inj hy ▸ htag
      · rw [hused] at hc
        exact of_decide_eq_false hc.2.1 htag

theorem lastItem_snoc {a p : Nat} : lastItem p a (l ++ [s]) = a + total l := by
  induction l generalizing a p with
  | nil => rfl
  | cons t l ih =>
    show lastItem a (a + t.len) (l ++ [s]) = a + (t.len + total l)
    rw [ih, Nat.add_assoc]

theorem Holds.plugBackward (h : m.Holds (l₁ ++ s :: l₂)) (hs : s.tag = none) (ht : Tight l₁)
    (hl : m.lfree = firstFree 0 (l₁ ++ s :: l₂)) : ∃ w j k, l₁ = k ++ j ∧ AllFree j ∧
      (∀ x ∈ k.getLast?, x.tag ≠ none) ∧ m.plugBackward (total l₁) = { m with heap := w } ∧
      Holds { m with heap := w } (k ++ ⟨total j + s.len, none⟩ :: l₂) ∧
      ∀ q, Covers 12 0 (l₁ ++ s :: l₂) q → w q = m.heap q := by
  have hprev : m.prev (total l₁) = lastItem 0 0 l₁ % 2 ^ 32 := congrArg BitVec.toNat h.item.prev
  have hsame : s = ⟨total ([] : List (Seg Nat)) + s.len, none⟩ := by
    rw [← hs]
    show s = ⟨0 + s.len, s.tag⟩
    rw [Nat.zero_add]
  unfold SmallMem.plugBackward
  rw [hprev]
  rcases List.eq_nil_or_concat l₁ with rfl | ⟨k, t, rfl⟩
  · -- the first item has itself before it
    exact ⟨m.heap, [], [], rfl, nofun, nofun, if_neg fun hc => hc.1 rfl, hsame ▸ h, fun q _ => rfl⟩
  · rw [List.concat_eq_append] at *
    have hk : m.Holds (k ++ t :: s :: l₂) := by
      rw [List.append_assoc] at h
      exact h
    have hend := hk.end_eq
    have hbound := h.bound
    have hpos := hk.roomy_mid.2.1
    have hused := hk.isUsed_eq
    rw [lastItem_snoc, Nat.zero_add, Nat.mod_eq_of_lt (by omega), total_snoc]
    by_cases htag : t.tag = none
    · have hfree : m.lfree ≤ total k := by
        rw [hl, List.append_assoc, ← Nat.zero_add (total k)]
        exact firstFree_le_free htag
      refine ⟨_, [t], k, rfl, fun u hu => List.mem_singleton.mp hu ▸ htag, fun x hx => ?_, ?_,
        hk.join htag, fun q hc => ?_⟩
      · exact fun hx' => (List.isChain_append.mp ht).2.2 x hx t rfl hx' htag
      · rw [if_pos ⟨by omega, hused.trans (decide_eq_false (not_not.mpr htag))⟩]
        exact hk.join_eq (by omega)
      · rw [List.append_assoc] at hc
        exact fuse_heap hc
    · refine ⟨m.heap, [], k ++ [t], (List.append_nil _).symm, nofun, fun x hx => ?_,
        if_neg fun hc => ?_, hsame ▸ h, fun q _ => rfl⟩
      · rw [List.getLast?_concat] at hx
        exact Option.some.inj hx ▸ htag
      · rw [hused] at hc
        exact of_decide_eq_false hc.2 htag

/-- **`plug_holes` merges a free item with its free neighbours** -/
theorem Holds.plugHoles (h : m.Holds (l₁ ++ s :: l₂)) (hs : s.tag = none) (ht₁ : Tight l₁)
    (ht₂ : Tight l₂) (hl : m.lfree = firstFree 0 (l₁ ++ s :: l₂)) : ∃ w l, Merged l₁ s.len l₂ l ∧
      m.plugHoles (total l₁) = some { m with heap := w } ∧ Holds { m with heap := w } l ∧
      ∀ q, Covers 12 0 (l₁ ++ s :: l₂) q → w q = m.heap q := by
  have hlen := h.roomy_mid.2.1
  have hend := h.end_eq
  have hle : m.lfree ≤ total l₁ := by
    rw [hl, ← Nat.zero_add (total l₁)]
    exact firstFree_le_free hs
  obtain ⟨w₁, j₂, k₂, rfl, hj₂, hk₂, he₁, h₁, hw₁⟩ := h.plugForward hs ht₂ hle
  have hl₁ : m.lfree = firstFree 0 (l₁ ++ ⟨s.len + total j₂, none⟩ :: k₂) :=
    hl.trans (firstFree_free hs rfl)
  obtain ⟨w₂, j₁, k₁, rfl, hj₁, hk₁, he₂, h₂, hw₂⟩ := h₁.plugBackward rfl ht₁ hl₁
  refine ⟨w₂, _, ⟨k₁, j₁, j₂, k₂, rfl, rfl, hj₁, hj₂, ?_, hk₁, hk₂⟩, ?_, h₂, fun q hc => ?_⟩
  · rw [Nat.add_assoc]
  · unfold SmallMem.plugHoles
    rw [if_pos (by omega), he₁]
    exact congrArg some he₂
  · refine (hw₂ q ?_).trans (hw₁ q hc)
    -- the new segment is as free as those it is made of
    rw [covers_append] at hc ⊢
    refine hc.imp_right fun hc => Or.inr ?_
    rcases hc with hc | hc
    · exact absurd hs hc.1
    · rw [covers_append, or_iff_right hj₂.not_covers] at hc
      rwa [← Nat.add_assoc]

end edit

end SmallMem

end LitterBox
