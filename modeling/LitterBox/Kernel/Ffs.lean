import LitterBox.Lib.LowBit

/-!
# `__rt_ffs`

The ready queue finds its highest priority by the lowest set bit of a word.  `cpuport.c` has it by
the instructions of the Cortex-M4; `kservice.c` has two more for other processors, by a table for
the bytes and by a table for the powers of two.

* `rtFfs`       `RBIT`, `CLZ`, `ADDS`;
* `rtFfsBytes`  the table of 256 entries;
* `rtFfsTiny`   the table of 37 entries (`RT_USING_TINY_FFS`);
* `ffs_agree`   they are the same function.
-/

namespace LitterBox

/-- `__rt_ffs` of `cpuport.c` -/
def rtFfs (value : BitVec 32) : BitVec 32 :=
  if value = 0 then value else value.reverse.clz + 1

/-- `__lowest_bit_bitmap` -/
def lowestBitBitmap : Array (BitVec 8) := #[
  0, 0, 1, 0, 2, 0, 1, 0, 3, 0, 1, 0, 2, 0, 1, 0,
  4, 0, 1, 0, 2, 0, 1, 0, 3, 0, 1, 0, 2, 0, 1, 0,
  5, 0, 1, 0, 2, 0, 1, 0, 3, 0, 1, 0, 2, 0, 1, 0,
  4, 0, 1, 0, 2, 0, 1, 0, 3, 0, 1, 0, 2, 0, 1, 0,
  6, 0, 1, 0, 2, 0, 1, 0, 3, 0, 1, 0, 2, 0, 1, 0,
  4, 0, 1, 0, 2, 0, 1, 0, 3, 0, 1, 0, 2, 0, 1, 0,
  5, 0, 1, 0, 2, 0, 1, 0, 3, 0, 1, 0, 2, 0, 1, 0,
  4, 0, 1, 0, 2, 0, 1, 0, 3, 0, 1, 0, 2, 0, 1, 0,
  7, 0, 1, 0, 2, 0, 1, 0, 3, 0, 1, 0, 2, 0, 1, 0,
  4, 0, 1, 0, 2, 0, 1, 0, 3, 0, 1, 0, 2, 0, 1, 0,
  5, 0, 1, 0, 2, 0, 1, 0, 3, 0, 1, 0, 2, 0, 1, 0,
  4, 0, 1, 0, 2, 0, 1, 0, 3, 0, 1, 0, 2, 0, 1, 0,
  6, 0, 1, 0, 2, 0, 1, 0, 3, 0, 1, 0, 2, 0, 1, 0,
  4, 0, 1, 0, 2, 0, 1, 0, 3, 0, 1, 0, 2, 0, 1, 0,
  5, 0, 1, 0, 2, 0, 1, 0, 3, 0, 1, 0, 2, 0, 1, 0,
  4, 0, 1, 0, 2, 0, 1, 0, 3, 0, 1, 0, 2, 0, 1, 0]

/-- `__lowest_bit_bitmap[i]` -/
def lowestAt (i : BitVec 32) : BitVec 32 := (lowestBitBitmap.getD i.toNat 0).setWidth 32

/-- `__rt_ffs` of `kservice.c` -/
def rtFfsBytes (value : BitVec 32) : BitVec 32 :=
  if value = 0 then 0
  else if value &&& 0xff ≠ 0 then lowestAt (value &&& 0xff) + 1
  else if value &&& 0xff00 ≠ 0 then lowestAt ((value &&& 0xff00) >>> 8) + 9
  else if value &&& 0xff0000 ≠ 0 then lowestAt ((value &&& 0xff0000) >>> 16) + 17
  else lowestAt ((value &&& 0xff000000) >>> 24) + 25

/-- `__lowest_bit_bitmap` with `RT_USING_TINY_FFS` -/
def lowestBitBitmapTiny : Array (BitVec 8) := #[
  0, 1, 2, 27, 3, 24, 28, 32,
  4, 17, 25, 31, 29, 12, 32, 14,
  5, 8, 18, 32, 26, 23, 32, 16,
  30, 11, 13, 7, 32, 22, 15, 10,
  6, 21, 9, 20, 19]

/-- `__rt_ffs` of `kservice.c` with `RT_USING_TINY_FFS`; the signed `value - 1` is taken to wrap -/
def rtFfsTiny (value : BitVec 32) : BitVec 32 :=
  (lowestBitBitmapTiny.getD (((value &&& (value - 1)) ^^^ value).toNat % 37) 0).setWidth 32

/-! ## the instructions -/

/-- the number of the lowest set bit, counted from `1` -/
theorem rtFfs_low {value : BitVec 32} {p : Nat} (h : LowBit.IsLow value p) :
    rtFfs value = BitVec.ofNat 32 (p + 1) := by
  have hp : value.ctz.toNat = p := (LowBit.isLow_ctz h.ne_zero).unique h
  unfold rtFfs
  rw [if_neg (show ¬ value = 0 from h.ne_zero), ← BitVec.ctz_eq_reverse_clz]
  refine BitVec.eq_of_toNat_eq ?_
  rw [BitVec.toNat_add, hp]
  rfl

/-! ## the table for the bytes -/

theorem lowestBitBitmap_low :
    ∀ n < 256, n ≠ 0 → LowBit.IsLow (BitVec.ofNat 8 n) (lowestBitBitmap.getD n 0).toNat := by
  decide +kernel

theorem getLsbD_ff : ∀ i < 32, (0xff : BitVec 32).getLsbD i = decide (i < 8) := by decide

/-- the byte at `k` of a word, in its place -/
theorem getLsbD_mask (value : BitVec 32) (k : Nat) {i : Nat} (hi : i < 32) :
    (value &&& ((0xff : BitVec 32) <<< k)).getLsbD i =
      (decide (k ≤ i ∧ i < k + 8) && value.getLsbD i) := by
  rw [BitVec.getLsbD_and, BitVec.getLsbD_shiftLeft, decide_eq_true hi, Bool.true_and,
    Bool.and_comm]
  by_cases hk : i < k
  · rw [decide_eq_true hk, decide_eq_false (show ¬ (k ≤ i ∧ i < k + 8) by omega)]
    rfl
  · rw [decide_eq_false hk, getLsbD_ff (i - k) (by omega)]
    exact congrArg (· && value.getLsbD i) (decide_eq_decide.mpr (by omega))

theorem getLsbD_byte (value : BitVec 32) (k i : Nat) :
    ((value >>> k).setWidth 8).getLsbD i = (decide (i < 8) && value.getLsbD (k + i)) := by
  rw [BitVec.getLsbD_setWidth, BitVec.getLsbD_ushiftRight]

/-- masking and shifting takes the byte at `k` -/
theorem mask_shift (value : BitVec 32) {k : Nat} (hk : k + 8 ≤ 32) :
    (value &&& ((0xff : BitVec 32) <<< k)) >>> k = ((value >>> k).setWidth 8).setWidth 32 := by
  refine BitVec.eq_of_getLsbD_eq fun i hi => ?_
  rw [BitVec.getLsbD_ushiftRight, BitVec.getLsbD_setWidth, decide_eq_true hi, Bool.true_and,
    getLsbD_byte]
  by_cases h8 : i < 8
  · rw [getLsbD_mask value k (by omega)]
    exact congrArg (· && value.getLsbD (k + i)) (decide_eq_decide.mpr (by omega))
  · rw [decide_eq_false h8, Bool.false_and]
    by_cases hlt : k + i < 32
    · rw [getLsbD_mask value k hlt, decide_eq_false (by omega), Bool.false_and]
    · exact BitVec.getLsbD_of_ge _ _ (by omega)

/-- nothing under the mask: the byte at `k` is zero -/
theorem mask_eq_zero (value : BitVec 32) {k : Nat} (hk : k + 8 ≤ 32) :
    value &&& ((0xff : BitVec 32) <<< k) = 0 ↔ (value >>> k).setWidth 8 = 0#8 := by
  constructor
  · intro h
    refine BitVec.eq_of_getLsbD_eq fun i hi => ?_
    have hbit := getLsbD_mask value k (show k + i < 32 by omega)
    rw [h, BitVec.ofNat_eq_ofNat, BitVec.getLsbD_zero,
      decide_eq_true (show k ≤ k + i ∧ k + i < k + 8 by omega), Bool.true_and] at hbit
    rw [getLsbD_byte, ← hbit, Bool.and_false, BitVec.getLsbD_zero]
  · intro h
    refine BitVec.eq_of_getLsbD_eq fun i hi => ?_
    rw [getLsbD_mask value k hi, BitVec.ofNat_eq_ofNat, BitVec.getLsbD_zero]
    by_cases hin : k ≤ i ∧ i < k + 8
    · have hbit := getLsbD_byte value k (i - k)
      rw [h, BitVec.getLsbD_zero, decide_eq_true (show i - k < 8 by omega), Bool.true_and,
        show k + (i - k) = i by omega] at hbit
      rw [← hbit, Bool.and_false]
    · rw [decide_eq_false hin, Bool.false_and]

/-- the branch of the byte at `k`: all bits below it are clear, and it is not zero -/
theorem lowestAt_low {value : BitVec 32} {p k : Nat} (hk : k + 8 ≤ 32)
    (h : LowBit.IsLow value p) (hb : ∀ i < k, value.getLsbD i = false)
    (hm : (value >>> k).setWidth 8 ≠ 0#8) :
    lowestAt ((value &&& ((0xff : BitVec 32) <<< k)) >>> k) + BitVec.ofNat 32 (k + 1) =
      BitVec.ofNat 32 (p + 1) := by
  generalize hbyte : (value >>> k).setWidth 8 = b at hm
  have hn : b.toNat ≠ 0 := fun e => hm (BitVec.eq_of_toNat_eq e)
  have hlow := lowestBitBitmap_low b.toNat b.isLt hn
  rw [BitVec.ofNat_toNat, BitVec.setWidth_eq] at hlow
  generalize hq : lowestBitBitmap.getD b.toNat 0 = q at hlow
  have hp : k + q.toNat = p := (LowBit.IsLow.of_field hb (hbyte ▸ hlow)).unique h
  have hget : lowestAt ((value &&& ((0xff : BitVec 32) <<< k)) >>> k) = q.setWidth 32 := by
    rw [mask_shift value hk, hbyte, ← hq]
    unfold lowestAt
    rw [BitVec.toNat_setWidth, Nat.mod_eq_of_lt (by have := b.isLt; omega)]
  rw [hget, ← hp]
  refine BitVec.eq_of_toNat_eq ?_
  rw [BitVec.toNat_add, BitVec.toNat_setWidth, BitVec.toNat_ofNat, BitVec.toNat_ofNat]
  have := q.isLt
  omega

theorem rtFfsBytes_low {value : BitVec 32} {p : Nat} (h : LowBit.IsLow value p) :
    rtFfsBytes value = BitVec.ofNat 32 (p + 1) := by
  have hb0 : ∀ i < 0, value.getLsbD i = false := nofun
  have z0 : value &&& 0xff = 0 ↔ (value >>> 0).setWidth 8 = 0#8 :=
    mask_eq_zero value (k := 0) (by decide)
  have z8 : value &&& 0xff00 = 0 ↔ (value >>> 8).setWidth 8 = 0#8 :=
    mask_eq_zero value (k := 8) (by decide)
  have z16 : value &&& 0xff0000 = 0 ↔ (value >>> 16).setWidth 8 = 0#8 :=
    mask_eq_zero value (k := 16) (by decide)
  unfold rtFfsBytes
  rw [if_neg (show ¬ value = 0 from h.ne_zero)]
  by_cases h0 : (value >>> 0).setWidth 8 = 0#8
  · rw [if_neg (not_not.mpr (z0.mpr h0))]
    have hb8 := LowBit.clear_below hb0 h0
    by_cases h8 : (value >>> 8).setWidth 8 = 0#8
    · rw [if_neg (not_not.mpr (z8.mpr h8))]
      have hb16 := LowBit.clear_below hb8 h8
      by_cases h16 : (value >>> 16).setWidth 8 = 0#8
      · rw [if_neg (not_not.mpr (z16.mpr h16))]
        have hb24 := LowBit.clear_below hb16 h16
        refine lowestAt_low (k := 24) (by decide) h hb24 fun h24 => ?_
        have hclear := LowBit.clear_below hb24 h24 p h.lt
        rw [h.set] at hclear
        cases hclear
      · rw [if_pos fun e => h16 (z16.mp e)]
        exact lowestAt_low (k := 16) (by decide) h hb16 h16
    · rw [if_pos fun e => h8 (z8.mp e)]
      exact lowestAt_low (k := 8) (by decide) h hb8 h8
  · rw [if_pos fun e => h0 (z0.mp e)]
    exact lowestAt_low (k := 0) (by decide) h hb0 h0

/-! ## the table for the powers of two -/

theorem lowestBitBitmapTiny_twoPow :
    ∀ p < 32, lowestBitBitmapTiny.getD (2 ^ p % 37) 0 = BitVec.ofNat 8 (p + 1) := by
  decide

theorem rtFfsTiny_low {value : BitVec 32} {p : Nat} (h : LowBit.IsLow value p) :
    rtFfsTiny value = BitVec.ofNat 32 (p + 1) := by
  have hlt := h.lt
  have hpow : 2 ^ p < 2 ^ 32 := Nat.pow_lt_pow_right (by decide) hlt
  unfold rtFfsTiny
  rw [show (value &&& (value - 1)) ^^^ value = BitVec.twoPow 32 p from h.isolate,
    BitVec.toNat_twoPow, Nat.mod_eq_of_lt hpow, lowestBitBitmapTiny_twoPow p hlt]
  refine BitVec.eq_of_toNat_eq ?_
  rw [BitVec.toNat_setWidth, BitVec.toNat_ofNat, BitVec.toNat_ofNat]
  omega

/-- **One function.**  For every word the three give the same: `0` for `0`, and otherwise the number
of the lowest set bit, counted from `1`. -/
theorem ffs_agree (value : BitVec 32) :
    rtFfsBytes value = rtFfs value ∧ rtFfsTiny value = rtFfs value ∧
      (rtFfs value = 0 ↔ value = 0) ∧
      ∀ p < 32, rtFfs value = BitVec.ofNat 32 (p + 1) ↔
        value.getLsbD p = true ∧ ∀ q < p, value.getLsbD q = false := by
  have hinj : ∀ p < 32, ∀ q < 32, BitVec.ofNat 32 (p + 1) = BitVec.ofNat 32 (q + 1) → p = q := by
    intro p hp q hq e
    have en := congrArg BitVec.toNat e
    rw [BitVec.toNat_ofNat, BitVec.toNat_ofNat] at en
    omega
  have hpos : ∀ p < 32, BitVec.ofNat 32 (p + 1) ≠ 0#32 := by decide
  by_cases hz : value = 0
  · subst hz
    have hr : rtFfs 0 = 0 := if_pos rfl
    have hb : rtFfsBytes 0 = 0 := if_pos rfl
    have ht : rtFfsTiny 0 = 0 := by decide
    refine ⟨hb.trans hr.symm, ht.trans hr.symm, iff_of_true hr rfl, fun p hp => ?_⟩
    exact iff_of_false (fun e => hpos p hp (e.symm.trans hr))
      fun h => LowBit.IsLow.ne_zero ⟨h.1, h.2⟩ rfl
  · have hlow := LowBit.isLow_ctz (v := value) hz
    have hr := rtFfs_low hlow
    refine ⟨(rtFfsBytes_low hlow).trans hr.symm, (rtFfsTiny_low hlow).trans hr.symm,
      iff_of_false (fun e => hpos _ hlow.lt (hr.symm.trans e)) hz, fun p hp => ?_⟩
    constructor
    · intro e
      have hpq := hinj p hp _ hlow.lt (e.symm.trans hr)
      rw [hpq]
      exact ⟨hlow.set, hlow.below⟩
    · exact fun h => rtFfs_low ⟨h.1, h.2⟩

end LitterBox
