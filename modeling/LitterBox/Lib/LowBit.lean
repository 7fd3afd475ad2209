import Mathlib.Data.Nat.Bits
import Mathlib.Tactic.Common
import Mathlib.Tactic.Ring

/-!
# The lowest set bit of a word

* `IsLow v p`        the lowest set bit of `v` is the bit `p`;
* `isLow_ctz`        every word but `0` has one;
* `IsLow.isolate`    `v & (v - 1) ^ v` leaves it alone;
* `IsLow.of_field`   it can be looked for field by field, from below.
-/

namespace LowBit

variable {w : Nat} {v : BitVec w} {p q : Nat}

/-- the lowest set bit of `v` is the bit `p` -/
structure IsLow (v : BitVec w) (p : Nat) : Prop where
  set : v.getLsbD p = true
  below : ∀ q < p, v.getLsbD q = false

instance : Decidable (IsLow v p) :=
  decidable_of_iff (v.getLsbD p = true ∧ ∀ q < p, v.getLsbD q = false)
    ⟨fun h => ⟨h.1, h.2⟩, fun h => ⟨h.set, h.below⟩⟩

theorem IsLow.unique (hp : IsLow v p) (hq : IsLow v q) : p = q := by
  rcases Nat.lt_trichotomy p q with h | h | h
  · have hf := hq.below p h
    rw [hp.set] at hf
    cases hf
  · exact h
  · have hf := hp.below q h
    rw [hq.set] at hf
    cases hf

theorem IsLow.lt (h : IsLow v p) : p < w := BitVec.lt_of_getLsbD h.set

theorem IsLow.ne_zero (h : IsLow v p) : v ≠ 0#w := by
  rintro rfl
  have hset := h.set
  rw [BitVec.getLsbD_zero] at hset
  cases hset

theorem isLow_ctz (h : v ≠ 0#w) : IsLow v v.ctz.toNat :=
  ⟨BitVec.getLsbD_true_ctz_of_ne_zero h, fun _ hq => BitVec.getLsbD_false_of_lt_ctz hq⟩

/-! ## arithmetic -/

/-- the word is an odd multiple of its lowest set bit -/
theorem IsLow.toNat_eq (h : IsLow v p) : ∃ a, v.toNat = 2 ^ (p + 1) * a + 2 ^ p := by
  have hmod : v.toNat % 2 ^ p = 0 := by
    refine Nat.eq_of_testBit_eq fun i => ?_
    rw [Nat.testBit_mod_two_pow, Nat.zero_testBit]
    by_cases hi : i < p
    · rw [show v.toNat.testBit i = false from h.below i hi, Bool.and_false]
    · rw [decide_eq_false hi, Bool.false_and]
  have hodd : v.toNat / 2 ^ p % 2 = 1 := by
    have hbit : v.toNat.testBit p = true := h.set
    rw [Nat.testBit_eq_decide_div_mod_eq] at hbit
    exact of_decide_eq_true hbit
  refine ⟨v.toNat / 2 ^ p / 2, ?_⟩
  have hdiv : v.toNat = 2 ^ p * (v.toNat / 2 ^ p) := by
    have := Nat.div_add_mod v.toNat (2 ^ p)
    omega
  have hhalf : v.toNat / 2 ^ p = 2 * (v.toNat / 2 ^ p / 2) + 1 := by omega
  calc v.toNat = 2 ^ p * (v.toNat / 2 ^ p) := hdiv
    _ = 2 ^ p * (2 * (v.toNat / 2 ^ p / 2) + 1) := by rw [← hhalf]
    _ = 2 ^ (p + 1) * (v.toNat / 2 ^ p / 2) + 2 ^ p := by
      rw [Nat.mul_add, ← Nat.mul_assoc, ← Nat.pow_succ, Nat.mul_one]

/-- one less: the lowest set bit goes, and those below it come -/
theorem IsLow.getLsbD_pred (h : IsLow v p) (i : Nat) (hi : i < w) :
    (v - 1#w).getLsbD i = if i < p then true else if i = p then false else v.getLsbD i := by
  obtain ⟨a, ha⟩ := h.toNat_eq
  have hpos : 0 < 2 ^ p := Nat.two_pow_pos p
  have hlt : 2 ^ p < 2 ^ (p + 1) := Nat.pow_lt_pow_right (by decide) (Nat.lt_succ_self p)
  have hw : 1 < 2 ^ w := Nat.one_lt_two_pow (by omega)
  have hv := v.isLt
  have hsub : (v - 1#w).toNat = 2 ^ (p + 1) * a + (2 ^ p - 1) := by
    have hle : 1#w ≤ v := by
      rw [BitVec.le_def, BitVec.toNat_ofNat, Nat.mod_eq_of_lt hw]
      omega
    rw [BitVec.toNat_sub_of_le hle, BitVec.toNat_ofNat, Nat.mod_eq_of_lt hw]
    omega
  show (v - 1#w).toNat.testBit i = _
  rw [hsub, Nat.testBit_two_pow_mul_add _ (by omega), Nat.testBit_two_pow_sub_one]
  rcases Nat.lt_trichotomy i p with hip | rfl | hip
  · rw [if_pos (by omega), if_pos hip, decide_eq_true hip]
  · rw [if_pos (Nat.lt_succ_self i), if_neg (Nat.lt_irrefl i), if_pos rfl,
      decide_eq_false (Nat.lt_irrefl i)]
  · rw [if_neg (by omega), if_neg (by omega), if_neg (by omega)]
    show _ = v.toNat.testBit i
    rw [ha, Nat.testBit_two_pow_mul_add _ hlt, if_neg (by omega)]

/-- **the lowest set bit alone** -/
theorem IsLow.isolate (h : IsLow v p) : (v &&& (v - 1#w)) ^^^ v = BitVec.twoPow w p := by
  refine BitVec.eq_of_getLsbD_eq fun i hi => ?_
  rw [BitVec.getLsbD_xor, BitVec.getLsbD_and, h.getLsbD_pred i hi, BitVec.getLsbD_twoPow,
    decide_eq_true h.lt, Bool.true_and]
  rcases Nat.lt_trichotomy i p with hip | rfl | hip
  · rw [if_pos hip, h.below i hip, decide_eq_false (by omega)]
    rfl
  · rw [if_neg (Nat.lt_irrefl i), if_pos rfl, h.set, decide_eq_true rfl]
    rfl
  · rw [if_neg (by omega), if_neg (by omega), decide_eq_false (by omega), Bool.and_self,
      Bool.xor_self]

/-! ## fields -/

/-- a field without a set bit, and only clear bits below it -/
theorem clear_below {k n : Nat} (h : ∀ i < k, v.getLsbD i = false)
    (hf : (v >>> k).setWidth n = 0#n) : ∀ i < k + n, v.getLsbD i = false := by
  intro i hi
  by_cases hk : i < k
  · exact h i hk
  · have hb : ((v >>> k).setWidth n).getLsbD (i - k) = false := by rw [hf, BitVec.getLsbD_zero]
    rw [BitVec.getLsbD_setWidth, BitVec.getLsbD_ushiftRight, decide_eq_true (by omega),
      Bool.true_and, show k + (i - k) = i by omega] at hb
    exact hb

/-- **the lowest set bit of the first field that has one** -/
theorem IsLow.of_field {k n : Nat} (h : ∀ i < k, v.getLsbD i = false)
    (hf : IsLow ((v >>> k).setWidth n) p) : IsLow v (k + p) := by
  have hp := hf.lt
  have hset := hf.set
  rw [BitVec.getLsbD_setWidth, BitVec.getLsbD_ushiftRight, decide_eq_true hp,
    Bool.true_and] at hset
  refine ⟨hset, fun i hi => ?_⟩
  by_cases hk : i < k
  · exact h i hk
  · have hb := hf.below (i - k) (by omega)
    rw [BitVec.getLsbD_setWidth, BitVec.getLsbD_ushiftRight, decide_eq_true (by omega),
      Bool.true_and, show k + (i - k) = i by omega] at hb
    exact hb

end LowBit
