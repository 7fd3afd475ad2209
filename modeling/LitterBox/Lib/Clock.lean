import Mathlib.Data.List.Chain
import Mathlib.Tactic.Common
import Mathlib.Tactic.Ring

/-!
# A free-running counter of `w` bits and the true time behind it

`tick w t` is what a counter of `w` bits shows at the true time `t`, an unbounded number.  Code
that keeps time with such a counter subtracts two readings and compares the difference, unsigned
(`b ≤ now - start`) or signed (`reached`).  Both tests are exact as long as the true distance
stays below half of the range:

* `toNat_tick_sub`, `le_elapsed_iff`   the unsigned difference is the true distance;
* `toInt_tick_sub`                     so is the signed one;
* `reached_tick`                       the signed test is the true comparison.

That the distance stays small is a matter of how often the tests are made: `Paced d ts` says so of
the times `ts` at which they are.
-/

namespace Clock

variable {w : Nat}

/-- what the counter shows at the true time `t` -/
def tick (w t : Nat) : BitVec w := BitVec.ofNat w t

theorem tick_toNat (b : BitVec w) : tick w b.toNat = b := by
  show BitVec.ofNat w b.toNat = b
  rw [BitVec.ofNat_toNat, BitVec.setWidth_eq]

theorem tick_add (a k : Nat) : tick w (a + k) = tick w a + tick w k := by
  show BitVec.ofNat w (a + k) = BitVec.ofNat w a + BitVec.ofNat w k
  rw [BitVec.ofNat_add]

theorem tick_sub {a t : Nat} (h : a ≤ t) : tick w t - tick w a = tick w (t - a) := by
  have e : tick w t = tick w (t - a) + tick w a := by
    rw [← tick_add, Nat.sub_add_cancel h]
  rw [e, BitVec.add_sub_cancel]

theorem tick_toNat_of_lt {t : Nat} (h : t < 2^w) : (tick w t).toNat = t := by
  show (BitVec.ofNat w t).toNat = t
  rw [BitVec.toNat_ofNat, Nat.mod_eq_of_lt h]

theorem toNat_tick_sub {a t : Nat} (h : a ≤ t) (hlt : t - a < 2^w) :
    (tick w t - tick w a).toNat = t - a := by
  rw [tick_sub h, tick_toNat_of_lt hlt]

/-- the unsigned difference to a time in the future goes nearly round -/
theorem toNat_tick_sub_future {d t : Nat} (h : t < d) (hlt : d - t < 2^w) :
    (tick w t - tick w d).toNat = 2^w - (d - t) := by
  have hn : (tick w d - tick w t).toNat = d - t := toNat_tick_sub (Nat.le_of_lt h) hlt
  have hneg : tick w t - tick w d = -(tick w d - tick w t) := by
    rw [BitVec.neg_sub, BitVec.sub_eq_add_neg, BitVec.add_comm]
  rw [hneg, BitVec.toNat_neg, hn, Nat.mod_eq_of_lt (by omega)]

/-- the unsigned test against a budget is exact below one turn of the counter -/
theorem le_elapsed_iff {a t : Nat} (b : BitVec w) (h : a ≤ t) (hlt : t - a < 2^w) :
    b ≤ tick w t - tick w a ↔ b.toNat ≤ t - a := by
  rw [BitVec.le_def, toNat_tick_sub h hlt]

/-- the signed difference is the true distance below half a turn -/
theorem toInt_tick_sub {a t : Nat} (h : a ≤ t) (hlt : 2 * (t - a) < 2^w) :
    (tick w t - tick w a).toInt = ((t - a : Nat) : Int) := by
  have hn : (tick w t - tick w a).toNat = t - a := toNat_tick_sub h (by omega)
  rw [BitVec.toInt_eq_toNat_of_lt (by rw [hn]; exact hlt), hn]

/-- the signed test "the deadline `d` is not in the future" -/
def reached (now d : BitVec w) : Bool := decide (0 ≤ (now - d).toInt)

theorem reached_of_past {d t : Nat} (h : d ≤ t) (hlt : 2 * (t - d) < 2^w) :
    reached (tick w t) (tick w d) = true := by
  unfold reached
  rw [decide_eq_true_eq, toInt_tick_sub h hlt]
  exact Int.natCast_nonneg _

theorem reached_of_future {d t : Nat} (h : t < d) (hlt : 2 * (d - t) ≤ 2^w) :
    reached (tick w t) (tick w d) = false := by
  unfold reached
  have hs : (tick w t - tick w d).toNat = 2^w - (d - t) := toNat_tick_sub_future h (by omega)
  rw [decide_eq_false_iff_not, BitVec.toInt_eq_toNat_cond, if_neg (by rw [hs]; omega), hs]
  omega

/-- **The signed deadline test is the true comparison**: the deadline `a + k` was set at the true
time `a`, and the test is made less than half a turn after it. -/
theorem reached_tick {a k t : Nat} (hk : 2 * k ≤ 2^w) (ha : a ≤ t)
    (ht : 2 * (t - a) < 2^w + 2 * k) :
    reached (tick w t) (tick w (a + k)) = decide (a + k ≤ t) := by
  by_cases h : a + k ≤ t
  · rw [reached_of_past h (by omega), decide_eq_true h]
  · rw [reached_of_future (by omega) (by omega), decide_eq_false h]

/-! ## how often the counter is read -/

/-- the times never go back and are less than `d` apart -/
def Paced (d : Nat) (ts : List Nat) : Prop := ts.IsChain fun a b => a ≤ b ∧ b < a + d

instance (d : Nat) (ts : List Nat) : Decidable (Paced d ts) := by
  unfold Paced
  infer_instance

/-- `t` may follow the times `ts` -/
def Next (d : Nat) (ts : List Nat) (t : Nat) : Prop := ∀ a ∈ ts.getLast?, a ≤ t ∧ t < a + d

theorem paced_snoc {d : Nat} {ts : List Nat} {t : Nat} :
    Paced d (ts ++ [t]) ↔ Paced d ts ∧ Next d ts t := by
  unfold Paced Next
  rw [List.isChain_append]
  simp

theorem next_snoc {d : Nat} {ts : List Nat} {a t : Nat} :
    Next d (ts ++ [a]) t ↔ a ≤ t ∧ t < a + d := by
  unfold Next
  simp

theorem Paced.mono {d d' : Nat} (h : d ≤ d') {ts : List Nat} (hp : Paced d ts) : Paced d' ts :=
  hp.imp fun _ _ hab => ⟨hab.1, by omega⟩

theorem Next.mono {d d' : Nat} (h : d ≤ d') {ts : List Nat} {t : Nat} (hn : Next d ts t) :
    Next d' ts t := by
  intro a ha
  have hat := hn a ha
  exact ⟨hat.1, by omega⟩

end Clock
