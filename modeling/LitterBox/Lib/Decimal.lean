import Mathlib.Data.Nat.Digits.Lemmas
import Mathlib.Tactic.Common

/-!
# Numbers in decimal text

Text is a list of bytes.  `ofNat` and `ofInt` print a number as C and JSON do: no leading zero, a
minus sign in front of a negative one.  `parseInt` reads the longest such text at the front.

* `toNat_ofNat`           the digits have the value of the number;
* `parseInt_ofInt`        what is printed is read back, whatever follows that is not a digit;
* `ofNat_length`          how long the text can get.
-/

namespace Decimal

/-! ## digits -/

/-- the byte of a digit -/
def digit (d : Nat) : UInt8 := UInt8.ofNat (48 + d)

def isDigit (b : UInt8) : Bool := decide (48 ≤ b ∧ b ≤ 57)

/-- the minus sign -/
def minus : UInt8 := 45

theorem digit_toNat {d : Nat} (h : d < 10) : (digit d).toNat = 48 + d := by
  unfold digit
  rw [UInt8.toNat_ofNat']
  exact Nat.mod_eq_of_lt (by omega)

theorem isDigit_digit {d : Nat} (h : d < 10) : isDigit (digit d) = true := by
  unfold isDigit
  rw [decide_eq_true_eq, UInt8.le_iff_toNat_le, UInt8.le_iff_toNat_le, digit_toNat h]
  have h48 : (48 : UInt8).toNat = 48 := rfl
  have h57 : (57 : UInt8).toNat = 57 := rfl
  omega

/-! ## natural numbers -/

/-- the text of a natural number -/
def ofNat (n : Nat) : List UInt8 :=
  if n = 0 then [digit 0] else (Nat.digits 10 n).reverse.map digit

/-- the value of a text of digits -/
def toNat (l : List UInt8) : Nat := l.foldl (fun a b => 10 * a + (b.toNat - 48)) 0

theorem ofNat_isDigit (n : Nat) : ∀ b ∈ ofNat n, isDigit b = true := by
  intro b hb
  unfold ofNat at hb
  split at hb
  · rw [List.mem_singleton.mp hb]
    rfl
  · obtain ⟨d, hd, rfl⟩ := List.mem_map.mp hb
    exact isDigit_digit (Nat.digits_lt_base (by decide) (List.mem_reverse.mp hd))

theorem ofNat_ne_nil (n : Nat) : ofNat n ≠ [] := by
  unfold ofNat
  split
  · exact List.cons_ne_nil _ _
  next h =>
    rw [Ne, List.map_eq_nil_iff, List.reverse_eq_nil_iff]
    exact Nat.digits_ne_nil_iff_ne_zero.mpr h

/-- the value of the digits, most significant first -/
theorem foldl_digit (l : List Nat) (hl : ∀ d ∈ l, d < 10) (a : Nat) :
    (l.map digit).foldl (fun a b => 10 * a + (b.toNat - 48)) a =
      l.foldl (fun a d => 10 * a + d) a := by
  induction l generalizing a with
  | nil => rfl
  | cons d l ih =>
    rw [List.map_cons, List.foldl_cons, List.foldl_cons, digit_toNat (hl d List.mem_cons_self),
      Nat.add_sub_cancel_left]
    exact ih (fun x hx => hl x (List.mem_cons_of_mem d hx)) _

/-- **the digits have the value of the number** -/
theorem toNat_ofNat (n : Nat) : toNat (ofNat n) = n := by
  unfold toNat ofNat
  split
  next h =>
    rw [h]
    rfl
  · rw [foldl_digit _ fun d hd => Nat.digits_lt_base (by decide) (List.mem_reverse.mp hd),
      List.foldl_reverse]
    have h := Nat.ofDigits_digits 10 n
    rw [Nat.ofDigits_eq_foldr] at h
    conv_rhs => rw [← h]
    congr 1
    funext d a
    exact Nat.add_comm _ _

theorem ofNat_leading {n : Nat} {l : List UInt8} (h : ofNat n = digit 0 :: l) : l = [] := by
  unfold ofNat at h
  split at h
  · exact (List.cons.inj h).2.symm
  next hn =>
    exfalso
    obtain ⟨d, t, hrev, hd, -⟩ := List.map_eq_cons_iff.mp h
    have hdig : Nat.digits 10 n = t.reverse ++ [d] := by
      rw [← List.reverse_reverse (Nat.digits 10 n), hrev, List.reverse_cons]
    have hlt : d < 10 := Nat.digits_lt_base (b := 10) (m := n) (by decide) (by rw [hdig]; simp)
    have h0 : d = 0 := by
      have ht := congrArg UInt8.toNat hd
      rw [digit_toNat hlt, digit_toNat (by decide)] at ht
      omega
    have hlast := Nat.getLast_digit_ne_zero 10 hn
    simp only [hdig, List.getLast_append_singleton] at hlast
    exact hlast h0

theorem ofNat_length {n k : Nat} (hk : 0 < k) : (ofNat n).length ≤ k ↔ n < 10 ^ k := by
  unfold ofNat
  split
  next h =>
    rw [h]
    exact ⟨fun _ => Nat.pow_pos (by decide), fun _ => hk⟩
  · rw [List.length_map, List.length_reverse]
    exact Nat.digits_length_le_iff (by decide) n

/-! ## reading -/

/-- no digit comes next -/
def Stops (rest : List UInt8) : Prop := ∀ b ∈ rest.head?, isDigit b = false

theorem stops_nil : Stops [] := fun _ h => nomatch h

theorem stops_cons {b : UInt8} (h : isDigit b = false) (l : List UInt8) : Stops (b :: l) := by
  intro c hc
  rw [← Option.some.inj hc]
  exact h

/-- the number at the front of the text, without leading zeros, and the rest -/
def parseNat (l : List UInt8) : Option (Nat × List UInt8) :=
  let ds := l.takeWhile isDigit
  if ds = [] ∨ ds.head? = some (digit 0) ∧ ds ≠ [digit 0] then none
  else some (toNat ds, l.dropWhile isDigit)

theorem takeWhile_ofNat (n : Nat) {rest : List UInt8} (h : Stops rest) :
    (ofNat n ++ rest).takeWhile isDigit = ofNat n ∧
    (ofNat n ++ rest).dropWhile isDigit = rest := by
  have hd := ofNat_isDigit n
  rw [List.takeWhile_append_of_pos hd, List.dropWhile_append_of_pos hd]
  cases rest with
  | nil => exact ⟨List.append_nil _, rfl⟩
  | cons b rest =>
    have hb : ¬ isDigit b = true := Bool.eq_false_iff.mp (h b rfl)
    rw [List.takeWhile_cons_of_neg hb, List.dropWhile_cons_of_neg hb, List.append_nil]
    exact ⟨rfl, rfl⟩

theorem parseNat_ofNat (n : Nat) {rest : List UInt8} (h : Stops rest) :
    parseNat (ofNat n ++ rest) = some (n, rest) := by
  obtain ⟨ht, hd⟩ := takeWhile_ofNat n h
  have hok : ¬ (ofNat n = [] ∨ (ofNat n).head? = some (digit 0) ∧ ofNat n ≠ [digit 0]) := by
    rintro (e | ⟨e, hne⟩)
    · exact ofNat_ne_nil n e
    · obtain ⟨l, hl⟩ := List.head?_eq_some_iff.mp e
      exact hne (by rw [hl, ofNat_leading hl])
  unfold parseNat
  dsimp only
  rw [ht, hd, if_neg hok, toNat_ofNat]

/-! ## integers -/

/-- the text of an integer -/
def ofInt (i : Int) : List UInt8 :=
  if i < 0 then minus :: ofNat i.natAbs else ofNat i.natAbs

def parseInt : List UInt8 → Option (Int × List UInt8)
  | [] => none
  | b :: l =>
    if b = minus then (parseNat l).map fun r => (-(r.1 : Int), r.2)
    else (parseNat (b :: l)).map fun r => ((r.1 : Int), r.2)

theorem ofInt_natCast (n : Nat) : ofInt n = ofNat n := by
  unfold ofInt
  rw [if_neg (by omega), Int.natAbs_natCast]

theorem ofNat_head_ne_minus {n : Nat} {b : UInt8} {l : List UInt8} (h : ofNat n = b :: l) :
    b ≠ minus := by
  intro e
  have hb := ofNat_isDigit n b (by rw [h]; exact List.mem_cons_self)
  rw [e] at hb
  exact absurd hb (by decide)

/-- **what is printed is read back** -/
theorem parseInt_ofInt (i : Int) {rest : List UInt8} (h : Stops rest) :
    parseInt (ofInt i ++ rest) = some (i, rest) := by
  unfold ofInt
  split
  next hi =>
    rw [List.cons_append]
    unfold parseInt
    dsimp only
    rw [if_pos rfl, parseNat_ofNat _ h, Option.map_some]
    rw [show -((i.natAbs : Nat) : Int) = i by omega]
  next hi =>
    cases hn : ofNat i.natAbs with
    | nil => exact absurd hn (ofNat_ne_nil _)
    | cons b l =>
      have hp := parseNat_ofNat i.natAbs h
      rw [hn] at hp
      rw [List.cons_append] at hp ⊢
      unfold parseInt
      dsimp only
      rw [if_neg (ofNat_head_ne_minus hn), hp, Option.map_some]
      rw [show ((i.natAbs : Nat) : Int) = i by omega]

theorem ofInt_mem {i : Int} {b : UInt8} (h : b ∈ ofInt i) : b = minus ∨ isDigit b = true := by
  unfold ofInt at h
  split at h
  · obtain rfl | h := List.mem_cons.mp h
    · exact Or.inl rfl
    · exact Or.inr (ofNat_isDigit _ b h)
  · exact Or.inr (ofNat_isDigit _ b h)

theorem ofInt_ne_nil (i : Int) : ofInt i ≠ [] := by
  unfold ofInt
  split
  · exact List.cons_ne_nil _ _
  · exact ofNat_ne_nil _

/-- the text of a non-negative integer below a power of ten -/
theorem ofInt_length_of_nonneg {i : Int} {k : Nat} (hk : 0 < k) (h0 : 0 ≤ i) (h : i < 10 ^ k) :
    (ofInt i).length ≤ k := by
  unfold ofInt
  rw [if_neg (by omega), ofNat_length hk]
  zify
  rw [abs_of_nonneg h0]
  exact h

/-- the text of an integer whose magnitude is below a power of ten -/
theorem ofInt_length {i : Int} {k : Nat} (hk : 0 < k) (h : i.natAbs < 10 ^ k) :
    (ofInt i).length ≤ k + 1 := by
  have hn := (ofNat_length hk).mpr h
  unfold ofInt
  split
  · exact Nat.succ_le_succ hn
  · exact Nat.le_succ_of_le hn

end Decimal
