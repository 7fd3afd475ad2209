import LitterBox.Lib.Decimal

/-!
# JSON text without white space

The part of JSON made of integers, strings without escapes, and objects.  `print` writes a value,
`parse` reads a text.

* `parse_print`        what is printed is read back;
* `token_infix_print`  where a token `"key":d` occurs in the text of an object of integers: at the
                       members with that key whose number starts with `d`, and nowhere else.
-/

namespace Json

abbrev Text := List UInt8

inductive Value where
  | int (i : Int)
  | str (s : Text)
  | obj (ms : List (Text × Value))

def quote : UInt8 := 34
def comma : UInt8 := 44
def colon : UInt8 := 58
def backslash : UInt8 := 92
def lbrace : UInt8 := 123
def rbrace : UInt8 := 125

/-- the bytes that stand for themselves in a string -/
def inString (b : UInt8) : Bool := decide (32 ≤ b ∧ b ≠ quote ∧ b ≠ backslash)

/-- a string that needs no escape -/
def Unescaped (s : Text) : Prop := ∀ b ∈ s, inString b = true

instance (s : Text) : Decidable (Unescaped s) := List.decidableBAll _ s

theorem Unescaped.quote_notMem {s : Text} (h : Unescaped s) : quote ∉ s :=
  fun hq => absurd (h quote hq) (by decide)

mutual
/-- no string and no key needs an escape -/
def Plain : Value → Prop
  | .int _ => True
  | .str s => Unescaped s
  | .obj ms => PlainMembers ms
def PlainMembers : List (Text × Value) → Prop
  | [] => True
  | (k, v) :: ms => Unescaped k ∧ Plain v ∧ PlainMembers ms
end

/-! ## printing -/

def quoted (s : Text) : Text := quote :: (s ++ [quote])

mutual
def print : Value → Text
  | .int i => Decimal.ofInt i
  | .str s => quoted s
  | .obj ms => lbrace :: printMembers [] ms
/-- the members and the closing brace; `sep` comes before the first member -/
def printMembers (sep : Text) : List (Text × Value) → Text
  | [] => [rbrace]
  | (k, v) :: ms => sep ++ (quoted k ++ colon :: (print v ++ printMembers [comma] ms))
end

/-! ## reading -/

/-- the text after `t` -/
def expect (t l : Text) : Option Text := if t <+: l then some (l.drop t.length) else none

def parseString (l : Text) : Option (Text × Text) := do
  let l ← expect [quote] l
  let rest ← expect [quote] (l.dropWhile inString)
  return (l.takeWhile inString, rest)

mutual
/-- the value at the front of the text, and the rest; the number bounds the depth of the calls -/
def parseValue : Nat → Text → Option (Value × Text)
  | 0, _ => none
  | n + 1, l =>
    if l.head? = some quote then (parseString l).map fun r => (.str r.1, r.2)
    else if l.head? = some lbrace then (parseMembers n [] l.tail).map fun r => (.obj r.1, r.2)
    else (Decimal.parseInt l).map fun r => (.int r.1, r.2)
def parseMembers : Nat → Text → Text → Option (List (Text × Value) × Text)
  | 0, _, _ => none
  | n + 1, sep, l =>
    if l.head? = some rbrace then some ([], l.tail)
    else do
      let l ← expect sep l
      let (k, l) ← parseString l
      let l ← expect [colon] l
      let (v, l) ← parseValue n l
      let (ms, l) ← parseMembers n [comma] l
      return ((k, v) :: ms, l)
end

/-- the value of a text, all of it -/
def parse (l : Text) : Option Value :=
  match parseValue (l.length + 1) l with
  | some (v, []) => some v
  | _ => none

/-! ## what is printed is read back -/

theorem expect_append (t l : Text) : expect t (t ++ l) = some l := by
  unfold expect
  rw [if_pos (List.prefix_append t l), List.drop_left]

theorem expect_cons (b : UInt8) (l : Text) : expect [b] (b :: l) = some l := expect_append [b] l

theorem parseString_quoted {s : Text} (h : Unescaped s) (rest : Text) :
    parseString (quoted s ++ rest) = some (s, rest) := by
  have hq : ¬ inString quote = true := by decide
  have ht : (s ++ quote :: rest).takeWhile inString = s := by
    rw [List.takeWhile_append_of_pos h, List.takeWhile_cons_of_neg hq, List.append_nil]
  have hd : (s ++ quote :: rest).dropWhile inString = quote :: rest := by
    rw [List.dropWhile_append_of_pos h, List.dropWhile_cons_of_neg hq]
  have he : quoted s ++ rest = quote :: (s ++ quote :: rest) := by simp [quoted]
  unfold parseString
  rw [he, expect_cons]
  simp only [Option.bind_eq_bind, Option.bind_some, hd, expect_cons, ht]
  rfl

theorem ofInt_notMem (i : Int) : quote ∉ Decimal.ofInt i ∧ lbrace ∉ Decimal.ofInt i := by
  constructor
  · intro h
    cases Decimal.ofInt_mem h with
    | inl h => exact absurd h (by decide)
    | inr h => exact absurd h (by decide)
  · intro h
    cases Decimal.ofInt_mem h with
    | inl h => exact absurd h (by decide)
    | inr h => exact absurd h (by decide)

/-- an integer is told from a string and an object by its first byte -/
theorem ofInt_head (i : Int) (rest : Text) :
    (Decimal.ofInt i ++ rest).head? ≠ some quote ∧
    (Decimal.ofInt i ++ rest).head? ≠ some lbrace := by
  obtain ⟨hq, hb⟩ := ofInt_notMem i
  cases h : Decimal.ofInt i with
  | nil => exact absurd h (Decimal.ofInt_ne_nil i)
  | cons b l =>
    rw [h] at hq hb
    rw [List.cons_append, List.head?_cons]
    exact ⟨fun e => hq (Option.some.inj e ▸ List.mem_cons_self),
      fun e => hb (Option.some.inj e ▸ List.mem_cons_self)⟩

/-- the text after a value inside an object is no digit -/
theorem stops_printMembers (ms : List (Text × Value)) (rest : Text) :
    Decimal.Stops (printMembers [comma] ms ++ rest) := by
  cases ms with
  | nil => exact Decimal.stops_cons (by decide) rest
  | cons m ms => exact Decimal.stops_cons (by decide) _

theorem printMembers_cons_head {sep : Text} (hsep : sep = [] ∨ sep = [comma]) (k : Text) (v : Value)
    (ms : List (Text × Value)) (rest : Text) :
    (printMembers sep ((k, v) :: ms) ++ rest).head? ≠ some rbrace := by
  obtain rfl | rfl := hsep
  · exact fun e => absurd (Option.some.inj e) (by decide)
  · exact fun e => absurd (Option.some.inj e) (by decide)

mutual
theorem parseValue_print : ∀ (v : Value) (n : Nat) (rest : Text), Plain v → Decimal.Stops rest →
    (print v).length ≤ n → parseValue (n + 1) (print v ++ rest) = some (v, rest)
  | .int i, n, rest, _, hs, _ => by
    obtain ⟨hq, hb⟩ := ofInt_head i rest
    rw [print, parseValue, if_neg hq, if_neg hb, Decimal.parseInt_ofInt i hs]
    rfl
  | .str s, n, rest, hp, _, _ => by
    rw [Plain] at hp
    have hq : (quoted s ++ rest).head? = some quote := rfl
    rw [print, parseValue, if_pos hq, parseString_quoted hp]
    rfl
  | .obj ms, n, rest, hp, _, hn => by
    rw [Plain] at hp
    rw [print, List.length_cons] at hn
    obtain ⟨n, rfl⟩ : ∃ k, n = k + 1 := ⟨n - 1, by omega⟩
    have hm := parseMembers_print ms n [] rest (Or.inl rfl) hp (by omega)
    have hb : (lbrace :: printMembers [] ms ++ rest).head? = some lbrace := rfl
    rw [print, parseValue, hb, if_neg (by decide), if_pos rfl, List.cons_append, List.tail_cons, hm]
    rfl
theorem parseMembers_print : ∀ (ms : List (Text × Value)) (n : Nat) (sep rest : Text),
    sep = [] ∨ sep = [comma] → PlainMembers ms → (printMembers sep ms).length ≤ n + 1 →
    parseMembers (n + 1) sep (printMembers sep ms ++ rest) = some (ms, rest)
  | [], n, sep, rest, _, _, _ => by
    rw [printMembers, parseMembers]
    rfl
  | (k, v) :: ms, n, sep, rest, hsep, hp, hn => by
    rw [PlainMembers] at hp
    obtain ⟨hk, hv, hms⟩ := hp
    have hlen : (printMembers sep ((k, v) :: ms)).length =
        sep.length + k.length + 3 + (print v).length + (printMembers [comma] ms).length := by
      simp only [printMembers, quoted, List.length_append, List.length_cons, List.length_nil]
      omega
    rw [hlen] at hn
    obtain ⟨n, rfl⟩ : ∃ k, n = k + 1 := ⟨n - 1, by omega⟩
    have ihv := parseValue_print v n (printMembers [comma] ms ++ rest) hv
      (stops_printMembers ms rest) (by omega)
    have ihm := parseMembers_print ms n [comma] rest (Or.inr rfl) hms (by omega)
    have he : printMembers sep ((k, v) :: ms) ++ rest =
        sep ++ (quoted k ++ colon :: (print v ++ (printMembers [comma] ms ++ rest))) := by
      simp only [printMembers, List.append_assoc, List.cons_append]
    rw [parseMembers, if_neg (printMembers_cons_head hsep k v ms rest), he, expect_append]
    simp only [Option.bind_eq_bind, Option.bind_some, parseString_quoted hk, expect_cons, ihv, ihm]
    rfl
end

/-- **what is printed is read back** -/
theorem parse_print {v : Value} (h : Plain v) : parse (print v) = some v := by
  have hv := parseValue_print v (print v).length [] h Decimal.stops_nil (Nat.le_refl _)
  rw [List.append_nil] at hv
  unfold parse
  rw [hv]

/-! ## the length and the bytes of a text -/

theorem printMembers_length (ms : List (Text × Value)) (sep : Text) (hsep : sep.length ≤ 1) :
    (printMembers sep ms).length ≤ 1 + (ms.map fun m => m.1.length).sum +
      (ms.map fun m => (print m.2).length).sum + 4 * ms.length := by
  induction ms generalizing sep with
  | nil => exact Nat.le_refl _
  | cons m ms ih =>
    have hms := ih [comma] (Nat.le_refl _)
    simp only [printMembers, quoted, List.length_append, List.length_cons, List.length_nil,
      List.map_cons, List.sum_cons]
    omega

/-- keys, values, two braces, and for each member two quotes, a colon and a comma -/
theorem print_obj_length (ms : List (Text × Value)) :
    (print (.obj ms)).length ≤ 2 + (ms.map fun m => m.1.length).sum +
      (ms.map fun m => (print m.2).length).sum + 4 * ms.length := by
  have h := printMembers_length ms [] (Nat.zero_le _)
  rw [print, List.length_cons]
  omega

theorem quoted_length (s : Text) : (quoted s).length = s.length + 2 := by
  rw [quoted, List.length_cons, List.length_append]
  rfl

theorem zero_notMem_quoted {s : Text} (h : Unescaped s) : 0 ∉ quoted s := by
  simp only [quoted, List.mem_cons, List.mem_append, not_or]
  exact ⟨by decide, fun hs => absurd (h 0 hs) (by decide), by decide, List.not_mem_nil⟩

theorem zero_notMem_ofInt (i : Int) : 0 ∉ Decimal.ofInt i := by
  intro h
  cases Decimal.ofInt_mem h with
  | inl h => exact absurd h (by decide)
  | inr h => exact absurd h (by decide)

mutual
theorem zero_notMem_print : ∀ v : Value, Plain v → 0 ∉ print v
  | .int i, _ => zero_notMem_ofInt i
  | .str s, h => by
    rw [Plain] at h
    exact zero_notMem_quoted h
  | .obj ms, h => by
    rw [Plain] at h
    rw [print, List.mem_cons, not_or]
    exact ⟨by decide, zero_notMem_printMembers ms [] List.not_mem_nil h⟩
theorem zero_notMem_printMembers : ∀ (ms : List (Text × Value)) (sep : Text), 0 ∉ sep →
    PlainMembers ms → 0 ∉ printMembers sep ms
  | [], _, _, _ => by
    rw [printMembers]
    decide
  | (k, v) :: ms, sep, hsep, h => by
    rw [PlainMembers] at h
    obtain ⟨hk, hv, hms⟩ := h
    have hcomma : (0 : UInt8) ∉ [comma] := by decide
    simp only [printMembers, List.mem_append, List.mem_cons, not_or]
    exact ⟨hsep, zero_notMem_quoted hk, by decide, zero_notMem_print v hv,
      zero_notMem_printMembers ms [comma] hcomma hms⟩
end

/-! ## searching -/

/-- `"key":d` -/
def token (key : Text) (d : UInt8) : Text := quoted key ++ [colon, d]

/-- a text that starts with a quote is not found inside a stretch without quotes -/
theorem infix_append_of_notMem {s : Text} (h : quote ∉ s) (t l : Text) :
    quote :: t <:+: s ++ l ↔ quote :: t <:+: l := by
  induction s with
  | nil => exact Iff.rfl
  | cons b s ih =>
    rw [List.mem_cons, not_or] at h
    rw [List.cons_append, List.infix_cons_iff, ih h.2, List.cons_prefix_cons]
    exact or_iff_right fun hp => h.1 hp.1

/-- up to the closing quote two keys are the same or differ -/
theorem key_prefix_key {K k : Text} (hK : quote ∉ K) (hk : quote ∉ k) (A B : Text) :
    K ++ quote :: A <+: k ++ quote :: B ↔ K = k ∧ A <+: B := by
  induction K generalizing k with
  | nil =>
    cases k with
    | nil => simp
    | cons c k =>
      have hc : quote ≠ c := fun e => hk (e ▸ List.mem_cons_self)
      simp [hc]
  | cons b K ih =>
    rw [List.mem_cons, not_or] at hK
    cases k with
    | nil => simp [Ne.symm hK.1]
    | cons c k =>
      rw [List.mem_cons, not_or] at hk
      rw [List.cons_append, List.cons_append, List.cons_prefix_cons, ih hK.2 hk.2, List.cons.injEq,
        and_assoc]

/-- a token cannot start at the closing quote of a key -/
theorem token_not_at_close {K : Text} (hK : K.head? ≠ some colon) (d : UInt8) (l : Text) :
    ¬ token K d <+: quote :: colon :: l := by
  unfold token quoted
  rw [List.cons_append, List.cons_prefix_cons]
  rintro ⟨-, h⟩
  cases K with
  | nil => exact absurd (List.cons_prefix_cons.mp h).1 (by decide)
  | cons b K => exact hK (congrArg some (List.cons_prefix_cons.mp h).1)

/-- a token at the opening quote of a member -/
theorem token_at_open {K k : Text} (hK : quote ∉ K) (hk : quote ∉ k) (d : UInt8) (i : Int)
    (l : Text) : token K d <+: quoted k ++ colon :: (Decimal.ofInt i ++ l) ↔
      k = K ∧ (Decimal.ofInt i).head? = some d := by
  have hd : [d] <+: Decimal.ofInt i ++ l ↔ (Decimal.ofInt i).head? = some d := by
    cases h : Decimal.ofInt i with
    | nil => exact absurd h (Decimal.ofInt_ne_nil i)
    | cons b t => simp [eq_comm]
  unfold token quoted
  simp only [List.cons_append, List.append_assoc, List.nil_append, List.cons_prefix_cons, true_and]
  rw [key_prefix_key hK hk, List.cons_prefix_cons, hd, eq_comm]
  simp only [true_and]

/-- the members of an object of integers -/
def intMembers (ms : List (Text × Int)) : List (Text × Value) := ms.map fun m => (m.1, .int m.2)

/-- a token and one member: at its key, or after it -/
theorem token_infix_member {K k sep : Text} (hK : quote ∉ K) (hc : K.head? ≠ some colon)
    (hk : quote ∉ k) (hsep : quote ∉ sep) (d : UInt8) (i : Int) (l : Text) :
    token K d <:+: sep ++ (quoted k ++ colon :: (Decimal.ofInt i ++ l)) ↔
      k = K ∧ (Decimal.ofInt i).head? = some d ∨ token K d <:+: l := by
  have hskip : ∀ {s : Text}, quote ∉ s → ∀ l, token K d <:+: s ++ l ↔ token K d <:+: l :=
    fun h l => infix_append_of_notMem h _ l
  have hv : quote ∉ colon :: Decimal.ofInt i := by
    rw [List.mem_cons, not_or]
    exact ⟨by decide, (ofInt_notMem i).1⟩
  have hopen : quoted k ++ colon :: (Decimal.ofInt i ++ l) =
      quote :: (k ++ quote :: colon :: (Decimal.ofInt i ++ l)) := by simp [quoted]
  have hafter : token K d <:+: k ++ quote :: colon :: (Decimal.ofInt i ++ l) ↔
      token K d <:+: l := by
    rw [hskip hk, List.infix_cons_iff, or_iff_right (token_not_at_close hc d _)]
    exact hskip hv l
  have hprefix := token_at_open hK hk d i l
  rw [hopen] at hprefix
  rw [hskip hsep, hopen, List.infix_cons_iff, hprefix, hafter]

/-- a token and the text of the members: at a member, or nowhere -/
theorem token_infix_printMembers {K : Text} (hK : quote ∉ K) (hc : K.head? ≠ some colon)
    (d : UInt8) (ms : List (Text × Int)) (hms : ∀ m ∈ ms, quote ∉ m.1) {sep : Text}
    (hsep : quote ∉ sep) : token K d <:+: printMembers sep (intMembers ms) ↔
      ∃ m ∈ ms, m.1 = K ∧ (Decimal.ofInt m.2).head? = some d := by
  induction ms generalizing sep with
  | nil =>
    have hb : quote ∉ [rbrace] := by decide
    have hn : ¬ token K d <:+: [rbrace] ++ [] := by
      rw [token, quoted, List.cons_append, infix_append_of_notMem hb, List.infix_nil]
      exact List.cons_ne_nil _ _
    simpa [intMembers, printMembers] using hn
  | cons m ms ih =>
    have hm := token_infix_member hK hc (hms m List.mem_cons_self) hsep d m.2
      (printMembers [comma] (intMembers ms))
    have hcomma : quote ∉ [comma] := by decide
    rw [ih (fun x hx => hms x (List.mem_cons_of_mem m hx)) hcomma] at hm
    rw [List.exists_mem_cons_iff]
    exact hm

/-- **a token occurs at the members with its key whose number starts with its digit** -/
theorem token_infix_print {K : Text} (hK : quote ∉ K) (hc : K.head? ≠ some colon) (d : UInt8)
    {ms : List (Text × Int)} (hms : ∀ m ∈ ms, quote ∉ m.1) :
    token K d <:+: print (.obj (intMembers ms)) ↔
      ∃ m ∈ ms, m.1 = K ∧ (Decimal.ofInt m.2).head? = some d := by
  have hb : quote ∉ [lbrace] := by decide
  have h := infix_append_of_notMem hb (K ++ [quote] ++ [colon, d]) (printMembers [] (intMembers ms))
  rw [print]
  exact h.trans (token_infix_printMembers hK hc d ms hms List.not_mem_nil)

end Json
