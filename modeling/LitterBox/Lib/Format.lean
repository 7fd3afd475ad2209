import LitterBox.Lib.Json
import LitterBox.Lib.Search

/-!
# C strings and formatted printing

`format` is the output of `printf` for formats with `%d` and `%s`; `snprintf` puts a text into a
buffer, `cstr` reads a buffer up to its NUL and `strstr` searches what is read.

* `cstr_snprintf`   a text without NUL that fits is the string of the buffer;
* `format_spell`    a format that spells the shape of a JSON value prints the value.
-/

namespace Format
open Json (Text Value)

/-- the bytes of a string literal -/
def bytes (s : String) : Text := s.toList.map fun c => UInt8.ofNat c.toNat

/-! ## printf -/

inductive Arg where
  | int (i : Int)
  | str (s : Text)

def percent : UInt8 := 37

/-- the text of one conversion, `%d` or `%s` -/
def convert (c : UInt8) : Arg → Option Text
  | .int i => if c = 100 then some (Decimal.ofInt i) else none
  | .str s => if c = 115 then some s else none

/-- the output of `printf`; `none` where a conversion has no argument of its kind -/
def format : Text → List Arg → Option Text
  | [], _ => some []
  | b :: fmt, args =>
    if b = percent then
      match fmt, args with
      | c :: fmt, a :: args => (convert c a).bind fun t => (format fmt args).map (t ++ ·)
      | _, _ => none
    else (format fmt args).map (b :: ·)

theorem format_cons {b : UInt8} (h : b ≠ percent) (fmt : Text) (args : List Arg) :
    format (b :: fmt) args = (format fmt args).map (b :: ·) := by
  rw [format.eq_def (b :: fmt)]
  exact if_neg h

theorem format_append {s : Text} (h : percent ∉ s) (fmt : Text) (args : List Arg) :
    format (s ++ fmt) args = (format fmt args).map (s ++ ·) := by
  induction s with
  | nil => simp
  | cons b s ih =>
    rw [List.mem_cons, not_or] at h
    rw [List.cons_append, format_cons (Ne.symm h.1), ih h.2, Option.map_map]
    rfl

theorem format_int (i : Int) (fmt : Text) (args : List Arg) :
    format (percent :: 100 :: fmt) (.int i :: args) =
      (format fmt args).map (Decimal.ofInt i ++ ·) := by
  rw [format, if_pos rfl]
  rfl

theorem format_str (s fmt : Text) (args : List Arg) :
    format (percent :: 115 :: fmt) (.str s :: args) = (format fmt args).map (s ++ ·) := by
  rw [format, if_pos rfl]
  rfl

/-! ## buffers -/

/-- the string in a buffer -/
def cstr (buf : Text) : Text := buf.takeWhile fun b => b ≠ 0

/-- `strstr`: where `needle` first occurs in the string in a buffer -/
def strstr (buf needle : Text) : Option Nat := Search.find needle (cstr buf)

theorem cstr_eq_take (buf : Text) : cstr buf = buf.take (cstr buf).length :=
  List.prefix_iff_eq_take.mp (List.takeWhile_prefix _)

/-- the string goes on behind bytes that are not NUL -/
theorem cstr_append {text : Text} (h0 : 0 ∉ text) (buf : Text) :
    cstr (text ++ buf) = text ++ cstr buf := by
  have hpos : ∀ b ∈ text, decide (b ≠ 0) = true := by
    intro b hb
    rw [decide_eq_true_eq]
    rintro rfl
    exact h0 hb
  exact List.takeWhile_append_of_pos hpos

/-- the buffer after `snprintf`: what fits of the text, and a NUL -/
def snprintf (buf text : Text) : Text :=
  if buf = [] then []
  else
    let t := text.take (buf.length - 1)
    t ++ 0 :: buf.drop (t.length + 1)

/-- **a text without NUL that fits is the string of the buffer** -/
theorem cstr_snprintf {buf text : Text} (hfit : text.length < buf.length) (h0 : 0 ∉ text) :
    cstr (snprintf buf text) = text := by
  have hne : buf ≠ [] := by
    rintro rfl
    exact absurd hfit (Nat.not_lt_zero _)
  have ht : text.take (buf.length - 1) = text := List.take_of_length_le (by omega)
  unfold snprintf
  rw [if_neg hne]
  dsimp only
  rw [ht, cstr_append h0]
  unfold cstr
  rw [List.takeWhile_cons_of_neg (by decide), List.append_nil]

/-! ## formats that spell a JSON value -/

mutual
/-- the format with the shape and the keys of a value -/
def spell : Value → Text
  | .int _ => [percent, 100]
  | .str _ => Json.quoted [percent, 115]
  | .obj ms => Json.lbrace :: spellMembers [] ms
def spellMembers (sep : Text) : List (Text × Value) → Text
  | [] => [Json.rbrace]
  | (k, v) :: ms =>
    sep ++ (Json.quoted k ++ Json.colon :: (spell v ++ spellMembers [Json.comma] ms))
end

mutual
/-- the numbers and strings of a value, in order -/
def args : Value → List Arg
  | .int i => [.int i]
  | .str s => [.str s]
  | .obj ms => argsMembers ms
def argsMembers : List (Text × Value) → List Arg
  | [] => []
  | (_, v) :: ms => args v ++ argsMembers ms
end

mutual
/-- no key contains a percent sign -/
def NoPercent : Value → Prop
  | .int _ => True
  | .str _ => True
  | .obj ms => NoPercentMembers ms
def NoPercentMembers : List (Text × Value) → Prop
  | [] => True
  | (k, v) :: ms => percent ∉ k ∧ NoPercent v ∧ NoPercentMembers ms
end

mutual
theorem format_spell_append : ∀ (v : Value) (fmt : Text) (as : List Arg), NoPercent v →
    format (spell v ++ fmt) (args v ++ as) = (format fmt as).map (Json.print v ++ ·)
  | .int i, fmt, as, _ => format_int i fmt as
  | .str s, fmt, as, _ => by
    have hq : percent ∉ [Json.quote] := by decide
    have he : spell (.str s) ++ fmt = [Json.quote] ++ percent :: 115 :: ([Json.quote] ++ fmt) := rfl
    have ha : args (.str s) ++ as = .str s :: as := rfl
    rw [he, ha, format_append hq, format_str, format_append hq, Option.map_map, Option.map_map]
    congr 1
    funext t
    simp [Json.print, Json.quoted]
  | .obj ms, fmt, as, h => by
    rw [NoPercent] at h
    have hb : percent ∉ [Json.lbrace] := by decide
    have hm := format_spellMembers_append ms [] fmt as List.not_mem_nil h
    rw [spell, args, List.cons_append, ← List.singleton_append, format_append hb, hm,
      Option.map_map]
    congr 1
theorem format_spellMembers_append : ∀ (ms : List (Text × Value)) (sep fmt : Text)
    (as : List Arg), percent ∉ sep → NoPercentMembers ms →
    format (spellMembers sep ms ++ fmt) (argsMembers ms ++ as) =
      (format fmt as).map (Json.printMembers sep ms ++ ·)
  | [], sep, fmt, as, _, _ => by
    have hb : percent ∉ [Json.rbrace] := by decide
    exact format_append hb fmt as
  | (k, v) :: ms, sep, fmt, as, hsep, h => by
    rw [NoPercentMembers] at h
    obtain ⟨hk, hv, hms⟩ := h
    have hkey : percent ∉ sep ++ (Json.quoted k ++ [Json.colon]) := by
      simp only [Json.quoted, List.mem_append, List.mem_cons, not_or]
      exact ⟨hsep, ⟨by decide, hk, by decide, List.not_mem_nil⟩, by decide, List.not_mem_nil⟩
    have hcomma : percent ∉ [Json.comma] := by decide
    have he : spellMembers sep ((k, v) :: ms) ++ fmt =
        sep ++ (Json.quoted k ++ [Json.colon]) ++
          (spell v ++ (spellMembers [Json.comma] ms ++ fmt)) := by
      simp [spellMembers]
    have ha : argsMembers ((k, v) :: ms) ++ as = args v ++ (argsMembers ms ++ as) := by
      rw [argsMembers, List.append_assoc]
    have ihv := format_spell_append v (spellMembers [Json.comma] ms ++ fmt)
      (argsMembers ms ++ as) hv
    have ihm := format_spellMembers_append ms [Json.comma] fmt as hcomma hms
    rw [he, ha, format_append hkey, ihv, ihm, Option.map_map, Option.map_map]
    congr 1
    funext t
    simp [Json.printMembers]
end

/-- **a format that spells the shape of a JSON value prints the value** -/
theorem format_spell {v : Value} (h : NoPercent v) :
    format (spell v) (args v) = some (Json.print v) := by
  have hv := format_spell_append v [] [] h
  rw [List.append_nil, List.append_nil] at hv
  rw [hv, format, Option.map_some, List.append_nil]

end Format
