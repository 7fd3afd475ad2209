import Mathlib.Data.List.Infix
import Mathlib.Tactic.Common

/-!
# Searching a word

`find t l` is the place where the word `t` first occurs in `l`.

* `infix_iff`        it is there exactly when the word occurs;
* `infix_take_iff`   a beginning of `l` contains the word exactly when this occurrence ends in it;
* `infix_take_congr` two beginnings agree on the word unless it ends between them.
-/

namespace Search

variable {α : Type} [DecidableEq α]

/-- where the word `t` first occurs in `l` -/
def find (t : List α) : List α → Option Nat
  | [] => if t = [] then some 0 else none
  | a :: l => if t <+: a :: l then some 0 else (find t l).map (· + 1)

theorem find_nil_word (l : List α) : find [] l = some 0 := by
  cases l with
  | nil => rfl
  | cons a l => exact if_pos List.nil_prefix

theorem find_le {t l : List α} {k : Nat} (h : k ∈ find t l) : k + t.length ≤ l.length := by
  induction l generalizing k with
  | nil =>
    unfold find at h
    split at h
    next ht =>
      cases h
      rw [ht]
      exact Nat.le_refl 0
    · cases h
  | cons a l ih =>
    unfold find at h
    split at h
    next hp =>
      cases h
      rw [Nat.zero_add]
      exact hp.length_le
    · obtain ⟨j, hj, rfl⟩ := Option.map_eq_some_iff.mp h
      have hle := ih hj
      rw [List.length_cons]
      omega

/-- **a beginning contains the word** exactly when the first occurrence ends in it -/
theorem infix_take_iff (t l : List α) (n : Nat) :
    t <:+: l.take n ↔ ∃ k ∈ find t l, k + t.length ≤ n := by
  by_cases ht : t = []
  · subst ht
    rw [find_nil_word]
    exact ⟨fun _ => ⟨0, rfl, Nat.zero_le n⟩, fun _ => List.nil_infix⟩
  have hpos : 0 < t.length := List.length_pos_iff.mpr ht
  induction l generalizing n with
  | nil =>
    rw [List.take_nil, List.infix_nil, find, if_neg ht]
    exact ⟨fun h => absurd h ht, fun ⟨_, hk, _⟩ => by cases hk⟩
  | cons a l ih =>
    cases n with
    | zero =>
      rw [List.take_zero, List.infix_nil]
      exact ⟨fun h => absurd h ht, fun ⟨_, _, hk⟩ => by omega⟩
    | succ n =>
      have hcons : t <:+: (a :: l).take (n + 1) ↔
          (t <+: a :: l ∧ t.length ≤ n + 1) ∨ t <:+: l.take n := by
        rw [← List.prefix_take_iff, List.take_succ_cons]
        exact List.infix_cons_iff
      rw [hcons, find]
      by_cases hp : t <+: a :: l
      · rw [if_pos hp]
        constructor
        · rintro (⟨-, hle⟩ | hi)
          · exact ⟨0, rfl, by omega⟩
          · have hle := hi.length_le
            rw [List.length_take] at hle
            exact ⟨0, rfl, by omega⟩
        · rintro ⟨k, hk, hle⟩
          cases hk
          exact Or.inl ⟨hp, by omega⟩
      · rw [if_neg hp]
        constructor
        · rintro (⟨hp', -⟩ | hi)
          · exact absurd hp' hp
          · obtain ⟨k, hk, hle⟩ := (ih n).mp hi
            exact ⟨k + 1, Option.mem_map_of_mem _ hk, by omega⟩
        · rintro ⟨k, hk, hle⟩
          obtain ⟨j, hj, rfl⟩ := Option.map_eq_some_iff.mp hk
          exact Or.inr ((ih n).mpr ⟨j, hj, by omega⟩)

theorem infix_iff (t l : List α) : t <:+: l ↔ (find t l).isSome = true := by
  have h := infix_take_iff t l l.length
  rw [List.take_length] at h
  refine h.trans ?_
  rw [Option.isSome_iff_exists]
  exact ⟨fun ⟨k, hk, _⟩ => ⟨k, hk⟩, fun ⟨k, hk⟩ => ⟨k, hk, find_le hk⟩⟩

/-- **two beginnings agree on the word** unless its first occurrence ends behind the end of the one
and not behind the end of the other -/
theorem infix_take_congr (t l : List α) (m n : Nat) :
    (t <:+: l.take m ↔ t <:+: l.take n) ↔
      (¬ ∃ k ∈ find t l, n < k + t.length ∧ k + t.length ≤ m) ∧
        ¬ ∃ k ∈ find t l, m < k + t.length ∧ k + t.length ≤ n := by
  rw [infix_take_iff, infix_take_iff]
  cases find t l with
  | none =>
    have no : ∀ {P : Nat → Prop}, ¬ ∃ k ∈ (none : Option Nat), P k := fun ⟨_, hk, _⟩ => by cases hk
    exact iff_of_true (iff_of_false no no) ⟨no, no⟩
  | some k =>
    have one : ∀ {P : Nat → Prop}, (∃ j ∈ some k, P j) ↔ P k :=
      ⟨fun ⟨j, hj, h⟩ => by cases hj; exact h, fun h => ⟨k, rfl, h⟩⟩
    rw [one, one, one, one]
    omega

end Search
