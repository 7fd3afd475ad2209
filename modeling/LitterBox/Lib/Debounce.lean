import Mathlib.Data.List.Chain
import Mathlib.Tactic.Common

/-!
# Debouncing a sampled value

A sample is a time and a value; the samples are listed newest first.  A value is taken over once
samples that span at least `d` have shown it without interruption:

* `HeldFor d x older`   the samples before `x` show its value back to a sample `d` before it;
* `debounced d a l`     the value taken over after the samples `l`, `a` at the beginning;
* `since v t l`         when the stretch of samples with the value `v` began.

`heldFor_iff` says that it is enough to keep the beginning of the stretch, which is what an
implementation does, and `debounced_glitch` that a short deviation is not seen at all.
-/

namespace Debounce

variable {α : Type}

/-- the value of `x` has been shown since a sample at least `d` before it -/
def HeldFor (d : Nat) (x : Nat × α) (older : List (Nat × α)) : Prop :=
  ∃ a y b, older = a ++ y :: b ∧ (∀ z ∈ a, z.2 = x.2) ∧ y.2 = x.2 ∧ y.1 + d ≤ x.1

theorem heldFor_nil (d : Nat) (x : Nat × α) : ¬ HeldFor d x [] := by
  rintro ⟨a, y, b, h, -⟩
  cases a <;> cases h

theorem heldFor_cons (d : Nat) (x y : Nat × α) (l : List (Nat × α)) :
    HeldFor d x (y :: l) ↔ y.2 = x.2 ∧ (y.1 + d ≤ x.1 ∨ HeldFor d x l) := by
  constructor
  · rintro ⟨a, z, b, h, ha, hz, ht⟩
    cases a with
    | nil =>
      obtain ⟨rfl, rfl⟩ := List.cons.inj h
      exact ⟨hz, Or.inl ht⟩
    | cons w a =>
      obtain ⟨rfl, rfl⟩ := List.cons.inj h
      exact ⟨ha y List.mem_cons_self,
        Or.inr ⟨a, z, b, rfl, fun v hv => ha v (List.mem_cons_of_mem y hv), hz, ht⟩⟩
  · rintro ⟨hy, ht | ⟨a, z, b, rfl, ha, hz, ht⟩⟩
    · exact ⟨[], y, l, rfl, fun v hv => absurd hv List.not_mem_nil, hy, ht⟩
    · refine ⟨y :: a, z, b, rfl, fun v hv => ?_, hz, ht⟩
      rcases List.mem_cons.mp hv with rfl | hv
      · exact hy
      · exact ha v hv

instance decHeldFor [DecidableEq α] (d : Nat) (x : Nat × α) :
    (l : List (Nat × α)) → Decidable (HeldFor d x l)
  | [] => .isFalse (heldFor_nil d x)
  | y :: l =>
    have := decHeldFor d x l
    decidable_of_iff _ (heldFor_cons d x y l).symm

/-- a value held is shown by the samples that span the time -/
theorem HeldFor.of_append {d : Nat} {x : Nat × α} {l c : List (Nat × α)}
    (h : HeldFor d x (l ++ c)) (hl : ∀ y ∈ l, x.1 < y.1 + d)
    (hc : ∀ y ∈ c.head?, y.2 ≠ x.2) : False := by
  induction l with
  | nil =>
    cases c with
    | nil => exact heldFor_nil d x h
    | cons y c => exact hc y rfl ((heldFor_cons d x y c).mp h).1
  | cons y l ih =>
    obtain ⟨-, hy⟩ := (heldFor_cons d x y (l ++ c)).mp h
    rcases hy with hy | hy
    · have hlt := hl y List.mem_cons_self
      omega
    · exact ih hy fun z hz => hl z (List.mem_cons_of_mem y hz)

/-- the times of the samples, newest first, never increase -/
def Ordered (t : Nat) (l : List (Nat × α)) : Prop := (t :: l.map (·.1)).IsChain (· ≥ ·)

theorem ordered_cons {t : Nat} {y : Nat × α} {l : List (Nat × α)} :
    Ordered t (y :: l) ↔ y.1 ≤ t ∧ Ordered y.1 l := by
  unfold Ordered
  rw [List.map_cons, List.isChain_cons_cons]

section debounced

variable [DecidableEq α]

/-- the value taken over -/
def debounced (d : Nat) (a : α) : List (Nat × α) → α
  | [] => a
  | x :: older => if HeldFor d x older then x.2 else debounced d a older

theorem debounced_held {d : Nat} {a : α} {x : Nat × α} {older : List (Nat × α)}
    (h : HeldFor d x older) : debounced d a (x :: older) = x.2 := if_pos h

theorem debounced_not_held {d : Nat} {a : α} {x : Nat × α} {older : List (Nat × α)}
    (h : ¬ HeldFor d x older) : debounced d a (x :: older) = debounced d a older := if_neg h

/-! ## the beginning of a stretch -/

/-- when the stretch of samples with the value `v` began; it went on at the time `t` -/
def since (v : α) (t : Nat) : List (Nat × α) → Nat
  | [] => t
  | y :: l => if y.2 = v then since v y.1 l else t

theorem since_cons {v : α} {t : Nat} {y : Nat × α} {l : List (Nat × α)} (h : y.2 = v) :
    since v t (y :: l) = since v y.1 l := if_pos h

theorem since_cons_of_ne {v : α} {t : Nat} {y : Nat × α} {l : List (Nat × α)} (h : y.2 ≠ v) :
    since v t (y :: l) = t := if_neg h

theorem since_le {v : α} {t : Nat} {l : List (Nat × α)} (h : Ordered t l) : since v t l ≤ t := by
  induction l generalizing t with
  | nil => exact Nat.le_refl t
  | cons y l ih =>
    obtain ⟨hy, hl⟩ := ordered_cons.mp h
    by_cases hv : y.2 = v
    · rw [since_cons hv]
      exact Nat.le_trans (ih hl) hy
    · rw [since_cons_of_ne hv]

/-- a value is held for `d` exactly if its stretch began `d` ago -/
theorem heldFor_iff {d : Nat} {x : Nat × α} {t : Nat} {l : List (Nat × α)} (h : Ordered t l)
    (ht : ¬ t + d ≤ x.1) : HeldFor d x l ↔ since x.2 t l + d ≤ x.1 := by
  induction l generalizing t with
  | nil => exact ⟨fun hh => absurd hh (heldFor_nil d x), fun hh => absurd hh ht⟩
  | cons y l ih =>
    obtain ⟨-, hl⟩ := ordered_cons.mp h
    rw [heldFor_cons]
    by_cases hv : y.2 = x.2
    · rw [since_cons hv]
      by_cases hy : y.1 + d ≤ x.1
      · have hle := since_le (v := x.2) hl
        exact ⟨fun _ => by omega, fun _ => ⟨hv, Or.inl hy⟩⟩
      · rw [← ih hl hy]
        exact ⟨fun hh => hh.2.resolve_left hy, fun hh => ⟨hv, Or.inr hh⟩⟩
    · rw [since_cons_of_ne hv]
      exact ⟨fun hh => absurd hh.1 hv, fun hh => absurd hh ht⟩

/-! ## short deviations -/

/-- **a short deviation is not seen**: samples `b` that span less than `d` and never show the value
taken over leave it as it is -/
theorem debounced_glitch {d : Nat} {a : α} {b c : List (Nat × α)}
    (hb : ∀ x ∈ b, x.2 ≠ debounced d a c) (hspan : ∀ x ∈ b, ∀ y ∈ b, x.1 < y.1 + d)
    (hc : ∀ y ∈ c.head?, y.2 = debounced d a c) : debounced d a (b ++ c) = debounced d a c := by
  induction b with
  | nil => rfl
  | cons x b ih =>
    have hn : ¬ HeldFor d x (b ++ c) := by
      intro hh
      refine hh.of_append (fun y hy => hspan x List.mem_cons_self y (List.mem_cons_of_mem x hy))
        fun y hy e => ?_
      exact hb x List.mem_cons_self (e ▸ hc y hy)
    rw [List.cons_append, debounced_not_held hn]
    exact ih (fun y hy => hb y (List.mem_cons_of_mem x hy)) fun y hy z hz =>
      hspan y (List.mem_cons_of_mem x hy) z (List.mem_cons_of_mem x hz)

end debounced

end Debounce
