import Mathlib.Logic.Function.Basic
import Mathlib.Tactic.Common

/-!
# A queue in a ring of cells

`cap` cells hold the queue `l`, oldest element first, from the cell `out` on; the next element
goes to the cell `inn`.  Offsets go round by a comparison, not by a remainder.

* `slot cap out k`   the cell of the `k`-th element;
* `Holds`            the cells hold the queue;
* `Holds.push`, `Holds.pop`, `Holds.unpop`   the three operations, and which cell they touch.
-/

namespace Ring

variable {α : Type} {cap out inn : Nat} {cells : Nat → α} {l : List α}

/-- one cell on -/
def next (cap i : Nat) : Nat := if cap ≤ i + 1 then 0 else i + 1

/-- one cell back -/
def prev (cap i : Nat) : Nat := if 0 < i then i - 1 else cap - 1

/-- `k` cells on from `i`, less than a round -/
def slot (cap i k : Nat) : Nat := if i + k < cap then i + k else i + k - cap

theorem slot_lt {i k : Nat} (hi : i < cap) (hk : k ≤ cap) : slot cap i k < cap := by
  unfold slot
  split <;> omega

theorem slot_inj {i j k : Nat} (hj : j < cap) (hk : k < cap)
    (h : slot cap i j = slot cap i k) : j = k := by
  unfold slot at h
  split at h <;> split at h <;> omega

theorem slot_next {i k : Nat} (hi : i < cap) (hk : k < cap) :
    slot cap (next cap i) k = slot cap i (k + 1) := by
  unfold slot next
  by_cases h : cap ≤ i + 1
  · rw [if_pos h, if_pos (by omega), if_neg (by omega)]
    omega
  · rw [if_neg h, Nat.add_right_comm]
    rfl

theorem next_slot {i k : Nat} (hi : i < cap) (hk : k < cap) :
    next cap (slot cap i k) = slot cap i (k + 1) := by
  unfold slot next
  split <;> split <;> split <;> omega

theorem next_lt {i : Nat} (hi : i < cap) : next cap i < cap := by
  unfold next
  split <;> omega

theorem prev_lt {i : Nat} (hi : i < cap) : prev cap i < cap := by
  unfold prev
  split <;> omega

theorem next_prev {i : Nat} (hi : i < cap) : next cap (prev cap i) = i := by
  unfold next prev
  split <;> split <;> omega

/-- **the cells hold the queue** -/
structure Holds (cap : Nat) (cells : Nat → α) (out inn : Nat) (l : List α) : Prop where
  fits : l.length ≤ cap
  start : out < max 1 cap
  stop : inn = slot cap out l.length
  cell : ∀ k (h : k < l.length), cells (slot cap out k) = l.get ⟨k, h⟩

theorem Holds.empty (cap : Nat) (cells : Nat → α) : Holds cap cells 0 0 [] where
  fits := Nat.zero_le cap
  start := by omega
  stop := by
    unfold slot
    split
    · rfl
    · exact (Nat.zero_sub cap).symm
  cell k h := absurd h (Nat.not_lt_zero k)

theorem Holds.inn_lt (h : Holds cap cells out inn l) (hlt : l.length < cap) : inn < cap := by
  have hs := h.start
  rw [h.stop]
  exact slot_lt (by omega) h.fits

theorem Holds.out_lt (h : Holds cap cells out inn l) (hne : l ≠ []) : out < cap := by
  have hs := h.start
  have hl := h.fits
  have hpos := List.length_pos_iff.mpr hne
  omega

/-- at the end of the queue -/
theorem Holds.push (h : Holds cap cells out inn l) (hlt : l.length < cap) (v : α) :
    Holds cap (Function.update cells inn v) out (next cap inn) (l ++ [v]) := by
  have hout : out < cap := by
    have hs := h.start
    omega
  refine ⟨?_, h.start, ?_, fun k hk => ?_⟩
  · rw [List.length_append]
    exact hlt
  · rw [h.stop, List.length_append, next_slot hout hlt]
    rfl
  · rw [List.length_append] at hk
    by_cases hlast : k = l.length
    · subst hlast
      rw [← h.stop, Function.update_self]
      simp
    · have hk' : k < l.length := by
        have hk1 : k < l.length + 1 := hk
        omega
      have hne : slot cap out k ≠ inn := by
        rw [h.stop]
        exact fun e => hlast (slot_inj (by omega) hlt e)
      rw [Function.update_of_ne hne, h.cell k hk']
      simp [List.getElem_append_left hk']

/-- the oldest element -/
theorem Holds.pop {v : α} (h : Holds cap cells out inn (v :: l)) :
    cells out = v ∧ Holds cap cells (next cap out) inn l := by
  have hout : out < cap := h.out_lt (List.cons_ne_nil v l)
  have hfits : l.length + 1 ≤ cap := h.fits
  refine ⟨?_, ⟨by omega, ?_, ?_, fun k hk => ?_⟩⟩
  · have h0 := h.cell 0 (Nat.succ_pos _)
    have e : slot cap out 0 = out := if_pos hout
    rwa [e] at h0
  · have hn := next_lt hout
    omega
  · rw [h.stop, slot_next hout hfits]
    rfl
  · rw [slot_next hout (by omega)]
    exact h.cell (k + 1) (Nat.succ_lt_succ hk)

/-- before the oldest element -/
theorem Holds.unpop (h : Holds cap cells out inn l) (hlt : l.length < cap) (v : α) :
    Holds cap (Function.update cells (prev cap out) v) (prev cap out) inn (v :: l) := by
  have hout : out < cap := by
    have hs := h.start
    omega
  have hp := prev_lt hout
  have step : ∀ k, k < cap → slot cap (prev cap out) (k + 1) = slot cap out k := by
    intro k hk
    rw [← slot_next hp hk, next_prev hout]
  refine ⟨hlt, by omega, ?_, fun k hk => ?_⟩
  · rw [h.stop]
    exact (step l.length hlt).symm
  · have e0 : slot cap (prev cap out) 0 = prev cap out := if_pos hp
    cases k with
    | zero =>
      rw [e0, Function.update_self]
      rfl
    | succ k =>
      have hk' : k < l.length := Nat.lt_of_succ_lt_succ hk
      have hne : slot cap (prev cap out) (k + 1) ≠ prev cap out := by
        intro e
        have h0 : k + 1 = 0 := slot_inj (by omega) (by omega) (e.trans e0.symm)
        omega
      rw [Function.update_of_ne hne, step k (by omega)]
      exact h.cell k hk'

end Ring
