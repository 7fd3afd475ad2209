import Mathlib.Logic.Function.Iterate
import Mathlib.Algebra.BigOperators.Group.List.Basic
import Mathlib.Tactic.Common
import Mathlib.Tactic.Ring

/-!
# Round robin

The first of a queue has its turn, and goes to the end when the ticks of the turn are over; the next
turn of each has all its ticks again.

* `tick`           one tick;
* `ticks_pass`     what is left of the turns of some, and they stand behind the others;
* `ticks_rounds`   after whole rounds the queue is as it was;
* `first_round`, `later_rounds`   whose turn it is, at every tick.
-/

namespace Robin

variable {ι : Type}

/-- whose turn it is, the ticks left of it, and the ticks of a whole turn -/
@[ext]
structure Turn (ι : Type) where
  who : ι
  left : Nat
  slice : Nat
  left_pos : 0 < left
  slice_pos : 0 < slice

/-- the next turn -/
def Turn.renew (x : Turn ι) : Turn ι where
  who := x.who
  left := x.slice
  slice := x.slice
  left_pos := x.slice_pos
  slice_pos := x.slice_pos

/-- one tick less, of a turn that goes on -/
def Turn.shorten (x : Turn ι) (h : x.left ≠ 1) : Turn ι where
  who := x.who
  left := x.left - 1
  slice := x.slice
  left_pos := by
    have := x.left_pos
    omega
  slice_pos := x.slice_pos

def tick : List (Turn ι) → List (Turn ι)
  | [] => []
  | x :: q => if h : x.left = 1 then q ++ [x.renew] else x.shorten h :: q

theorem tick_over {x : Turn ι} (h : x.left = 1) (q : List (Turn ι)) :
    tick (x :: q) = q ++ [x.renew] := dif_pos h

theorem tick_on {x : Turn ι} (h : x.left ≠ 1) (q : List (Turn ι)) :
    tick (x :: q) = x.shorten h :: q := dif_neg h

/-! ## one turn -/

/-- during a turn the queue stays -/
theorem ticks_within (m : Nat) (x : Turn ι) (q : List (Turn ι)) (hm : m < x.left) :
    ∃ y, tick^[m] (x :: q) = y :: q ∧ y.who = x.who := by
  induction m generalizing x with
  | zero => exact ⟨x, rfl, rfl⟩
  | succ m ih =>
    have h : x.left ≠ 1 := by omega
    rw [Function.iterate_succ_apply, tick_on h]
    exact ih (x.shorten h) (show m < x.left - 1 by omega)

theorem ticks_turn (x : Turn ι) (q : List (Turn ι)) : tick^[x.left] (x :: q) = q ++ [x.renew] := by
  obtain ⟨n, hn⟩ : ∃ n, x.left = n + 1 := ⟨x.left - 1, by have := x.left_pos; omega⟩
  rw [hn]
  induction n generalizing x with
  | zero => exact tick_over hn q
  | succ n ih =>
    have h : x.left ≠ 1 := by omega
    rw [Function.iterate_succ_apply, tick_on h]
    exact ih (x.shorten h) (show x.left - 1 = n + 1 by omega)

/-! ## rounds -/

/-- the ticks left of all turns in the list -/
def left (q : List (Turn ι)) : Nat := (q.map Turn.left).sum

/-- the ticks of a whole round -/
def round (q : List (Turn ι)) : Nat := (q.map Turn.slice).sum

theorem left_renew (q : List (Turn ι)) : left (q.map Turn.renew) = round q := by
  unfold left round
  rw [List.map_map]
  rfl

theorem renew_renew (q : List (Turn ι)) :
    (q.map Turn.renew).map Turn.renew = q.map Turn.renew := by
  rw [List.map_map]
  rfl

theorem ticks_pass (a b : List (Turn ι)) : tick^[left a] (a ++ b) = b ++ a.map Turn.renew := by
  induction a generalizing b with
  | nil => exact (List.append_nil b).symm
  | cons x a ih =>
    have hsum : left (x :: a) = left a + x.left := by
      unfold left
      rw [List.map_cons, List.sum_cons, Nat.add_comm]
    rw [hsum, Function.iterate_add_apply, List.cons_append, ticks_turn, List.append_assoc, ih,
      List.append_assoc]
    rfl

theorem ticks_round (q : List (Turn ι)) : tick^[left q] q = q.map Turn.renew := by
  have h := ticks_pass q []
  rw [List.append_nil] at h
  exact h

theorem ticks_rounds (r : Nat) (q : List (Turn ι)) :
    tick^[r * round q] (q.map Turn.renew) = q.map Turn.renew := by
  induction r with
  | zero => rw [Nat.zero_mul]; rfl
  | succ r ih =>
    rw [Nat.succ_mul, Function.iterate_add_apply, ← left_renew q, ticks_round, renew_renew,
      left_renew]
    exact ih

/-! ## whose turn it is -/

/-- **the first round** -/
theorem first_round (a b : List (Turn ι)) (x : Turn ι) (m : Nat) (hm : m < x.left) :
    ∃ y q, tick^[left a + m] (a ++ x :: b) = y :: q ∧ y.who = x.who := by
  rw [Nat.add_comm, Function.iterate_add_apply, ticks_pass, List.cons_append]
  obtain ⟨y, hy, hw⟩ := ticks_within m x (b ++ a.map Turn.renew) hm
  exact ⟨y, _, hy, hw⟩

/-- **all later rounds** -/
theorem later_rounds (a b : List (Turn ι)) (x : Turn ι) (r m : Nat) (hm : m < x.slice) :
    ∃ y q, tick^[left (a ++ x :: b) + r * round (a ++ x :: b) + round a + m] (a ++ x :: b) =
      y :: q ∧ y.who = x.who := by
  have e : left (a ++ x :: b) + r * round (a ++ x :: b) + round a + m =
      (round a + m) + (r * round (a ++ x :: b) + left (a ++ x :: b)) := by omega
  rw [e, Function.iterate_add_apply tick (round a + m), Function.iterate_add_apply tick (r * _),
    ticks_round, ticks_rounds, List.map_append, List.map_cons, ← left_renew a]
  exact first_round (a.map Turn.renew) (b.map Turn.renew) x.renew m hm

end Robin
