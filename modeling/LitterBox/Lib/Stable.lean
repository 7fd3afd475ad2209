import Mathlib.Data.List.Nodup
import Mathlib.Tactic.Common

/-!
# A queue in the order of its keys

`list` holds the elements of `armed`, which is in the order of arrival, by ascending keys; elements
with the same key stay in the order of arrival.

* `insert`   where a newcomer stands;
* `Queue`    the list is the queue, and what keeps it so; `Queue.head` is the one that leaves first;
* `split`    a sorted list falls into two at every key.
-/

namespace Stable

variable {α : Type} {key key' : α → Nat} {armed list : List α}

/-- behind the elements whose key is not greater -/
def insert (key : α → Nat) (x : α) : List α → List α
  | [] => [x]
  | y :: l => if key x < key y then x :: y :: l else y :: insert key x l

/-- ascending keys -/
def Sorted (key : α → Nat) (l : List α) : Prop := l.Pairwise fun a b => key a ≤ key b

/-- the elements with the key `d` -/
def atKey (key : α → Nat) (d : Nat) (l : List α) : List α := l.filter fun a => decide (key a = d)

/-- **the queue** -/
structure Queue (key : α → Nat) (armed list : List α) : Prop where
  sorted : Sorted key list
  same : ∀ d, atKey key d list = atKey key d armed

theorem mem_atKey {d : Nat} {x : α} {l : List α} : x ∈ atKey key d l ↔ x ∈ l ∧ key x = d := by
  unfold atKey
  rw [List.mem_filter, decide_eq_true_eq]

theorem atKey_congr {l : List α} (h : ∀ a ∈ l, key a = key' a) (d : Nat) :
    atKey key d l = atKey key' d l := by
  unfold atKey
  refine List.filter_congr fun a ha => ?_
  rw [h a ha]

theorem atKey_append (d : Nat) (a b : List α) : atKey key d (a ++ b) = atKey key d a ++ atKey key d b :=
  List.filter_append a b

theorem atKey_filter (p : α → Bool) (d : Nat) (l : List α) :
    atKey key d (l.filter p) = (atKey key d l).filter p := by
  unfold atKey
  rw [List.filter_filter, List.filter_filter]
  exact List.filter_congr fun a _ => Bool.and_comm _ _

/-! ## sorted lists -/

theorem mem_insert {x y : α} {l : List α} : y ∈ insert key x l ↔ y = x ∨ y ∈ l := by
  induction l with
  | nil => exact List.mem_cons
  | cons z l ih =>
    unfold insert
    split
    · exact List.mem_cons
    · rw [List.mem_cons, ih, List.mem_cons]
      exact or_left_comm

theorem insert_congr {x : α} {l : List α} (hx : key x = key' x) (h : ∀ a ∈ l, key a = key' a) :
    insert key x l = insert key' x l := by
  induction l with
  | nil => rfl
  | cons z l ih =>
    unfold insert
    rw [hx, h z List.mem_cons_self, ih fun a ha => h a (List.mem_cons_of_mem z ha)]

theorem insert_nodup {x : α} {l : List α} (hx : x ∉ l) (h : l.Nodup) : (insert key x l).Nodup := by
  induction l with
  | nil => exact List.nodup_singleton x
  | cons z l ih =>
    obtain ⟨hz, hl⟩ := List.nodup_cons.mp h
    unfold insert
    split
    · exact List.nodup_cons.mpr ⟨hx, h⟩
    · refine List.nodup_cons.mpr ⟨fun hm => ?_, ih (List.not_mem_of_not_mem_cons hx) hl⟩
      exact (mem_insert.mp hm).elim (fun e => List.ne_of_not_mem_cons hx e.symm) hz

theorem insert_sorted (x : α) {l : List α} (h : Sorted key l) : Sorted key (insert key x l) := by
  induction l with
  | nil => exact List.pairwise_singleton _ _
  | cons z l ih =>
    obtain ⟨hz, hl⟩ := List.pairwise_cons.mp h
    unfold insert
    split
    next hlt =>
      refine List.pairwise_cons.mpr ⟨fun y hy => ?_, h⟩
      rcases List.mem_cons.mp hy with rfl | hy
      · exact Nat.le_of_lt hlt
      · exact Nat.le_trans (Nat.le_of_lt hlt) (hz y hy)
    next hle =>
      refine List.pairwise_cons.mpr ⟨fun y hy => ?_, ih hl⟩
      rcases mem_insert.mp hy with rfl | hy
      · exact Nat.le_of_not_lt hle
      · exact hz y hy

theorem filter_insert_of_neg {p : α → Bool} {x : α} (hx : p x = false) (l : List α) :
    (insert key x l).filter p = l.filter p := by
  induction l with
  | nil => exact List.filter_cons_of_neg (by rw [hx]; nofun)
  | cons z l ih =>
    unfold insert
    split
    · exact List.filter_cons_of_neg (by rw [hx]; nofun)
    · rw [List.filter_cons, List.filter_cons, ih]

/-- a newcomer stands behind those of its own key -/
theorem atKey_insert (x : α) {l : List α} (h : Sorted key l) (d : Nat) :
    atKey key d (insert key x l) = atKey key d l ++ atKey key d [x] := by
  induction l with
  | nil => rfl
  | cons z l ih =>
    obtain ⟨hz, hl⟩ := List.pairwise_cons.mp h
    unfold insert
    split
    next hlt =>
      by_cases hd : key x = d
      · have hnone : atKey key d (z :: l) = [] := by
          refine List.filter_eq_nil_iff.mpr fun a ha => ?_
          rw [decide_eq_true_eq]
          rcases List.mem_cons.mp ha with rfl | ha
          · omega
          · have := hz a ha
            omega
        rw [show x :: z :: l = [x] ++ (z :: l) from rfl, atKey_append, hnone, List.append_nil,
          List.nil_append]
      · have hnone : atKey key d [x] = [] := by
          unfold atKey
          rw [List.filter_cons_of_neg (by rw [decide_eq_true_eq]; exact hd), List.filter_nil]
        rw [show x :: z :: l = [x] ++ (z :: l) from rfl, atKey_append, hnone, List.append_nil,
          List.nil_append]
    next hle =>
      rw [show z :: insert key x l = [z] ++ insert key x l from rfl, atKey_append, ih hl,
        show z :: l = [z] ++ l from rfl, atKey_append, List.append_assoc]

/-- **the elements up to a key stand first** -/
theorem split {l : List α} (h : Sorted key l) (t : Nat) :
    l.filter (fun a => decide (key a ≤ t)) ++ l.filter (fun a => decide (t < key a)) = l := by
  induction l with
  | nil => rfl
  | cons z l ih =>
    obtain ⟨hz, hl⟩ := List.pairwise_cons.mp h
    by_cases hk : key z ≤ t
    · rw [List.filter_cons_of_pos (by rw [decide_eq_true_eq]; exact hk),
        List.filter_cons_of_neg (by rw [decide_eq_true_eq]; omega), List.cons_append, ih hl]
    · have hnone : l.filter (fun a => decide (key a ≤ t)) = [] := by
        refine List.filter_eq_nil_iff.mpr fun a ha => ?_
        have := hz a ha
        rw [decide_eq_true_eq]
        omega
      have hall : l.filter (fun a => decide (t < key a)) = l := by
        refine List.filter_eq_self.mpr fun a ha => ?_
        have := hz a ha
        rw [decide_eq_true_eq]
        omega
      rw [List.filter_cons_of_neg (by rw [decide_eq_true_eq]; exact hk), hnone,
        List.filter_cons_of_pos (by rw [decide_eq_true_eq]; omega), hall, List.nil_append]

/-! ## the queue -/

theorem Queue.nil : Queue key [] [] := ⟨List.Pairwise.nil, fun _ => rfl⟩

theorem Queue.mem (h : Queue key armed list) (x : α) : x ∈ list ↔ x ∈ armed := by
  have e : x ∈ atKey key (key x) list ↔ x ∈ atKey key (key x) armed := by rw [h.same]
  rw [mem_atKey, mem_atKey] at e
  exact ⟨fun hx => (e.mp ⟨hx, rfl⟩).1, fun hx => (e.mpr ⟨hx, rfl⟩).1⟩

theorem Queue.nodup [DecidableEq α] (h : Queue key armed list) (hn : armed.Nodup) : list.Nodup := by
  refine List.nodup_iff_count_le_one.mpr fun x => ?_
  have hc : ∀ l : List α, List.count x (atKey key (key x) l) = List.count x l := fun l =>
    List.count_filter (p := fun a => decide (key a = key x)) (decide_eq_true rfl)
  rw [← hc, h.same, hc]
  exact List.nodup_iff_count_le_one.mp hn x

/-- only the keys of the elements matter -/
theorem Queue.congr (h : Queue key armed list) (hk : ∀ a ∈ armed, key a = key' a) :
    Queue key' armed list := by
  have hl : ∀ a ∈ list, key a = key' a := fun a ha => hk a ((h.mem a).mp ha)
  refine ⟨h.sorted.imp_of_mem fun {a b} ha hb hab => ?_, fun d => ?_⟩
  · rw [← hl a ha, ← hl b hb]
    exact hab
  · rw [← atKey_congr hl, ← atKey_congr hk]
    exact h.same d

/-- an arrival -/
theorem Queue.push (h : Queue key armed list) (x : α) :
    Queue key (armed ++ [x]) (insert key x list) := by
  refine ⟨insert_sorted x h.sorted, fun d => ?_⟩
  rw [atKey_insert x h.sorted, atKey_append, h.same]

/-- elements that leave -/
theorem Queue.filter (h : Queue key armed list) (p : α → Bool) :
    Queue key (armed.filter p) (list.filter p) := by
  refine ⟨List.Pairwise.filter p h.sorted, fun d => ?_⟩
  rw [atKey_filter, atKey_filter, h.same]

/-- those that stay in the list stay in the queue -/
theorem Queue.restrict [DecidableEq α] (h : Queue key armed list) (p : α → Bool) :
    Queue key (armed.filter fun a => decide (a ∈ list.filter p)) (list.filter p) := by
  have hp : armed.filter (fun a => decide (a ∈ list.filter p)) = armed.filter p := by
    refine List.filter_congr fun a ha => ?_
    rw [Bool.eq_iff_iff, decide_eq_true_eq, List.mem_filter]
    exact and_iff_right ((h.mem a).mpr ha)
  rw [hp]
  exact h.filter p

/-- **the first of the list** has the least key, and stands first of those with that key -/
theorem Queue.head {x y : α} (h : Queue key armed (x :: list)) (hy : y ∈ list) :
    key x < key y ∨ key x = key y ∧ [x, y].Sublist armed := by
  rcases Nat.lt_or_eq_of_le ((List.pairwise_cons.mp h.sorted).1 y hy) with hlt | heq
  · exact Or.inl hlt
  · refine Or.inr ⟨heq, ?_⟩
    have hxy : [x, y].Sublist (atKey key (key x) (x :: list)) := by
      unfold atKey
      rw [List.filter_cons_of_pos (by rw [decide_eq_true_eq])]
      refine List.Sublist.cons_cons x (List.singleton_sublist.mpr (List.mem_filter.mpr ⟨hy, ?_⟩))
      exact decide_eq_true heq.symm
    rw [h.same] at hxy
    exact hxy.trans List.filter_sublist

/-- the elements of two neighbouring keys, which are the least -/
theorem Queue.first_two (h : Queue key armed list) {t : Nat} (ht : ∀ a ∈ armed, t ≤ key a) :
    list.filter (fun a => decide (key a ≤ t + 1)) = atKey key t armed ++ atKey key (t + 1) armed := by
  have hle : ∀ a ∈ list, t ≤ key a := fun a ha => ht a ((h.mem a).mp ha)
  have hs : Sorted key (list.filter fun a => decide (key a ≤ t + 1)) :=
    List.Pairwise.filter _ h.sorted
  rw [← split hs t, List.filter_filter, List.filter_filter, ← h.same, ← h.same]
  unfold atKey
  congr 1
  · refine List.filter_congr fun a ha => ?_
    have := hle a ha
    rw [Bool.eq_iff_iff, Bool.and_eq_true, decide_eq_true_eq, decide_eq_true_eq, decide_eq_true_eq]
    omega
  · refine List.filter_congr fun a ha => ?_
    rw [Bool.eq_iff_iff, Bool.and_eq_true, decide_eq_true_eq, decide_eq_true_eq, decide_eq_true_eq]
    omega

end Stable
