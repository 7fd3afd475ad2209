import Mathlib.Data.List.Chain
import Mathlib.Tactic.Ring

/-!
# A region divided into segments

A region of memory is a row of segments without gaps; a segment is free or has a tag.  The first
`h` units of every segment are its header.  This is what an allocator keeps its books about.

* `total`, `inUse`     how long the row is, and how much of it is in use;
* `blocks`             what is behind the headers of the segments in use;
* `firstFree`, `fitAt` where the first free segment is, and the first that is long enough;
* `Tight`              no two free segments are neighbours;
* `Merged`             a segment has become free and has been merged with its free neighbours.
-/

namespace Segments

structure Seg (α : Type) where
  len : Nat
  /-- `none`: the segment is free -/
  tag : Option α
  deriving DecidableEq, Repr

variable {α : Type}

def total : List (Seg α) → Nat
  | [] => 0
  | s :: l => s.len + total l

/-- the length of the segments in use -/
def inUse : List (Seg α) → Nat
  | [] => 0
  | s :: l => (if s.tag = none then 0 else s.len) + inUse l

/-- the segments in use, less their headers -/
def blocks (h a : Nat) : List (Seg α) → List (Nat × α)
  | [] => []
  | s :: l => (s.tag.map fun n => (a + h, n)).toList ++ blocks h (a + s.len) l

/-- the first free segment; the end of the row, if there is none -/
def firstFree (a : Nat) : List (Seg α) → Nat
  | [] => a
  | s :: l => if s.tag = none then a else firstFree (a + s.len) l

/-- **first fit**: the first free segment of at least the length `n` -/
def fitAt (n a : Nat) : List (Seg α) → Option Nat
  | [] => none
  | s :: l => if s.tag = none ∧ n ≤ s.len then some a else fitAt n (a + s.len) l

/-- the place `q` belongs to a segment in use, and not to its header -/
def Covers (h a : Nat) : List (Seg α) → Nat → Prop
  | [], _ => False
  | s :: l, q => s.tag ≠ none ∧ a + h ≤ q ∧ q < a + s.len ∨ Covers h (a + s.len) l q

/-- no two free segments are neighbours -/
def Tight (l : List (Seg α)) : Prop := l.IsChain fun s t => s.tag = none → t.tag ≠ none

def AllFree (l : List (Seg α)) : Prop := ∀ s ∈ l, s.tag = none

def AllUsed (l : List (Seg α)) : Prop := ∀ s ∈ l, s.tag ≠ none

variable {s t : Seg α} {l l₁ l₂ : List (Seg α)} {h n a : Nat}

/-! ## two rows, one behind the other -/

theorem total_append : total (l₁ ++ l₂) = total l₁ + total l₂ := by
  induction l₁ with
  | nil => exact (Nat.zero_add _).symm
  | cons s l ih =>
    show s.len + total (l ++ l₂) = s.len + total l + total l₂
    rw [ih, Nat.add_assoc]

theorem total_snoc : total (l ++ [s]) = total l + s.len := total_append

theorem inUse_append : inUse (l₁ ++ l₂) = inUse l₁ + inUse l₂ := by
  induction l₁ with
  | nil => exact (Nat.zero_add _).symm
  | cons s l ih =>
    show _ + inUse (l ++ l₂) = _ + inUse l + inUse l₂
    rw [ih, Nat.add_assoc]

theorem blocks_append :
    blocks h a (l₁ ++ l₂) = blocks h a l₁ ++ blocks h (a + total l₁) l₂ := by
  induction l₁ generalizing a with
  | nil => rfl
  | cons s l ih =>
    show _ ++ blocks h (a + s.len) (l ++ l₂) = _ ++ blocks h (a + s.len) l ++ _
    rw [ih, Nat.add_assoc, List.append_assoc]
    rfl

theorem blocks_free (hs : s.tag = none) : blocks h a (l₁ ++ s :: l₂) =
    blocks h a l₁ ++ blocks h (a + total l₁ + s.len) l₂ := by
  rw [blocks_append]
  show _ ++ ((s.tag.map fun n => (a + total l₁ + h, n)).toList ++ _) = _
  rw [hs]
  rfl

theorem blocks_used {n : α} (hs : s.tag = some n) : blocks h a (l₁ ++ s :: l₂) =
    blocks h a l₁ ++ (a + total l₁ + h, n) :: blocks h (a + total l₁ + s.len) l₂ := by
  rw [blocks_append]
  show _ ++ ((s.tag.map fun n => (a + total l₁ + h, n)).toList ++ _) = _
  rw [hs]
  rfl

theorem blocks_used_perm {n : α} (hs : s.tag = some n) : (blocks h a (l₁ ++ s :: l₂)).Perm
    ((a + total l₁ + h, n) :: (blocks h a l₁ ++ blocks h (a + total l₁ + s.len) l₂)) := by
  rw [blocks_used hs]
  exact List.perm_middle

theorem covers_append {q : Nat} :
    Covers h a (l₁ ++ l₂) q ↔ Covers h a l₁ q ∨ Covers h (a + total l₁) l₂ q := by
  induction l₁ generalizing a with
  | nil =>
    show Covers h a l₂ q ↔ False ∨ Covers h a l₂ q
    rw [false_or]
  | cons s l ih =>
    show (_ ∨ Covers h (a + s.len) (l ++ l₂) q) ↔ (_ ∨ Covers h (a + s.len) l q) ∨ _
    rw [ih, Nat.add_assoc, or_assoc]
    rfl

theorem fitAt_append_none (h₁ : fitAt n a l₁ = none) :
    fitAt n a (l₁ ++ l₂) = fitAt n (a + total l₁) l₂ := by
  induction l₁ generalizing a with
  | nil => rfl
  | cons s l ih =>
    unfold fitAt at h₁
    split at h₁
    · cases h₁
    next hs =>
      show (if s.tag = none ∧ n ≤ s.len then some a else fitAt n (a + s.len) (l ++ l₂)) = _
      rw [if_neg hs, ih h₁, Nat.add_assoc]
      rfl

theorem firstFree_allUsed (hu : AllUsed l₁) :
    firstFree a (l₁ ++ l₂) = firstFree (a + total l₁) l₂ := by
  induction l₁ generalizing a with
  | nil => rfl
  | cons s l ih =>
    show (if s.tag = none then a else firstFree (a + s.len) (l ++ l₂)) = _
    rw [if_neg (hu s List.mem_cons_self), ih fun t ht => hu t (List.mem_cons_of_mem s ht),
      Nat.add_assoc]
    rfl

/-- what is behind a free segment does not matter -/
theorem firstFree_append (hu : ¬ AllUsed l₁) : firstFree a (l₁ ++ l₂) = firstFree a l₁ := by
  induction l₁ generalizing a with
  | nil => exact absurd (fun s hs => absurd hs List.not_mem_nil) hu
  | cons s l ih =>
    show (if s.tag = none then a else firstFree (a + s.len) (l ++ l₂)) =
      if s.tag = none then a else firstFree (a + s.len) l
    by_cases hs : s.tag = none
    · rw [if_pos hs, if_pos hs]
    · rw [if_neg hs, if_neg hs, ih fun hl => hu fun t ht => ?_]
      rcases List.mem_cons.mp ht with rfl | ht
      · exact hs
      · exact hl t ht

/-- of two free segments at one place each does for the first free one -/
theorem firstFree_free {k : List (Seg α)} (hs : s.tag = none) (ht : t.tag = none) :
    firstFree a (l₁ ++ s :: l₂) = firstFree a (l₁ ++ t :: k) := by
  by_cases hu : AllUsed l₁
  · rw [firstFree_allUsed hu, firstFree_allUsed hu]
    unfold firstFree
    rw [if_pos hs, if_pos ht]
  · rw [firstFree_append hu, firstFree_append hu]

/-- what holds of all segments, after a part of the row has been replaced -/
theorem forall_replace {P : Seg α → Prop} {j k : List (Seg α)} (h : ∀ t ∈ l₁ ++ (j ++ l₂), P t)
    (hk : ∀ t ∈ k, P t) : ∀ t ∈ l₁ ++ (k ++ l₂), P t := by
  intro t ht
  rcases List.mem_append.mp ht with ht | ht
  · exact h t (List.mem_append_left _ ht)
  · rcases List.mem_append.mp ht with ht | ht
    · exact hk t ht
    · exact h t (List.mem_append_right _ (List.mem_append_right _ ht))

/-! ## bounds -/

theorem firstFree_le : a ≤ firstFree a l ∧ firstFree a l ≤ a + total l := by
  induction l generalizing a with
  | nil => exact ⟨Nat.le_refl a, Nat.le_refl a⟩
  | cons s l ih =>
    unfold firstFree total
    have hi := ih (a := a + s.len)
    split <;> omega

/-- no free segment is before the first one -/
theorem firstFree_le_free (hs : s.tag = none) : firstFree a (l₁ ++ s :: l₂) ≤ a + total l₁ := by
  by_cases hu : AllUsed l₁
  · rw [firstFree_allUsed hu]
    unfold firstFree
    rw [if_pos hs]
  · rw [firstFree_append hu]
    exact firstFree_le.2

/-- a free segment is in front of the end -/
theorem firstFree_lt (hh : ∀ s ∈ l, 0 < s.len) (hu : ¬ AllUsed l) :
    firstFree a l < a + total l := by
  induction l generalizing a with
  | nil => exact absurd (fun s hs => absurd hs List.not_mem_nil) hu
  | cons s l ih =>
    have hpos := hh s List.mem_cons_self
    unfold firstFree total
    split
    · omega
    next hs =>
      have hl := ih (a := a + s.len) (fun t ht => hh t (List.mem_cons_of_mem s ht)) fun hl =>
        hu fun t ht => (List.mem_cons.mp ht).elim (fun e => e ▸ hs) (hl t)
      omega

theorem covers_bound {q : Nat} (hc : Covers h a l q) : a + h ≤ q ∧ q < a + total l := by
  induction l generalizing a with
  | nil => exact hc.elim
  | cons s l ih =>
    unfold total
    rcases hc with ⟨-, h₁, h₂⟩ | hc
    · omega
    · have hi := ih hc
      omega

theorem length_le (hh : ∀ s ∈ l, 0 < s.len) : l.length ≤ total l := by
  induction l with
  | nil => exact Nat.le_refl 0
  | cons s l ih =>
    have hpos := hh s List.mem_cons_self
    have hi := ih fun t ht => hh t (List.mem_cons_of_mem s ht)
    unfold total
    rw [List.length_cons]
    omega

/-- where a segment begins there is no place of any other, and a header behind it -/
theorem covers_seam {q : Nat} (hc : Covers h a (l₁ ++ l₂) q) :
    q < a + total l₁ ∨ a + total l₁ + h ≤ q :=
  (covers_append.mp hc).imp (fun hc => (covers_bound hc).2) fun hc => (covers_bound hc).1

theorem covers_seam_next {q : Nat} (hc : Covers h a (l₁ ++ s :: l₂) q) :
    q < a + total l₁ + s.len ∨ a + total l₁ + s.len + h ≤ q := by
  have hc' : Covers h a ((l₁ ++ [s]) ++ l₂) q := by
    rw [List.append_assoc]
    exact hc
  have hq := covers_seam hc'
  rw [total_snoc, ← Nat.add_assoc] at hq
  exact hq

/-- no place belongs to a free segment -/
theorem covers_free {q : Nat} (hc : Covers h a (l₁ ++ s :: l₂) q) (hs : s.tag = none) :
    q < a + total l₁ ∨ a + total l₁ + s.len + h ≤ q := by
  rcases covers_append.mp hc with hc | hc | hc
  · exact Or.inl (covers_bound hc).2
  · exact absurd hs hc.1
  · exact Or.inr (covers_bound hc).1

/-- segments whose lengths are multiples of `d` begin at multiples of `d` -/
theorem total_mod {d : Nat} (hd : ∀ s ∈ l, s.len % d = 0) : total l % d = 0 := by
  induction l with
  | nil => exact Nat.zero_mod d
  | cons s l ih =>
    show (s.len + total l) % d = 0
    rw [Nat.add_mod, hd s List.mem_cons_self, ih fun t ht => hd t (List.mem_cons_of_mem s ht)]
    exact Nat.zero_mod d

theorem eq_nil_of_total (hh : ∀ s ∈ l, 0 < s.len) (ht : total l = 0) : l = [] :=
  List.length_eq_zero_iff.mp (Nat.le_zero.mp (ht ▸ length_le hh))

theorem inUse_le : inUse l ≤ total l := by
  induction l with
  | nil => exact Nat.le_refl 0
  | cons s l ih =>
    unfold inUse total
    split <;> omega

theorem fitAt_none_of_total (hn : total l < n) : fitAt n a l = none := by
  induction l generalizing a with
  | nil => rfl
  | cons s l ih =>
    unfold total at hn
    unfold fitAt
    rw [if_neg fun hs => by omega]
    exact ih (by omega)

/-! ## first fit -/

/-- before the first free segment nothing fits -/
theorem fitAt_allUsed (hu : AllUsed l) : fitAt n a l = none := by
  induction l generalizing a with
  | nil => rfl
  | cons s l ih =>
    unfold fitAt
    rw [if_neg fun hs => hu s List.mem_cons_self hs.1]
    exact ih fun t ht => hu t (List.mem_cons_of_mem s ht)

/-- **the first fit**, and the segments before it -/
theorem fitAt_some {b : Nat} (hf : fitAt n a l = some b) :
    ∃ l₁ s l₂, l = l₁ ++ s :: l₂ ∧ b = a + total l₁ ∧ s.tag = none ∧ n ≤ s.len ∧
      ∀ t ∈ l₁, t.tag = none → t.len < n := by
  induction l generalizing a with
  | nil => cases hf
  | cons s l ih =>
    unfold fitAt at hf
    split at hf
    next hs =>
      refine ⟨[], s, l, rfl, (Option.some.inj hf).symm, hs.1, hs.2, ?_⟩
      exact fun t ht => absurd ht List.not_mem_nil
    next hs =>
      obtain ⟨l₁, u, l₂, rfl, rfl, hu, hn, hl⟩ := ih hf
      refine ⟨s :: l₁, u, l₂, rfl, Nat.add_assoc _ _ _, hu, hn, fun t ht he => ?_⟩
      rcases List.mem_cons.mp ht with rfl | ht
      · exact Nat.lt_of_not_le fun hle => hs ⟨he, hle⟩
      · exact hl t ht he

/-- where the row splits at its first free segment -/
theorem split_firstFree (a : Nat) (l : List (Seg α)) :
    ∃ l₁ l₂, l = l₁ ++ l₂ ∧ AllUsed l₁ ∧ firstFree a l = a + total l₁ := by
  induction l generalizing a with
  | nil => exact ⟨[], [], rfl, fun s hs => absurd hs List.not_mem_nil, rfl⟩
  | cons s l ih =>
    unfold firstFree
    split
    · exact ⟨[], s :: l, rfl, fun s hs => absurd hs List.not_mem_nil, rfl⟩
    next hs =>
      obtain ⟨l₁, l₂, e, hu, hf⟩ := ih (a + s.len)
      refine ⟨s :: l₁, l₂, congrArg (s :: ·) e, fun t ht => ?_, ?_⟩
      · exact (List.mem_cons.mp ht).elim (fun e => e ▸ hs) (hu t)
      · rw [hf, Nat.add_assoc]
        rfl

/-! ## the segments in use -/

/-- a segment in use, by what is behind its header -/
theorem blocks_split {x : Nat × α} (hx : x ∈ blocks h a l) :
    ∃ l₁ s l₂, l = l₁ ++ s :: l₂ ∧ x.1 = a + total l₁ + h ∧ s.tag = some x.2 := by
  induction l generalizing a with
  | nil => exact absurd hx List.not_mem_nil
  | cons s l ih =>
    rcases List.mem_append.mp hx with hx | hx
    · obtain ⟨n, hn, rfl⟩ := Option.map_eq_some_iff.mp (Option.mem_toList.mp hx)
      exact ⟨[], s, l, rfl, rfl, hn⟩
    · obtain ⟨l₁, t, l₂, rfl, hp, ht⟩ := ih hx
      refine ⟨s :: l₁, t, l₂, rfl, ?_, ht⟩
      rw [hp, Nat.add_assoc a]
      rfl

theorem blocks_bound {size : α → Nat} (hfit : ∀ s ∈ l, ∀ n, s.tag = some n → size n + h ≤ s.len)
    {x : Nat × α} (hx : x ∈ blocks h a l) : a + h ≤ x.1 ∧ x.1 + size x.2 ≤ a + total l := by
  obtain ⟨l₁, s, l₂, rfl, hp, ht⟩ := blocks_split hx
  have hlen := hfit s (List.mem_append_right _ List.mem_cons_self) x.2 ht
  rw [total_append]
  show a + h ≤ x.1 ∧ x.1 + size x.2 ≤ a + (total l₁ + (s.len + total l₂))
  omega

/-- **segments in use do not overlap** -/
theorem blocks_apart {size : α → Nat} (hfit : ∀ s ∈ l, ∀ n, s.tag = some n → size n + h ≤ s.len) :
    (blocks h a l).Pairwise fun x y => x.1 + size x.2 + h ≤ y.1 := by
  induction l generalizing a with
  | nil => exact List.Pairwise.nil
  | cons s l ih =>
    have hl : ∀ t ∈ l, ∀ n, t.tag = some n → size n + h ≤ t.len := fun t ht =>
      hfit t (List.mem_cons_of_mem s ht)
    unfold blocks
    cases hs : s.tag with
    | none => exact ih hl
    | some n =>
      have hlen := hfit s List.mem_cons_self n hs
      refine List.pairwise_cons.mpr ⟨fun y hy => ?_, ih hl⟩
      have hb := (blocks_bound hl hy).1
      show a + h + size n + h ≤ y.1
      omega

/-- the segments in use have room for their blocks and their headers -/
theorem sum_blocks_le {size : α → Nat}
    (hfit : ∀ s ∈ l, ∀ n, s.tag = some n → size n + h ≤ s.len) :
    ((blocks h a l).map fun b => size b.2 + h).sum ≤ inUse l := by
  induction l generalizing a with
  | nil => exact Nat.le_refl 0
  | cons s l ih =>
    have hl := ih (a := a + s.len) fun t ht => hfit t (List.mem_cons_of_mem s ht)
    unfold blocks inUse
    cases hs : s.tag with
    | none =>
      rw [if_pos rfl, Nat.zero_add]
      exact hl
    | some n =>
      rw [if_neg (Option.some_ne_none n)]
      exact Nat.add_le_add (hfit s List.mem_cons_self n hs) hl

/-- the place after the header of a segment in use, and those behind it -/
theorem covers_mid {q : Nat} (hs : s.tag ≠ none) (h₁ : a + total l₁ + h ≤ q)
    (h₂ : q < a + total l₁ + s.len) : Covers h a (l₁ ++ s :: l₂) q :=
  covers_append.mpr (Or.inr (Or.inl ⟨hs, h₁, h₂⟩))

theorem AllFree.inUse (hf : AllFree l) : inUse l = 0 := by
  induction l with
  | nil => rfl
  | cons s l ih =>
    unfold Segments.inUse
    rw [if_pos (hf s List.mem_cons_self), ih fun t ht => hf t (List.mem_cons_of_mem s ht)]

theorem AllFree.blocks (hf : AllFree l) : blocks h a l = [] := by
  induction l generalizing a with
  | nil => rfl
  | cons s l ih =>
    unfold Segments.blocks
    rw [hf s List.mem_cons_self, ih fun t ht => hf t (List.mem_cons_of_mem s ht)]
    rfl

theorem AllFree.not_covers {q : Nat} (hf : AllFree l) : ¬ Covers h a l q := by
  induction l generalizing a with
  | nil => exact id
  | cons s l ih =>
    rintro (⟨hs, -⟩ | hc)
    · exact hs (hf s List.mem_cons_self)
    · exact ih (fun t ht => hf t (List.mem_cons_of_mem s ht)) hc

theorem allFree_of_blocks (hb : Segments.blocks h a l = []) : AllFree l := by
  induction l generalizing a with
  | nil => exact fun s hs => absurd hs List.not_mem_nil
  | cons s l ih =>
    unfold Segments.blocks at hb
    obtain ⟨h₁, h₂⟩ := List.append_eq_nil_iff.mp hb
    intro t ht
    rcases List.mem_cons.mp ht with rfl | ht
    · cases he : t.tag with
      | none => rfl
      | some n =>
        rw [he] at h₁
        cases h₁
    · exact ih h₂ t ht

/-! ## neighbours -/

/-- a segment in use may stand anywhere, a free one between two in use -/
theorem tight_mid : Tight (l₁ ++ s :: l₂) ↔ Tight l₁ ∧ Tight l₂ ∧
    (s.tag = none → (∀ x ∈ l₁.getLast?, x.tag ≠ none) ∧ ∀ y ∈ l₂.head?, y.tag ≠ none) := by
  unfold Tight
  rw [List.isChain_append, List.isChain_cons]
  constructor
  · rintro ⟨h₁, ⟨hs, h₂⟩, hl⟩
    refine ⟨h₁, h₂, fun he => ⟨fun x hx hn => ?_, fun y hy => hs y hy he⟩⟩
    exact hl x hx s rfl hn he
  · rintro ⟨h₁, h₂, hs⟩
    refine ⟨h₁, ⟨fun y hy he => (hs he).2 y hy, h₂⟩, fun x hx y hy hn => ?_⟩
    obtain rfl : s = y := Option.some.inj hy
    exact fun he => (hs he).1 x hx hn

theorem Tight.allFree (ht : Tight l) (hf : AllFree l) : l.length ≤ 1 := by
  cases l with
  | nil => exact Nat.zero_le 1
  | cons s l =>
    cases l with
    | nil => exact Nat.le_refl 1
    | cons t l =>
      have hst := (List.isChain_cons_cons.mp ht).1 (hf s List.mem_cons_self)
      exact absurd (hf t (List.mem_cons_of_mem s List.mem_cons_self)) hst

/-- **a segment of the length `len` between `l₁` and `l₂` has become free**: it is one with its free
neighbours -/
def Merged (l₁ : List (Seg α)) (len : Nat) (l₂ l' : List (Seg α)) : Prop :=
  ∃ k₁ p q k₂, l₁ = k₁ ++ p ∧ l₂ = q ++ k₂ ∧ AllFree p ∧ AllFree q ∧
    l' = k₁ ++ ⟨total p + len + total q, none⟩ :: k₂ ∧
    (∀ x ∈ k₁.getLast?, x.tag ≠ none) ∧ ∀ y ∈ k₂.head?, y.tag ≠ none

variable {l' : List (Seg α)} {len : Nat}

theorem Merged.total (hm : Merged l₁ len l₂ l') :
    total l' = total l₁ + len + total l₂ := by
  obtain ⟨k₁, p, q, k₂, rfl, rfl, -, -, rfl, -⟩ := hm
  rw [total_append, total_append, total_append]
  show Segments.total k₁ + (Segments.total p + len + Segments.total q + Segments.total k₂) = _
  omega

theorem Merged.inUse (hm : Merged l₁ len l₂ l') : inUse l' = inUse l₁ + inUse l₂ := by
  obtain ⟨k₁, p, q, k₂, rfl, rfl, hp, hq, rfl, -⟩ := hm
  rw [inUse_append, inUse_append, inUse_append, hp.inUse, hq.inUse]
  show Segments.inUse k₁ + (0 + Segments.inUse k₂) = _
  omega

theorem Merged.blocks (hm : Merged l₁ len l₂ l') :
    blocks h a l' = blocks h a l₁ ++ blocks h (a + Segments.total l₁ + len) l₂ := by
  obtain ⟨k₁, p, q, k₂, rfl, rfl, hp, hq, rfl, -⟩ := hm
  rw [blocks_append, blocks_append, blocks_append, hp.blocks, hq.blocks, List.append_nil,
    List.nil_append]
  have e : a + Segments.total k₁ + (Segments.total p + len + Segments.total q) =
      a + Segments.total (k₁ ++ p) + len + Segments.total q := by
    rw [total_append]
    omega
  rw [← e]
  rfl

theorem Merged.covers {q : Nat} (hm : Merged l₁ len l₂ l') :
    Covers h a l' q ↔ Covers h a l₁ q ∨ Covers h (a + Segments.total l₁ + len) l₂ q := by
  obtain ⟨k₁, p, r, k₂, rfl, rfl, hp, hr, rfl, -⟩ := hm
  rw [covers_append, covers_append, covers_append, or_iff_left hp.not_covers,
    or_iff_right hr.not_covers]
  have e : a + Segments.total k₁ + (Segments.total p + len + Segments.total r) =
      a + Segments.total (k₁ ++ p) + len + Segments.total r := by
    rw [total_append]
    omega
  rw [← e]
  refine or_congr_right ?_
  exact or_iff_right fun hc => hc.1 rfl

theorem Merged.tight (hm : Merged l₁ len l₂ l') (h₁ : Tight l₁) (h₂ : Tight l₂) : Tight l' := by
  obtain ⟨k₁, p, q, k₂, rfl, rfl, -, -, rfl, hl, hr⟩ := hm
  exact tight_mid.mpr ⟨(List.isChain_append.mp h₁).1, (List.isChain_append.mp h₂).2.1,
    fun _ => ⟨hl, hr⟩⟩

/-- the first free segment is where it was, or the one that has become free -/
theorem Merged.firstFree (hm : Merged l₁ len l₂ l') :
    firstFree a l' = firstFree a (l₁ ++ ⟨len, none⟩ :: l₂) := by
  obtain ⟨k₁, p, q, k₂, rfl, rfl, hp, -, rfl, -⟩ := hm
  rw [List.append_assoc]
  by_cases hu : AllUsed k₁
  · rw [firstFree_allUsed hu, firstFree_allUsed hu]
    cases p with
    | nil => rfl
    | cons s p =>
      show a + Segments.total k₁ = if s.tag = none then a + Segments.total k₁ else _
      rw [if_pos (hp s List.mem_cons_self)]
  · rw [firstFree_append hu, firstFree_append hu]

/-- a property of all segments -/
theorem Merged.forall {P : Seg α → Prop} (hm : Merged l₁ len l₂ l') (h₁ : ∀ s ∈ l₁, P s)
    (h₂ : ∀ s ∈ l₂, P s) (hnew : ∀ p q : List (Seg α), (∀ s ∈ p, P s) → (∀ s ∈ q, P s) →
      P ⟨Segments.total p + len + Segments.total q, none⟩) : ∀ s ∈ l', P s := by
  obtain ⟨k₁, p, q, k₂, rfl, rfl, -, -, rfl, -⟩ := hm
  intro s hs
  rcases List.mem_append.mp hs with hs | hs
  · exact h₁ s (List.mem_append_left _ hs)
  · rcases List.mem_cons.mp hs with rfl | hs
    · exact hnew p q (fun s hs => h₁ s (List.mem_append_right _ hs)) fun s hs =>
        h₂ s (List.mem_append_left _ hs)
    · exact h₂ s (List.mem_append_right _ hs)

end Segments
