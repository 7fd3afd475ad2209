import Mathlib.Data.List.Induction
import Mathlib.Tactic.Common

/-!
# Runs of a deterministic labelled system

A system is a step function `step : σ → ι → σ`; a run is the list of its labels, oldest first.

* `run_inv`    what every step preserves, every run preserves;
* `run_hist`   the same for a predicate that also reads the labels so far (the history);
* `run_within`   a run ends inside a set if and only if every exit from it was followed by a return;
* `observe`    what an observer, who sees every state and every label, has noted after a run.
-/

namespace Runs

variable {σ ι ω : Type}

/-- the state after the labels `l` -/
def run (step : σ → ι → σ) (s : σ) (l : List ι) : σ := l.foldl step s

theorem run_nil (step : σ → ι → σ) (s : σ) : run step s [] = s := rfl

theorem run_cons (step : σ → ι → σ) (s : σ) (x : ι) (l : List ι) :
    run step s (x :: l) = run step (step s x) l := rfl

theorem run_append (step : σ → ι → σ) (s : σ) (a b : List ι) :
    run step s (a ++ b) = run step (run step s a) b := by
  unfold run
  rw [List.foldl_append]

theorem run_snoc (step : σ → ι → σ) (s : σ) (l : List ι) (x : ι) :
    run step s (l ++ [x]) = step (run step s l) x := by
  rw [run_append, run_cons, run_nil]

/-- **invariant rule** -/
theorem run_inv {step : σ → ι → σ} {I : σ → Prop} (hI : ∀ s x, I s → I (step s x)) {s : σ}
    (h : I s) (l : List ι) : I (run step s l) := by
  induction l generalizing s with
  | nil => exact h
  | cons x l ih =>
    rw [run_cons]
    exact ih (hI s x h)

/-- **history rule**: the predicate reads the labels of the run as well as its state -/
theorem run_hist {step : σ → ι → σ} {s : σ} {P : List ι → σ → Prop} (h0 : P [] s)
    (hs : ∀ l x, P l (run step s l) → P (l ++ [x]) (step (run step s l) x)) (l : List ι) :
    P l (run step s l) := by
  induction l using List.reverseRecOn with
  | nil => exact h0
  | append_singleton l x ih =>
    rw [run_snoc]
    exact hs l x ih

/-- where a label stands in a run that has just grown -/
theorem snoc_eq_split {l a b : List ι} {x y : ι} (h : l ++ [x] = a ++ y :: b) :
    (b = [] ∧ l = a ∧ x = y) ∨ ∃ b', b = b' ++ [x] ∧ l = a ++ y :: b' := by
  rcases List.eq_nil_or_concat b with rfl | ⟨b', z, rfl⟩
  · obtain ⟨hl, hx⟩ := List.append_inj' h rfl
    exact Or.inl ⟨rfl, hl, (List.cons.inj hx).1⟩
  · rw [List.concat_eq_append, ← List.cons_append, ← List.append_assoc] at h
    obtain ⟨hl, hx⟩ := List.append_inj' h rfl
    refine Or.inr ⟨b', ?_, hl⟩
    rw [List.concat_eq_append, (List.cons.inj hx).1]

/-! ## exits and returns -/

/-- **exits and returns**: from inside `S`, a run of labels in `L` ends inside `S` exactly if every
step of `A`, which leads out of `S`, is followed by one of `B`, which leads back -/
theorem run_within {step : σ → ι → σ} {I S : σ → Prop} {A B : σ → ι → Prop}
    {L : ι → Prop} (hI : ∀ s x, L x → I s → I (step s x))
    (hS : ∀ s x, L x → I s → (S (step s x) ↔ S s ∧ ¬ A s x ∨ B s x))
    (hd : ∀ s x, A s x → ¬ B s x) {s : σ} (h : I s) (h0 : S s) (l : List ι)
    (hl : ∀ x ∈ l, L x) :
    S (run step s l) ↔ ∀ a x b, l = a ++ x :: b → A (run step s a) x →
      ∃ c y d, b = c ++ y :: d ∧ B (run step s (a ++ x :: c)) y := by
  induction l using List.reverseRecOn with
  | nil =>
    refine ⟨fun _ a x b e => ?_, fun _ => h0⟩
    exact absurd e.symm (List.append_ne_nil_of_right_ne_nil a (List.cons_ne_nil x b))
  | append_singleton l z ih =>
    have hl' : ∀ x ∈ l, L x := fun x hx => hl x (List.mem_append_left _ hx)
    have hz : L z := hl z (List.mem_append_right _ (List.mem_singleton.mpr rfl))
    have hi : I (run step s l) := by
      refine run_hist (P := fun l' t => (∀ x ∈ l', L x) → I t) (fun _ => h) ?_ l hl'
      intro l' x ht hx
      exact hI _ x (hx x (List.mem_append_right _ (List.mem_singleton.mpr rfl)))
        (ht fun y hy => hx y (List.mem_append_left _ hy))
    rw [run_snoc, hS _ z hz hi]
    constructor
    · intro hin a x b e hx
      rcases snoc_eq_split e with ⟨rfl, rfl, rfl⟩ | ⟨b', rfl, rfl⟩
      · exact hin.elim (fun hs => absurd hx hs.2) (fun hs => absurd hs (hd _ _ hx))
      · rcases hin with ⟨hs, -⟩ | hs
        · obtain ⟨c, y, d, rfl, hy⟩ := (ih hl').mp hs a x b' rfl hx
          refine ⟨c, y, d ++ [z], ?_, hy⟩
          rw [List.append_assoc, List.cons_append]
        · exact ⟨b', z, [], rfl, hs⟩
    · intro hall
      by_cases hs : B (run step s l) z
      · exact Or.inr hs
      refine Or.inl ⟨(ih hl').mpr fun a x b e hx => ?_, fun hx => ?_⟩
      · obtain ⟨c, y, d, e', hy⟩ := hall a x (b ++ [z]) (by rw [e, List.append_assoc]; rfl) hx
        rcases snoc_eq_split e' with ⟨-, rfl, rfl⟩ | ⟨d', -, rfl⟩
        · exact absurd (e ▸ hy) hs
        · exact ⟨c, y, d', rfl, hy⟩
      · obtain ⟨c, y, d, e', -⟩ := hall l z [] rfl hx
        exact absurd e'.symm (List.append_ne_nil_of_right_ne_nil c (List.cons_ne_nil y d))

/-! ## observers -/

/-- a step, and the observer `obs` beside it -/
def watch (step : σ → ι → σ) (obs : σ → ι → ω → ω) (p : σ × ω) (x : ι) : σ × ω :=
  (step p.1 x, obs p.1 x p.2)

/-- the notes of the observer after the labels `l`; they were `o` at the beginning -/
def observe (step : σ → ι → σ) (obs : σ → ι → ω → ω) (s : σ) (o : ω) (l : List ι) : ω :=
  (run (watch step obs) (s, o) l).2

/-- the observer does not disturb the run -/
theorem run_watch (step : σ → ι → σ) (obs : σ → ι → ω → ω) (s : σ) (o : ω) (l : List ι) :
    run (watch step obs) (s, o) l = (run step s l, observe step obs s o l) := by
  have h : (run (watch step obs) (s, o) l).1 = run step s l :=
    run_hist (P := fun l (p : σ × ω) => p.1 = run step s l) rfl
      (fun l x h => by
        rw [run_snoc]
        exact congrArg (step · x) h) l
  rw [← h]
  rfl

theorem observe_snoc (step : σ → ι → σ) (obs : σ → ι → ω → ω) (s : σ) (o : ω) (l : List ι)
    (x : ι) : observe step obs s o (l ++ [x]) = obs (run step s l) x (observe step obs s o l) := by
  unfold observe
  rw [run_snoc, run_watch]
  rfl

/-- **observer rule**: what the state and the notes keep together in every step -/
theorem observe_inv {step : σ → ι → σ} {obs : σ → ι → ω → ω} {I : σ → ω → Prop}
    (hI : ∀ s o x, I s o → I (step s x) (obs s x o)) {s : σ} {o : ω} (h : I s o) (l : List ι) :
    I (run step s l) (observe step obs s o l) := by
  have hp := @run_inv _ _ (watch step obs) (fun p => I p.1 p.2) (fun p x => hI p.1 p.2 x) (s, o) h l
  rw [run_watch] at hp
  exact hp

end Runs
