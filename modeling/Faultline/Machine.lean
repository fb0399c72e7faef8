import Mathlib

/-! Runs of a deterministic machine that takes inputs one at a time and answers
each of them. What one step keeps, a run keeps. -/
namespace Faultline
variable {σ ι ο : Type}

/-- The answers to a list of inputs and the state after them. -/
def run (step : σ → ι → ο × σ) : σ → List ι → List ο × σ
  | s, [] => ([], s)
  | s, i :: is => ((step s i).1 :: (run step (step s i).2 is).1, (run step (step s i).2 is).2)

variable (step : σ → ι → ο × σ)

theorem run_append (s : σ) (is js : List ι) :
    run step s (is ++ js) = ((run step s is).1 ++ (run step (run step s is).2 js).1,
      (run step (run step s is).2 js).2) := by
  induction is generalizing s with
  | nil => rfl
  | cons i is ih => simp only [List.cons_append, run, ih]

theorem run_snoc (s : σ) (is : List ι) (i : ι) :
    run step s (is ++ [i]) =
      ((run step s is).1 ++ [(step (run step s is).2 i).1], (step (run step s is).2 i).2) := by
  rw [run_append]
  rfl

@[simp] theorem length_run (s : σ) (is : List ι) : (run step s is).1.length = is.length := by
  induction is generalizing s with
  | nil => rfl
  | cons i is ih => simp [run, ih]

theorem run_getElem? (s : σ) (is : List ι) (n : ℕ) (i : ι) (h : is[n]? = some i) :
    (run step s is).1[n]? = some (step (run step s (is.take n)).2 i).1 := by
  induction is generalizing s n with
  | nil => cases h
  | cons j is ih =>
    cases n with
    | zero =>
      cases h
      rfl
    | succ n => exact ih (step s j).2 n h

theorem run_take_succ (s : σ) (is : List ι) (n : ℕ) (i : ι) (h : is[n]? = some i) :
    (run step s (is.take (n+1))).2 = (step (run step s (is.take n)).2 i).2 := by
  have htake : is.take (n+1) = is.take n ++ [i] := by
    rw [List.take_add_one, h]
    rfl
  rw [htake, run_snoc]

theorem run_congr (s : σ) {is js : List ι} (h : List.Forall₂ (fun i j => ∀ s, step s i = step s j) is js) :
    run step s is = run step s js := by
  induction h generalizing s with
  | nil => rfl
  | cons hij _ ih => simp only [run, hij s, ih]

/-- The invariant rule: a property kept by every step holds after every run. -/
theorem run_invariant (P : σ → Prop) (hstep : ∀ s i, P s → P (step s i).2) (s : σ) (hs : P s)
    (is : List ι) : P (run step s is).2 := by
  induction is using List.reverseRecOn with
  | nil => exact hs
  | append_singleton is i ih =>
    rw [run_snoc]
    exact hstep _ i ih

/-- A relation that every step keeps between the state before and after it, and
that composes, holds between any two points of a run. -/
theorem run_monotone (R : σ → σ → Prop) (hrefl : ∀ s, R s s)
    (htrans : ∀ a b c, R a b → R b c → R a c) (hstep : ∀ s i, R s (step s i).2) (s : σ)
    (is : List ι) (m n : ℕ) (h : m ≤ n) :
    R (run step s (is.take m)).2 (run step s (is.take n)).2 := by
  induction n, h using Nat.le_induction with
  | base => exact hrefl _
  | succ n _ ih =>
    cases hi : is[n]? with
    | none =>
      have hlen := List.getElem?_eq_none_iff.mp hi
      rw [List.take_of_length_le hlen] at ih
      rwa [List.take_of_length_le (by omega : is.length ≤ n+1)]
    | some i =>
      rw [run_take_succ step s is n i hi]
      exact htrans _ _ _ ih (hstep _ i)

end Faultline
