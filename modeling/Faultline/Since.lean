import Mathlib

/-! Conditions on the past of a run: something happened at one point and another thing
has held ever since. -/
namespace Faultline
variable {P K P' K' : ℕ → Prop}

/-- `P` held at `j`, and `K` at every point between `j` and `n`. -/
def SinceAt (P K : ℕ → Prop) (j n : ℕ) : Prop := j < n ∧ P j ∧ ∀ m, j < m → m < n → K m

def Since (P K : ℕ → Prop) (n : ℕ) : Prop := ∃ j, SinceAt P K j n

theorem sinceAt_succ (j n : ℕ) :
    SinceAt P K j (n+1) ↔ j = n ∧ P n ∨ SinceAt P K j n ∧ K n := by
  constructor
  · rintro ⟨hj, hp, hk⟩
    rcases Nat.lt_succ_iff_lt_or_eq.mp hj with h | rfl
    · exact .inr ⟨⟨h, hp, fun m h1 h2 => hk m h1 (by omega)⟩, hk n h (by omega)⟩
    · exact .inl ⟨rfl, hp⟩
  · rintro (⟨rfl, hp⟩ | ⟨⟨hj, hp, hk⟩, hn⟩)
    · exact ⟨by omega, hp, fun m h1 h2 => absurd h1 (by omega)⟩
    · refine ⟨by omega, hp, fun m h1 h2 => ?_⟩
      rcases Nat.lt_succ_iff_lt_or_eq.mp h2 with h | rfl
      · exact hk m h1 h
      · exact hn

theorem since_succ (n : ℕ) : Since P K (n+1) ↔ P n ∨ Since P K n ∧ K n := by
  simp only [Since, sinceAt_succ, exists_or, exists_eq_left, exists_and_right]

theorem not_since_zero : ¬ Since P K 0 := by
  rintro ⟨j, hj, -⟩
  omega

theorem sinceAt_congr (j n : ℕ) (hP : ∀ m < n, P m ↔ P' m) (hK : ∀ m < n, K m ↔ K' m) :
    SinceAt P K j n ↔ SinceAt P' K' j n := by
  unfold SinceAt
  refine and_congr_right (fun hj => and_congr (hP j hj) ?_)
  exact forall_congr' (fun m => imp_congr_right (fun _ => imp_congr_right (fun h => hK m h)))

theorem since_congr (n : ℕ) (hP : ∀ m < n, P m ↔ P' m) (hK : ∀ m < n, K m ↔ K' m) :
    Since P K n ↔ Since P' K' n := exists_congr (fun j => sinceAt_congr j n hP hK)

/-- The first `P` after which `K` has held, with none before it under the same `K`. -/
theorem since_iff_first (hP : ∀ m, P m → K m) (n : ℕ) :
    Since P K n ↔ Since (fun m => P m ∧ ¬ Since P K m) K n := by
  induction n with
  | zero => exact iff_of_false not_since_zero not_since_zero
  | succ n ih =>
    rw [since_succ, since_succ, ← ih]
    by_cases hs : Since P K n
    · have := hP n
      tauto
    · tauto

section At
variable {α : Type}

def At (Q : α → Prop) (l : List α) (k : ℕ) : Prop := ∃ a, l[k]? = some a ∧ Q a

theorem at_append (Q : α → Prop) (l l' : List α) (k : ℕ) (hk : k < l.length) :
    At Q (l ++ l') k ↔ At Q l k := by
  rw [At, At, List.getElem?_append_left hk]

theorem at_snoc (Q : α → Prop) (l : List α) (a : α) : At Q (l ++ [a]) l.length ↔ Q a := by
  simp [At]

end At

end Faultline
