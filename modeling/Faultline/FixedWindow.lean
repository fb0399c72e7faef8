import Mathlib

/-! A counter that starts again when its window of time has run out. -/
namespace Faultline

structure FixedWindow where
  start : ℕ
  count : ℕ

namespace FixedWindow
variable {period limit a now n : ℕ} {passed : Bool} {first w w' : FixedWindow}

/-- What one event at a time does to the counter: the window goes on or starts again, the event is
counted if it passes, and the count stays within the limit. -/
structure Step (period limit : ℕ) (w : FixedWindow) (now : ℕ) (passed : Bool) (w' : FixedWindow) : Prop where
  window : w'.start = w.start ∧ w.count + passed.toNat ≤ w'.count ∨
    w'.start = now ∧ period ≤ now - w.start ∧ passed.toNat ≤ w'.count
  limited : w'.count ≤ limit

/-- What has passed since a counter stood at `first`, in a time that begins at `a`. -/
def Spent (limit a : ℕ) (first w : FixedWindow) (n : ℕ) : Prop :=
  w.count ≤ limit ∧ (w.start = first.start ∧ first.count + n ≤ w.count ∨ a ≤ w.start ∧ n ≤ limit + w.count)

theorem Spent.step (h : Spent limit a first w n) (hstep : Step period limit w now passed w') (ha : a ≤ now)
    (hnow : now < a + period) : Spent limit a first w' (n + passed.toNat) := by
  obtain ⟨hcount, hspent⟩ := h
  refine ⟨hstep.limited, ?_⟩
  rcases hstep.window with ⟨hstart, hmore⟩ | ⟨hstart, hout, hmore⟩
  · rcases hspent with ⟨hfirst, hn⟩ | ⟨hlater, hn⟩
    · left
      omega
    · right
      omega
  · -- a window that starts now has not run out before the time is over
    rcases hspent with ⟨-, hn⟩ | ⟨hlater, -⟩
    · right
      omega
    · omega

theorem Spent.le (h : Spent limit a first w n) : n ≤ 2*limit := by
  obtain ⟨hcount, hspent⟩ := h
  omega

end FixedWindow
end Faultline
