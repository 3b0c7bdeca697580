/-
**Staircases: the greatest step a sum has reached.**

For thresholds `f 1, f 2, …` that never fall, a sum that lies between two consecutive thresholds has
reached exactly the lower of them (`isGreatest_step`). The triangular numbers are such thresholds,
with the step number as the height of each step (`triangle_succ`).
-/

import Mathlib.Order.Bounds.Basic
import Mathlib.Algebra.Order.Ring.Int
import Mathlib.Tactic.Ring

namespace Staircase

section Steps

variable {α : Type*} [LinearOrder α] {f : ℤ → α} {S : α} {L : ℤ}

/-- The steps a sum has reached. -/
def reached (f : ℤ → α) (S : α) : Set ℤ :=
  {l | 1 ≤ l ∧ f l ≤ S}

theorem isGreatest_step (mono : ∀ l l', 1 ≤ l → l ≤ l' → f l ≤ f l') (one : 1 ≤ L)
    (low : f L ≤ S) (high : S < f (L + 1)) : IsGreatest (reached f S) L := by
  refine ⟨⟨one, low⟩, fun l ⟨positive, below⟩ => ?_⟩
  by_contra beyond
  have next : f (L + 1) ≤ f l := mono (L + 1) l (by omega) (by omega)
  exact absurd (next.trans below) (not_le.mpr high)

end Steps

section Triangle

/-- The triangular numbers, `0, 1, 3, 6, …` from `n = 1`. -/
def triangle (n : ℤ) : ℤ :=
  n * (n - 1) / 2

theorem triangle_succ (n : ℤ) : triangle (n + 1) = triangle n + n := by
  unfold triangle
  have split : (n + 1) * (n + 1 - 1) = n * (n - 1) + n * 2 := by ring
  rw [split, Int.add_mul_ediv_right _ _ (by decide)]

theorem triangle_monotone (l l' : ℤ) (positive : 1 ≤ l) (below : l ≤ l') :
    triangle l ≤ triangle l' := by
  obtain ⟨k, rfl⟩ := Int.le.dest below
  induction k with
  | zero => rw [Nat.cast_zero, add_zero]
  | succ k ih =>
    rw [Nat.cast_succ, ← add_assoc, triangle_succ]
    have before := ih (by omega)
    omega

end Triangle

end Staircase
