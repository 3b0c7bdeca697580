/-
**Cycles: counting round `0, 1, …, n - 1`.**

`succ n i` is the place after `i`, with `0` after the last. On places it is `(i + 1) % n`
(`succ_eq_emod`), so that a counter that goes on by `succ` counts its steps modulo `n`
(`succ_emod`); with two places or more no place is its own successor (`succ_ne`).
-/

import Mathlib.Data.Int.Basic

namespace Cycle

/-- The place after `i`, back at `0` after the last. -/
def succ (n i : ℤ) : ℤ :=
  if n ≤ i + 1 then 0 else i + 1

/-- The places of the cycle. -/
def Place (n i : ℤ) : Prop :=
  0 ≤ i ∧ i < n

variable {n i : ℤ}

theorem succ_eq_emod (place : Place n i) : succ n i = (i + 1) % n := by
  obtain ⟨low, high⟩ := place
  unfold succ
  by_cases last : n ≤ i + 1
  · have turn : i + 1 = n := by omega
    rw [if_pos last, turn, Int.emod_self]
  · rw [if_neg last, Int.emod_eq_of_lt (by omega) (by omega)]

theorem emod_place (positive : 0 < n) (k : ℤ) : Place n (k % n) :=
  ⟨Int.emod_nonneg k (by omega), Int.emod_lt_of_pos k positive⟩

/-- One step on from the place of `k` is the place of `k + 1`. -/
theorem succ_emod (positive : 0 < n) (k : ℤ) : succ n (k % n) = (k + 1) % n := by
  rw [succ_eq_emod (emod_place positive k), Int.emod_add_emod]

theorem succ_place (place : Place n i) : Place n (succ n i) := by
  obtain ⟨low, high⟩ := place
  unfold succ Place
  split <;> omega

theorem succ_ne (two : 2 ≤ n) (place : Place n i) : succ n i ≠ i := by
  obtain ⟨low, high⟩ := place
  unfold succ
  split <;> omega

end Cycle
