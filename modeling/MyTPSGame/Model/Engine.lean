/-
**The engine functions the game's code calls, as far as their results matter to it.**

Times and distances are floats in the source. They are exact rationals here, and so is the time
arithmetic; `int32` counters are exact integers. What the engine decides (a random draw, the time of
a frame, the distance of two actors, the result of a path request) is an input of the model.

* `RandRange`, `FRandRange`: which values `FMath::RandRange` can draw;
* `truncToInt`: the conversion of a float to `int32`;
* `toFloat`: the conversion of an `int32` to a float, with its rounding to 24 bits;
* `setTimer`: what `FTimerManager::SetTimer` leaves pending under a handle.
-/

import Mathlib.Data.Rat.Floor
import Mathlib.Algebra.Order.Ring.Rat

namespace MyTPSGame

/-- The values `FMath::RandRange(lo, hi)` can draw for integers. An empty range draws `lo`. -/
def RandRange (lo hi r : ℤ) : Prop :=
  if lo ≤ hi then lo ≤ r ∧ r ≤ hi else r = lo

instance (lo hi r : ℤ) : Decidable (RandRange lo hi r) :=
  inferInstanceAs (Decidable (if lo ≤ hi then lo ≤ r ∧ r ≤ hi else r = lo))

/-- The values `FMath::RandRange(lo, hi)` can draw for floats: `lo + (hi - lo) * FRand()`. -/
def FRandRange (lo hi r : ℚ) : Prop :=
  min lo hi ≤ r ∧ r ≤ max lo hi

instance (lo hi r : ℚ) : Decidable (FRandRange lo hi r) :=
  inferInstanceAs (Decidable (min lo hi ≤ r ∧ r ≤ max lo hi))

/-- The conversion of a float to `int32`: towards zero. The times it is used on are taken to be below
`2 ^ 31`; beyond, the conversion is undefined. -/
def truncToInt (x : ℚ) : ℤ :=
  x.num.tdiv x.den

/-- The conversion of an integer to a float: exact up to `2 ^ 24`, and beyond that rounded to a
multiple of the unit that 24 significant bits leave, ties to even. -/
def toFloat (i : ℤ) : ℚ :=
  if i.natAbs ≤ 2 ^ 24 then i
  else
    let unit : ℤ := 2 ^ (i.natAbs.log2 - 23)
    let quotient := i / unit
    let rest := i % unit
    if 2 * rest < unit ∨ (2 * rest = unit ∧ quotient % 2 = 0) then quotient * unit
    else (quotient + 1) * unit

/-- What `SetTimer` leaves pending under its handle: a rate of zero or less clears the handle. -/
def setTimer (rate : ℚ) : Option ℚ :=
  if 0 < rate then some rate else none

/-- Integers of up to 24 bits are floats. -/
theorem toFloat_exact {i : ℤ} (small : i.natAbs ≤ 2 ^ 24) : toFloat i = i :=
  if_pos small

/-- Of what is not negative, truncation takes the floor. -/
theorem truncToInt_eq_floor {x : ℚ} (nonneg : 0 ≤ x) : truncToInt x = ⌊x⌋ := by
  rw [Rat.floor_def', truncToInt, Int.tdiv_eq_ediv_of_nonneg (Rat.num_nonneg.mpr nonneg)]

end MyTPSGame
