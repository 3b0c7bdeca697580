/-
**Turns of the plane, and vectors of one direction.**

A `Turn` is an angle, given by its cosine and its sine, so that the plane can be turned exactly over
any field. `SameDirection` holds of vectors that are positive multiples of each other; a turn keeps
it and reflects it (`sameDirection_map_iff`), and stretching one coordinate breaks it unless the
vector lies on an axis (`sameDirection_stretch_iff`).
-/

import Mathlib.Algebra.Order.Field.Basic
import Mathlib.Algebra.Module.Prod
import Mathlib.Tactic.LinearCombination
import Mathlib.Tactic.Ring

namespace Plane

/-- An angle, as its cosine and its sine. -/
structure Turn (K : Type*) [CommRing K] where
  cos : K
  sin : K
  pythagoras : cos ^ 2 + sin ^ 2 = 1

/-! ### Turning -/

section Rotate

variable {K : Type*} [CommRing K] (turn : Turn K)

/-- A vector turned by an angle. -/
def Turn.rotate (v : K × K) : K × K :=
  (v.1 * turn.cos - v.2 * turn.sin, v.1 * turn.sin + v.2 * turn.cos)

/-- The angle the other way. -/
def Turn.back : Turn K where
  cos := turn.cos
  sin := -turn.sin
  pythagoras := by rw [neg_sq, turn.pythagoras]

theorem Turn.rotate_back (v : K × K) : turn.back.rotate (turn.rotate v) = v := by
  have one := turn.pythagoras
  ext
  · show (v.1 * turn.cos - v.2 * turn.sin) * turn.cos -
      (v.1 * turn.sin + v.2 * turn.cos) * -turn.sin = v.1
    linear_combination v.1 * one
  · show (v.1 * turn.cos - v.2 * turn.sin) * -turn.sin +
      (v.1 * turn.sin + v.2 * turn.cos) * turn.cos = v.2
    linear_combination v.2 * one

theorem Turn.rotate_injective : Function.Injective turn.rotate :=
  Function.LeftInverse.injective turn.rotate_back

theorem Turn.rotate_smul (c : K) (v : K × K) : turn.rotate (c • v) = c • turn.rotate v := by
  ext
  · show c * v.1 * turn.cos - c * v.2 * turn.sin = c * (v.1 * turn.cos - v.2 * turn.sin)
    ring
  · show c * v.1 * turn.sin + c * v.2 * turn.cos = c * (v.1 * turn.sin + v.2 * turn.cos)
    ring

end Rotate

/-! ### Directions -/

/-- The vectors are positive multiples of each other. -/
def SameDirection (K : Type*) {V : Type*} [Zero K] [LT K] [SMul K V] (u v : V) : Prop :=
  ∃ c : K, 0 < c ∧ u = c • v

section Direction

variable {K V W : Type*}

/-- An injective map that respects multiples keeps and reflects directions. -/
theorem sameDirection_map_iff [Zero K] [LT K] [SMul K V] [SMul K W] {f : V → W}
    (injective : Function.Injective f) (multiples : ∀ (c : K) (v : V), f (c • v) = c • f v) {u v : V} :
    SameDirection K (f u) (f v) ↔ SameDirection K u v := by
  apply exists_congr
  intro c
  apply and_congr_right
  intro _
  rw [← multiples]
  exact injective.eq_iff

variable [Field K] [LinearOrder K] [IsStrictOrderedRing K]

theorem sameDirection_refl [MulAction K V] (v : V) : SameDirection K v v :=
  ⟨1, zero_lt_one, (one_smul K v).symm⟩

theorem SameDirection.symm [MulAction K V] {u v : V} (same : SameDirection K u v) :
    SameDirection K v u := by
  obtain ⟨c, positive, rfl⟩ := same
  exact ⟨c⁻¹, inv_pos.mpr positive, (inv_smul_smul₀ positive.ne' v).symm⟩

theorem SameDirection.trans [MulAction K V] {u v w : V} (first : SameDirection K u v)
    (second : SameDirection K v w) : SameDirection K u w := by
  obtain ⟨c, positive, rfl⟩ := first
  obtain ⟨d, positive', rfl⟩ := second
  exact ⟨c * d, mul_pos positive positive', smul_smul c d w⟩

/-- Stretching one coordinate turns every vector that is not on an axis. -/
theorem sameDirection_stretch_iff {a b x y : K} (first : 0 < a) (second : 0 < b) :
    SameDirection K (x * a, y) (x * b, y) ↔ x = 0 ∨ y = 0 ∨ a = b := by
  constructor
  · rintro ⟨c, _, same⟩
    obtain ⟨ahead, side⟩ := Prod.mk.inj same
    change x * a = c * (x * b) at ahead
    change y = c * y at side
    by_cases still : y = 0
    · exact Or.inr (Or.inl still)
    · have one : c = 1 := mul_right_cancel₀ still (side.symm.trans (one_mul y).symm)
      rw [one, one_mul] at ahead
      exact (mul_eq_mul_left_iff.mp ahead).symm.imp_right Or.inr
  · rintro (rfl | rfl | rfl)
    · rw [zero_mul, zero_mul]
      exact sameDirection_refl _
    · refine ⟨a / b, div_pos first second, Prod.ext ?_ ?_⟩
      · show x * a = a / b * (x * b)
        rw [mul_left_comm, div_mul_cancel₀ a second.ne']
      · exact (mul_zero _).symm
    · exact sameDirection_refl _

end Direction

end Plane
