/-
**Walking while looking up or down.**

`TickComponent` turns the input by the whole control rotation and then drops `Z`: a pitch shortens the
forward part of the step by its cosine and leaves the sideways part as it is. So the pitch changes the
direction of a step that goes forward and sideways at once, and of no other (`pitch_iff`).
-/

import Mathlib.Analysis.SpecialFunctions.Trigonometric.Basic
import MyTPSGame.Model.PlayerMove

namespace MyTPSGame

open Machine Plane

namespace MoveComponent

/-! ### Any field -/

section Field

variable {K : Type*} [Field K] {yaw first second : Turn K} {X Y : K}

/-- A vector of the plane, as an `FVector`. -/
def level (v : K × K) : FVector K :=
  ⟨v.1, v.2, 0⟩

theorem level_injective : Function.Injective (level (K := K)) := by
  intro u v same
  obtain ⟨x, y, _⟩ := FVector.mk.inj same
  exact Prod.ext x y

theorem level_smul (c : K) (v : K × K) : level (c • v) = c • level v := by
  ext
  · rfl
  · rfl
  · exact (mul_zero c).symm

/-- Of the two axes, the forward one is shortened by the cosine of the pitch, and both are turned by
the yaw. -/
theorem horizontal_eq (pitch yaw : Turn K) (X Y : K) :
    horizontal ⟨pitch, yaw⟩ ⟨X, Y, 0⟩ = level (yaw.rotate (X * pitch.cos, Y)) := by
  ext
  · show X * (pitch.cos * yaw.cos) - Y * yaw.sin - 0 * (pitch.sin * yaw.cos) =
      X * pitch.cos * yaw.cos - Y * yaw.sin
    ring
  · show X * (pitch.cos * yaw.sin) + Y * yaw.cos - 0 * (pitch.sin * yaw.sin) =
      X * pitch.cos * yaw.sin + Y * yaw.cos
    ring
  · rfl

variable [LinearOrder K] [IsStrictOrderedRing K]

/-- Two pitches lead the same way on an axis, or when their cosines are the same. -/
theorem horizontal_sameDirection_iff (ahead : 0 < first.cos) (ahead' : 0 < second.cos) :
    SameDirection K (horizontal ⟨first, yaw⟩ ⟨X, Y, 0⟩) (horizontal ⟨second, yaw⟩ ⟨X, Y, 0⟩) ↔
      X = 0 ∨ Y = 0 ∨ first.cos = second.cos := by
  rw [horizontal_eq, horizontal_eq, sameDirection_map_iff level_injective level_smul,
    sameDirection_map_iff yaw.rotate_injective yaw.rotate_smul]
  exact sameDirection_stretch_iff ahead ahead'

/-- Where two pitches lead different ways, no normalisation makes the movement the same. -/
theorem movement_ne {normalize : FVector K → FVector K}
    (normal : ∀ v, SameDirection K (normalize v) v) {u v : FVector K}
    (apart : ¬ SameDirection K u v) : normalize u ≠ normalize v := by
  intro same
  have back := normal v
  rw [← same] at back
  exact apart ((normal u).symm.trans back)

end Field

/-! ### Degrees -/

section Degrees

/-- An angle in degrees. -/
noncomputable def degrees (angle : ℝ) : Turn ℝ where
  cos := Real.cos (angle * (Real.pi / 180))
  sin := Real.sin (angle * (Real.pi / 180))
  pythagoras := Real.cos_sq_add_sin_sq _

variable {first second : ℝ}

/-- Less than a right angle up or down, the cosine is positive. -/
theorem degrees_cos_pos (steep : |first| < 90) : 0 < (degrees first).cos := by
  have half : |first * (Real.pi / 180)| < Real.pi / 2 := by
    rw [abs_mul, abs_of_pos (div_pos Real.pi_pos (by norm_num))]
    calc |first| * (Real.pi / 180) < 90 * (Real.pi / 180) := by
          apply mul_lt_mul_of_pos_right steep
          positivity
      _ = Real.pi / 2 := by ring
  exact Real.cos_pos_of_mem_Ioo (abs_lt.mp half)

/-- Less than a right angle up or down, the cosine tells the size of the angle. -/
theorem degrees_cos_eq_iff (steep : |first| < 90) (steep' : |second| < 90) :
    (degrees first).cos = (degrees second).cos ↔ |first| = |second| := by
  have unit : 0 < Real.pi / 180 := div_pos Real.pi_pos (by norm_num)
  have inside : ∀ {angle : ℝ}, |angle| < 90 → |angle * (Real.pi / 180)| ∈ Set.Icc 0 Real.pi := by
    intro angle steep
    refine ⟨abs_nonneg _, ?_⟩
    rw [abs_mul, abs_of_pos unit]
    calc |angle| * (Real.pi / 180) ≤ 180 * (Real.pi / 180) := by
          apply mul_le_mul_of_nonneg_right _ unit.le
          linarith
      _ = Real.pi := by ring
  show Real.cos (first * (Real.pi / 180)) = Real.cos (second * (Real.pi / 180)) ↔ _
  rw [← Real.cos_abs (first * _), ← Real.cos_abs (second * _),
    Real.injOn_cos.eq_iff (inside steep) (inside steep'), abs_mul, abs_mul, abs_of_pos unit]
  exact mul_left_inj' unit.ne'

/-- **Looking up or down does not change where the player walks** if and only if the step goes
straight ahead or back, straight to a side, or the two pitches are equally steep. -/
theorem pitch_iff (yaw X Y : ℝ) (steep : |first| < 90) (steep' : |second| < 90) :
    SameDirection ℝ (horizontal ⟨degrees first, degrees yaw⟩ ⟨X, Y, 0⟩)
        (horizontal ⟨degrees second, degrees yaw⟩ ⟨X, Y, 0⟩) ↔
      X = 0 ∨ Y = 0 ∨ |first| = |second| := by
  rw [horizontal_sameDirection_iff (degrees_cos_pos steep) (degrees_cos_pos steep'),
    degrees_cos_eq_iff steep steep']

/-- Straight ahead, level and looking up. -/
theorem pitch_iff_ahead :
    SameDirection ℝ (horizontal ⟨degrees 0, degrees 30⟩ ⟨1, 0, 0⟩)
        (horizontal ⟨degrees 60, degrees 30⟩ ⟨1, 0, 0⟩) ↔
      (1 : ℝ) = 0 ∨ (0 : ℝ) = 0 ∨ |(0 : ℝ)| = |(60 : ℝ)| :=
  pitch_iff 30 1 0 (by norm_num) (by norm_num)

/-- Ahead and to the right at once: looking up by sixty degrees turns the step to the right. -/
theorem looking_up_turns :
    |(0 : ℝ)| < 90 ∧ |(60 : ℝ)| < 90 ∧
      ¬ SameDirection ℝ (horizontal ⟨degrees 0, degrees 0⟩ ⟨1, 1, 0⟩)
        (horizontal ⟨degrees 60, degrees 0⟩ ⟨1, 1, 0⟩) := by
  have flat : |(0 : ℝ)| < 90 := by norm_num
  have up : |(60 : ℝ)| < 90 := by norm_num
  refine ⟨flat, up, ?_⟩
  rw [horizontal_sameDirection_iff (degrees_cos_pos flat) (degrees_cos_pos up),
    degrees_cos_eq_iff flat up]
  norm_num

variable {normalize : FVector ℝ → FVector ℝ} {move : MoveComponent ℝ} {ts : List (Move ℝ)}

/-- So after input ahead and to a side at once, a tick moves the player by the pitch. -/
theorem tick_ne (normal : ∀ v, SameDirection ℝ (normalize v) v)
    (run : Run (step normalize) beginPlay ts move) (ahead : move.direction.X ≠ 0)
    (aside : move.direction.Y ≠ 0) (steep : |first| < 90) (steep' : |second| < 90)
    (other : |first| ≠ |second|) (yaw : Turn ℝ) :
    (move.tickComponent normalize ⟨degrees first, yaw⟩).2 ≠
      (move.tickComponent normalize ⟨degrees second, yaw⟩).2 := by
  have apart : ¬ SameDirection ℝ (horizontal ⟨degrees first, yaw⟩ move.direction)
      (horizontal ⟨degrees second, yaw⟩ move.direction) := by
    rw [direction_level run, horizontal_sameDirection_iff (degrees_cos_pos steep)
      (degrees_cos_pos steep'), degrees_cos_eq_iff steep steep']
    rintro (still | still | same)
    · exact ahead still
    · exact aside still
    · exact other same
  intro same
  obtain ⟨call, _⟩ := List.cons.inj same
  exact movement_ne normal apart (MoveCall.addMovementInput.inj call)

end Degrees

end MoveComponent

end MyTPSGame
