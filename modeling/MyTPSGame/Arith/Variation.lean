/-
**The variation of a sequence of readings.**

How far a sequence travels: the distances of neighbours, added up. Leaving readings out makes the sum
no larger (`variation_sublist`), so readings that lie apart by more than a gap bound it from below
wherever they stand in the sequence (`nsmul_lt_variation`). `isChain_filterMap` finds such readings:
what holds of any two consecutive marks of a list holds along the list of the marks.
-/

import Mathlib.Algebra.Order.Group.Abs
import Mathlib.Data.List.Chain

namespace Arith

/-! ### Consecutive marks -/

section Marks

variable {β γ : Type*} {R : γ → γ → Prop} {mark : β → Option γ} {l : List β}

/-- What holds of any two consecutive marks holds along the list of the marks. -/
theorem isChain_filterMap
    (apart : ∀ before mid after a b x y, l = before ++ a :: (mid ++ b :: after) → mark a = some x →
      mark b = some y → (∀ c ∈ mid, mark c = none) → R x y) :
    (l.filterMap mark).IsChain R := by
  rw [List.isChain_iff_forall_rel_of_append_cons_cons]
  intro x y xs ys split
  obtain ⟨before, rest, rfl, _, marks⟩ := List.filterMap_eq_append_iff.mp split
  obtain ⟨skipped, a, rest, rfl, _, first, marks⟩ := List.filterMap_eq_cons_iff.mp marks
  obtain ⟨mid, b, after, rfl, unmarked, second, _⟩ := List.filterMap_eq_cons_iff.mp marks
  refine apart (before ++ skipped) mid after a b x y ?_ first second unmarked
  rw [List.append_assoc]

end Marks

/-! ### Variation -/

section Variation

variable {α : Type*} [AddCommGroup α] [LinearOrder α] {l₁ l₂ l : List α}

/-- The distances of neighbours, added up. -/
def variation : List α → α
  | a :: b :: l => |b - a| + variation (b :: l)
  | _ => 0

@[simp] theorem variation_singleton (a : α) : variation [a] = 0 := rfl

@[simp] theorem variation_cons_cons (a b : α) (l : List α) :
    variation (a :: b :: l) = |b - a| + variation (b :: l) := rfl

variable [IsOrderedAddMonoid α]

theorem variation_le_cons (a : α) (l : List α) : variation l ≤ variation (a :: l) := by
  cases l with
  | nil => exact le_rfl
  | cons b l =>
    rw [variation_cons_cons]
    exact le_add_of_nonneg_left (abs_nonneg _)

theorem variation_nonneg (l : List α) : 0 ≤ variation l := by
  induction l with
  | nil => exact le_rfl
  | cons a l ih => exact ih.trans (variation_le_cons a l)

/-- The triangle inequality: a reading on the way makes the way no shorter. -/
theorem variation_insert (a b : α) (l : List α) : variation (a :: l) ≤ variation (a :: b :: l) := by
  cases l with
  | nil => exact variation_nonneg [a, b]
  | cons c l =>
    have triangle : |c - a| ≤ |b - a| + |c - b| := by
      rw [add_comm]
      exact abs_sub_le c b a
    rw [variation_cons_cons, variation_cons_cons, variation_cons_cons, ← add_assoc]
    exact add_le_add_left triangle _

theorem variation_cons_sublist (sub : l₁.Sublist l₂) (a : α) :
    variation (a :: l₁) ≤ variation (a :: l₂) := by
  induction sub generalizing a with
  | slnil => exact le_rfl
  | cons b _ ih => exact (ih a).trans (variation_insert a b _)
  | cons_cons b _ ih =>
    rw [variation_cons_cons, variation_cons_cons]
    exact add_le_add_right (ih b) _

/-- Leaving readings out makes the variation no larger. -/
theorem variation_sublist (sub : l₁.Sublist l₂) : variation l₁ ≤ variation l₂ := by
  induction sub with
  | slnil => exact le_rfl
  | cons b _ ih => exact ih.trans (variation_le_cons b _)
  | cons_cons b sub _ => exact variation_cons_sublist sub b

/-- What stands still does not travel. -/
theorem variation_eq_zero {a : α} (still : ∀ b ∈ l, b = a) : variation l = 0 := by
  rw [List.eq_replicate_of_mem still]
  induction l.length with
  | zero => rfl
  | succ n ih =>
    cases n with
    | zero => rfl
    | succ n =>
      rw [List.replicate_succ, List.replicate_succ, variation_cons_cons, sub_self, abs_zero, zero_add]
      exact ih

/-- Readings of which neighbours lie apart by more than a gap travel more than all the gaps. -/
theorem nsmul_lt_variation {gap a b : α} (apart : (a :: b :: l).IsChain fun x y => gap < |y - x|) :
    (l.length + 1) • gap < variation (a :: b :: l) := by
  induction l generalizing a b with
  | nil =>
    rw [List.isChain_cons_cons] at apart
    rw [variation_cons_cons, variation_singleton, add_zero]
    exact (one_nsmul gap).trans_lt apart.1
  | cons c l ih =>
    rw [List.isChain_cons_cons] at apart
    rw [List.length_cons, succ_nsmul', variation_cons_cons]
    exact add_lt_add apart.1 (ih apart.2)

end Variation

end Arith
