/-
**Accounting along a run: totals of its transitions, paid for by a potential of its states.**

`total f ts` adds up a quantity `f` of each transition. A potential `Φ` of the states turns what one
transition pays into what the whole run pays:

* `Run.potential_eq`: if each transition moves `Φ` by exactly `f`, the run moves it by `total f`;
* `Run.potential_le`: if each transition covers `f` by `g` and the fall of `Φ`, so does the run;
  `Run.total_le` is the case without `g`, `Run.potential_le_add` the case without `f`;
* `Run.potential_lt`: one transition that covers strictly makes the whole run strict.

`emitted` is the count of one output over a run, as a total.
-/

import MyTPSGame.Machine.Run
import Mathlib.Algebra.Order.BigOperators.Group.List
import Mathlib.Algebra.BigOperators.Group.List.Basic
import Mathlib.Algebra.BigOperators.Ring.List
import Mathlib.Algebra.BigOperators.Group.Finset.Basic
import Mathlib.Data.Nat.Cast.Basic
import Mathlib.Tactic.Abel
import Mathlib.Tactic.GCongr

namespace Machine

universe u v w

variable {σ : Type u} {ε : Type v} {ο : Type w} {A : Type*}

/-- The sum of a quantity over the transitions of a run. -/
def total [AddMonoid A] (f : Transition σ ε ο → A) (ts : List (Transition σ ε ο)) : A :=
  (ts.map f).sum

/-- How often an output is emitted along a run. -/
def emitted [DecidableEq ο] (o : ο) (ts : List (Transition σ ε ο)) : ℕ :=
  total (fun t => t.out.count o) ts

section Total

variable [AddMonoid A] {f : Transition σ ε ο → A} {ts us : List (Transition σ ε ο)}
  {t : Transition σ ε ο}

@[simp] theorem total_nil : total f [] = 0 := rfl

@[simp] theorem total_cons : total f (t :: ts) = f t + total f ts := by
  simp [total]

@[simp] theorem total_append : total f (ts ++ us) = total f ts + total f us := by
  simp [total]

theorem total_snoc : total f (ts ++ [t]) = total f ts + f t := by
  simp

/-- A quantity that no transition has adds up to nothing. -/
theorem total_eq_zero (none : ∀ t ∈ ts, f t = 0) : total f ts = 0 := by
  induction ts with
  | nil => rfl
  | cons t ts ih =>
    rw [total_cons, none t List.mem_cons_self, zero_add]
    exact ih fun u member => none u (List.mem_cons_of_mem _ member)

theorem total_congr {g : Transition σ ε ο → A} (same : ∀ t ∈ ts, f t = g t) :
    total f ts = total g ts :=
  congrArg List.sum (List.map_congr_left same)

/-- A quantity of the transitions that the transitions of a run stand for. -/
theorem total_flatMap {σ' ε' ο' : Type*} (f : Transition σ' ε' ο' → A)
    (share : Transition σ ε ο → List (Transition σ' ε' ο')) (ts : List (Transition σ ε ο)) :
    total f (ts.flatMap share) = total (fun t => total f (share t)) ts := by
  induction ts with
  | nil => rfl
  | cons t ts ih => rw [List.flatMap_cons, total_append, total_cons, ih]

end Total

theorem total_add [AddCommMonoid A] (f g : Transition σ ε ο → A) (ts : List (Transition σ ε ο)) :
    total (fun t => f t + g t) ts = total f ts + total g ts := by
  simp [total, List.sum_map_add]

theorem total_sum {ι : Type*} [AddCommMonoid A] (f : ι → Transition σ ε ο → A) (s : Finset ι)
    (ts : List (Transition σ ε ο)) : total (fun t => ∑ i ∈ s, f i t) ts = ∑ i ∈ s, total (f i) ts := by
  induction ts with
  | nil => simp
  | cons t ts ih => simp [ih, Finset.sum_add_distrib]

theorem total_natCast (R : Type*) [AddMonoidWithOne R] (f : Transition σ ε ο → ℕ)
    (ts : List (Transition σ ε ο)) : ((total f ts : ℕ) : R) = total (fun t => (f t : R)) ts := by
  induction ts with
  | nil => exact Nat.cast_zero
  | cons t ts ih => rw [total_cons, total_cons, Nat.cast_add, ih]

theorem total_mul [NonUnitalNonAssocSemiring A] (f : Transition σ ε ο → A) (r : A)
    (ts : List (Transition σ ε ο)) : total (fun t => f t * r) ts = total f ts * r :=
  List.sum_map_mul_right _ _ _

section Emitted

variable [DecidableEq ο] {o : ο} {ts : List (Transition σ ε ο)}

@[simp] theorem emitted_nil : emitted o ([] : List (Transition σ ε ο)) = 0 := rfl

theorem emitted_pos_iff : 0 < emitted o ts ↔ ∃ t ∈ ts, o ∈ t.out := by
  induction ts with
  | nil => simp
  | cons t ts ih =>
    rw [emitted, total_cons, ← emitted, Nat.add_pos_iff_pos_or_pos, ih, List.count_pos_iff]
    simp

end Emitted

/-! ### Potentials -/

section Potential

variable {step : Step σ ε ο} {start s : σ} {ts : List (Transition σ ε ο)}

/-- A potential that each transition moves by `f` is moved by the total of `f`. -/
theorem Run.potential_eq [AddMonoid A] (run : Run step start ts s) (Φ : σ → A)
    (f : Transition σ ε ο → A)
    (pays : ∀ t ∈ ts, t.Taken step → Φ t.post = Φ t.pre + f t) :
    Φ s = Φ start + total f ts := by
  induction run with
  | nil => rw [total_nil, add_zero]
  | @snoc past t _ taken ih =>
    have before := ih fun u member => pays u (List.mem_append_left _ member)
    have last := pays t List.mem_concat_self taken
    rw [last, before, total_snoc, add_assoc]

variable [AddCommMonoid A] [PartialOrder A]

/-- What each transition covers by `g` and the fall of the potential, the run covers. -/
theorem Run.potential_le [IsOrderedAddMonoid A] (run : Run step start ts s) (Φ : σ → A)
    (f g : Transition σ ε ο → A)
    (pays : ∀ t ∈ ts, t.Taken step → Φ t.post + f t ≤ Φ t.pre + g t) :
    Φ s + total f ts ≤ Φ start + total g ts := by
  induction run with
  | nil => exact le_refl _
  | @snoc past t _ taken ih =>
    have before := ih fun u member => pays u (List.mem_append_left _ member)
    have last := pays t List.mem_concat_self taken
    calc Φ t.post + total f (past ++ [t])
        = Φ t.post + f t + total f past := by rw [total_snoc, add_comm (total f past), add_assoc]
      _ ≤ Φ t.pre + g t + total f past := by gcongr
      _ = Φ t.pre + total f past + g t := add_right_comm _ _ _
      _ ≤ Φ start + total g past + g t := by gcongr
      _ = Φ start + total g (past ++ [t]) := by rw [total_snoc, add_assoc]

/-- What each transition takes out of a potential, the run takes out of the first one. -/
theorem Run.total_le [IsOrderedAddMonoid A] (run : Run step start ts s) (Φ : σ → A)
    (f : Transition σ ε ο → A) (nonneg : 0 ≤ Φ s)
    (takes : ∀ t ∈ ts, t.Taken step → Φ t.post + f t ≤ Φ t.pre) :
    total f ts ≤ Φ start := by
  have paid := run.potential_le Φ f (fun _ => 0) fun t member taken => by
    rw [add_zero]
    exact takes t member taken
  rw [total_eq_zero (f := fun _ => 0) fun _ _ => rfl, add_zero] at paid
  exact (le_add_of_nonneg_left nonneg).trans paid

/-- A potential that each transition raises by `g` at most is raised by the total of `g` at most. -/
theorem Run.potential_le_add [IsOrderedAddMonoid A] (run : Run step start ts s) (Φ : σ → A)
    (g : Transition σ ε ο → A)
    (raises : ∀ t ∈ ts, t.Taken step → Φ t.post ≤ Φ t.pre + g t) :
    Φ s ≤ Φ start + total g ts := by
  have raised := run.potential_le Φ (fun _ => 0) g fun t member taken => by
    rw [add_zero]
    exact raises t member taken
  rwa [total_eq_zero fun _ _ => rfl, add_zero] at raised

/-- One transition that covers strictly makes the run cover strictly. -/
theorem Run.potential_lt [IsOrderedCancelAddMonoid A] (run : Run step start ts s) (Φ : σ → A)
    (f g : Transition σ ε ο → A)
    (pays : ∀ t ∈ ts, t.Taken step → Φ t.post + f t ≤ Φ t.pre + g t)
    {t : Transition σ ε ο} (member : t ∈ ts) (strict : Φ t.post + f t < Φ t.pre + g t) :
    Φ s + total f ts < Φ start + total g ts := by
  obtain ⟨before, after, rfl, first, taken, rest⟩ := run.mem member
  have early := first.potential_le Φ f g fun u inside => pays u (List.mem_append_left _ inside)
  have late := rest.potential_le Φ f g fun u inside =>
    pays u (List.mem_append_right _ (List.mem_cons_of_mem _ inside))
  calc Φ s + total f (before ++ t :: after)
      = (Φ s + total f after) + (f t + total f before) := by
        rw [total_append, total_cons]
        abel
    _ ≤ (Φ t.post + total g after) + (f t + total f before) := by gcongr
    _ = (Φ t.post + f t) + (total g after + total f before) := by abel
    _ < (Φ t.pre + g t) + (total g after + total f before) := by gcongr
    _ = (Φ t.pre + total f before) + (g t + total g after) := by abel
    _ ≤ (Φ start + total g before) + (g t + total g after) := by gcongr
    _ = Φ start + total g (before ++ t :: after) := by
        rw [total_append, total_cons, add_assoc]

end Potential

end Machine
