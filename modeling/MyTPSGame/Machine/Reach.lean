/-
**Reaching states along permitted transitions.**

`Leads step permitted s v`: from `s`, some run of permitted transitions ends in `v`.

* `Leads.trans`, `Leads.invariant`: such runs compose, and keep what each permitted transition keeps;
* `leads_of_variant`: where every state short of a goal leads to one that is closer to it, the goal is
  reached.
-/

import MyTPSGame.Machine.Run

namespace Machine

universe u v w

variable {σ : Type u} {ε : Type v} {ο : Type w} {step : Step σ ε ο}
  {permitted : Transition σ ε ο → Prop} {r s t : σ}

/-- Some run of permitted transitions ends in the second state. -/
def Leads (step : Step σ ε ο) (permitted : Transition σ ε ο → Prop) (s t : σ) : Prop :=
  ∃ ts, Run step s ts t ∧ ∀ u ∈ ts, permitted u

theorem Leads.refl (s : σ) : Leads step permitted s s :=
  ⟨[], .nil, fun _ none => (by cases none)⟩

theorem Leads.one {e : ε} {out : List ο} (done : step s e = some (t, out))
    (allowed : permitted ⟨s, e, t, out⟩) : Leads step permitted s t :=
  ⟨[⟨s, e, t, out⟩], .one done, fun _ member => List.mem_singleton.mp member ▸ allowed⟩

theorem Leads.trans (first : Leads step permitted r s) (second : Leads step permitted s t) :
    Leads step permitted r t := by
  obtain ⟨ts, reach, allowed⟩ := first
  obtain ⟨us, rest, later⟩ := second
  exact ⟨ts ++ us, reach.append rest, List.forall_mem_append.mpr ⟨allowed, later⟩⟩

/-- What every permitted transition keeps is kept on the way. -/
theorem Leads.invariant {I : σ → Prop} (leads : Leads step permitted s t) (begun : I s)
    (keep : ∀ u, u.Taken step → permitted u → I u.pre → I u.post) : I t := by
  obtain ⟨ts, run, allowed⟩ := leads
  exact run.invariant begun fun u member taken => keep u taken (allowed u member)

/-- **The goal is reached** where a variant can always be made smaller short of it. -/
theorem leads_of_variant {I G : σ → Prop} (variant : σ → ℕ)
    (progress : ∀ s, I s → G s ∨ ∃ t, Leads step permitted s t ∧ I t ∧ variant t < variant s)
    (begun : I s) : ∃ t, Leads step permitted s t ∧ G t := by
  generalize size : variant s = n
  induction n using Nat.strongRecOn generalizing s with
  | ind n ih =>
    rcases progress s begun with done | ⟨t, leads, kept, less⟩
    · exact ⟨s, .refl s, done⟩
    · obtain ⟨goal, rest, done⟩ := ih (variant t) (size ▸ less) kept rfl
      exact ⟨goal, leads.trans rest, done⟩

end Machine
