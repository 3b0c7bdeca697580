/-
**Simulation: runs of one machine read as runs of another.**

* `Run.simulate`: if every transition of the first machine is matched, from any related state of
  the second, by a run over the events it stands for, then so is every run; `Run.simulate_heard` is
  the same for events and outputs, `Run.simulate_share` for whatever a transition has in common with
  the run that matches it.
* `Run.component`: a machine whose state holds a component, possibly born on the way. Every run,
  seen from the component, is a run of the component from its birth.
* `Projects`: every event of the first machine is one event of the second, or nothing to it. Then
  `Projects.run` reads off each run one of the second machine, with the outputs that it hears.
-/

import Mathlib.Data.List.Forall2
import MyTPSGame.Machine.Commute

namespace Machine

universe u v w u' v' w'

variable {σ : Type u} {ε : Type v} {ο : Type w} {σ' : Type u'} {ε' : Type v'} {ο' : Type w'}
  {step : Step σ ε ο} {step' : Step σ' ε' ο'} {start s : σ} {ts : List (Transition σ ε ο)}

/-- **Simulation.** Each transition is matched by a run that it `Shares` something with. -/
theorem Run.simulate_share {R : σ → σ' → Prop}
    {Shares : Transition σ ε ο → List (Transition σ' ε' ο') → Prop} (run : Run step start ts s)
    {start' : σ'} (related : R start start')
    (follows : ∀ t ∈ ts, t.Taken step → ∀ a, R t.pre a →
      ∃ us a', Run step' a us a' ∧ Shares t us ∧ R t.post a') :
    ∃ uss a', Run step' start' uss.flatten a' ∧ List.Forall₂ Shares ts uss ∧ R s a' := by
  induction run with
  | nil => exact ⟨[], start', .nil, .nil, related⟩
  | @snoc past t _ taken ih =>
    obtain ⟨uss, a, reach, shared, here⟩ :=
      ih fun u member => follows u (List.mem_append_left _ member)
    obtain ⟨us, a', more, last, there⟩ := follows t List.mem_concat_self taken a here
    refine ⟨uss ++ [us], a', ?_, List.rel_append shared (.cons last .nil), there⟩
    rw [List.flatten_append, List.flatten_singleton]
    exact reach.append more

/-- What each transition has in common with its run, all of them have with all of it. -/
theorem flatMap_flatten_eq {γ : Type*} {f : Transition σ' ε' ο' → List γ}
    {g : Transition σ ε ο → List γ} {uss : List (List (Transition σ' ε' ο'))}
    (shared : List.Forall₂ (fun t us => us.flatMap f = g t) ts uss) :
    uss.flatten.flatMap f = ts.flatMap g := by
  induction shared with
  | nil => rfl
  | cons same _ ih => rw [List.flatten_cons, List.flatMap_append, same, ih, List.flatMap_cons]

theorem map_flatten_eq {γ : Type*} {f : Transition σ' ε' ο' → γ} {g : Transition σ ε ο → List γ}
    {uss : List (List (Transition σ' ε' ο'))}
    (shared : List.Forall₂ (fun t us => us.map f = g t) ts uss) :
    uss.flatten.map f = ts.flatMap g := by
  rw [List.map_eq_flatMap]
  refine flatMap_flatten_eq (List.Forall₂.imp (fun t us same => ?_) shared)
  rw [← List.map_eq_flatMap, same]

/-- Each transition is matched by a run over the events `means` reads off it. -/
theorem Run.simulate {R : σ → σ' → Prop} (means : Transition σ ε ο → List ε')
    (run : Run step start ts s) {start' : σ'} (related : R start start')
    (follows : ∀ t ∈ ts, t.Taken step → ∀ a, R t.pre a →
      ∃ us a', Run step' a us a' ∧ us.map Transition.event = means t ∧ R t.post a') :
    ∃ us a', Run step' start' us a' ∧ us.map Transition.event = ts.flatMap means ∧ R s a' := by
  obtain ⟨uss, a, reach, shared, there⟩ := run.simulate_share related follows
  exact ⟨uss.flatten, a, reach, map_flatten_eq shared, there⟩

/-- Each transition is matched by a run over the events `means` reads off it, with the outputs that it
`sounds` like. -/
theorem Run.simulate_heard {R : σ → σ' → Prop} (means : Transition σ ε ο → List ε')
    (sounds : Transition σ ε ο → List ο') (run : Run step start ts s) {start' : σ'}
    (related : R start start')
    (follows : ∀ t ∈ ts, t.Taken step → ∀ a, R t.pre a →
      ∃ us a', Run step' a us a' ∧ (us.map Transition.event = means t ∧
        us.flatMap Transition.out = sounds t) ∧ R t.post a') :
    ∃ us a', Run step' start' us a' ∧ us.map Transition.event = ts.flatMap means ∧
      us.flatMap Transition.out = ts.flatMap sounds ∧ R s a' := by
  obtain ⟨uss, a, reach, shared, there⟩ := run.simulate_share related follows
  exact ⟨uss.flatten, a, reach, map_flatten_eq (List.Forall₂.imp (fun _ _ both => both.1) shared),
    flatMap_flatten_eq (List.Forall₂.imp (fun _ _ both => both.2) shared), there⟩

/-- **A component of a run.** `find` looks the component up, `share` is what a transition is to it.
As long as it is not there, transitions are nothing to it and can only give birth to it. -/
theorem Run.component (find : σ → Option σ') (birth : σ')
    (share : Transition σ ε ο → List (Transition σ' ε' ο')) (run : Run step start ts s)
    (fresh : ∀ a, find start = some a → a = birth)
    (unborn : ∀ t ∈ ts, t.Taken step → find t.pre = none →
      share t = [] ∧ ∀ a, find t.post = some a → a = birth)
    (lives : ∀ t ∈ ts, t.Taken step → ∀ a, find t.pre = some a →
      ∃ a', find t.post = some a' ∧ Run step' a (share t) a') :
    (find s = none → ts.flatMap share = []) ∧
      ∀ a, find s = some a → Run step' birth (ts.flatMap share) a := by
  induction run with
  | nil => exact ⟨fun _ => rfl, fun a found => (fresh a found) ▸ .nil⟩
  | @snoc past t _ taken ih =>
    have last : t ∈ past ++ [t] := List.mem_concat_self
    obtain ⟨absent, present⟩ := ih (fun u member => unborn u (List.mem_append_left _ member))
      fun u member => lives u (List.mem_append_left _ member)
    rw [List.flatMap_append, List.flatMap_singleton]
    cases found : find t.pre with
    | none =>
      obtain ⟨idle, born⟩ := unborn t last taken found
      rw [absent found, idle]
      exact ⟨fun _ => rfl, fun a now => (born a now) ▸ .nil⟩
    | some a =>
      obtain ⟨a', now, reach⟩ := lives t last taken a found
      refine ⟨fun gone => absurd (now.symm.trans gone) (Option.some_ne_none a'), fun b same => ?_⟩
      rw [now] at same
      cases same
      exact (present a found).append reach

/-! ### Projections -/

section Projection

/-- What an event does to the part of the state that `view` shows is what the event that it `means` does
in the second machine, with the outputs that this `hears`; an event that means nothing does nothing. -/
structure Projects (step : Step σ ε ο) (step' : Step σ' ε' ο') (view : σ → σ') (means : ε → Option ε')
    (hears : ο → Option ο') : Prop where
  acts : ∀ ⦃s e next out e'⦄, step s e = some (next, out) → means e = some e' →
    step' (view s) e' = some (view next, out.filterMap hears)
  rests : ∀ ⦃s e next out⦄, step s e = some (next, out) → means e = none →
    view next = view s ∧ out.filterMap hears = []

variable {view : σ → σ'} {means : ε → Option ε'} {hears : ο → Option ο'}

/-- **A run is projected on a run.** -/
theorem Projects.run (projects : Projects step step' view means hears) (run : Run step start ts s) :
    ∃ us, Run step' (view start) us (view s) ∧
      us.map Transition.event = (ts.map Transition.event).filterMap means ∧
      us.flatMap Transition.out = (ts.flatMap Transition.out).filterMap hears := by
  induction run with
  | nil => exact ⟨[], .nil, rfl, rfl⟩
  | @snoc past t _ taken ih =>
    obtain ⟨us, reach, events, calls⟩ := ih
    rw [List.map_append, List.filterMap_append, List.flatMap_append, List.filterMap_append, ← events,
      ← calls, List.map_singleton, List.flatMap_singleton]
    cases meant : means t.event with
    | none =>
      obtain ⟨still, silent⟩ := projects.rests taken meant
      refine ⟨us, still ▸ reach, ?_, ?_⟩
      · simp [meant]
      · rw [silent, List.append_nil]
    | some e =>
      have onward := Run.one (projects.acts taken meant)
      refine ⟨us ++ _, reach.append onward, ?_, ?_⟩
      · simp [meant]
      · rw [List.flatMap_append, List.flatMap_singleton]

/-- Executing events is projected on executing what they mean. -/
theorem Projects.exec (projects : Projects step step' view means hears) {es : List ε} {out : List ο}
    (done : Machine.exec step start es = some (s, out)) :
    Machine.exec step' (view start) (es.filterMap means) = some (view s, out.filterMap hears) := by
  obtain ⟨ts, run, rfl, rfl⟩ := exec_eq_some_iff.mp done
  obtain ⟨us, reach, events, calls⟩ := projects.run run
  exact exec_eq_some_iff.mpr ⟨us, reach, events, calls⟩

end Projection

end Machine
