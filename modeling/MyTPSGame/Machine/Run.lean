/-
**Runs of a machine: which transitions a state can have behind it.**

A machine is a partial step function: from a state, an event yields the next state together with
the outputs emitted on the way, or is not possible (`none`). A run is a list of transitions, oldest
first, each of which is what the step function does where the one before it ended.

* `Run.append`, `Run.split`, `Run.mem`: runs compose, and come apart at any transition.
* `Run.invariant`, `Run.invariant_pre`: what every transition keeps holds at the end of the run
  and before each of its transitions.
* `run_trace`: executing a list of events, as far as they are possible, is a run.
-/

import Mathlib.Data.List.Induction

namespace Machine

universe u v w

/-- A step function: the next state and the outputs of an event, where the event is possible. -/
abbrev Step (σ : Type u) (ε : Type v) (ο : Type w) := σ → ε → Option (σ × List ο)

/-- One transition, with everything that can be observed of it. -/
structure Transition (σ : Type u) (ε : Type v) (ο : Type w) where
  pre : σ
  event : ε
  post : σ
  out : List ο

variable {σ : Type u} {ε : Type v} {ο : Type w}

/-- The transition is what the step function does. -/
def Transition.Taken (step : Step σ ε ο) (t : Transition σ ε ο) : Prop :=
  step t.pre t.event = some (t.post, t.out)

/-- Runs from a state, with their transitions (oldest first) and the state they end in. -/
inductive Run (step : Step σ ε ο) (start : σ) : List (Transition σ ε ο) → σ → Prop
  | nil : Run step start [] start
  | snoc {past : List (Transition σ ε ο)} {t : Transition σ ε ο} :
      Run step start past t.pre → t.Taken step → Run step start (past ++ [t]) t.post

/-- The states a run goes through, its first state included. -/
def visited (start : σ) (ts : List (Transition σ ε ο)) : List σ :=
  start :: ts.map Transition.post

variable {step : Step σ ε ο} {start s : σ} {ts : List (Transition σ ε ο)}

/-! ### Composing runs and taking them apart -/

section Compose

theorem run_nil_iff : Run step start [] s ↔ s = start := by
  constructor
  · intro run
    generalize empty : ([] : List (Transition σ ε ο)) = ts at run
    cases run with
    | nil => rfl
    | snoc _ _ => simp at empty
  · rintro rfl
    exact .nil

theorem run_snoc_iff {past : List (Transition σ ε ο)} {t : Transition σ ε ο} :
    Run step start (past ++ [t]) s ↔
      Run step start past t.pre ∧ t.Taken step ∧ s = t.post := by
  constructor
  · intro run
    generalize whole : past ++ [t] = ts at run
    cases run with
    | nil => simp at whole
    | snoc before taken =>
      obtain ⟨rfl, last⟩ := List.append_inj' whole rfl
      obtain rfl := (List.cons.inj last).1
      exact ⟨before, taken, rfl⟩
  · rintro ⟨before, taken, rfl⟩
    exact .snoc before taken

theorem Run.append {middle : σ} {us : List (Transition σ ε ο)} (first : Run step start ts middle)
    (second : Run step middle us s) : Run step start (ts ++ us) s := by
  induction second with
  | nil => rwa [List.append_nil]
  | snoc _ taken ih =>
    rw [← List.append_assoc]
    exact .snoc ih taken

theorem Run.split {us : List (Transition σ ε ο)} (run : Run step start (ts ++ us) s) :
    ∃ middle, Run step start ts middle ∧ Run step middle us s := by
  induction us using List.reverseRecOn generalizing s with
  | nil =>
    rw [List.append_nil] at run
    exact ⟨s, run, .nil⟩
  | append_singleton us t ih =>
    rw [← List.append_assoc] at run
    obtain ⟨before, taken, rfl⟩ := run_snoc_iff.mp run
    obtain ⟨middle, first, second⟩ := ih before
    exact ⟨middle, first, .snoc second taken⟩

theorem run_cons_iff {t : Transition σ ε ο} :
    Run step start (t :: ts) s ↔ t.pre = start ∧ t.Taken step ∧ Run step t.post ts s := by
  constructor
  · intro run
    have whole : Run step start ([t] ++ ts) s := run
    obtain ⟨middle, first, rest⟩ := whole.split
    have single : Run step start ([] ++ [t]) middle := first
    obtain ⟨before, taken, rfl⟩ := run_snoc_iff.mp single
    exact ⟨run_nil_iff.mp before, taken, rest⟩
  · rintro ⟨rfl, taken, rest⟩
    have single : Run step t.pre ([] ++ [t]) t.post := .snoc .nil taken
    exact Run.append single rest

/-- One event is a run. -/
theorem Run.one {e : ε} {out : List ο} (done : step start e = some (s, out)) :
    Run step start [⟨start, e, s, out⟩] s :=
  run_cons_iff.mpr ⟨rfl, done, .nil⟩

/-- A run split at one of its transitions. -/
theorem Run.mid {before after : List (Transition σ ε ο)} {t : Transition σ ε ο}
    (run : Run step start (before ++ t :: after) s) :
    Run step start before t.pre ∧ t.Taken step ∧ Run step t.post after s := by
  obtain ⟨middle, first, rest⟩ := run.split
  obtain ⟨rfl, taken, rest⟩ := run_cons_iff.mp rest
  exact ⟨first, taken, rest⟩

/-- A run split at two of its transitions: what lies between them is a run. -/
theorem Run.between {before mid after : List (Transition σ ε ο)} {t u : Transition σ ε ο}
    (run : Run step start (before ++ t :: (mid ++ u :: after)) s) :
    t.Taken step ∧ Run step t.post mid u.pre ∧ u.Taken step := by
  obtain ⟨_, first, rest⟩ := run.mid
  obtain ⟨between, second, _⟩ := rest.mid
  exact ⟨first, between, second⟩

/-- Every transition of a run has a run before it and a run after it. -/
theorem Run.mem {t : Transition σ ε ο} (run : Run step start ts s) (member : t ∈ ts) :
    ∃ before after, ts = before ++ t :: after ∧ Run step start before t.pre ∧ t.Taken step ∧
      Run step t.post after s := by
  obtain ⟨before, after, rfl⟩ := List.append_of_mem member
  exact ⟨before, after, rfl, run.mid⟩

theorem Run.taken {t : Transition σ ε ο} (run : Run step start ts s) (member : t ∈ ts) :
    t.Taken step := by
  obtain ⟨_, _, _, _, taken, _⟩ := run.mem member
  exact taken

end Compose

/-! ### The states of a run -/

section Visited

@[simp] theorem visited_nil : visited start ([] : List (Transition σ ε ο)) = [start] := rfl

@[simp] theorem visited_snoc (t : Transition σ ε ο) :
    visited start (ts ++ [t]) = visited start ts ++ [t.post] := by
  simp [visited]

/-- A run ends in a state it goes through. -/
theorem Run.last_visited (run : Run step start ts s) : s ∈ visited start ts := by
  cases run with
  | nil => simp
  | snoc _ _ => simp

/-- A state a run goes through is where the run stands after some of its transitions. -/
theorem Run.visited_prefix {a : σ} (run : Run step start ts s) (member : a ∈ visited start ts) :
    ∃ before after, ts = before ++ after ∧ Run step start before a := by
  induction run with
  | nil =>
    rw [visited_nil, List.mem_singleton] at member
    exact ⟨[], [], rfl, member ▸ .nil⟩
  | @snoc past t before taken ih =>
    rw [visited_snoc, List.mem_append, List.mem_singleton] at member
    rcases member with earlier | rfl
    · obtain ⟨first, rest, rfl, reach⟩ := ih earlier
      exact ⟨first, rest ++ [t], by rw [List.append_assoc], reach⟩
    · exact ⟨past ++ [t], [], by rw [List.append_nil], .snoc before taken⟩

/-- Each transition of a run starts in a state the run goes through. -/
theorem Run.pre_visited {t : Transition σ ε ο} (run : Run step start ts s) (member : t ∈ ts) :
    t.pre ∈ visited start ts := by
  obtain ⟨before, after, rfl, reach, _, _⟩ := run.mem member
  have first := reach.last_visited
  unfold visited at first ⊢
  rw [List.map_append, ← List.cons_append]
  exact List.mem_append_left _ first

theorem post_visited {t : Transition σ ε ο} (member : t ∈ ts) : t.post ∈ visited start ts :=
  List.mem_cons_of_mem _ (List.mem_map_of_mem member)

end Visited

/-! ### Invariants -/

section Invariant

variable {I : σ → Prop}

/-- What every transition keeps holds at the end. -/
theorem Run.invariant (run : Run step start ts s) (base : I start)
    (keep : ∀ t ∈ ts, t.Taken step → I t.pre → I t.post) : I s := by
  induction run with
  | nil => exact base
  | @snoc past t _ taken ih =>
    have before := ih fun u member => keep u (List.mem_append_left _ member)
    exact keep t List.mem_concat_self taken before

/-- What every transition keeps holds before each of them. -/
theorem Run.invariant_pre (run : Run step start ts s) (base : I start)
    (keep : ∀ t ∈ ts, t.Taken step → I t.pre → I t.post) {t : Transition σ ε ο}
    (member : t ∈ ts) : I t.pre := by
  obtain ⟨before, after, rfl, reach, _, _⟩ := run.mem member
  exact reach.invariant base fun u earlier => keep u (List.mem_append_left _ earlier)

/-- What every transition keeps holds in every state of the run. -/
theorem Run.invariant_visited (run : Run step start ts s) (base : I start)
    (keep : ∀ t ∈ ts, t.Taken step → I t.pre → I t.post) : ∀ a ∈ visited start ts, I a := by
  intro a member
  obtain ⟨before, after, rfl, reach⟩ := run.visited_prefix member
  exact reach.invariant base fun u earlier => keep u (List.mem_append_left _ earlier)

end Invariant

/-! ### Executing events -/

section Execute

/-- The transitions of executing events in order, up to the first that is not possible. -/
def trace (step : Step σ ε ο) : σ → List ε → List (Transition σ ε ο)
  | _, [] => []
  | s, e :: es =>
    match step s e with
    | none => []
    | some (next, out) => ⟨s, e, next, out⟩ :: trace step next es

/-- The state that executing events in order ends in. -/
def final (step : Step σ ε ο) : σ → List ε → σ
  | s, [] => s
  | s, e :: es =>
    match step s e with
    | none => s
    | some (next, _) => final step next es

/-- Executing events is a run. -/
theorem run_trace (step : Step σ ε ο) (s : σ) (es : List ε) :
    Run step s (trace step s es) (final step s es) := by
  induction es generalizing s with
  | nil => exact .nil
  | cons e es ih =>
    unfold trace final
    cases outcome : step s e with
    | none => exact .nil
    | some result => exact run_cons_iff.mpr ⟨rfl, outcome, ih result.1⟩

end Execute

end Machine
