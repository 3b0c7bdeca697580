/-
**Tracking: what the events alone say about the state.**

A value that each event updates, whatever the state is, tracks a machine if its relation to the state
survives every event (`Tracks`).

* `Tracks.run`, `Tracks.exec`: the value that all events together make of the first one is related to
  the state at the end;
* `Tracks.kept`: events that do not update the value keep the relation;
* `Tracks.lift`: a value that tracks a projection of a machine tracks the machine.
-/

import MyTPSGame.Machine.Simulation

namespace Machine

universe u v w

variable {σ : Type u} {ε : Type v} {ο : Type w} {α : Type*} {step : Step σ ε ο} {R : α → σ → Prop}
  {update : ε → α → α} {start s : σ} {ts : List (Transition σ ε ο)} {a : α}

/-- Every event keeps the relation to the value it updates. -/
def Tracks (step : Step σ ε ο) (R : α → σ → Prop) (update : ε → α → α) : Prop :=
  ∀ ⦃s e next out a⦄, step s e = some (next, out) → R a s → R (update e a) next

/-- What events make of a value, one after the other. -/
def updated (update : ε → α → α) (a : α) (es : List ε) : α :=
  es.foldl (fun a e => update e a) a

@[simp] theorem updated_nil : updated update a [] = a := rfl

@[simp] theorem updated_cons (e : ε) (es : List ε) :
    updated update a (e :: es) = updated update (update e a) es := rfl

theorem updated_snoc (e : ε) (es : List ε) :
    updated update a (es ++ [e]) = update e (updated update a es) := by
  simp [updated]

/-- Events that do not update a value make nothing of it. -/
theorem updated_idle {es : List ε} (idle : ∀ e ∈ es, update e a = a) : updated update a es = a := by
  induction es with
  | nil => rfl
  | cons e es ih =>
    rw [updated_cons, idle e List.mem_cons_self]
    exact ih fun f member => idle f (List.mem_cons_of_mem _ member)

/-- **A run is tracked.** -/
theorem Tracks.run (tracks : Tracks step R update) (run : Run step start ts s) (begun : R a start) :
    R (updated update a (ts.map Transition.event)) s := by
  induction run with
  | nil => exact begun
  | snoc _ taken ih =>
    rw [List.map_append, List.map_singleton, updated_snoc]
    exact tracks taken ih

theorem Tracks.exec (tracks : Tracks step R update) {es : List ε} {last : σ} {out : List ο}
    (done : exec step s es = some (last, out)) (begun : R a s) : R (updated update a es) last := by
  obtain ⟨ts, run, rfl, _⟩ := exec_eq_some_iff.mp done
  exact tracks.run run begun

/-- Events that do not update the value keep the relation. -/
theorem Tracks.kept (tracks : Tracks step R update) (run : Run step start ts s) (begun : R a start)
    (idle : ∀ t ∈ ts, update t.event a = a) : R a s :=
  run.invariant begun fun t member taken related => idle t member ▸ tracks taken related

/-- **What tracks a projection tracks the machine**: each event is one of the projection, or none. -/
theorem Tracks.lift {σ' ε' ο' : Type*} {step' : Step σ' ε' ο'} {R : α → σ' → Prop}
    {update : ε' → α → α} {view : σ → σ'} {means : ε → Option ε'} {hears : ο → Option ο'}
    (tracks : Tracks step' R update) (projects : Projects step step' view means hears) :
    Tracks step (fun a s => R a (view s)) fun e a => (means e).elim a fun e' => update e' a := by
  intro s e next out a done related
  show R ((means e).elim a fun e' => update e' a) (view next)
  cases meant : means e with
  | none =>
    show R a (view next)
    rw [(projects.rests done meant).1]
    exact related
  | some e' => exact tracks (projects.acts done meant) related

end Machine
