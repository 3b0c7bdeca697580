/-
**Things that live for a fixed time.**

A machine under a clock brings things into being, and each of them sets a timer of its own when it comes,
which ends it when it fires. `leased` is the machine with the ends of the things that are alive.

* `Run.unleased`: its runs are runs under the clock;
* `alive_add_gone`: what has come is alive or gone;
* `ends_late`: where no frame passes over a timer that is due, nothing outlives its time by a frame;
* `Run.window`: a run under the clock is cut at any time before its end;
* `alive_le`: so what is alive has come within its life and a frame.
-/

import MyTPSGame.Machine.Clock

set_option linter.unusedSectionVars false

namespace Machine

universe u v w

/-- A machine under a clock, and when the things that are alive will end, oldest first. -/
structure Leased (σ : Type u) (κ τ T : Type*) where
  clock : Clocked σ κ τ T
  ends : List T

/-- An event under the clock, or the timer of one of the living. -/
inductive Lease (ε : Type v) (T : Type*)
  | clocked (e : Timed ε T)
  | ends (k : ℕ)

/-- A call of the machine, or the end of one of the living. -/
inductive LeaseCall (ο : Type w)
  | call (o : ο)
  | gone

/-- The call, if it is one of the machine. -/
def LeaseCall.ofCall {ο : Type w} : LeaseCall ο → Option ο
  | .call o => some o
  | .gone => none

/-- The end of a thing. -/
def LeaseCall.isGone {ο : Type w} : LeaseCall ο → Bool
  | .call _ => false
  | .gone => true

variable {σ : Type u} {ε : Type v} {ο : Type w} {κ τ T : Type*} [AddCommGroup T] [LinearOrder T]
  [DecidableEq κ] [Fintype τ]

/-- The machine with its living: `births` counts what a list of calls brings into being, for `life`. -/
def leased (step : Step σ ε ο) (timing : Timing σ ε ο κ τ T) (life : T) (births : List ο → ℕ) :
    Step (Leased σ κ τ T) (Lease ε T) (LeaseCall ο)
  | s, .clocked e =>
    (timed step timing s.clock e).map fun (next, out) =>
      (⟨next, s.ends ++ List.replicate (births out) (next.now + life)⟩, out.map .call)
  | s, .ends k =>
    match s.ends[k]? with
    | none => none
    | some time =>
      if time ≤ s.clock.now then some ({ s with ends := s.ends.eraseIdx k }, [.gone]) else none

/-- The transition under the clock behind one with the living, if there is one. -/
def unleased (u : Transition (Leased σ κ τ T) (Lease ε T) (LeaseCall ο)) :
    List (Transition (Clocked σ κ τ T) (Timed ε T) ο) :=
  match u.event with
  | .clocked e => [⟨u.pre.clock, e, u.post.clock, u.out.filterMap LeaseCall.ofCall⟩]
  | .ends _ => []

/-- When what a run brings into being will end. -/
def born (life : T) (births : List ο → ℕ) (ts : List (Transition (Clocked σ κ τ T) (Timed ε T) ο)) :
    List T :=
  ts.flatMap fun t => List.replicate (births t.out) (t.post.now + life)

variable {step : Step σ ε ο} {timing : Timing σ ε ο κ τ T} {life : T} {births : List ο → ℕ}
  {s t : Leased σ κ τ T} {us : List (Transition (Leased σ κ τ T) (Lease ε T) (LeaseCall ο))}
  {u : Transition (Leased σ κ τ T) (Lease ε T) (LeaseCall ο)}

/-! ### One transition -/

section Lives

/-- What a transition is: one under the clock, with what it brings into being, or the end of one of the
living that is due. -/
inductive Lives (step : Step σ ε ο) (timing : Timing σ ε ο κ τ T) (life : T) (births : List ο → ℕ)
    (u : Transition (Leased σ κ τ T) (Lease ε T) (LeaseCall ο)) : Prop
  | clocked (t : Transition (Clocked σ κ τ T) (Timed ε T) ο) : unleased u = [t] →
      u.event = .clocked t.event → u.pre.clock = t.pre → u.post.clock = t.post →
      t.Taken (timed step timing) → u.out = t.out.map .call →
      u.post.ends = u.pre.ends ++ List.replicate (births t.out) (t.post.now + life) →
      Lives step timing life births u
  | ends (k : ℕ) (time : T) : unleased u = [] → u.event = .ends k → u.post.clock = u.pre.clock →
      u.pre.ends[k]? = some time → time ≤ u.pre.clock.now → u.out = [.gone] →
      u.post.ends = u.pre.ends.eraseIdx k → Lives step timing life births u

theorem taken_lives (taken : u.Taken (leased step timing life births)) :
    Lives step timing life births u := by
  obtain ⟨pre, event, post, out⟩ := u
  change leased step timing life births pre event = some (post, out) at taken
  cases event with
  | clocked e =>
    obtain ⟨⟨next, calls⟩, moved, same⟩ := Option.map_eq_some_iff.mp taken
    obtain ⟨rfl, rfl⟩ := Prod.mk.inj same
    have heard : (calls.map LeaseCall.call).filterMap LeaseCall.ofCall = calls := by
      simp [List.filterMap_map, Function.comp_def, LeaseCall.ofCall]
    refine .clocked ⟨pre.clock, e, next, calls⟩ ?_ rfl rfl rfl moved rfl rfl
    show [(⟨pre.clock, e, next, _⟩ : Transition (Clocked σ κ τ T) (Timed ε T) ο)] = _
    rw [heard]
  | ends k =>
    rw [leased] at taken
    cases found : pre.ends[k]? with
    | none =>
      rw [found] at taken
      cases taken
    | some time =>
      simp only [found] at taken
      by_cases past : time ≤ pre.clock.now
      · rw [if_pos past] at taken
        cases taken
        exact .ends k time rfl rfl rfl found past rfl rfl
      · rw [if_neg past] at taken
        cases taken

end Lives

/-! ### Runs -/

section Runs

/-- **A run with the living is a run under the clock.** -/
theorem Run.unleased (run : Run (leased step timing life births) s us t) :
    Run (timed step timing) s.clock (us.flatMap unleased) t.clock := by
  induction run with
  | nil => exact .nil
  | @snoc past u _ taken ih =>
    rw [List.flatMap_append, List.flatMap_singleton]
    refine ih.append ?_
    cases taken_lives taken with
    | clocked t one _ pre post moved _ _ =>
      rw [one, pre, post]
      exact run_cons_iff.mpr ⟨rfl, moved, .nil⟩
    | ends k time none _ same _ _ _ _ =>
      rw [none, same]
      exact .nil

/-- The living are some of what has been born. -/
theorem ends_sublist (run : Run (leased step timing life births) s us t) (empty : s.ends = []) :
    t.ends.Sublist (born life births (us.flatMap Machine.unleased)) := by
  induction run with
  | nil =>
    rw [empty]
    exact List.nil_sublist _
  | @snoc past u _ taken ih =>
    rw [List.flatMap_append, List.flatMap_singleton, born, List.flatMap_append]
    cases taken_lives taken with
    | clocked t one _ _ _ _ _ ends =>
      rw [one, ends, List.flatMap_singleton]
      exact ih.append (List.Sublist.refl _)
    | ends k time none _ _ _ _ _ ends =>
      rw [none, ends, List.flatMap_nil, List.append_nil]
      exact (List.eraseIdx_sublist _ _).trans ih

/-- **What has come is alive or gone.** -/
theorem alive_add_gone (run : Run (leased step timing life births) s us t) (empty : s.ends = []) :
    t.ends.length + total (fun u => u.out.countP LeaseCall.isGone) us =
      total (fun t => births t.out) (us.flatMap Machine.unleased) := by
  rw [total_flatMap]
  induction run with
  | nil => rw [empty, List.length_nil, total_nil, total_nil, add_zero]
  | @snoc past u _ taken ih =>
    rw [total_snoc, total_snoc, ← ih]
    cases taken_lives taken with
    | clocked t one _ _ _ _ out ends =>
      have silent : (t.out.map LeaseCall.call).countP LeaseCall.isGone = 0 := by
        simp [LeaseCall.isGone]
      rw [one, out, ends, silent, List.length_append, List.length_replicate, total_cons, total_nil]
      omega
    | ends k time none _ _ found _ out ends =>
      have inside : k < u.pre.ends.length := (List.getElem?_eq_some_iff.mp found).1
      have one : [(LeaseCall.gone : LeaseCall ο)].countP LeaseCall.isGone = 1 := rfl
      rw [none, out, ends, one, List.length_eraseIdx_of_lt inside, total_nil]
      omega

end Runs

/-! ### How long they live -/

section Late

/-- The event begins a frame. -/
def Lease.isFrame : Lease ε T → Bool
  | .clocked e => e.isFrame
  | .ends _ => false

/-- No frame begins while one of the living is due. -/
abbrev Punctual (us : List (Transition (Leased σ κ τ T) (Lease ε T) (LeaseCall ο))) : Prop :=
  ∀ u ∈ us, u.event.isFrame = true → ∀ time ∈ u.pre.ends, u.pre.clock.now ≤ time

variable [IsOrderedAddMonoid T]

/-- **Nothing outlives its time by a frame.** -/
theorem ends_late (run : Run (leased step timing life births) s us t) (empty : s.ends = [])
    (nonneg : 0 ≤ s.clock.frame) (lives : 0 ≤ life) (punctual : Punctual us) :
    ∀ time ∈ t.ends, t.clock.now - t.clock.frame ≤ time := by
  induction run with
  | nil =>
    rw [empty]
    exact List.forall_mem_nil _
  | @snoc past u reach taken ih =>
    have before := ih fun v member => punctual v (List.mem_append_left _ member)
    have frame : 0 ≤ u.pre.clock.frame := frame_nonneg reach.unleased nonneg
    intro time alive
    cases taken_lives taken with
    | clocked t _ event pre post moved _ ends =>
      rw [ends] at alive
      rw [pre] at frame before
      rw [post]
      have newborn : 0 ≤ t.post.frame → time = t.post.now + life →
          t.post.now - t.post.frame ≤ time := fun frame same => by
        rw [same]
        exact (sub_le_self _ frame).trans (le_add_of_nonneg_right lives)
      rcases List.mem_append.mp alive with old | new
      · cases taken_passes moved with
        | frame length _ named _ _ begun =>
          have due := punctual u List.mem_concat_self (by rw [event, named]; rfl) time old
          rw [pre] at due
          rw [begun]
          show t.pre.now + length - length ≤ time
          rwa [add_sub_cancel_right]
        | event e _ _ _ _ _ _ after =>
          rw [after]
          exact before time old
      · refine newborn ?_ (List.eq_of_mem_replicate new)
        exact frame_nonneg (Run.one moved) frame
    | ends k _ _ _ same _ _ _ ends =>
      rw [ends] at alive
      rw [same]
      exact before time (List.mem_of_mem_eraseIdx alive)

/-- **A run is cut at a time before its end**: what comes before the cut comes by that time, or begins a
frame. -/
theorem Run.window {c d : Clocked σ κ τ T} {ts : List (Transition (Clocked σ κ τ T) (Timed ε T) ο)}
    (run : Run (timed step timing) c ts d) (bound : T) :
    ∃ before after m, ts = before ++ after ∧ Run (timed step timing) c before m ∧
      Run (timed step timing) m after d ∧ (∀ t ∈ before, t.post.now < bound ∨ Machine.untimed t = []) ∧
      (after = [] ∨ bound ≤ m.now) := by
  induction run with
  | nil => exact ⟨[], [], c, rfl, .nil, .nil, List.forall_mem_nil _, Or.inl rfl⟩
  | @snoc past t reach taken ih =>
    obtain ⟨before, after, m, rfl, first, rest, early, late⟩ := ih
    have goesOn : bound ≤ m.now → ∃ before' after' m', before ++ after ++ [t] = before' ++ after' ∧
        Run (timed step timing) c before' m' ∧ Run (timed step timing) m' after' t.post ∧
        (∀ t ∈ before', t.post.now < bound ∨ Machine.untimed t = []) ∧ (after' = [] ∨ bound ≤ m'.now) :=
      fun past => ⟨before, after ++ [t], m, List.append_assoc _ _ _, first, .snoc rest taken, early,
        Or.inr past⟩
    rcases late with rfl | past
    · obtain rfl := run_nil_iff.mp rest
      by_cases cut : t.post.now < bound ∨ Machine.untimed t = []
      · refine ⟨before ++ [t], [], t.post, by simp, .snoc first taken, .nil, ?_, Or.inl rfl⟩
        rw [List.forall_mem_append, List.forall_mem_singleton]
        exact ⟨early, cut⟩
      · rw [not_or, not_lt] at cut
        refine goesOn ?_
        cases taken_passes taken with
        | frame _ none _ _ _ _ => exact absurd none cut.2
        | event e _ _ _ _ _ _ after =>
          have same : t.post.now = t.pre.now := by
            rw [after]
            rfl
          exact same ▸ cut.1
    · exact goesOn past

/-- **What is alive has come within its life and a frame.** -/
theorem alive_le (run : Run (leased step timing life births) s us t) (empty : s.ends = [])
    (nonneg : 0 ≤ s.clock.frame) (lives : 0 ≤ life) (punctual : Punctual us)
    (silent : births [] = 0) :
    ∃ before after m, us.flatMap Machine.unleased = before ++ after ∧
      Run (timed step timing) s.clock before m ∧ Run (timed step timing) m after t.clock ∧
      total passed after ≤ life + t.clock.frame ∧
      t.ends.length ≤ total (fun t => births t.out) after := by
  have late := ends_late run empty nonneg lives punctual
  have frame := frame_nonneg run.unleased nonneg
  obtain ⟨before, after, m, whole, first, rest, early, start⟩ :=
    run.unleased.window (t.clock.now - t.clock.frame - life)
  refine ⟨before, after, m, whole, first, rest, ?_, ?_⟩
  · rcases start with rfl | cut
    · exact add_nonneg lives frame
    · have now := now_eq rest
      rw [now] at cut
      have short : m.now + total passed after ≤ m.now + (life + t.clock.frame) := by
        rw [sub_sub, add_comm t.clock.frame life] at cut
        exact sub_le_iff_le_add.mp cut
      exact le_of_add_le_add_left short
  · have fewer : t.ends.countP (t.clock.now - t.clock.frame ≤ ·) ≤
        (born life births (us.flatMap Machine.unleased)).countP (t.clock.now - t.clock.frame ≤ ·) :=
      (ends_sublist run empty).countP_le
    rw [List.countP_eq_length.mpr fun time alive => decide_eq_true (late time alive), whole, born,
      List.flatMap_append, List.countP_append] at fewer
    have past : (born life births before).countP (t.clock.now - t.clock.frame ≤ ·) = 0 := by
      refine List.countP_eq_zero.mpr fun time member => ?_
      obtain ⟨b, inside, new⟩ := List.mem_flatMap.mp member
      obtain ⟨some, rfl⟩ := List.mem_replicate.mp new
      rcases early b inside with soon | frame
      · rw [decide_eq_true_iff, not_le]
        exact lt_sub_iff_add_lt.mp soon
      · rw [frame_out (first.taken inside) frame] at some
        exact absurd silent some
    calc t.ends.length
        ≤ (born life births before).countP _ + (born life births after).countP _ := fewer
      _ = (born life births after).countP _ := by rw [past, zero_add]
      _ ≤ (born life births after).length := List.countP_le_length
      _ = total (fun t => births t.out) after := by
          rw [born, List.length_flatMap, total]
          simp only [List.length_replicate]

end Late

end Machine
