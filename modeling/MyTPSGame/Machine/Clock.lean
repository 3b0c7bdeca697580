/-
**A machine under a clock: frames, ticks and timers.**

A machine says what an event does, and an engine says when it may come. Time passes in frames. An object
is ticked once a frame at most, with the time of the frame; a timer fires when it is due, and never
before.

* `timed`: a machine under the clock, given which object a transition ticks and what it does to each
  timer (`Timing`); `Passes` is the inversion of its step function;
* `Run.untimed`: its runs are runs of the machine;
* `ticked_le`, `ticked_eq`: an object has been ticked for as long as time has passed at most, and for
  just as long if no frame misses it;
* `firings_le`: a timer has fired once for each of its rates that has passed at most;
* `looped_due`: a timer that only loops is due again after just as many rates, however late it fires;
* `due_late`, `firings_le_late`: a timer that no frame passes over is late by a frame at most, and so
  fires as often as it may from any time on.
-/

import MyTPSGame.Machine.Account
import MyTPSGame.Machine.Simulation
import Mathlib.Algebra.Order.Group.Basic
import Mathlib.Data.Fintype.Basic

set_option linter.unusedSectionVars false

namespace Machine

universe u v w

/-- What a transition does to a timer: nothing; arm it; clear it; fire it for the last time, perhaps to
arm it anew; or fire it with the next firing a `rate` after this one was due. -/
inductive Use (T : Type*)
  | keeps
  | sets (rate : T)
  | clears
  | expires (rate : Option T)
  | loops (rate : T)

/-- Which object a transition ticks, and with how much time, and what it does to each timer. -/
structure Timing (σ : Type u) (ε : Type v) (ο : Type w) (κ τ T : Type*) where
  ticks : Transition σ ε ο → Option (κ × T)
  uses : Transition σ ε ο → τ → Use T

/-- The state of a machine under the clock: the time, that of the current frame, the objects ticked in
it, and when each timer is due. -/
structure Clocked (σ : Type u) (κ τ T : Type*) where
  machine : σ
  now : T
  frame : T
  ticked : List κ
  due : τ → Option T

/-- A new frame begins, some time after the last one, or an event of the machine comes. -/
inductive Timed (ε : Type v) (T : Type*)
  | frame (time : T)
  | event (e : ε)

variable {σ : Type u} {ε : Type v} {ο : Type w} {κ τ T : Type*}

/-- A frame begins. -/
def Timed.isFrame : Timed ε T → Bool
  | .frame _ => true
  | .event _ => false

/-- The event of the machine. -/
def Timed.ofEvent : Timed ε T → Option ε
  | .frame _ => none
  | .event e => some e

/-- The time that passes. -/
def Timed.time [Zero T] : Timed ε T → T
  | .frame time => time
  | .event _ => 0

namespace Use

/-- The transition fires the timer. -/
def Fires : Use T → Prop
  | .expires _ | .loops _ => True
  | _ => False

instance (use : Use T) : Decidable use.Fires :=
  match use with
  | .keeps | .sets _ | .clears => isFalse not_false
  | .expires _ | .loops _ => isTrue trivial

/-- The timer is never armed for less than `d`. -/
def Rated [LE T] (d : T) : Use T → Prop
  | .sets rate | .expires (some rate) | .loops rate => d ≤ rate
  | _ => True

/-- When the timer is due afterwards. -/
def due [Add T] (now : T) (due : Option T) : Use T → Option T
  | .keeps => due
  | .sets rate => some (now + rate)
  | .clears => none
  | .expires rate => rate.map (now + ·)
  | .loops rate => due.map (· + rate)

end Use

section Model

variable [AddCommGroup T] [LinearOrder T]

/-- The transition may come now: what it ticks has not been ticked in this frame, and what it fires is
due. -/
def Timing.Allows (timing : Timing σ ε ο κ τ T) (c : Clocked σ κ τ T) (t : Transition σ ε ο) : Prop :=
  (∀ tick ∈ timing.ticks t, tick.2 = c.frame ∧ tick.1 ∉ c.ticked) ∧
    ∀ k, (timing.uses t k).Fires → ∃ time ∈ c.due k, time ≤ c.now

instance [DecidableEq κ] [Fintype τ] (timing : Timing σ ε ο κ τ T) (c : Clocked σ κ τ T)
    (t : Transition σ ε ο) : Decidable (timing.Allows c t) :=
  inferInstanceAs (Decidable (_ ∧ _))

/-- The clocked machine after a transition. -/
def Timing.after (timing : Timing σ ε ο κ τ T) (c : Clocked σ κ τ T) (t : Transition σ ε ο) :
    Clocked σ κ τ T :=
  { c with
    machine := t.post
    ticked := ((timing.ticks t).map Prod.fst).toList ++ c.ticked
    due := fun k => (timing.uses t k).due c.now (c.due k) }

/-- The clocked machine after the beginning of a frame. -/
def Clocked.begin (c : Clocked σ κ τ T) (time : T) : Clocked σ κ τ T :=
  { c with now := c.now + time, frame := time, ticked := [] }

/-- The machine under the clock. -/
def timed [DecidableEq κ] [Fintype τ] (step : Step σ ε ο) (timing : Timing σ ε ο κ τ T) :
    Step (Clocked σ κ τ T) (Timed ε T) ο
  | c, .frame time => if 0 ≤ time then some (c.begin time, []) else none
  | c, .event e =>
    match step c.machine e with
    | none => none
    | some (next, out) =>
      if timing.Allows c ⟨c.machine, e, next, out⟩ then
        some (timing.after c ⟨c.machine, e, next, out⟩, out)
      else none

/-- The transition of the machine behind one of the clocked machine, if there is one. -/
def untimed (u : Transition (Clocked σ κ τ T) (Timed ε T) ο) : List (Transition σ ε ο) :=
  match u.event with
  | .frame _ => []
  | .event e => [⟨u.pre.machine, e, u.post.machine, u.out⟩]

/-- The time that passes. -/
def passed (u : Transition (Clocked σ κ τ T) (Timed ε T) ο) : T :=
  u.event.time

/-- The time a transition ticks an object for. -/
def tickTime [DecidableEq κ] (timing : Timing σ ε ο κ τ T) (k : κ) (t : Transition σ ε ο) : T :=
  match timing.ticks t with
  | none => 0
  | some (j, time) => if j = k then time else 0

/-- The firings of a timer along a run. -/
def firings (timing : Timing σ ε ο κ τ T) (k : τ) (ts : List (Transition σ ε ο)) : ℕ :=
  total (fun t => if (timing.uses t k).Fires then 1 else 0) ts

end Model

variable [AddCommGroup T] [LinearOrder T] [DecidableEq κ] [Fintype τ] {step : Step σ ε ο}
  {timing : Timing σ ε ο κ τ T} {c d : Clocked σ κ τ T}
  {us : List (Transition (Clocked σ κ τ T) (Timed ε T) ο)}
  {u : Transition (Clocked σ κ τ T) (Timed ε T) ο}

/-! ### One transition -/

section Passes

/-- What a transition of the clocked machine is: the beginning of a frame, or a transition of the
machine that may come now. -/
inductive Passes (step : Step σ ε ο) (timing : Timing σ ε ο κ τ T)
    (u : Transition (Clocked σ κ τ T) (Timed ε T) ο) : Prop
  | frame (time : T) : untimed u = [] → u.event = .frame time → 0 ≤ time → passed u = time →
      u.post = u.pre.begin time → Passes step timing u
  | event (t : Transition σ ε ο) : untimed u = [t] → u.event = .event t.event →
      u.pre.machine = t.pre → t.Taken step → timing.Allows u.pre t → passed u = 0 →
      u.post = timing.after u.pre t → Passes step timing u

theorem taken_passes (taken : u.Taken (timed step timing)) : Passes step timing u := by
  obtain ⟨pre, event, post, out⟩ := u
  change timed step timing pre event = some (post, out) at taken
  cases event with
  | frame time =>
    by_cases nonneg : 0 ≤ time
    · rw [timed, if_pos nonneg] at taken
      cases taken
      exact .frame time rfl rfl nonneg rfl rfl
    · rw [timed, if_neg nonneg] at taken
      cases taken
  | event e =>
    rw [timed] at taken
    cases stepped : step pre.machine e with
    | none =>
      rw [stepped] at taken
      cases taken
    | some result =>
      obtain ⟨next, emitted⟩ := result
      simp only [stepped] at taken
      by_cases allowed : timing.Allows pre ⟨pre.machine, e, next, emitted⟩
      · rw [if_pos allowed] at taken
        cases taken
        exact .event ⟨pre.machine, e, next, out⟩ rfl rfl rfl stepped allowed rfl rfl
      · rw [if_neg allowed] at taken
        cases taken

end Passes

/-! ### Runs -/

section Runs

/-- The beginning of a frame emits nothing. -/
theorem frame_out (taken : u.Taken (timed step timing)) (frame : Machine.untimed u = []) :
    u.out = [] := by
  obtain ⟨pre, event, post, out⟩ := u
  cases event with
  | frame time =>
    have done : (if 0 ≤ time then some (pre.begin time, []) else none) = some (post, out) := taken
    obtain ⟨_, same⟩ := Option.ite_none_right_eq_some.mp done
    exact (Prod.mk.inj (Option.some.inj same)).2.symm
  | event e => cases frame

/-- The machine is what the clock does not show. -/
theorem projects_timed : Projects (timed step timing) step Clocked.machine Timed.ofEvent some where
  acts c e d out e' done meant := by
    have taken : (⟨c, e, d, out⟩ : Transition _ _ _).Taken (timed step timing) := done
    obtain rfl : e = .event e' := by
      cases e with
      | frame _ => cases meant
      | event e => rw [Option.some.inj meant]
    rw [List.filterMap_some]
    cases taken_passes taken with
    | frame _ _ event _ _ _ => cases event
    | event t one _ _ stepped _ _ _ =>
      obtain rfl := (List.cons.inj one).1
      exact stepped
  rests c e d out done meant := by
    have taken : (⟨c, e, d, out⟩ : Transition _ _ _).Taken (timed step timing) := done
    cases taken_passes taken with
    | frame time idle _ _ _ begun =>
      obtain rfl : d = c.begin time := begun
      obtain rfl : out = [] := frame_out taken idle
      exact ⟨rfl, rfl⟩
    | event t _ event _ _ _ _ _ =>
      obtain rfl : e = .event t.event := event
      cases meant

/-- **A run under the clock is a run of the machine.** -/
theorem Run.untimed (run : Run (timed step timing) c us d) :
    Run step c.machine (us.flatMap untimed) d.machine := by
  induction run with
  | nil => exact .nil
  | @snoc past u _ taken ih =>
    rw [List.flatMap_append, List.flatMap_singleton]
    refine ih.append ?_
    cases taken_passes taken with
    | frame time none _ _ _ begun =>
      rw [none, begun]
      exact .nil
    | event t one _ same taken _ _ after =>
      rw [one, same, after]
      exact run_cons_iff.mpr ⟨rfl, taken, .nil⟩

/-- What a run under the clock emits is what the run of the machine emits. -/
theorem total_out {A : Type*} [AddMonoid A] (f : List ο → A) (silent : f [] = 0)
    (run : Run (timed step timing) c us d) :
    total (fun u => f u.out) us = total (fun t => f t.out) (us.flatMap Machine.untimed) := by
  rw [total_flatMap]
  refine total_congr fun u member => ?_
  cases event : u.event with
  | frame time =>
    have frame : Machine.untimed u = [] := by rw [Machine.untimed, event]
    rw [frame, frame_out (run.taken member) frame, silent, total_nil]
  | event e =>
    rw [Machine.untimed, event]
    exact (add_zero _).symm

/-- The clock shows the time that has passed. -/
theorem now_eq (run : Run (timed step timing) c us d) : d.now = c.now + total passed us :=
  run.potential_eq Clocked.now passed fun u _ taken => by
    cases taken_passes taken with
    | frame time _ _ _ passes begun =>
      rw [passes, begun]
      rfl
    | event t _ _ _ _ _ passes after =>
      rw [passes, after, add_zero]
      rfl

/-! ### Ticks -/

/-- The time of the current frame that an object has not been ticked for. -/
def Clocked.owed (k : κ) (c : Clocked σ κ τ T) : T :=
  if k ∈ c.ticked then 0 else c.frame

/-- A tick takes what is owed to the object. -/
theorem owed_after (k : κ) {t : Transition σ ε ο} (allowed : timing.Allows c t) :
    (timing.after c t).owed k + tickTime timing k t = c.owed k := by
  unfold Timing.after Clocked.owed tickTime
  cases ticks : timing.ticks t with
  | none => exact add_zero _
  | some tick =>
    obtain ⟨j, time⟩ := tick
    obtain ⟨whole, fresh⟩ := allowed.1 (j, time) ticks
    by_cases same : j = k
    · subst same
      simpa [fresh] using whole
    · have other : ¬ k = j := fun eq => same eq.symm
      simp [same, other]

variable [IsOrderedAddMonoid T]

/-- Frames are not negative. -/
theorem frame_nonneg (run : Run (timed step timing) c us d) (nonneg : 0 ≤ c.frame) :
    0 ≤ d.frame :=
  run.invariant (I := fun c => 0 ≤ c.frame) nonneg fun u _ taken before => by
    cases taken_passes taken with
    | frame time _ _ nonneg _ begun =>
      rw [begun]
      exact nonneg
    | event t _ _ _ _ _ _ after =>
      rw [after]
      exact before

omit [IsOrderedAddMonoid T] in
/-- Frames are no longer than the longest of the run. -/
theorem frame_le {longest : T} (run : Run (timed step timing) c us d) (first : c.frame ≤ longest)
    (short : ∀ u ∈ us, passed u ≤ longest) : d.frame ≤ longest :=
  run.invariant (I := fun c => c.frame ≤ longest) first fun u member taken before => by
    cases taken_passes taken with
    | frame time _ _ _ passes begun =>
      rw [begun]
      exact passes.symm.trans_le (short u member)
    | event t _ _ _ _ _ _ after =>
      rw [after]
      exact before

theorem owed_nonneg (k : κ) (nonneg : 0 ≤ c.frame) : 0 ≤ c.owed k := by
  unfold Clocked.owed
  split
  · exact le_refl _
  · exact nonneg

/-- **An object is not ticked for longer than time passes.** -/
theorem ticked_le (run : Run (timed step timing) c us d) (nonneg : 0 ≤ c.frame) (k : κ) :
    d.owed k + total (tickTime timing k) (us.flatMap Machine.untimed) ≤
      c.owed k + total passed us := by
  rw [total_flatMap]
  refine run.potential_le (Clocked.owed k) _ passed fun u member taken => ?_
  have before : 0 ≤ u.pre.frame := by
    obtain ⟨_, _, _, reach, _, _⟩ := run.mem member
    exact frame_nonneg reach nonneg
  cases taken_passes taken with
  | frame time none _ _ passes begun =>
    rw [none, passes, begun, total_nil, add_zero]
    exact le_add_of_nonneg_left (owed_nonneg k before)
  | event t one _ _ _ allowed passes after =>
    rw [one, passes, after, total_cons, total_nil, add_zero, add_zero]
    exact (owed_after k allowed).le

/-- No frame of the run ends without a tick of the object. -/
abbrev Attends (k : κ) (us : List (Transition (Clocked σ κ τ T) (Timed ε T) ο)) : Prop :=
  ∀ u ∈ us, u.event.isFrame = true → u.pre.owed k = 0

omit [IsOrderedAddMonoid T] in
/-- **An object that no frame misses is ticked for as long as time passes.** -/
theorem ticked_eq (run : Run (timed step timing) c us d) {k : κ} (attends : Attends k us) :
    d.owed k + total (tickTime timing k) (us.flatMap Machine.untimed) =
      c.owed k + total passed us := by
  rw [total_flatMap]
  induction run with
  | nil => rfl
  | @snoc past u _ taken ih =>
    have before := ih fun v member => attends v (List.mem_append_left _ member)
    rw [total_snoc, total_snoc]
    cases taken_passes taken with
    | frame time none event _ passes begun =>
      have whole := attends u List.mem_concat_self (by rw [event]; rfl)
      rw [whole, zero_add] at before
      rw [none, passes, begun, total_nil, add_zero, ← add_assoc, ← before, add_comm]
      rfl
    | event t one _ _ _ allowed passes after =>
      rw [one, passes, after, total_cons, total_nil, add_zero, add_zero, ← before,
        ← owed_after k allowed]
      abel

/-! ### Timers -/

/-- How often a timer can have fired by now, and when it is due, counted in rates from a time `first`. -/
def Paced (first rate : T) (fired : ℕ) (now : T) (due : Option T) : Prop :=
  fired • rate ≤ now - first ∧ ∀ time ∈ due, (fired + 1) • rate ≤ time - first

section Paced

variable {first rate now time : T} {fired : ℕ} {due : Option T}

theorem Paced.later (paced : Paced first rate fired now due) (nonneg : 0 ≤ time) :
    Paced first rate fired (now + time) due := by
  refine ⟨?_, paced.2⟩
  calc fired • rate ≤ now - first := paced.1
    _ ≤ now + time - first := sub_le_sub_right (le_add_of_nonneg_right nonneg) _

/-- One rate more. -/
theorem nsmul_succ_le {next : T} (enough : rate ≤ next) (before : fired • rate ≤ now - first) :
    (fired + 1) • rate ≤ now + next - first := by
  rw [succ_nsmul, add_sub_right_comm]
  exact add_le_add before enough

theorem Paced.used (paced : Paced first rate fired now due) {use : Use T}
    (ready : use.Fires → ∃ time ∈ due, time ≤ now) (rated : use.Rated rate) :
    Paced first rate (fired + if use.Fires then 1 else 0) now (use.due now due) := by
  obtain ⟨late, next⟩ := paced
  cases use with
  | keeps => exact ⟨late, next⟩
  | clears => exact ⟨late, fun time member => by cases member⟩
  | sets rate =>
    refine ⟨late, ?_⟩
    rintro _ ⟨⟩
    exact nsmul_succ_le rated late
  | expires again =>
    obtain ⟨time, armed, past⟩ := ready trivial
    have fires : (fired + 1) • rate ≤ now - first :=
      (next time armed).trans (sub_le_sub_right past _)
    refine ⟨fires, ?_⟩
    cases again with
    | none => exact fun time member => by cases member
    | some rate =>
      rintro _ ⟨⟩
      exact nsmul_succ_le rated fires
  | loops again =>
    obtain ⟨time, rfl, past⟩ := ready trivial
    have fires : (fired + 1) • rate ≤ now - first :=
      (next time rfl).trans (sub_le_sub_right past _)
    refine ⟨fires, ?_⟩
    rintro _ ⟨⟩
    exact nsmul_succ_le rated (next time rfl)

end Paced

theorem paced_run {first rate : T} {k : τ} (run : Run (timed step timing) c us d)
    (rated : ∀ t ∈ us.flatMap Machine.untimed, (timing.uses t k).Rated rate)
    (start : Paced first rate 0 c.now (c.due k)) :
    Paced first rate (firings timing k (us.flatMap Machine.untimed)) d.now (d.due k) := by
  unfold firings
  rw [total_flatMap]
  induction run with
  | nil => exact start
  | @snoc past u _ taken ih =>
    have before := ih fun t member => rated t (by
      rw [List.flatMap_append]
      exact List.mem_append_left _ member)
    rw [total_snoc]
    cases taken_passes taken with
    | frame time none _ nonneg _ begun =>
      rw [none, begun, total_nil, add_zero]
      exact before.later nonneg
    | event t one _ _ _ allowed _ after =>
      rw [one, after, total_cons, total_nil, add_zero]
      refine before.used (allowed.2 k) (rated t ?_)
      rw [List.flatMap_append, List.flatMap_singleton, one]
      exact List.mem_append_right _ List.mem_cons_self

/-- **A timer fires once for each of its rates at most**, if it is not due sooner than that. -/
theorem firings_le {rate : T} {k : τ} (run : Run (timed step timing) c us d)
    (rated : ∀ t ∈ us.flatMap Machine.untimed, (timing.uses t k).Rated rate)
    (fresh : ∀ time ∈ c.due k, c.now + rate ≤ time) :
    firings timing k (us.flatMap Machine.untimed) • rate ≤ total passed us := by
  have start : Paced c.now rate 0 c.now (c.due k) := by
    refine ⟨by simp, fun time member => ?_⟩
    rw [zero_add, one_nsmul, le_sub_iff_add_le']
    exact fresh time member
  have paced := (paced_run run rated start).1
  rwa [now_eq run, add_sub_cancel_left] at paced

omit [IsOrderedAddMonoid T] in
/-- **A timer that only loops keeps to its rate**, however late its firings come. -/
theorem looped_due {rate time : T} {k : τ} (run : Run (timed step timing) c us d)
    (loops : ∀ t ∈ us.flatMap Machine.untimed,
      timing.uses t k = .keeps ∨ timing.uses t k = .loops rate)
    (armed : c.due k = some time) :
    d.due k = some (time + firings timing k (us.flatMap Machine.untimed) • rate) := by
  unfold firings
  rw [total_flatMap]
  induction run with
  | nil => rw [armed, total_nil, zero_nsmul, add_zero]
  | @snoc past u _ taken ih =>
    rw [List.flatMap_append, List.flatMap_singleton] at loops
    have before := ih fun t member => loops t (List.mem_append_left _ member)
    rw [total_snoc]
    cases taken_passes taken with
    | frame time none _ _ _ begun =>
      rw [none, begun, total_nil, add_zero]
      exact before
    | event t one _ _ _ _ _ after =>
      rw [one] at loops ⊢
      rw [after, total_cons, total_nil, add_zero]
      show (timing.uses t k).due u.pre.now (u.pre.due k) = _
      rw [before]
      rcases loops t (List.mem_append_right _ List.mem_cons_self) with used | used
      · rw [used, if_neg (show ¬ (Use.keeps : Use T).Fires from not_false), add_zero]
        rfl
      · rw [used, if_pos (show (Use.loops rate).Fires from trivial), succ_nsmul, ← add_assoc]
        rfl

/-! ### Timers that are not late -/

/-- No frame begins while the timer is overdue. -/
abbrev Prompt (k : τ) (us : List (Transition (Clocked σ κ τ T) (Timed ε T) ο)) : Prop :=
  ∀ u ∈ us, u.event.isFrame = true → ∀ time ∈ u.pre.due k, u.pre.now ≤ time

/-- **A prompt timer is late by no more than a frame.** -/
theorem due_late {rate : T} {k : τ} (run : Run (timed step timing) c us d)
    (rated : ∀ t ∈ us.flatMap Machine.untimed, (timing.uses t k).Rated rate) (positive : 0 ≤ rate)
    (nonneg : 0 ≤ c.frame) (prompt : Prompt k us) (start : ∀ time ∈ c.due k, c.now - c.frame ≤ time) :
    ∀ time ∈ d.due k, d.now - d.frame ≤ time := by
  induction run with
  | nil => exact start
  | @snoc past u reach taken ih =>
    rw [List.flatMap_append, List.flatMap_singleton] at rated
    have before := ih (fun t member => rated t (List.mem_append_left _ member))
      fun v member => prompt v (List.mem_append_left _ member)
    have fresh : u.pre.now - u.pre.frame ≤ u.pre.now := sub_le_self _ (frame_nonneg reach nonneg)
    intro time armed
    cases taken_passes taken with
    | frame length _ event _ _ begun =>
      have due := prompt u List.mem_concat_self (by rw [event]; rfl)
      rw [begun] at armed ⊢
      show u.pre.now + length - length ≤ time
      rw [add_sub_cancel_right]
      exact due time armed
    | event t one _ _ _ allowed _ after =>
      have rates : (timing.uses t k).Rated rate := by
        refine rated t (List.mem_append_right _ ?_)
        rw [one]
        exact List.mem_cons_self
      rw [after] at armed ⊢
      show u.pre.now - u.pre.frame ≤ time
      change time ∈ (timing.uses t k).due u.pre.now (u.pre.due k) at armed
      cases used : timing.uses t k with
      | keeps =>
        rw [used] at armed
        exact before time armed
      | clears =>
        rw [used] at armed
        cases armed
      | sets next =>
        rw [used] at armed rates
        cases armed
        exact fresh.trans (le_add_of_nonneg_right (positive.trans rates))
      | expires again =>
        rw [used] at armed rates
        cases again with
        | none => cases armed
        | some next =>
          cases armed
          exact fresh.trans (le_add_of_nonneg_right (positive.trans rates))
      | loops next =>
        rw [used] at armed rates
        obtain ⟨old, there, rfl⟩ := Option.map_eq_some_iff.mp armed
        exact (before old there).trans (le_add_of_nonneg_right (positive.trans rates))

/-- **From any time on**, a timer that is late by no more than a frame fires once for each of its rates,
and once more for what was late. -/
theorem firings_le_late {rate : T} {k : τ} (run : Run (timed step timing) c us d)
    (rated : ∀ t ∈ us.flatMap Machine.untimed, (timing.uses t k).Rated rate) (positive : 0 ≤ rate)
    (nonneg : 0 ≤ c.frame) (start : ∀ time ∈ c.due k, c.now - c.frame ≤ time) :
    firings timing k (us.flatMap Machine.untimed) • rate ≤ total passed us + (c.frame + rate) := by
  have paced : Paced (c.now - (c.frame + rate)) rate 0 c.now (c.due k) := by
    refine ⟨?_, fun time armed => ?_⟩
    · rw [zero_nsmul, sub_sub_cancel]
      exact add_nonneg nonneg positive
    · rw [zero_add, one_nsmul, le_sub_iff_add_le', sub_add_eq_sub_sub, sub_add_cancel]
      exact start time armed
  have fired := (paced_run run rated paced).1
  rwa [now_eq run, add_sub_right_comm, sub_sub_cancel, add_comm] at fired

end Runs

end Machine
