/-
**Commuting events: what does not depend on the order of a run.**

`exec` executes a list of events if all of them are possible, and `Agree` compares two such outcomes:
the same state, and the same outputs in some order. Two events commute (`Commutes`) if from every state
their two orders agree.

* `exec_front`: an event that commutes with all that come before it may come first;
* `exec_interleave`: if events that touch nothing in common commute, the outcome depends only on what
  each thing they touch has seen, and not on how these sequences are interleaved;
* `exec_perm`: events that commute pairwise may come in any order;
* `exec_eq_some_iff`: executing is running;
* `exec_isSome`: what is possible under an invariant that it keeps can all be executed.
-/

import MyTPSGame.Machine.Run

namespace Machine

universe u v w

variable {σ : Type u} {ε : Type v} {ο : Type w} {step : Step σ ε ο}

/-! ### Executing all of a list -/

section Exec

/-- Executing all events of a list, in order: the state it ends in, and everything emitted. -/
def exec (step : Step σ ε ο) : σ → List ε → Option (σ × List ο)
  | s, [] => some (s, [])
  | s, e :: es =>
    match step s e with
    | none => none
    | some (next, out) => (exec step next es).map fun (last, rest) => (last, out ++ rest)

variable {s : σ} {es fs : List ε} {e : ε}

@[simp] theorem exec_nil : exec step s [] = some (s, []) := rfl

theorem exec_cons :
    exec step s (e :: es) =
      (step s e).bind fun (next, out) =>
        (exec step next es).map fun (last, rest) => (last, out ++ rest) := by
  rw [exec]
  cases step s e <;> rfl

/-- The first event is possible, and the others are executed after it. -/
theorem exec_first {next : σ} {out : List ο} (done : step s e = some (next, out)) :
    exec step s (e :: es) =
      (exec step next es).map fun (last, rest) => (last, out ++ rest) := by
  rw [exec, done]

theorem exec_append :
    exec step s (es ++ fs) =
      (exec step s es).bind fun (next, out) =>
        (exec step next fs).map fun (last, rest) => (last, out ++ rest) := by
  induction es generalizing s with
  | nil => simp
  | cons e es ih =>
    rw [List.cons_append, exec_cons, exec_cons]
    cases step s e with
    | none => rfl
    | some first =>
      simp only [Option.bind_some, ih]
      cases exec step first.1 es with
      | none => rfl
      | some second =>
        simp only [Option.bind_some, Option.map_some, Option.map_map]
        congr 1
        funext last
        simp [List.append_assoc]

/-- **Executing is running.** -/
theorem exec_eq_some_iff {last : σ} {out : List ο} :
    exec step s es = some (last, out) ↔
      ∃ ts, Run step s ts last ∧ ts.map Transition.event = es ∧
        ts.flatMap Transition.out = out := by
  induction es generalizing s out with
  | nil =>
    constructor
    · intro done
      cases done
      exact ⟨[], .nil, rfl, rfl⟩
    · rintro ⟨ts, run, events, rfl⟩
      obtain rfl := List.map_eq_nil_iff.mp events
      rw [run_nil_iff.mp run]
      rfl
  | cons e es ih =>
    rw [exec_cons, Option.bind_eq_some_iff]
    constructor
    · rintro ⟨⟨next, first⟩, stepped, rest⟩
      obtain ⟨⟨_, later⟩, done, same⟩ := Option.map_eq_some_iff.mp rest
      obtain ⟨rfl, rfl⟩ := Prod.mk.inj same
      obtain ⟨ts, run, rfl, rfl⟩ := ih.mp done
      exact ⟨⟨s, e, next, first⟩ :: ts, run_cons_iff.mpr ⟨rfl, stepped, run⟩, rfl, by simp⟩
    · rintro ⟨ts, run, events, rfl⟩
      cases ts with
      | nil => cases events
      | cons t ts =>
        obtain ⟨rfl, rfl⟩ := List.cons.inj events
        obtain ⟨rfl, taken, rest⟩ := run_cons_iff.mp run
        refine ⟨(t.post, t.out), taken, ?_⟩
        have later : exec step t.post (ts.map Transition.event) =
            some (last, ts.flatMap Transition.out) := ih.mpr ⟨ts, rest, rfl, rfl⟩
        simp [later]

/-- One event is executed by its step. -/
theorem exec_one : exec step s [e] = step s e := by
  rw [exec]
  cases step s e with
  | none => rfl
  | some result => simp

/-- What is emitted is emitted by one of the events. -/
theorem exec_emits {last : σ} {out : List ο} {o : ο} (done : exec step s es = some (last, out))
    (member : o ∈ out) : ∃ e ∈ es, ∃ a next calls, step a e = some (next, calls) ∧ o ∈ calls := by
  obtain ⟨ts, run, rfl, rfl⟩ := exec_eq_some_iff.mp done
  obtain ⟨t, inside, emitted⟩ := List.mem_flatMap.mp member
  exact ⟨t.event, List.mem_map_of_mem inside, t.pre, t.post, t.out, run.taken inside, emitted⟩

/-- All of a list can be executed, where an invariant makes each of its events possible. -/
theorem exec_isSome {I : σ → Prop} (begun : I s)
    (serves : ∀ s, I s → ∀ e ∈ es, ∃ next out, step s e = some (next, out) ∧ I next) :
    (exec step s es).isSome := by
  induction es generalizing s with
  | nil => rfl
  | cons e es ih =>
    obtain ⟨next, out, done, kept⟩ := serves s begun e List.mem_cons_self
    have rest := ih kept fun s here f member => serves s here f (List.mem_cons_of_mem _ member)
    rw [exec_first done, Option.isSome_map]
    exact rest

end Exec

/-! ### Outcomes that agree -/

section Agree

/-- Two outcomes agree: neither is there, or they are the same state with the same outputs, in
whatever order. -/
inductive Agree : Option (σ × List ο) → Option (σ × List ο) → Prop
  | fail : Agree none none
  | done (s : σ) {out out' : List ο} : out.Perm out' → Agree (some (s, out)) (some (s, out'))

variable {s : σ} {a b c : Option (σ × List ο)} {es fs : List ε}

theorem Agree.refl (a : Option (σ × List ο)) : Agree a a := by
  cases a with
  | none => exact .fail
  | some outcome => exact .done outcome.1 (.refl _)

theorem Agree.symm (agree : Agree a b) : Agree b a := by
  cases agree with
  | fail => exact .fail
  | done s same => exact .done s same.symm

theorem Agree.trans (first : Agree a b) (second : Agree b c) : Agree a c := by
  cases first with
  | fail => exact second
  | done s same =>
    cases second with
    | done _ same' => exact .done s (same.trans same')

/-- Outcomes that agree still do after the same continuation. -/
theorem Agree.before (agree : Agree (exec step s es) (exec step s fs)) (after : List ε) :
    Agree (exec step s (es ++ after)) (exec step s (fs ++ after)) := by
  rw [exec_append, exec_append]
  generalize exec step s es = a at agree
  generalize exec step s fs = b at agree
  cases agree with
  | fail => exact .fail
  | done next same =>
    simp only [Option.bind_some]
    cases exec step next after with
    | none => exact .fail
    | some last => exact .done last.1 (same.append_right _)

/-- What agrees from every state still does after the same beginning. -/
theorem Agree.after (agree : ∀ s, Agree (exec step s es) (exec step s fs)) (before : List ε) :
    Agree (exec step s (before ++ es)) (exec step s (before ++ fs)) := by
  rw [exec_append, exec_append]
  cases exec step s before with
  | none => exact .fail
  | some first =>
    obtain ⟨next, out⟩ := first
    have here := agree next
    simp only [Option.bind_some]
    generalize exec step next es = a at here
    generalize exec step next fs = b at here
    cases here with
    | fail => exact .fail
    | done last same => exact .done last (same.append_left _)

end Agree

/-! ### Commuting events -/

section Commute

/-- The two orders of two events agree, from every state. -/
def Commutes (step : Step σ ε ο) (e f : ε) : Prop :=
  ∀ s, Agree (exec step s [e, f]) (exec step s [f, e])

variable {s : σ} {e f : ε} {es fs before after : List ε}

theorem Commutes.symm (commutes : Commutes step e f) : Commutes step f e :=
  fun s => (commutes s).symm

/-- **To the front**: past events it commutes with. -/
theorem exec_front (commutes : ∀ f ∈ before, Commutes step f e) :
    Agree (exec step s (before ++ e :: after)) (exec step s (e :: (before ++ after))) := by
  induction before generalizing s with
  | nil => exact .refl _
  | cons f before ih =>
    have inner (s : σ) : Agree (exec step s (before ++ e :: after))
        (exec step s (e :: (before ++ after))) :=
      ih fun g member => commutes g (List.mem_cons_of_mem _ member)
    have moved : Agree (exec step s ([f] ++ (before ++ e :: after)))
        (exec step s ([f] ++ (e :: (before ++ after)))) := Agree.after inner [f]
    have swapped : Agree (exec step s ([f, e] ++ (before ++ after)))
        (exec step s ([e, f] ++ (before ++ after))) :=
      (commutes f List.mem_cons_self s).before _
    exact moved.trans swapped

/-- **Events that commute pairwise may come in any order.** -/
theorem exec_perm (perm : es.Perm fs)
    (commutes : ∀ e ∈ es, ∀ f ∈ es, e ≠ f → Commutes step e f) :
    Agree (exec step s es) (exec step s fs) := by
  induction perm generalizing s with
  | nil => exact .refl _
  | @cons e es fs _ ih =>
    have inner (s : σ) : Agree (exec step s es) (exec step s fs) :=
      ih fun a ha b hb => commutes a (List.mem_cons_of_mem _ ha) b (List.mem_cons_of_mem _ hb)
    exact Agree.after inner [e]
  | swap e f es =>
    by_cases same : f = e
    · rw [same]
      exact .refl _
    · exact (commutes f (by simp) e (by simp) same s).before es
  | trans first _ ih ih' =>
    refine (ih commutes).trans (ih' fun a ha b hb => ?_)
    exact commutes a (first.mem_iff.mpr ha) b (first.mem_iff.mpr hb)

end Commute

/-! ### Interleavings -/

section Interleave

variable {ι : Type*}

/-- What is seen of a list of events: those that touch `k`. -/
def seen (touches : ε → ι → Bool) (k : ι) (es : List ε) : List ε :=
  es.filter fun e => touches e k

variable {touches : ε → ι → Bool} {k : ι} {s : σ} {e f : ε} {es fs : List ε}

theorem mem_seen : f ∈ seen touches k es ↔ f ∈ es ∧ touches f k = true :=
  List.mem_filter

theorem seen_append : seen touches k (es ++ fs) = seen touches k es ++ seen touches k fs :=
  List.filter_append es fs

theorem seen_cons_touching (here : touches e k = true) :
    seen touches k (e :: es) = e :: seen touches k es :=
  List.filter_cons_of_pos here

theorem seen_cons_passing (elsewhere : touches e k = false) :
    seen touches k (e :: es) = seen touches k es :=
  List.filter_cons_of_neg (by simp [elsewhere])

/-- The first event of one list comes, in a list that looks the same, first among all that touch
what it touches. -/
theorem untouched_before {before after : List ε} (absent : e ∉ before)
    (same : seen touches k (e :: es) = seen touches k (before ++ e :: after))
    (here : touches e k = true) : seen touches k before = [] := by
  rw [seen_cons_touching here, seen_append] at same
  cases looks : seen touches k before with
  | nil => rfl
  | cons g rest =>
    rw [looks, List.cons_append] at same
    have first : g ∈ seen touches k before := looks ▸ List.mem_cons_self
    rw [← (List.cons.inj same).1] at first
    exact absurd (mem_seen.mp first).1 absent

/-- What is left after the first event looks the same, too. -/
theorem seen_rest {before after : List ε} (absent : e ∉ before)
    (same : seen touches k (e :: es) = seen touches k (before ++ e :: after)) :
    seen touches k es = seen touches k (before ++ after) := by
  cases here : touches e k with
  | true =>
    have none := untouched_before absent same here
    rw [seen_cons_touching here, seen_append, none, seen_cons_touching here] at same
    rw [seen_append, none]
    exact (List.cons.inj same).2
  | false =>
    rw [seen_cons_passing here, seen_append, seen_cons_passing here] at same
    rw [same, seen_append]

/-- **Interleaving.** Where events commute that touch nothing in common, two lists that look the same
to everything touched lead to the same outcome. -/
theorem exec_interleave (somewhere : ∀ e, ∃ k, touches e k = true)
    (commutes : ∀ e f, (∀ k, touches e k = true → touches f k = false) → Commutes step e f)
    (same : ∀ k, seen touches k es = seen touches k fs) :
    Agree (exec step s es) (exec step s fs) := by
  induction es generalizing s fs with
  | nil =>
    cases fs with
    | nil => exact .refl _
    | cons f fs =>
      obtain ⟨k, here⟩ := somewhere f
      have empty := same k
      rw [seen_cons_touching here] at empty
      cases empty
  | cons e es ih =>
    obtain ⟨k, here⟩ := somewhere e
    have inside : e ∈ seen touches k fs := by
      rw [← same k, seen_cons_touching here]
      exact List.mem_cons_self
    obtain ⟨before, after, rfl, absent⟩ := List.eq_append_cons_of_mem (mem_seen.mp inside).1
    have front : Agree (exec step s (before ++ e :: after)) (exec step s (e :: (before ++ after))) := by
      apply exec_front
      intro f member
      apply Commutes.symm
      apply commutes
      intro k here
      by_contra both
      have looks := mem_seen.mpr ⟨member, eq_true_of_ne_false both⟩
      rw [untouched_before absent (same k) here] at looks
      cases looks
    have tails (s : σ) : Agree (exec step s es) (exec step s (before ++ after)) :=
      ih fun k => seen_rest absent (same k)
    exact (Agree.after tails [e]).trans front.symm

end Interleave

end Machine
