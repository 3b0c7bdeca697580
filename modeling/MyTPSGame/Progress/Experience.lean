/-
**Experience: what a run of awards and level-up timers leaves in the counters.**

`AddExp` looks at the need before it runs `LevelUpProcess`; a `LevelUpProcess` timer does not. Two
quantities tell what this does to a run:

* `balance`: the experience held and the experience paid for the levels so far
  (`triangle gm.level`) are always what was awarded, however the run went;
* `due`: whether the next level is reached. One timer that is due is the only timer of a run in
  which no award comes while a timer is pending (`Tidy`). An award that does come then leaves a
  timer too many for good (`Surplus`), and that timer fires on a need that is not met.

`accounted_iff_undisturbed` is what follows for whole runs.
-/

import MyTPSGame.Machine.Account
import MyTPSGame.Arith.Staircase
import MyTPSGame.Model.GameMode

namespace MyTPSGame

open Machine Staircase

namespace GameMode

/-- The transitions of the game mode on its own. -/
abbrev Move := Transition GameMode Event GameModeCall

/-- The experience an event awards. -/
def Event.amount : Event → ℤ
  | .addExp amount => amount
  | .levelUpTimer => 0

/-- Everything awarded along a run. -/
def awarded (ts : List Move) : ℤ :=
  total (fun t => t.event.amount) ts

/-- The counters are those of the level that a sum of awards reaches. -/
structure Settled (S : ℤ) (gm : GameMode) : Prop where
  level : IsGreatest (reached triangle S) gm.level
  needExp : gm.needExp = gm.level
  exp : gm.exp = S - triangle gm.level

/-- What the experience should be after a run: every `LevelUpProcess` was paid for, nothing is owed,
and with no timer left the counters depend on the sum of the awards only. -/
structure Accounted (ts : List Move) (gm : GameMode) : Prop where
  paid : ∀ t ∈ ts, ∀ exp needExp, GameModeCall.levelUpProcess exp needExp ∈ t.out → needExp ≤ exp
  exp_nonneg : 0 ≤ gm.exp
  settled : gm.levelUpTimers = 0 → Settled (awarded ts) gm

/-- A run is accounted for after each of its events. -/
def AlwaysAccounted (ts : List Move) : Prop :=
  ∀ before after, ts = before ++ after → ∀ gm, Run step beginPlay before gm → Accounted before gm

/-- No award comes while a timer is pending. -/
def Undisturbed (ts : List Move) : Prop :=
  ∀ t ∈ ts, ∀ amount, t.event = .addExp amount → t.pre.levelUpTimers = 0

/-- Two runs with the same sum of awards settle on the same counters. -/
theorem Settled.unique {S : ℤ} {gm other : GameMode} (first : Settled S gm)
    (second : Settled S other) :
    gm.level = other.level ∧ gm.exp = other.exp ∧ gm.needExp = other.needExp := by
  have level : gm.level = other.level := first.level.unique second.level
  refine ⟨level, ?_, ?_⟩
  · rw [first.exp, second.exp, level]
  · rw [first.needExp, second.needExp, level]

/-! ### One event -/

section Step

/-- The counters as `LevelUp` leaves them. -/
structure Leveled (gm : GameMode) : Prop where
  needExp : gm.needExp = gm.level
  level_pos : 1 ≤ gm.level

/-- How many timers the state calls for: one if the next level is reached. -/
def due (gm : GameMode) : ℕ :=
  if gm.needExp ≤ gm.exp then 1 else 0

/-- The experience held, and that paid for the levels. -/
def balance (gm : GameMode) : ℤ :=
  gm.exp + triangle gm.level

theorem leveled_beginPlay : Leveled beginPlay := ⟨rfl, le_refl _⟩

theorem due_le_one (gm : GameMode) : gm.due ≤ 1 := by
  unfold due
  split <;> omega

theorem due_pos_iff (gm : GameMode) : 0 < gm.due ↔ gm.needExp ≤ gm.exp := by
  unfold due
  by_cases reached : gm.needExp ≤ gm.exp <;> simp [reached]

variable {gm : GameMode}

theorem Leveled.levelUpProcess (leveled : Leveled gm) : Leveled gm.levelUpProcess.1 := by
  rw [levelUpProcess_spec]
  refine ⟨rfl, ?_⟩
  have positive := leveled.level_pos
  show 1 ≤ gm.level + 1
  omega

theorem levelUpProcess_timers :
    gm.levelUpProcess.1.levelUpTimers = gm.levelUpTimers + gm.levelUpProcess.1.due := by
  rw [levelUpProcess_spec]
  rfl

theorem levelUpProcess_exp : gm.levelUpProcess.1.exp = gm.exp - gm.needExp := by
  rw [levelUpProcess_spec]
  rfl

/-- A level up pays for the level it leaves. -/
theorem levelUpProcess_balance (leveled : Leveled gm) :
    gm.levelUpProcess.1.balance = gm.balance := by
  rw [levelUpProcess_spec]
  show gm.exp - gm.needExp + triangle (gm.level + 1) = gm.exp + triangle gm.level
  rw [triangle_succ, leveled.needExp]
  omega

theorem levelUpProcess_paid {exp needExp : ℤ}
    (seen : GameModeCall.levelUpProcess exp needExp ∈ gm.levelUpProcess.2) :
    exp = gm.exp ∧ needExp = gm.needExp := by
  rw [levelUpProcess_calls] at seen
  rcases List.mem_cons.mp seen with same | timer
  · exact GameModeCall.levelUpProcess.inj same
  · split at timer <;> simp at timer

/-- Everything one event can do to the counters. `levelUpProcess` in both cases runs on a state that
differs from the one before by the award and by the timer that has fired. -/
inductive Counted (gm : GameMode) : Event → GameMode → List GameModeCall → Prop
  | short (amount : ℤ) : gm.exp + amount < gm.needExp →
      Counted gm (.addExp amount) { gm with exp := gm.exp + amount } []
  | reached (amount : ℤ) : gm.needExp ≤ gm.exp + amount →
      Counted gm (.addExp amount) (levelUpProcess { gm with exp := gm.exp + amount }).1
        (levelUpProcess { gm with exp := gm.exp + amount }).2
  | fired : 0 < gm.levelUpTimers →
      Counted gm .levelUpTimer
        (levelUpProcess { gm with levelUpTimers := gm.levelUpTimers - 1 }).1
        (levelUpProcess { gm with levelUpTimers := gm.levelUpTimers - 1 }).2

theorem taken_counted {t : Move} (taken : t.Taken step) :
    Counted t.pre t.event t.post t.out := by
  obtain ⟨gm, event, next, out⟩ := t
  change step gm event = some (next, out) at taken
  cases event with
  | addExp amount =>
    have done : gm.addExp amount = (next, out) := Option.some.inj taken
    by_cases enough : gm.needExp ≤ gm.exp + amount
    · rw [addExp_reached gm enough] at done
      have counted : Counted gm (.addExp amount) _ _ := .reached amount enough
      rwa [done] at counted
    · rw [addExp_short gm enough] at done
      cases done
      exact .short amount (not_le.mp enough)
  | levelUpTimer =>
    change gm.fireLevelUpTimer = _ at taken
    unfold fireLevelUpTimer at taken
    by_cases pending : 0 < gm.levelUpTimers
    · rw [if_pos pending, Option.some.injEq] at taken
      have counted : Counted gm .levelUpTimer _ _ := .fired pending
      rwa [taken] at counted
    · rw [if_neg pending] at taken
      cases taken

variable {event : Event} {next : GameMode} {out : List GameModeCall}

theorem Counted.leveled (counted : Counted gm event next out) (leveled : Leveled gm) :
    Leveled next := by
  cases counted with
  | short amount _ => exact ⟨leveled.needExp, leveled.level_pos⟩
  | reached amount _ => exact Leveled.levelUpProcess ⟨leveled.needExp, leveled.level_pos⟩
  | fired _ => exact Leveled.levelUpProcess ⟨leveled.needExp, leveled.level_pos⟩

/-- An event moves the balance by what it awards. -/
theorem Counted.balance (counted : Counted gm event next out) (leveled : Leveled gm) :
    next.balance = gm.balance + event.amount := by
  cases counted with
  | short amount _ => exact add_right_comm gm.exp amount (triangle gm.level)
  | reached amount _ =>
    have here : Leveled { gm with exp := gm.exp + amount } := ⟨leveled.needExp, leveled.level_pos⟩
    rw [levelUpProcess_balance here]
    exact add_right_comm gm.exp amount (triangle gm.level)
  | fired _ =>
    have here : Leveled { gm with levelUpTimers := gm.levelUpTimers - 1 } :=
      ⟨leveled.needExp, leveled.level_pos⟩
    rw [levelUpProcess_balance here]
    exact (add_zero _).symm

/-- An award arms a timer if one is due after it. -/
theorem Counted.award_timers {amount : ℤ} (counted : Counted gm (.addExp amount) next out) :
    next.levelUpTimers = gm.levelUpTimers + next.due := by
  cases counted with
  | short _ less =>
    have nothing : due { gm with exp := gm.exp + amount } = 0 := if_neg (not_le.mpr less)
    rw [nothing]
    rfl
  | reached _ _ => rw [levelUpProcess_timers]

/-- A timer that fires is gone, and arms another if one is due after it. -/
theorem Counted.timer_timers (counted : Counted gm .levelUpTimer next out) :
    next.levelUpTimers + 1 = gm.levelUpTimers + next.due := by
  cases counted with
  | fired pending =>
    rw [levelUpProcess_timers]
    show gm.levelUpTimers - 1 + _ + 1 = _
    omega

end Step

/-! ### Runs in which no award comes early -/

section Tidy

/-- There is a timer exactly when one is due, and nothing is owed. -/
structure Tidy (gm : GameMode) : Prop where
  timers : gm.levelUpTimers = gm.due
  exp_nonneg : 0 ≤ gm.exp

theorem tidy_beginPlay : Tidy beginPlay := ⟨rfl, le_refl _⟩

variable {gm next : GameMode} {event : Event} {out : List GameModeCall}

/-- In a tidy state a timer that fires is due. -/
theorem Tidy.reached (tidy : Tidy gm) (pending : 0 < gm.levelUpTimers) : gm.needExp ≤ gm.exp :=
  (due_pos_iff gm).mp (tidy.timers ▸ pending)

theorem Counted.tidy (counted : Counted gm event next out) (tidy : Tidy gm)
    (amount_nonneg : 0 ≤ event.amount)
    (undisturbed : ∀ amount, event = .addExp amount → gm.levelUpTimers = 0) : Tidy next := by
  have held := tidy.exp_nonneg
  cases counted with
  | short amount less =>
    have timers := (Counted.short amount less).award_timers
    have idle := undisturbed amount rfl
    exact ⟨by omega, Int.add_nonneg held amount_nonneg⟩
  | reached amount enough =>
    have timers := (Counted.reached amount enough).award_timers
    have idle := undisturbed amount rfl
    refine ⟨by omega, ?_⟩
    rw [levelUpProcess_exp]
    exact Int.sub_nonneg_of_le enough
  | fired pending =>
    have timers := (Counted.fired pending).timer_timers
    have single : gm.levelUpTimers = 1 := by
      have bound := due_le_one gm
      have same := tidy.timers
      omega
    refine ⟨by omega, ?_⟩
    rw [levelUpProcess_exp]
    exact Int.sub_nonneg_of_le (tidy.reached pending)

/-- From a tidy state, `LevelUpProcess` runs only where its need is met. -/
theorem Counted.paid (counted : Counted gm event next out) (tidy : Tidy gm) {exp needExp : ℤ}
    (seen : GameModeCall.levelUpProcess exp needExp ∈ out) : needExp ≤ exp := by
  cases counted with
  | short _ _ => simp at seen
  | reached amount enough =>
    obtain ⟨rfl, rfl⟩ := levelUpProcess_paid seen
    exact enough
  | fired pending =>
    obtain ⟨rfl, rfl⟩ := levelUpProcess_paid seen
    exact tidy.reached pending

/-- A tidy state without timers is settled on its balance. -/
theorem Tidy.settled (tidy : Tidy gm) (leveled : Leveled gm) (idle : gm.levelUpTimers = 0) :
    Settled gm.balance gm := by
  have short : gm.exp < gm.needExp := by
    by_contra enough
    have pending := (due_pos_iff gm).mpr (not_lt.mp enough)
    rw [← tidy.timers, idle] at pending
    exact absurd pending (lt_irrefl 0)
  have held := tidy.exp_nonneg
  have need := leveled.needExp
  refine ⟨isGreatest_step triangle_monotone leveled.level_pos ?_ ?_, need, ?_⟩
  · show triangle gm.level ≤ gm.exp + triangle gm.level
    omega
  · show gm.exp + triangle gm.level < triangle (gm.level + 1)
    rw [triangle_succ]
    omega
  · exact (Int.add_sub_cancel _ _).symm

end Tidy

/-! ### Runs in which an award comes early -/

section Surplus

/-- There is a timer that is not due. -/
def Surplus (gm : GameMode) : Prop :=
  gm.due < gm.levelUpTimers

variable {gm next : GameMode} {event : Event} {out : List GameModeCall} {amount : ℤ}

/-- An award while a timer is pending leaves a timer too many. -/
theorem Counted.surplus (counted : Counted gm (.addExp amount) next out)
    (pending : gm.levelUpTimers ≠ 0) : Surplus next := by
  have timers := counted.award_timers
  unfold Surplus
  omega

/-- A timer too many stays as long as every `LevelUpProcess` is paid for. -/
theorem Surplus.counted (surplus : Surplus gm) (counted : Counted gm event next out)
    (paid : ∀ exp needExp, GameModeCall.levelUpProcess exp needExp ∈ out → needExp ≤ exp) :
    Surplus next := by
  unfold Surplus at surplus ⊢
  cases event with
  | addExp amount =>
    have timers := counted.award_timers
    omega
  | levelUpTimer =>
    have timers := counted.timer_timers
    have met : 0 < gm.due := by
      cases counted with
      | fired pending =>
        rw [due_pos_iff]
        apply paid
        rw [levelUpProcess_calls]
        exact List.mem_cons_self
    omega

end Surplus

/-! ### Whole runs -/

section Runs

variable {gm : GameMode} {ts : List Move}

theorem leveled_run (run : Run step beginPlay ts gm) : Leveled gm :=
  run.invariant leveled_beginPlay fun _ _ taken => (taken_counted taken).leveled

/-- **The balance is what was awarded**, whatever the order of awards and timers. -/
theorem balance_run (run : Run step beginPlay ts gm) : gm.balance = awarded ts := by
  have leveled {t : Move} (member : t ∈ ts) : Leveled t.pre :=
    run.invariant_pre leveled_beginPlay (fun _ _ taken => (taken_counted taken).leveled) member
  have moved := run.potential_eq balance (fun t => t.event.amount) fun t member taken =>
    (taken_counted taken).balance (leveled member)
  rw [moved]
  exact zero_add _

theorem tidy_run (run : Run step beginPlay ts gm) (amounts : ∀ t ∈ ts, 0 ≤ t.event.amount)
    (undisturbed : Undisturbed ts) : Tidy gm :=
  run.invariant tidy_beginPlay fun t member taken tidy =>
    (taken_counted taken).tidy tidy (amounts t member) (undisturbed t member)

theorem accounted_of_undisturbed (run : Run step beginPlay ts gm)
    (amounts : ∀ t ∈ ts, 0 ≤ t.event.amount) (undisturbed : Undisturbed ts) : Accounted ts gm := by
  have tidy := tidy_run run amounts undisturbed
  refine ⟨fun t member exp needExp seen => ?_, tidy.exp_nonneg, fun idle => ?_⟩
  · obtain ⟨before, after, rfl, reach, taken, _⟩ := run.mem member
    have here : Tidy t.pre := tidy_run reach
      (fun u earlier => amounts u (List.mem_append_left _ earlier))
      (fun u earlier => undisturbed u (List.mem_append_left _ earlier))
    exact (taken_counted taken).paid here seen
  · rw [← balance_run run]
    exact tidy.settled (leveled_run run) idle

/-- A run in which every `LevelUpProcess` is paid for and no timer is left was undisturbed. -/
theorem undisturbed_of_paid (run : Run step beginPlay ts gm) (idle : gm.levelUpTimers = 0)
    (paid : ∀ t ∈ ts, ∀ exp needExp, GameModeCall.levelUpProcess exp needExp ∈ t.out →
      needExp ≤ exp) : Undisturbed ts := by
  intro t member amount award
  by_contra pending
  obtain ⟨before, after, rfl, _, taken, rest⟩ := run.mem member
  have counted := taken_counted taken
  rw [award] at counted
  have surplus : Surplus gm := rest.invariant (counted.surplus pending) fun u later took kept =>
    kept.counted (taken_counted took)
      (paid u (List.mem_append_right _ (List.mem_cons_of_mem _ later)))
  unfold Surplus at surplus
  omega

/-- **Experience is accounted for when no award comes while a timer is pending**, and, in a run
that has let every timer fire, only then. -/
theorem accounted_iff_undisturbed (run : Run step beginPlay ts gm)
    (amounts : ∀ t ∈ ts, 0 ≤ t.event.amount) :
    (Undisturbed ts → AlwaysAccounted ts) ∧
      (gm.levelUpTimers = 0 → (AlwaysAccounted ts ↔ Undisturbed ts)) := by
  have enough : Undisturbed ts → AlwaysAccounted ts := by
    rintro undisturbed before after rfl there reach
    exact accounted_of_undisturbed reach
      (fun u earlier => amounts u (List.mem_append_left _ earlier))
      (fun u earlier => undisturbed u (List.mem_append_left _ earlier))
  refine ⟨enough, fun idle => ⟨fun always => ?_, enough⟩⟩
  exact undisturbed_of_paid run idle (always ts [] (List.append_nil ts).symm gm run).paid

/-- An award of six, with the two timers it leads to. -/
theorem accounted_iff_undisturbed_six :
    AlwaysAccounted (trace step beginPlay [.addExp 6, .levelUpTimer, .levelUpTimer]) ↔
      Undisturbed (trace step beginPlay [.addExp 6, .levelUpTimer, .levelUpTimer]) :=
  (accounted_iff_undisturbed (run_trace step beginPlay [.addExp 6, .levelUpTimer, .levelUpTimer])
    (by decide)).2 (by decide)

/-- An award of one between an award of three and its timer: the timer fires with one held where
three are needed. -/
theorem early_award_overdraws :
    ∃ ts gm, Run step beginPlay ts gm ∧ (∀ t ∈ ts, 0 ≤ t.event.amount) ∧
      ts.map Transition.event = [.addExp 3, .addExp 1, .levelUpTimer] ∧
      gm.exp = -2 ∧ ¬ AlwaysAccounted ts := by
  have run := run_trace step beginPlay [.addExp 3, .addExp 1, .levelUpTimer]
  refine ⟨_, _, run, by decide, rfl, by decide, fun always => ?_⟩
  have owed := (always _ [] (List.append_nil _).symm _ run).exp_nonneg
  exact absurd owed (by decide)

end Runs

end GameMode

end MyTPSGame
