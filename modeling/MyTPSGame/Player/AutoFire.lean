/-
**Automatic fire.**

The looping timer is started for the rifle by a press and cleared by a release; a change of guns does
not look at it. `automatic_iff`: the rifle shoots for a held button on the chosen rifle only, if and
only if the sniper is never chosen while the timer runs.
-/

import MyTPSGame.Player.Ammo

namespace MyTPSGame

open Machine

namespace FireComponent

/-- The fire button, after an event. -/
def pressed (down : Bool) : Event → Bool
  | .onActionFirePressed _ => true
  | .onActionFireRelesed => false
  | _ => down

/-- Whether the fire button is held after a run. -/
def held (ts : List Move) : Bool :=
  ts.foldl (fun down t => pressed down t.event) false

/-- The timer is active for a held button and the chosen rifle only, and so are the bullets. -/
structure Automatic (cfg : FireConfig) (ts : List Move) : Prop where
  timer : ∀ before after, ts = before ++ after → ∀ fire, Run (step cfg) (beginPlay cfg) before fire →
    fire.fireTimer ≠ none → held before = true ∧ fire.bChooseGrenadeGun = true
  bullet : ∀ before t after, ts = before ++ t :: after → FireCall.spawnBullet ∈ t.out →
    held (before ++ [t]) = true ∧ t.pre.bChooseGrenadeGun = true

/-- The sniper is not chosen while the timer is active. -/
def SwitchesIdle (ts : List Move) : Prop :=
  ∀ t ∈ ts, t.event = .onActionSniper → t.pre.fireTimer = none

variable {cfg : FireConfig} {fire : FireComponent} {ts : List Move} {t : Move}

theorem held_snoc (ts : List Move) (t : Move) : held (ts ++ [t]) = pressed (held ts) t.event := by
  unfold held
  rw [List.foldl_append]
  rfl

/-! ### One event -/

section Step

/-- What an event does to timer and gun: a press may start the timer on the rifle, a release clears
it, choosing a gun leaves it alone, and nothing else touches the two. -/
inductive Triggered (t : Move) : Prop
  | starts (shot : Shot) : t.event = .onActionFirePressed shot → t.pre.bChooseGrenadeGun = true →
      t.post.bChooseGrenadeGun = true → Triggered t
  | clears : t.event = .onActionFireRelesed → t.post.fireTimer = none →
      FireCall.spawnBullet ∉ t.out → Triggered t
  | chooses (rifle : Bool) : t.event = (if rifle then .onActionGrenade else .onActionSniper) →
      t.post.fireTimer = t.pre.fireTimer → t.post.bChooseGrenadeGun = rifle →
      FireCall.spawnBullet ∉ t.out → Triggered t
  | fires : t.event = .fireTimer → t.pre.fireTimer ≠ none → t.post = t.pre → Triggered t
  | keeps : pressed true t.event = true → t.event ≠ .onActionSniper →
      t.post.fireTimer = t.pre.fireTimer → t.post.bChooseGrenadeGun = t.pre.bChooseGrenadeGun →
      FireCall.spawnBullet ∉ t.out → Triggered t

theorem Press.triggered {fire next : FireComponent} {shot : Shot} {calls : List FireCall}
    (press : Press cfg fire shot next calls) :
    Triggered ⟨fire, .onActionFirePressed shot, next, calls⟩ := by
  cases press with
  | dryGun _ _ | drySniper _ _ => exact .keeps rfl (by simp) rfl rfl (by simp)
  | gun chosen _ => exact .starts shot rfl chosen chosen
  | sniper _ _ =>
    refine .keeps rfl (by simp) rfl rfl ?_
    rw [← List.count_eq_zero, List.count_append, List.count_append, count_shakeCalls,
      count_traceCalls]
    rfl

theorem taken_triggered (taken : t.Taken (step cfg)) : Triggered t := by
  obtain ⟨fire, event, next, calls⟩ := t
  have handled : Handled cfg fire event next calls := step_handled taken
  cases handled with
  | presses shot _ _ press => exact press.triggered
  | releases => exact .clears rfl rfl (by simp)
  | fires active => exact .fires rfl active rfl
  | choosesRifle => exact .chooses true rfl (fire.chooseGun_fireTimer true) rfl (by simp)
  | choosesSniper => exact .chooses false rfl (fire.chooseGun_fireTimer false) rfl (by simp)
  | zoomIgnored event _ zoom =>
    rcases zoom with rfl | rfl <;> exact .keeps rfl (by simp) rfl rfl (by simp)
  | _ => exact .keeps rfl (by simp) rfl rfl (by simp)

/-- The sniper is chosen whatever the timer does. -/
theorem switched (taken : t.Taken (step cfg)) (event : t.event = .onActionSniper) :
    t.post.fireTimer = t.pre.fireTimer ∧ t.post.bChooseGrenadeGun = false := by
  obtain ⟨fire, _, next, calls⟩ := t
  obtain rfl : _ = Event.onActionSniper := event
  have done : fire.onActionSniper = (next, calls) := Option.some.inj taken
  obtain rfl : (fire.chooseGun false).1 = next := congrArg Prod.fst done
  exact ⟨fire.chooseGun_fireTimer false, fire.chooseGun_bChooseGrenadeGun false⟩

variable {down : Bool}

/-- The timer stays with the held button and the rifle. -/
theorem Triggered.timer (triggered : Triggered t)
    (idle : t.event = .onActionSniper → t.pre.fireTimer = none)
    (before : t.pre.fireTimer ≠ none → down = true ∧ t.pre.bChooseGrenadeGun = true)
    (active : t.post.fireTimer ≠ none) :
    pressed down t.event = true ∧ t.post.bChooseGrenadeGun = true := by
  cases triggered with
  | starts shot event _ chosen =>
    rw [event]
    exact ⟨rfl, chosen⟩
  | clears _ none _ => exact absurd none active
  | chooses rifle event timer gun _ =>
    rw [timer] at active
    obtain ⟨holds, _⟩ := before active
    cases rifle with
    | true =>
      rw [event, holds]
      exact ⟨rfl, gun⟩
    | false => exact absurd (idle event) active
  | fires event pending same =>
    obtain ⟨holds, chosen⟩ := before pending
    rw [event, holds, same]
    exact ⟨rfl, chosen⟩
  | keeps button _ timer gun _ =>
    rw [timer] at active
    obtain ⟨holds, chosen⟩ := before active
    rw [holds, gun]
    exact ⟨button, chosen⟩

/-- A bullet is shot by a press of the button on the rifle, or by the timer. -/
theorem Triggered.bullet (triggered : Triggered t)
    (before : t.pre.fireTimer ≠ none → down = true ∧ t.pre.bChooseGrenadeGun = true)
    (shot : FireCall.spawnBullet ∈ t.out) :
    pressed down t.event = true ∧ t.pre.bChooseGrenadeGun = true := by
  cases triggered with
  | starts shot event chosen _ =>
    rw [event]
    exact ⟨rfl, chosen⟩
  | fires event pending _ =>
    obtain ⟨holds, chosen⟩ := before pending
    rw [event, holds]
    exact ⟨rfl, chosen⟩
  | clears _ _ quiet | chooses _ _ _ _ quiet | keeps _ _ _ _ quiet => exact absurd shot quiet

end Step

/-! ### Whole runs -/

section Runs

theorem fireTimer_beginPlay (cfg : FireConfig) : (beginPlay cfg).fireTimer = none :=
  chooseGun_fireTimer _ true

/-- While the sniper is chosen in idle moments only, an active timer means a held button and the
rifle. -/
theorem timer_run (run : Run (step cfg) (beginPlay cfg) ts fire) (idle : SwitchesIdle ts)
    (active : fire.fireTimer ≠ none) : held ts = true ∧ fire.bChooseGrenadeGun = true := by
  induction run with
  | nil => exact absurd (fireTimer_beginPlay cfg) active
  | @snoc past t _ taken ih =>
    rw [held_snoc]
    have now := idle t List.mem_concat_self
    exact (taken_triggered taken).timer now
      (ih fun u earlier => idle u (List.mem_append_left _ earlier)) active

/-- **The rifle shoots for a held button on the chosen rifle only**, if and only if the sniper is
never chosen while the timer is active. -/
theorem automatic_iff (run : Run (step cfg) (beginPlay cfg) ts fire) :
    Automatic cfg ts ↔ SwitchesIdle ts := by
  constructor
  · intro automatic t member event
    by_contra active
    obtain ⟨before, after, rfl, reach, taken, _⟩ := run.mem member
    obtain ⟨timer, gun⟩ := switched taken event
    have whole : before ++ t :: after = (before ++ [t]) ++ after := by simp
    obtain ⟨_, rifle⟩ := automatic.timer _ after whole t.post (.snoc reach taken)
      fun none => active (timer.symm.trans none)
    exact absurd (gun.symm.trans rifle) Bool.false_ne_true
  · intro idle
    refine ⟨?_, ?_⟩
    · rintro before after rfl fire reach active
      exact timer_run reach (fun u earlier => idle u (List.mem_append_left _ earlier)) active
    · rintro before t after rfl shot
      obtain ⟨reach, taken, _⟩ := run.mid
      rw [held_snoc]
      exact (taken_triggered taken).bullet
        (timer_run reach fun u earlier => idle u (List.mem_append_left _ earlier)) shot

/-- A press, a firing of the timer and a release, and only then the sniper. -/
theorem automatic_iff_release :
    Automatic {} (trace (step {}) (beginPlay {})
        [.onActionFirePressed {}, .fireTimer, .onActionFireRelesed, .onActionSniper]) ↔
      SwitchesIdle (trace (step {}) (beginPlay {})
        [.onActionFirePressed {}, .fireTimer, .onActionFireRelesed, .onActionSniper]) :=
  automatic_iff (run_trace (step {}) (beginPlay {}) _)

/-- The sniper chosen while the button is held: the timer stays active and the rifle shoots on. -/
theorem sniper_shoots_rifle :
    Run (step {}) (beginPlay {})
        (trace (step {}) (beginPlay {}) [.onActionFirePressed {}, .onActionSniper, .fireTimer])
        (final (step {}) (beginPlay {}) [.onActionFirePressed {}, .onActionSniper, .fireTimer]) ∧
      ¬ Automatic {}
        (trace (step {}) (beginPlay {}) [.onActionFirePressed {}, .onActionSniper, .fireTimer]) := by
  have run := run_trace (step {}) (beginPlay {}) [.onActionFirePressed {}, .onActionSniper, .fireTimer]
  refine ⟨run, fun automatic => ?_⟩
  have rifle := automatic.timer _ [] (List.append_nil _).symm _ run (by decide +kernel)
  exact absurd rifle.2 (by decide +kernel)

end Runs

end FireComponent

end MyTPSGame
