/-
**The ammunition of the rifle.**

A bullet of a press is paid for with a round; a bullet of the looping timer is not (`bullets_run`).
So every bullet is paid for if and only if the timer never fires (`paid_iff_no_timer`): `DoFire` looks
at no ammunition, and `OnActionFirePressed`, which does, has been left when it fires.
-/

import MyTPSGame.Player.Magazine

namespace MyTPSGame

open Machine

namespace FireComponent

/-- The bullets spawned along a run. -/
def bullets (ts : List Move) : ℕ :=
  emitted .spawnBullet ts

/-- The rounds that a press takes from `gunAmmo`. -/
def roundsTaken (t : Move) : ℕ :=
  match t.event with
  | .onActionFirePressed _ => (t.pre.gunAmmo - t.post.gunAmmo).toNat
  | _ => 0

/-- How often `gunAmmo` is decremented along a run. -/
def decrements (ts : List Move) : ℕ :=
  total roundsTaken ts

/-- The timer firings of a run. -/
def timerFirings (ts : List Move) : ℕ :=
  total (fun t => if t.event = .fireTimer then 1 else 0) ts

/-- Every bullet is paid for, and between two reloads there are no more than the gun holds. -/
def PaidFor (cfg : FireConfig) (ts : List Move) : Prop :=
  bullets ts ≤ decrements ts ∧
    ∀ before mid after, ts = before ++ mid ++ after → (∀ t ∈ mid, t.event ≠ .reloadGun) →
      (bullets mid : ℤ) ≤ cfg.maxGunAmmo

variable {cfg : FireConfig} {fire next : FireComponent} {calls : List FireCall} {event : Event}

/-! ### One event -/

section Step

theorem count_shakeCalls (fire : FireComponent) (shot : Shot) :
    (fire.shakeCalls shot).count .spawnBullet = 0 := by
  unfold shakeCalls shakeCamera
  refine List.count_eq_zero.mpr ?_
  split <;> simp

theorem count_traceCalls (shot : Shot) : (traceCalls shot).count .spawnBullet = 0 := by
  unfold traceCalls
  refine List.count_eq_zero.mpr ?_
  cases shot.trace with
  | none => simp
  | some hit =>
    obtain ⟨enemy, simulatingPhysics⟩ := hit
    cases enemy <;> cases simulatingPhysics <;> simp

/-- A press spawns a bullet for each round it takes, and takes no more than there is. -/
theorem Press.paid {shot : Shot} (press : Press cfg fire shot next calls) :
    calls.count .spawnBullet = (fire.gunAmmo - next.gunAmmo).toNat ∧
      next.gunAmmo + (calls.count .spawnBullet : ℤ) = fire.gunAmmo ∧
      (0 ≤ fire.gunAmmo → 0 ≤ next.gunAmmo) := by
  cases press with
  | dryGun _ _ | drySniper _ _ => simp
  | gun _ loaded =>
    have one : ([FireCall.onMyGrenadeGunAmmoUpdate (fire.gunAmmo - 1) cfg.maxGunAmmo] ++
        fire.shakeCalls shot ++ [FireCall.spawnBullet]).count .spawnBullet = 1 := by
      rw [List.count_append, List.count_append, count_shakeCalls]
      rfl
    rw [one]
    show 1 = (fire.gunAmmo - (fire.gunAmmo - 1)).toNat ∧ fire.gunAmmo - 1 + ((1 : ℕ) : ℤ) = _ ∧
      (_ → 0 ≤ fire.gunAmmo - 1)
    omega
  | sniper _ _ =>
    have none : ([FireCall.onMySniperGunAmmoUpdate (fire.sniperAmmo - 1) cfg.maxSniperAmmo] ++
        fire.shakeCalls shot ++ traceCalls shot).count FireCall.spawnBullet = 0 := by
      rw [List.count_append, List.count_append, count_shakeCalls, count_traceCalls]
      rfl
    rw [none]
    simp

/-- What an event does to the rounds of the rifle: a press shoots what it takes, the timer shoots
without taking, a reload fills the gun, and nothing else concerns it. -/
inductive Rounds (cfg : FireConfig) (t : Move) : Prop
  | press (shot : Shot) : t.event = .onActionFirePressed shot →
      t.out.count .spawnBullet = roundsTaken t →
      t.post.gunAmmo + (t.out.count .spawnBullet : ℤ) = t.pre.gunAmmo →
      (0 ≤ t.pre.gunAmmo → 0 ≤ t.post.gunAmmo) → Rounds cfg t
  | timer : t.event = .fireTimer → t.out.count .spawnBullet = 1 → roundsTaken t = 0 →
      t.post.gunAmmo = t.pre.gunAmmo → Rounds cfg t
  | reload : t.event = .reloadGun → t.out.count .spawnBullet = 0 → roundsTaken t = 0 →
      t.post.gunAmmo = cfg.maxGunAmmo → Rounds cfg t
  | other : t.event ≠ .fireTimer → t.out.count .spawnBullet = 0 → roundsTaken t = 0 →
      t.post.gunAmmo = t.pre.gunAmmo → Rounds cfg t

theorem taken_rounds {t : Move} (taken : t.Taken (step cfg)) : Rounds cfg t := by
  obtain ⟨fire, event, next, calls⟩ := t
  have handled : Handled cfg fire event next calls := step_handled taken
  cases handled with
  | presses shot _ _ press =>
    obtain ⟨count, rest, nonneg⟩ := press.paid
    exact .press shot rfl count rest nonneg
  | fires _ => exact .timer rfl rfl rfl rfl
  | reloadsGun => exact .reload rfl rfl rfl rfl
  | choosesRifle | choosesSniper =>
    exact .other (by simp) rfl rfl (fire.chooseGun_gunAmmo _)
  | zoomIgnored event _ zoom =>
    rcases zoom with rfl | rfl <;> exact .other (by simp) rfl rfl rfl
  | _ => exact .other (by simp) rfl rfl rfl

end Step

/-! ### Whole runs -/

section Runs

variable {ts : List Move}

/-- **The bullets of a run** are the rounds taken and the timer firings. -/
theorem bullets_run {start : FireComponent} (run : Run (step cfg) start ts fire) :
    bullets ts = decrements ts + timerFirings ts := by
  unfold bullets emitted decrements timerFirings
  rw [← total_add]
  apply total_congr
  intro t member
  cases taken_rounds (run.taken member) with
  | press shot event count _ _ => simp [count, event]
  | timer event count none _ => simp [count, none, event]
  | reload event count none _ => simp [count, none, event]
  | other calm count none _ => simp [count, none, calm]

/-- Without timer and reload, the bullets are what is missing from the gun. -/
theorem bullets_segment {start : FireComponent} (run : Run (step cfg) start ts fire)
    (noTimer : ∀ t ∈ ts, t.event ≠ .fireTimer) (noReload : ∀ t ∈ ts, t.event ≠ .reloadGun) :
    fire.gunAmmo + bullets ts = start.gunAmmo := by
  have moved := run.potential_eq (fun fire => -fire.gunAmmo)
    (fun t => (t.out.count .spawnBullet : ℤ)) fun t member taken => by
      cases taken_rounds taken with
      | press _ _ _ rest _ => omega
      | timer event _ _ _ => exact absurd event (noTimer t member)
      | reload event _ _ _ => exact absurd event (noReload t member)
      | other _ count _ same => rw [same, count, Nat.cast_zero, add_zero]
  rw [← total_natCast ℤ] at moved
  unfold bullets emitted
  omega

theorem timerFirings_eq_zero : timerFirings ts = 0 ↔ ∀ t ∈ ts, t.event ≠ .fireTimer := by
  unfold timerFirings total
  rw [List.sum_eq_zero_iff]
  simp

/-- **Every bullet is paid for if and only if the timer never fires.** -/
theorem paid_iff_no_timer (run : Run (step cfg) (beginPlay cfg) ts fire) (max : 0 ≤ cfg.maxGunAmmo) :
    PaidFor cfg ts ↔ ∀ t ∈ ts, t.event ≠ .fireTimer := by
  have count := bullets_run run
  rw [← timerFirings_eq_zero]
  constructor
  · rintro ⟨paid, _⟩
    omega
  · intro none
    refine ⟨by omega, ?_⟩
    rintro before mid after rfl noReload
    have noTimer := timerFirings_eq_zero.mp none
    obtain ⟨there, first, _⟩ := run.split
    obtain ⟨here, past, segment⟩ := first.split
    have shot := bullets_segment segment
      (fun t inside => noTimer t (List.mem_append_left _ (List.mem_append_right _ inside))) noReload
    have room : 0 ≤ Gun.grenadeGun.maxAmmo cfg := max
    have before : 0 ≤ here.gunAmmo ∧ here.gunAmmo ≤ cfg.maxGunAmmo :=
      within_run past room here past.last_visited
    have after : 0 ≤ there.gunAmmo ∧ there.gunAmmo ≤ cfg.maxGunAmmo :=
      within_run first room there first.last_visited
    omega

/-- One press and its release. -/
theorem paid_iff_no_timer_press :
    PaidFor {} (trace (step {}) (beginPlay {}) [.onActionFirePressed {}, .onActionFireRelesed]) ↔
      ∀ t ∈ trace (step {}) (beginPlay {}) [.onActionFirePressed {}, .onActionFireRelesed],
        t.event ≠ .fireTimer :=
  paid_iff_no_timer (run_trace (step {}) (beginPlay {}) _) (by decide)

/-- A button held for one interval: two bullets for one round, and with one round in the gun two
bullets before any reload. -/
theorem held_button_shoots_free :
    Run (step { maxGunAmmo := 1 }) (beginPlay { maxGunAmmo := 1 })
        (trace (step { maxGunAmmo := 1 }) (beginPlay { maxGunAmmo := 1 })
          [.onActionFirePressed {}, .fireTimer])
        (final (step { maxGunAmmo := 1 }) (beginPlay { maxGunAmmo := 1 })
          [.onActionFirePressed {}, .fireTimer]) ∧
      bullets (trace (step { maxGunAmmo := 1 }) (beginPlay { maxGunAmmo := 1 })
        [.onActionFirePressed {}, .fireTimer]) = 2 ∧
      ¬ PaidFor { maxGunAmmo := 1 }
        (trace (step { maxGunAmmo := 1 }) (beginPlay { maxGunAmmo := 1 })
          [.onActionFirePressed {}, .fireTimer]) :=
  ⟨run_trace _ _ _, by decide +kernel, fun paid => absurd paid.1 (by decide +kernel)⟩

end Runs

end FireComponent

end MyTPSGame
