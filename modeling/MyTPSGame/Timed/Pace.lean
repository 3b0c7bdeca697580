/-
**How fast timers make enemies and bullets.**

`MakeEnemy` arms its timer anew with a whole number of seconds, `minTime` at least but for the fraction;
`DoFire` loops with `fireInterval`.

* `spawn_pace`: enemies, and with them levels, come no faster than one each `⌊minTime⌋`;
* `bullet_pace`: beyond what was loaded, the rifle shoots no more than one bullet each `fireInterval`;
* `held_fire`: while the trigger is held, it shoots just as many.
-/

import MyTPSGame.Progress.Limit
import MyTPSGame.Player.Ammo
import MyTPSGame.Timed.Game

namespace MyTPSGame

open Machine Staircase
open FireComponent (Gun bullets decrements timerFirings)

namespace World

variable {cfg : GameConfig} {placed : ℕ} {randTime : ℚ} {c d : Clocked World ℕ Timer ℚ}
  {us : List TimedMove} {t : Move} {ts : List Move} {w v : World}

/-! ### Enemies -/

section Spawns

/-- The whole part of a drawn time is no less than that of the least time. -/
theorem floor_le_truncToInt {lo hi r : ℚ} (nonneg : 0 ≤ lo) (ordered : lo ≤ hi)
    (drawn : FRandRange lo hi r) : ⌊lo⌋ ≤ truncToInt r := by
  have least : lo ≤ r := (min_eq_left ordered).symm.trans_le drawn.1
  rw [truncToInt_eq_floor (nonneg.trans least)]
  exact Int.floor_mono least

theorem setTimer_rated {lo rate : ℚ} (least : lo ≤ rate) :
    ∀ time ∈ setTimer rate, lo ≤ time := by
  intro time armed
  obtain ⟨_, same⟩ := Option.ite_none_right_eq_some.mp armed
  rwa [← Option.some.inj same]

variable (nonneg : 0 ≤ cfg.spawn.minTime) (ordered : cfg.spawn.minTime ≤ cfg.spawn.maxTime)

include nonneg ordered in
/-- Each firing of `MakeEnemy` arms the timer for `⌊minTime⌋` at least. -/
theorem rated_spawnUse (taken : t.Taken (step cfg)) :
    (spawnUse t).Rated (⌊cfg.spawn.minTime⌋ : ℚ) := by
  obtain ⟨w, event, next, out⟩ := t
  cases event with
  | makeEnemy draw =>
    have change : Change cfg w (.makeEnemy draw) next out := taken_change taken
    cases change with
    | spawns _ _ _ possible _ =>
      have least : (⌊cfg.spawn.minTime⌋ : ℚ) ≤ truncToInt draw.randTime := by
        exact_mod_cast floor_le_truncToInt nonneg ordered possible.randTime
      show Use.Rated _ (.expires (setTimer _))
      cases armed : setTimer (truncToInt draw.randTime) with
      | none => trivial
      | some rate => exact setTimer_rated least rate armed
    | acts _ _ _ _ _ _ _ _ _ named _ _ => cases named
  | _ => trivial

/-- Only `MakeEnemy` calls `SpawnActor`, and once at most. -/
theorem spawned_le_fires (taken : t.Taken (step cfg)) :
    t.out.countP isSpawnActor ≤ if (spawnUse t).Fires then 1 else 0 := by
  rcases (taken_change taken).spawnActor_cases with none | ⟨one, draw, event, _⟩
  · rw [none]
    exact Nat.zero_le _
  · have fires : (spawnUse t).Fires := by
      rw [spawnUse, event]
      trivial
    rwa [if_pos fires]

theorem spawnActorCalls_le_firings (run : Run (step cfg) w ts v) :
    spawnActorCalls ts ≤ firings (timing cfg) .spawnEnemyTimer ts :=
  List.sum_le_sum fun _ member => spawned_le_fires (run.taken member)

include nonneg ordered in
/-- The firings of `MakeEnemy` take their time. -/
theorem makeEnemy_pace (run : Run (timedStep cfg) (start cfg placed randTime) us c)
    (drawn : FRandRange cfg.spawn.minTime cfg.spawn.maxTime randTime) :
    (firings (timing cfg) .spawnEnemyTimer (game us) : ℚ) * ⌊cfg.spawn.minTime⌋ ≤ c.now := by
  have least : (⌊cfg.spawn.minTime⌋ : ℚ) ≤ truncToInt randTime := by
    exact_mod_cast floor_le_truncToInt nonneg ordered drawn
  have rated : ∀ t ∈ game us,
      ((timing cfg).uses t .spawnEnemyTimer).Rated (⌊cfg.spawn.minTime⌋ : ℚ) := fun _ member =>
    rated_spawnUse nonneg ordered ((untimed_run run).taken member)
  have paced := firings_le run rated fun time armed =>
    (zero_add _).trans_le (setTimer_rated least time armed)
  rw [nsmul_eq_mul] at paced
  exact paced.trans_eq ((now_eq run).trans (zero_add _)).symm

/-- **Enemies come no faster than their timer.** Each enemy that was not placed in the level has taken
`⌊minTime⌋` seconds to come, and so, where only living enemies are hit, has each point of experience
beyond theirs. -/
theorem spawn_pace (run : Run (timedStep cfg) (start cfg placed randTime) us c)
    (nonneg : 0 ≤ cfg.spawn.minTime) (ordered : cfg.spawn.minTime ≤ cfg.spawn.maxTime)
    (drawn : FRandRange cfg.spawn.minTime cfg.spawn.maxTime randTime) :
    ((c.machine.enemies.length : ℚ) - placed) * ⌊cfg.spawn.minTime⌋ ≤ c.now ∧
      (HitsLive (game us) →
        (((c.machine.gameMode.level * (c.machine.gameMode.level - 1) / 2 +
          c.machine.gameMode.exp : ℤ) : ℚ) - placed) * ⌊cfg.spawn.minTime⌋ ≤ c.now) := by
  have played := untimed_run run
  have least : (0 : ℚ) ≤ ⌊cfg.spawn.minTime⌋ := by exact_mod_cast Int.floor_nonneg.mpr nonneg
  have spawned : ((spawnActorCalls (game us) : ℕ) : ℚ) * ⌊cfg.spawn.minTime⌋ ≤ c.now :=
    (mul_le_mul_of_nonneg_right (by exact_mod_cast spawnActorCalls_le_firings played) least).trans
      (makeEnemy_pace nonneg ordered run drawn)
  have enemies : (c.machine.enemies.length : ℚ) - placed ≤ spawnActorCalls (game us) := by
    rw [sub_le_iff_le_add']
    exact_mod_cast enemies_length_le played
  refine ⟨(mul_le_mul_of_nonneg_right enemies least).trans spawned, fun live => ?_⟩
  have balance := balance_awards played
  rw [← dead_awards played live, GameMode.balance, triangle, add_comm] at balance
  have few : (c.machine.dead : ℚ) ≤ c.machine.enemies.length := by
    exact_mod_cast c.machine.dead_add_alive ▸ Nat.le_add_right _ _
  rw [balance, Int.cast_natCast]
  have paid : (c.machine.dead : ℚ) - placed ≤ spawnActorCalls (game us) :=
    (sub_le_sub_right few _).trans enemies
  exact (mul_le_mul_of_nonneg_right paid least).trans spawned

/-- One enemy in the first second, which is when it may come. -/
theorem spawn_pace_one :
    ((final (timedStep {}) (start {} 0 1)
        [.frame 1, .event (.makeEnemy ⟨0, 0, 1, true⟩)]).machine.enemies.length : ℚ) - 0 = 1 ∧
      (((final (timedStep {}) (start {} 0 1)
        [.frame 1, .event (.makeEnemy ⟨0, 0, 1, true⟩)]).machine.enemies.length : ℚ) - (0 : ℕ)) *
          ⌊(1 : ℚ)⌋ ≤
        (final (timedStep {}) (start {} 0 1) [.frame 1, .event (.makeEnemy ⟨0, 0, 1, true⟩)]).now :=
  ⟨by
    have one : (final (timedStep {}) (start {} 0 1)
      [.frame 1, .event (.makeEnemy ⟨0, 0, 1, true⟩)]).machine.enemies.length = 1 := by decide +kernel
    rw [one]
    norm_num,
    (spawn_pace (run_trace (timedStep {}) (start {} 0 1) [.frame 1, .event (.makeEnemy ⟨0, 0, 1, true⟩)])
      (show (0 : ℚ) ≤ 1 by decide) (show (1 : ℚ) ≤ 2 by decide) (by decide)).1⟩

end Spawns

/-! ### Bullets -/

section Bullets

theorem rated_fireUse (cfg : FireConfig) (t : Move) : (fireUse cfg t).Rated cfg.fireInterval := by
  have set : (setUse cfg.fireInterval).Rated cfg.fireInterval := by
    unfold setUse
    cases armed : setTimer cfg.fireInterval with
    | none => trivial
    | some rate => exact setTimer_rated (le_refl _) rate armed
  unfold fireUse
  split
  · split
    · exact set
    · trivial
  · trivial
  · exact le_refl _
  · trivial

/-- A firing of the timer is an event of the fire component. -/
theorem timerFirings_fireShare (t : Move) :
    timerFirings (fireShare t) = if (fireUse cfg.fire t).Fires then 1 else 0 := by
  obtain ⟨w, event, next, out⟩ := t
  cases event with
  | fire event index =>
    cases event with
    | onActionFirePressed shot =>
      refine (if_neg ?_).symm
      show ¬ Use.Fires (if _ then setUse cfg.fire.fireInterval else .keeps)
      split
      · unfold setUse
        cases setTimer cfg.fire.fireInterval <;> exact not_false
      · exact not_false
    | _ => rfl
  | _ => rfl

theorem timerFirings_fireTrace (cfg : GameConfig) (ts : List Move) :
    timerFirings (fireTrace ts) = firings (timing cfg) .fireTimerHandle ts := by
  unfold fireTrace firings
  rw [timerFirings, total_flatMap]
  exact total_congr fun t _ => timerFirings_fireShare t

/-- What a press takes is taken from the gun. -/
theorem decrements_le_taken (ts : List FireComponent.Move) :
    decrements ts ≤ Gun.grenadeGun.taken ts := by
  refine List.sum_le_sum fun t _ => ?_
  unfold FireComponent.roundsTaken
  split
  · exact le_refl _
  · exact Nat.zero_le _

/-- **The rifle shoots no faster than its timer.** What it has shot beyond the magazines that were
loaded has taken `fireInterval` for each bullet. -/
theorem bullet_pace (run : Run (timedStep cfg) (start cfg placed randTime) us c)
    (gun : 0 ≤ cfg.fire.maxGunAmmo) (interval : 0 ≤ cfg.fire.fireInterval) :
    ((bullets (fireTrace (game us)) : ℚ) -
        (cfg.fire.maxGunAmmo * (1 + Gun.grenadeGun.reloads (fireTrace (game us))) : ℤ)) *
      cfg.fire.fireInterval ≤ c.now := by
  have played := fire_run (untimed_run run)
  have loaded : (decrements (fireTrace (game us)) : ℤ) ≤
      cfg.fire.maxGunAmmo * (1 + Gun.grenadeGun.reloads (fireTrace (game us))) :=
    (Int.ofNat_le.mpr (decrements_le_taken _)).trans
      (FireComponent.taken_le played (show 0 ≤ Gun.grenadeGun.maxAmmo cfg.fire from gun))
  have rated : ∀ t ∈ game us, ((timing cfg).uses t .fireTimerHandle).Rated cfg.fire.fireInterval :=
    fun t _ => rated_fireUse cfg.fire t
  have paced := firings_le run rated fun time armed => by cases armed
  rw [nsmul_eq_mul, ← timerFirings_fireTrace] at paced
  have free : (bullets (fireTrace (game us)) : ℚ) -
      (cfg.fire.maxGunAmmo * (1 + Gun.grenadeGun.reloads (fireTrace (game us))) : ℤ) ≤
        timerFirings (fireTrace (game us)) := by
    have rounds : (decrements (fireTrace (game us)) : ℚ) ≤
        (cfg.fire.maxGunAmmo * (1 + Gun.grenadeGun.reloads (fireTrace (game us))) : ℤ) := by
      exact_mod_cast loaded
    rw [FireComponent.bullets_run played, Nat.cast_add]
    linarith
  calc _ ≤ (timerFirings (fireTrace (game us)) : ℚ) * cfg.fire.fireInterval :=
        mul_le_mul_of_nonneg_right free interval
    _ ≤ total passed us := paced
    _ = c.now := ((now_eq run).trans (zero_add _)).symm

/-- A round and two bullets of the timer in a second. -/
def burst (index : Fin 2) : List (Timed Event ℚ) :=
  [.event (.fire (.onActionFirePressed {}) index), .frame (1 / 2), .event (.fire .fireTimer index),
    .frame (1 / 2), .event (.fire .fireTimer index)]

theorem bullet_pace_burst :
    bullets (fireTrace (game (trace (timedStep {}) (start {} 0 1) (burst 0)))) = 3 ∧
      ((bullets (fireTrace (game (trace (timedStep {}) (start {} 0 1) (burst 0)))) : ℚ) -
        (20 * (1 + Gun.grenadeGun.reloads
          (fireTrace (game (trace (timedStep {}) (start {} 0 1) (burst 0))))) : ℤ)) * (1 / 2) ≤
        (final (timedStep {}) (start {} 0 1) (burst 0)).now :=
  ⟨by decide +kernel, bullet_pace (run_trace (timedStep {}) (start {} 0 1) (burst 0)) (by decide)
    (show (0 : ℚ) ≤ 1 / 2 by norm_num)⟩

/-! ### The trigger held -/

/-- The event presses the trigger or releases it. -/
def Event.pulls : Event → Bool
  | .fire (.onActionFirePressed _) _ => true
  | .fire .onActionFireRelesed _ => true
  | _ => false

/-- The trigger is neither pressed again nor released. -/
abbrev TriggerHeld (ts : List Move) : Prop :=
  ∀ t ∈ ts, t.event.pulls = false

theorem fireUse_held (calm : t.event.pulls = false) :
    fireUse cfg.fire t = .keeps ∨ fireUse cfg.fire t = .loops cfg.fire.fireInterval := by
  obtain ⟨w, event, next, out⟩ := t
  cases event with
  | fire event index =>
    cases event with
    | onActionFirePressed shot => cases calm
    | onActionFireRelesed => cases calm
    | fireTimer => exact Or.inr rfl
    | _ => exact Or.inl rfl
  | _ => exact Or.inl rfl

/-- While the trigger is held no round is taken. -/
theorem decrements_held (held : TriggerHeld ts) : decrements (fireTrace ts) = 0 := by
  refine total_eq_zero fun u member => ?_
  obtain ⟨t, inside, shared⟩ := List.mem_flatMap.mp member
  have calm := held t inside
  unfold fireShare at shared
  split at shared
  next event index named =>
    rw [List.mem_singleton.mp shared]
    rw [named] at calm
    cases event with
    | onActionFirePressed shot => cases calm
    | _ => rfl
  next => cases shared

/-- A press that the rifle accepts arms its timer. -/
theorem press_arms {press : TimedMove} {shot : Shot} {index : Fin 2}
    (taken : press.Taken (timedStep cfg))
    (named : press.event = .event (.fire (.onActionFirePressed shot) index))
    (rifle : press.pre.machine.fire.bChooseGrenadeGun = true)
    (loaded : 0 < press.pre.machine.fire.gunAmmo) (interval : 0 < cfg.fire.fireInterval) :
    press.post.due .fireTimerHandle = some (press.post.now + cfg.fire.fireInterval) := by
  cases taken_passes taken with
  | frame _ _ event _ _ _ =>
    rw [named] at event
    cases event
  | event t _ event same _ _ _ after =>
    rw [named] at event
    rw [same] at rifle loaded
    have same := Timed.event.inj event
    rw [after]
    show (fireUse cfg.fire t).due _ _ = _
    unfold fireUse
    rw [← same]
    simp only [rifle, loaded, and_self, if_true]
    rw [setUse, setTimer, if_pos interval]
    rfl

/-- While the trigger is held, the bullets are those of the timer, which keeps to its rate. -/
theorem armed_fire {before held : List TimedMove}
    (first : Run (timedStep cfg) (start cfg placed randTime) before c)
    (rest : Run (timedStep cfg) c held d)
    (armed : c.due .fireTimerHandle = some (c.now + cfg.fire.fireInterval))
    (down : TriggerHeld (game held)) :
    (bullets (fireTrace (game held)) : ℚ) * cfg.fire.fireInterval ≤ total passed held ∧
      ((∀ due ∈ d.due .fireTimerHandle, d.now ≤ due) →
        total passed held ≤ (bullets (fireTrace (game held)) + 1) * cfg.fire.fireInterval) := by
  have shot : bullets (fireTrace (game held)) = firings (timing cfg) .fireTimerHandle (game held) := by
    have played := fire_run (untimed_run (first.append rest))
    rw [game, List.flatMap_append, fireTrace, List.flatMap_append] at played
    obtain ⟨middle, _, played⟩ := played.split
    have since : Run (FireComponent.step cfg.fire) middle (fireTrace (game held)) _ := played
    rw [← timerFirings_fireTrace cfg, FireComponent.bullets_run since, decrements_held down, zero_add]
  have looping : ∀ t ∈ game held, (timing cfg).uses t .fireTimerHandle = .keeps ∨
      (timing cfg).uses t .fireTimerHandle = .loops cfg.fire.fireInterval := fun _ member =>
    fireUse_held (down _ member)
  have rated : ∀ t ∈ game held, ((timing cfg).uses t .fireTimerHandle).Rated cfg.fire.fireInterval :=
    fun t _ => rated_fireUse cfg.fire t
  have paced := firings_le rest rated fun time due => by
    rw [armed] at due
    exact (Option.some.inj due).le
  have due := looped_due rest looping armed
  rw [nsmul_eq_mul] at paced due
  rw [shot]
  refine ⟨paced, fun punctual => ?_⟩
  have late := punctual _ due
  rw [now_eq rest] at late
  linarith

/-- **A held trigger shoots at the rate of the gun.** From a press that the rifle accepts, as long as
the trigger is neither pressed again nor released, there is a bullet for each `fireInterval` that has
passed, and at a time when no bullet is overdue there are no fewer. -/
theorem held_fire {before held : List TimedMove} {press : TimedMove} {shot : Shot} {index : Fin 2}
    (run : Run (timedStep cfg) (start cfg placed randTime) (before ++ press :: held) c)
    (named : press.event = .event (.fire (.onActionFirePressed shot) index))
    (rifle : press.pre.machine.fire.bChooseGrenadeGun = true)
    (loaded : 0 < press.pre.machine.fire.gunAmmo) (interval : 0 < cfg.fire.fireInterval)
    (down : TriggerHeld (game held)) :
    (bullets (fireTrace (game held)) : ℚ) * cfg.fire.fireInterval ≤ total passed held ∧
      ((∀ due ∈ c.due .fireTimerHandle, c.now ≤ due) →
        total passed held ≤ (bullets (fireTrace (game held)) + 1) * cfg.fire.fireInterval) := by
  obtain ⟨first, taken, rest⟩ := run.mid
  exact armed_fire (.snoc first taken) rest (press_arms taken named rifle loaded interval) down

theorem held_fire_burst :
    bullets (fireTrace (game (trace (timedStep {}) (start {} 0 1) (burst 0)).tail)) = 2 ∧
      (2 : ℚ) * (1 / 2) ≤ total passed (trace (timedStep {}) (start {} 0 1) (burst 0)).tail := by
  have two : bullets (fireTrace (game (trace (timedStep {}) (start {} 0 1) (burst 0)).tail)) = 2 := by
    decide +kernel
  have down : TriggerHeld (game (trace (timedStep {}) (start {} 0 1) (burst 0)).tail) := by
    decide +kernel
  have run := run_trace (timedStep {}) (start {} 0 1) (burst 0)
  refine ⟨two, ?_⟩
  cases pressed : timedStep {} (start {} 0 1) (.event (.fire (.onActionFirePressed {}) 0)) with
  | none =>
    have done : (timedStep {} (start {} 0 1)
      (.event (.fire (.onActionFirePressed {}) 0))).isSome = true := by decide +kernel
    rw [pressed] at done
    cases done
  | some next =>
    have whole : trace (timedStep {}) (start {} 0 1) (burst 0) =
        [] ++ ⟨start {} 0 1, .event (.fire (.onActionFirePressed {}) 0), next.1, next.2⟩ ::
          trace (timedStep {}) next.1 (burst 0).tail := by
      rw [burst, trace, pressed]
      rfl
    rw [whole] at run two down ⊢
    have paced := (held_fire run rfl rfl (show (0 : ℤ) < 20 by decide)
      (show (0 : ℚ) < 1 / 2 by norm_num) down).1
    exact (congrArg (fun n : ℕ => (n : ℚ) * (1 / 2)) two).symm.trans_le paced

end Bullets

end World

end MyTPSGame
