/-
**The bullets in the world.**

A bullet arms a timer of its own when it comes, and is destroyed when that fires; no other code destroys
one. `bulletStep` is the game under the clock with the bullets there are.

* `bullets_game`: they come of the presses and timer firings of the rifle;
* `in_flight`: there are no more of them than the rifle can have shot while one of them lives.
-/

import MyTPSGame.Machine.Lease
import MyTPSGame.Timed.Pace

namespace MyTPSGame

open Machine
open FireComponent (Gun bullets decrements timerFirings)

namespace BulletActor

/-- How long after `BeginPlay` the timer fires that it sets for `OnDie`. -/
def dieTime : ℚ := 2

end BulletActor

namespace World

/-- The bullets that are spawned. -/
def bulletsSpawned (calls : List WorldCall) : ℕ :=
  calls.count (.fire .spawnBullet)

/-- The game under the clock with its bullets: each `SpawnActor` of the rifle is taken to answer with one,
whose `BeginPlay` sets its timer and whose `OnDie` destroys it. -/
def bulletStep (cfg : GameConfig) :
    Step (Leased World ℕ Timer ℚ) (Lease Event ℚ) (LeaseCall WorldCall) :=
  leased (step cfg) (timing cfg) BulletActor.dieTime bulletsSpawned

/-- The game after every `BeginPlay`, with no bullet yet. -/
def bulletStart (cfg : GameConfig) (placed : ℕ) (randTime : ℚ) : Leased World ℕ Timer ℚ where
  clock := start cfg placed randTime
  ends := []

/-- The transitions of the game with its bullets. -/
abbrev BulletMove := Transition (Leased World ℕ Timer ℚ) (Lease Event ℚ) (LeaseCall WorldCall)

/-- The bullets that have been destroyed. -/
def bulletsDestroyed (bs : List BulletMove) : ℕ :=
  total (fun b => b.out.countP LeaseCall.isGone) bs

variable {cfg : GameConfig} {placed : ℕ} {randTime : ℚ} {c d : Clocked World ℕ Timer ℚ}
  {us before after : List TimedMove} {bs : List BulletMove} {world : Leased World ℕ Timer ℚ}

/-- The bullets of a game are those of its rifle. -/
theorem bullets_game (run : Run (timedStep cfg) c us d) :
    total (fun u => bulletsSpawned u.out) us = bullets (fireTrace (game us)) :=
  (total_out bulletsSpawned rfl run).trans (emitted_fireTrace .spawnBullet run.untimed).symm

/-- What the rifle shoots from a time on: the rounds of its magazines, and what its timer fires. -/
theorem bullets_since (run : Run (timedStep cfg) (start cfg placed randTime) (before ++ after) c)
    (gun : 0 ≤ cfg.fire.maxGunAmmo) :
    (bullets (fireTrace (game after)) : ℤ) ≤
      cfg.fire.maxGunAmmo * (1 + Gun.grenadeGun.reloads (fireTrace (game after))) +
        firings (timing cfg) .fireTimerHandle (game after) := by
  have played := fire_run (untimed_run run)
  rw [game, List.flatMap_append, fireTrace, List.flatMap_append] at played
  obtain ⟨middle, first, since⟩ := played.split
  have max : 0 ≤ Gun.grenadeGun.maxAmmo cfg.fire := gun
  have within := FireComponent.within_run first max middle first.last_visited
  have rounds := FireComponent.taken_le_from since max within
  have taken : (decrements (fireTrace (game after)) : ℤ) ≤ Gun.grenadeGun.taken (fireTrace (game after)) :=
    Int.ofNat_le.mpr (decrements_le_taken _)
  have shot := FireComponent.bullets_run since
  rw [← fireTrace, timerFirings_fireTrace cfg] at shot
  rw [shot, Nat.cast_add]
  exact add_le_add_left (taken.trans rounds) _

/-- **The bullets in flight.** Where neither the timer of a bullet nor that of the rifle is passed over by
a frame, and no frame is longer than `longest`, every bullet that was shot is in the world or has been
destroyed, none is there two seconds and a frame after it came, and there are no more than have been shot
in as long a time: the rounds of the magazines loaded, and one for each `fireInterval`. -/
theorem in_flight (run : Run (bulletStep cfg) (bulletStart cfg placed randTime) bs world)
    {longest : ℚ} (gun : 0 ≤ cfg.fire.maxGunAmmo) (interval : 0 ≤ cfg.fire.fireInterval)
    (nonneg : 0 ≤ longest) (short : ∀ u ∈ bs.flatMap unleased, passed u ≤ longest)
    (punctual : Punctual bs) (prompt : Prompt .fireTimerHandle (bs.flatMap unleased)) :
    world.ends.length + bulletsDestroyed bs = bullets (fireTrace (game (bs.flatMap unleased))) ∧
      (∀ time ∈ world.ends, world.clock.now ≤ time + longest) ∧
      ∃ before after, bs.flatMap unleased = before ++ after ∧ total passed after ≤ 2 + longest ∧
        ((world.ends.length : ℚ) -
            (cfg.fire.maxGunAmmo * (1 + Gun.grenadeGun.reloads (fireTrace (game after))) : ℤ)) *
          cfg.fire.fireInterval ≤ 2 + 2 * longest + cfg.fire.fireInterval := by
  have whole : Run (timedStep cfg) (start cfg placed randTime) (bs.flatMap unleased) world.clock :=
    run.unleased
  have last : world.clock.frame ≤ longest := frame_le whole nonneg short
  refine ⟨(alive_add_gone run rfl).trans (bullets_game whole), fun time alive => ?_, ?_⟩
  · have late := ends_late run rfl (le_refl 0) (by decide) punctual time alive
    linarith
  obtain ⟨before, after, m, cut, first, rest, span, few⟩ :=
    alive_le run rfl (le_refl 0) (by decide) punctual rfl
  refine ⟨before, after, cut, span.trans (add_le_add_right last 2), ?_⟩
  rw [cut] at whole short prompt
  -- the timer of the rifle is no later than a frame when the stretch begins
  have rated (ts : List Move) : ∀ t ∈ ts,
      ((timing cfg).uses t .fireTimerHandle).Rated cfg.fire.fireInterval :=
    fun t _ => rated_fireUse cfg.fire t
  have begins : m.frame ≤ longest :=
    frame_le first nonneg fun u member => short u (List.mem_append_left _ member)
  have armed := due_late first (rated _) interval (le_refl 0)
    (fun u member => prompt u (List.mem_append_left _ member)) fun time armed => by cases armed
  have fired := firings_le_late rest (rated _) interval (frame_nonneg first (le_refl 0)) armed
  rw [nsmul_eq_mul] at fired
  have shot : (world.ends.length : ℚ) -
      (cfg.fire.maxGunAmmo * (1 + Gun.grenadeGun.reloads (fireTrace (game after))) : ℤ) ≤
        firings (timing cfg) .fireTimerHandle (game after) := by
    have since := bullets_since whole gun
    rw [bullets_game rest] at few
    have rounds : (world.ends.length : ℤ) ≤ _ := (Int.ofNat_le.mpr few).trans since
    exact sub_le_iff_le_add'.mpr (by exact_mod_cast rounds)
  calc _ ≤ (firings (timing cfg) .fireTimerHandle (game after) : ℚ) * cfg.fire.fireInterval :=
        mul_le_mul_of_nonneg_right shot interval
    _ ≤ total passed after + (m.frame + cfg.fire.fireInterval) := fired
    _ ≤ 2 + 2 * longest + cfg.fire.fireInterval := by
        have two : BulletActor.dieTime = 2 := rfl
        rw [two] at span
        linarith

/-- A bullet of a press and four of the timer, the first of which has been there for two seconds then. -/
def salvo (index : Fin 2) : List (Lease Event ℚ) :=
  .clocked (.event (.fire (.onActionFirePressed {}) index)) ::
    (List.replicate 4 [.clocked (.frame (1 / 2)), .clocked (.event (.fire .fireTimer index))]).flatten ++
      [.ends 0]

/-- Four of the five are left. -/
theorem in_flight_salvo :
    (final (bulletStep {}) (bulletStart {} 0 1) (salvo 0)).ends.length = 4 ∧
      (final (bulletStep {}) (bulletStart {} 0 1) (salvo 0)).ends.length +
          bulletsDestroyed (trace (bulletStep {}) (bulletStart {} 0 1) (salvo 0)) =
        bullets (fireTrace (game ((trace (bulletStep {}) (bulletStart {} 0 1) (salvo 0)).flatMap
          unleased))) :=
  ⟨by decide +kernel,
    (in_flight (run_trace (bulletStep {}) (bulletStart {} 0 1) (salvo 0)) (show (0 : ℤ) ≤ 20 by decide)
      (show (0 : ℚ) ≤ 1 / 2 by norm_num) (show (0 : ℚ) ≤ 1 / 2 by norm_num) (by decide +kernel)
      (by decide +kernel) (by decide +kernel)).1⟩

end World

end MyTPSGame
