/-
**What a level costs.**

Where enemies are only damaged by shots, and no corpse is shot, experience is bought with ammunition:
each dead enemy has taken as many shots as it had health, and each shot is a round of the sniper.

* `mul_countP_le_sum`: a sum over a list in which some elements cost at least `m`;
* `level_price`: the rounds that the levels of a game have cost, in reloads.
-/

import MyTPSGame.Progress.Limit
import MyTPSGame.Player.Shots

namespace MyTPSGame

open Machine Staircase
open FireComponent (Gun)

/-- A sum over a list to which every element adds something, and some of them at least `m`. -/
theorem mul_countP_le_sum {α : Type*} {p : α → Bool} {m : ℤ} (l : List α) (cost : ℕ → α → ℤ)
    (pays : ∀ i a, l[i]? = some a → (if p a then m else 0) ≤ cost i a) :
    m * l.countP p ≤ (l.mapIdx cost).sum := by
  induction l generalizing cost with
  | nil => simp
  | cons a l ih =>
    have head := pays 0 a rfl
    have tail := ih (fun i => cost (i + 1)) fun i b there => pays (i + 1) b there
    rw [List.mapIdx_cons, List.sum_cons, List.countP_cons]
    by_cases counted : p a = true
    · rw [if_pos counted] at head ⊢
      push_cast
      linarith
    · rw [if_neg counted] at head ⊢
      push_cast
      linarith

namespace World

variable {cfg : GameConfig} {placed : ℕ} {randTime : ℚ} {w : World} {ts : List Move}

/-- In a game of shots no event of an enemy gives it health. -/
theorem damage_nonneg (only : OnlyShots ts) {i : ℕ} {u : EnemyFSM.Move}
    (member : u ∈ enemyTrace i ts) : 0 ≤ u.event.damage := by
  obtain ⟨t, inside, named, _⟩ := mem_enemyTrace member
  have shot : shotEnemy t = none ∧ u.event.damage = 0 ∨ shotEnemy t = some i ∧ u.event.damage = 1 :=
    shotEnemy_acts named (only t inside)
  rcases shot with ⟨_, none⟩ | ⟨_, one⟩
  · exact none.ge
  · rw [one]
    exact zero_le_one

/-- What an enemy has lost: all its health, once it is dead. -/
theorem lost_of_dead (run : Run (step cfg) (beginPlay cfg placed randTime) ts w)
    (only : OnlyShots ts) {m : ℤ} (healthy : ∀ i, m ≤ (cfg.enemy i).maxHP) {i : ℕ}
    {fsm : EnemyFSM} (found : w.enemies[i]? = some fsm) :
    (if decide (fsm.state = .die) then m else 0) ≤ (cfg.enemy i).maxHP - fsm.hp := by
  have lost := wound_run run only i
  rw [wound, found, Option.elim_some] at lost
  by_cases dead : fsm.state = .die
  · rw [if_pos (decide_eq_true dead)]
    have spent := EnemyFSM.spent_run (enemy_run run found) (fun _ => damage_nonneg only) dead
    have health := healthy i
    omega
  · rw [if_neg (by simpa using dead)]
    omega

/-- The dead have taken as many shots as they had health. -/
theorem dead_le_shots (run : Run (step cfg) (beginPlay cfg placed randTime) ts w)
    (only : OnlyShots ts) {m : ℤ} (healthy : ∀ i, m ≤ (cfg.enemy i).maxHP) :
    m * w.dead ≤ shots ts := by
  rw [← wounds_run run only]
  exact mul_countP_le_sum w.enemies _ fun _ _ found => lost_of_dead run only healthy found

/-- **The price of a level.** In a game in which enemies are damaged by shots only, and no corpse is
shot, all experience has been paid for with rounds of the sniper: `m` rounds a point, where no enemy
has less health, out of the magazines that have been loaded. -/
theorem level_price (run : Run (step cfg) (beginPlay cfg placed randTime) ts w)
    (only : OnlyShots ts) (live : HitsLive ts) (sniper : 0 ≤ cfg.fire.maxSniperAmmo) {m : ℤ}
    (healthy : ∀ i, m ≤ (cfg.enemy i).maxHP) :
    m * (w.gameMode.level * (w.gameMode.level - 1) / 2 + w.gameMode.exp) ≤
      cfg.fire.maxSniperAmmo * (1 + Gun.sniper.reloads (fireTrace ts)) := by
  have balance := balance_awards run
  rw [← dead_awards run live, GameMode.balance, triangle, add_comm] at balance
  have paid : (shots ts : ℤ) ≤ Gun.sniper.taken (fireTrace ts) := by exact_mod_cast shots_le run
  calc m * (w.gameMode.level * (w.gameMode.level - 1) / 2 + w.gameMode.exp)
      = m * w.dead := by rw [balance]
    _ ≤ shots ts := dead_le_shots run only healthy
    _ ≤ Gun.sniper.taken (fireTrace ts) := paid
    _ ≤ cfg.fire.maxSniperAmmo * (1 + Gun.sniper.reloads (fireTrace ts)) :=
        FireComponent.taken_le (fire_run run) sniper

/-- Five rounds, a reload, and five more, all into the enemy that is placed. -/
def twoMagazines (index : Fin 2) : List Event :=
  let shots := List.replicate 5
    (.fire (.onActionFirePressed { trace := some { enemy := some 0 } }) index)
  .fire .onActionSniper index :: (shots ++ .fire .reloadSniper index :: shots)

/-- Two magazines kill an enemy of ten, which is a level. -/
theorem level_price_one :
    (10 : ℤ) * ((final (step {}) (beginPlay {} 1 1) (twoMagazines 0)).gameMode.level *
        ((final (step {}) (beginPlay {} 1 1) (twoMagazines 0)).gameMode.level - 1) / 2 +
        (final (step {}) (beginPlay {} 1 1) (twoMagazines 0)).gameMode.exp) ≤
      5 * (1 + Gun.sniper.reloads (fireTrace (trace (step {}) (beginPlay {} 1 1) (twoMagazines 0)))) :=
  level_price (run_trace (step {}) (beginPlay {} 1 1) (twoMagazines 0)) (by decide +kernel)
    (by decide +kernel) (by decide) fun _ => le_refl 10

end World

end MyTPSGame
