/-
**How long the player survives.**

The hits of a game are those of its enemies, and each enemy pays for its hits with its own time in ATTACK,
of which it has no more than the game is running. So the health that the player has lost is bounded by
the enemies there are and the time that has passed.

* `onHitCalls_eq`: the hits of a game, enemy by enemy;
* `survival`: what they can have cost by now.
-/

import MyTPSGame.Progress.Limit
import MyTPSGame.Timed.Game
import Mathlib.Algebra.BigOperators.Ring.Finset
import Mathlib.Algebra.Order.BigOperators.Group.Finset

namespace MyTPSGame

open Machine

namespace World

variable {cfg : GameConfig} {placed : ℕ} {randTime : ℚ} {c : Clocked World ℕ Timer ℚ}
  {us : List TimedMove} {t : Move} {ts : List Move} {w v : World} {out : List WorldCall} {n : ℕ}

/-! ### The hits of each enemy -/

section Hits

/-- The hits among the calls of the first `n` enemies. -/
theorem countP_isOnHit_eq (few : ∀ i call, .enemy i call ∈ out → i < n) :
    out.countP isOnHit = ∑ i ∈ Finset.range n, out.count (.enemy i (.onHit 1)) := by
  induction out with
  | nil => simp
  | cons first rest ih =>
    have tail := ih fun i call member => few i call (List.mem_cons_of_mem _ member)
    simp only [List.countP_cons, List.count_cons, Finset.sum_add_distrib, tail, beq_iff_eq]
    congr 1
    by_cases hit : isOnHit first = true
    · obtain ⟨j, rfl⟩ : ∃ j, first = .enemy j (.onHit 1) := by
        unfold isOnHit at hit
        split at hit
        next j damage => exact ⟨j, by rw [of_decide_eq_true hit]⟩
        next => cases hit
      have inside : j < n := few j _ List.mem_cons_self
      simp [isOnHit, Finset.sum_ite_eq, inside]
    · rw [if_neg hit]
      refine (Finset.sum_eq_zero fun i _ => if_neg ?_).symm
      rintro rfl
      exact hit rfl

/-- Only an enemy that is there makes calls. -/
theorem lt_of_call (run : Run (step cfg) w ts v) (member : t ∈ ts) {i : ℕ} {call : EnemyCall}
    (made : .enemy i call ∈ t.out) : i < v.enemies.length := by
  have seen : call ∈ t.out.filterMap (WorldCall.ofEnemy i) :=
    List.mem_filterMap.mpr ⟨_, made, if_pos rfl⟩
  obtain ⟨before, after, rfl, _, taken, rest⟩ := run.mem member
  cases taken_part i taken with
  | nothing _ silent _ | born _ silent _ _ =>
    rw [silent] at seen
    cases seen
  | acts u _ _ _ now _ =>
    obtain ⟨inside, _⟩ := List.getElem?_eq_some_iff.mp now
    exact inside.trans_le (length_le rest)

/-- **The hits of a game** are those of its enemies. -/
theorem onHitCalls_eq (run : Run (step cfg) w ts v) :
    onHitCalls ts = ∑ i ∈ Finset.range v.enemies.length, emitted (.enemy i (.onHit 1)) ts := by
  unfold onHitCalls emitted
  rw [← total_sum]
  exact total_congr fun t member => countP_isOnHit_eq fun _ _ made => lt_of_call run member made

end Hits

/-! ### What they cost -/

section Cost

theorem attackTime_le_elapsed (ts : List EnemyFSM.Move) :
    EnemyFSM.attackTime ts ≤ EnemyFSM.elapsed ts := by
  refine List.sum_le_sum fun t _ => ?_
  unfold EnemyFSM.attackSeconds
  split
  · exact le_refl _
  · exact t.event.deltaSeconds_nonneg

theorem now_nonneg (run : Run (timedStep cfg) (start cfg placed randTime) us c) : 0 ≤ c.now := by
  have elapsed : 0 ≤ EnemyFSM.elapsed (enemyTrace 0 (game us)) :=
    List.sum_nonneg fun _ member => by
      obtain ⟨t, _, rfl⟩ := List.mem_map.mp member
      exact t.event.deltaSeconds_nonneg
  exact elapsed.trans (elapsed_le run 0)

/-- The hits of one enemy take their time. -/
theorem enemy_pace (run : Run (timedStep cfg) (start cfg placed randTime) us c) {delay : ℚ} {i : ℕ}
    (slow : delay ≤ (cfg.enemy i).attackDelayTime) :
    (emitted (.enemy i (.onHit 1)) (game us) : ℚ) * delay ≤ c.now := by
  by_cases some : 1 ≤ emitted (.enemy i (.onHit 1)) (game us)
  · calc (emitted (.enemy i (.onHit 1)) (game us) : ℚ) * delay
        ≤ emitted (.enemy i (.onHit 1)) (game us) * (cfg.enemy i).attackDelayTime :=
          mul_le_mul_of_nonneg_left slow (Nat.cast_nonneg _)
      _ ≤ EnemyFSM.attackTime (enemyTrace i (game us)) :=
          (enemy_hits_lt (untimed_run run) i some).le
      _ ≤ EnemyFSM.elapsed (enemyTrace i (game us)) := attackTime_le_elapsed _
      _ ≤ c.now := elapsed_le run i
  · rw [Nat.eq_zero_of_not_pos some, Nat.cast_zero, zero_mul]
    exact now_nonneg run

/-- The health that the player has lost by now. -/
theorem lost_le (run : Run (timedStep cfg) (start cfg placed randTime) us c) {delay : ℚ}
    (slow : ∀ i, delay ≤ (cfg.enemy i).attackDelayTime) :
    ((cfg.MaxHP - c.machine.player.HP : ℤ) : ℚ) * delay ≤ c.machine.enemies.length * c.now := by
  have lost : c.machine.player.HP + onHitCalls (game us) = cfg.MaxHP := health_run (untimed_run run)
  have hits : cfg.MaxHP - c.machine.player.HP = onHitCalls (game us) := by omega
  rw [hits, onHitCalls_eq (untimed_run run), Int.cast_natCast, Nat.cast_sum, Finset.sum_mul]
  calc _ ≤ ∑ _i ∈ Finset.range c.machine.enemies.length, c.now :=
        Finset.sum_le_sum fun i _ => enemy_pace run (slow i)
    _ = c.machine.enemies.length * c.now := by
        rw [Finset.sum_const, Finset.card_range, nsmul_eq_mul]

/-- Once the game is over the player has no health left, and gets none. -/
theorem dead_of_gameOver (run : Run (step cfg) w ts v)
    (ended : 1 ≤ emitted (.player .onMyGameOver) ts) : v.player.HP ≤ 0 := by
  obtain ⟨t, member, called⟩ := emitted_pos_iff.mp ended
  obtain ⟨before, after, rfl, _, taken, rest⟩ := run.mem member
  have later := health_run rest
  have struck : t.post.player.HP ≤ 0 := by
    cases (taken_change taken).health with
    | spared _ _ _ calm => exact absurd called (List.count_eq_zero.mp calm)
    | struck _ less _ calls =>
      by_contra alive
      rw [if_neg (by omega)] at calls
      exact absurd called (List.count_eq_zero.mp calls)
  omega

/-- **How long the player survives.** Where no enemy attacks with less delay, the enemies there are have
cost the player a point of health for each delay that has passed at most, each of them; and until they
can have cost all there were, the game is not over. -/
theorem survival (run : Run (timedStep cfg) (start cfg placed randTime) us c) {delay : ℚ}
    (nonneg : 0 ≤ delay) (slow : ∀ i, delay ≤ (cfg.enemy i).attackDelayTime) :
    ((cfg.MaxHP - c.machine.player.HP : ℤ) : ℚ) * delay ≤ c.machine.enemies.length * c.now ∧
      c.machine.enemies.length ≤ placed + 10 ∧
      (1 ≤ emitted (.player .onMyGameOver) (game us) →
        cfg.MaxHP * delay ≤ (placed + 10) * c.now) := by
  have played := untimed_run run
  have few : c.machine.enemies.length ≤ placed + 10 := by
    have length := enemies_length_le played
    have spawned := spawnActorCalls_le played
    omega
  refine ⟨lost_le run slow, few, fun ended => ?_⟩
  have dead := dead_of_gameOver played ended
  have all : cfg.MaxHP ≤ cfg.MaxHP - c.machine.player.HP := by omega
  calc (cfg.MaxHP : ℚ) * delay
      ≤ ((cfg.MaxHP - c.machine.player.HP : ℤ) : ℚ) * delay :=
        mul_le_mul_of_nonneg_right (by exact_mod_cast all) nonneg
    _ ≤ c.machine.enemies.length * c.now := lost_le run slow
    _ ≤ (placed + 10) * c.now :=
        mul_le_mul_of_nonneg_right (by exact_mod_cast few) (now_nonneg run)

/-- Two enemies that come to attack the player over frames of four seconds, one behind the other. -/
def siege : List (Timed Event ℚ) :=
  ((approach 0).zip (approach 1)).flatMap fun ticks =>
    [.frame 4, .event ticks.1, .event ticks.2]

/-- The two of them have cost the player both of its points, in sixteen seconds. -/
theorem survival_siege :
    (final (timedStep {}) (start {} 2 1) siege).machine.player.HP = 0 ∧
      (2 : ℚ) * 3 ≤ (2 + 10) * (final (timedStep {}) (start {} 2 1) siege).now :=
  ⟨by decide +kernel,
    (survival (run_trace (timedStep {}) (start {} 2 1) siege) (show (0 : ℚ) ≤ 3 by decide)
      fun _ => le_refl 3).2.2 (by decide +kernel)⟩

end Cost

end World

end MyTPSGame
