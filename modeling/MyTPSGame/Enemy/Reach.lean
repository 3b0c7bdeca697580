/-
**The reach of an attack.**

`TickAttack` hits first and then asks for the distance, to decide whether to stay in ATTACK. A strike
is therefore within reach if and only if its tick happens to find the player there
(`hits_in_reach_iff`).
-/

import MyTPSGame.Model.EnemyTrace
import MyTPSGame.Model.Health

namespace MyTPSGame

open Machine

namespace World

/-- The tick of enemy `i` that a transition is, if it is one. -/
def tickOf (i : ℕ) (t : Move) : Option Frame :=
  match t.event with
  | .enemy j (.tick frame) => if j = i then some frame else none
  | _ => none

/-- On a tick of enemy `i`, a hit comes from within the attack range, and a player outside it loses
no health. -/
def InReach (cfg : GameConfig) (i : ℕ) (t : Move) : Prop :=
  ∀ frame ∈ tickOf i t,
    (WorldCall.enemy i (.onHit 1) ∈ t.out → frame.distance ≤ (cfg.enemy i).attackRange) ∧
      ((cfg.enemy i).attackRange < frame.distance → t.post.player.HP = t.pre.player.HP)

/-- A tick of enemy `i` in ATTACK on which its delay runs out finds the player within the attack
range. -/
def StrikesNear (cfg : GameConfig) (i : ℕ) (t : Move) : Prop :=
  ∀ frame ∈ tickOf i t, ∀ fsm ∈ t.pre.enemies[i]?, fsm.state = .attack →
    (cfg.enemy i).attackDelayTime < fsm.currentTime + frame.deltaSeconds →
      frame.distance ≤ (cfg.enemy i).attackRange

instance (cfg : GameConfig) (i : ℕ) : DecidablePred (InReach cfg i) := fun t =>
  inferInstanceAs (Decidable (∀ frame ∈ tickOf i t,
    (WorldCall.enemy i (.onHit 1) ∈ t.out → frame.distance ≤ (cfg.enemy i).attackRange) ∧
      ((cfg.enemy i).attackRange < frame.distance → t.post.player.HP = t.pre.player.HP)))

variable {cfg : GameConfig} {i : ℕ} {t : Move}

theorem tickOf_iff {frame : Frame} : frame ∈ tickOf i t ↔ t.event = .enemy i (.tick frame) := by
  unfold tickOf
  constructor
  · intro member
    split at member
    next j tick event =>
      split at member
      next same =>
        obtain rfl : tick = frame := Option.some.inj member
        rw [event, same]
      next => cases member
    next => cases member
  · intro event
    rw [event]
    exact if_pos rfl

/-- On its tick an enemy hits if it strikes, and that is what the player loses. -/
theorem tick_hits {frame : Frame} (taken : t.Taken (step cfg))
    (ticks : frame ∈ tickOf i t) :
    ∃ fsm ∈ t.pre.enemies[i]?,
      (WorldCall.enemy i (.onHit 1) ∈ t.out ↔ fsm.Strikes (cfg.enemy i) (.tick frame)) ∧
        (t.post.player.HP = t.pre.player.HP ↔ ¬ fsm.Strikes (cfg.enemy i) (.tick frame)) := by
  have named : t.pre.enemyEvent t.event = some (i, .tick frame) := by
    rw [tickOf_iff.mp ticks]
    rfl
  obtain ⟨u, event, found, took, out⟩ := taken_share taken named
  have count := (EnemyFSM.taken_act took).count_onHit
  rw [event] at count
  obtain ⟨fsm, _, _, found', _, _, _, player⟩ := (taken_change taken).acted named
  obtain rfl := Option.some.inj (found'.symm.trans found)
  refine ⟨u.pre, found, ?_, ?_⟩
  · rw [← List.count_pos_iff, ← count_ofEnemy, out, count]
    by_cases strikes : u.pre.Strikes (cfg.enemy i) (.tick frame) <;> simp [strikes]
  · rw [player]
    by_cases strikes : u.pre.Strikes (cfg.enemy i) (.tick frame)
    · rw [if_pos strikes, Player.onHit_HP]
      exact ⟨fun same => absurd same (by omega), fun calm => absurd strikes calm⟩
    · rw [if_neg strikes]
      exact ⟨fun _ => strikes, fun _ => rfl⟩

theorem inReach_iff (taken : t.Taken (step cfg)) : InReach cfg i t ↔ StrikesNear cfg i t := by
  constructor
  · intro reach frame ticks fsm found attacks late
    obtain ⟨there, found', hits, _⟩ := tick_hits taken ticks
    obtain rfl : there = fsm := Option.some.inj (found'.symm.trans found)
    exact (reach frame ticks).1 (hits.mpr ⟨attacks, late⟩)
  · intro near frame ticks
    obtain ⟨fsm, found, hits, keeps⟩ := tick_hits taken ticks
    refine ⟨fun hit => ?_, fun far => keeps.mpr fun strikes => ?_⟩
    · obtain ⟨attacks, late⟩ := hits.mp hit
      exact near frame ticks fsm found attacks late
    · exact absurd (near frame ticks fsm found strikes.1 strikes.2) (not_le.mpr far)

/-- **An enemy hurts only a player in reach** if and only if its delay runs out only on ticks that
find the player there. -/
theorem hits_in_reach_iff {placed : ℕ} {randTime : ℚ} {w : World} {ts : List Move}
    (run : Run (step cfg) (beginPlay cfg placed randTime) ts w) (i : ℕ) :
    (∀ t ∈ ts, InReach cfg i t) ↔ ∀ t ∈ ts, StrikesNear cfg i t :=
  forall₂_congr fun _ member => inReach_iff (run.taken member)

/-- An enemy that strikes in reach. -/
theorem hits_in_reach_iff_approach :
    (∀ t ∈ trace (step {}) (beginPlay {} 1 1) (approach 0), InReach {} 0 t) ↔
      ∀ t ∈ trace (step {}) (beginPlay {} 1 1) (approach 0), StrikesNear {} 0 t :=
  hits_in_reach_iff (run_trace (step {}) (beginPlay {} 1 1) (approach 0)) 0

/-- The enemy is in ATTACK when the player runs off, and hits it from a thousand units away. -/
theorem hit_out_of_reach :
    Run (step {}) (beginPlay {} 1 1)
        (trace (step {}) (beginPlay {} 1 1)
          ((approach 0).take 3 ++ [.enemy 0 (.tick { deltaSeconds := 4, distance := 1000 })]))
        (final (step {}) (beginPlay {} 1 1)
          ((approach 0).take 3 ++ [.enemy 0 (.tick { deltaSeconds := 4, distance := 1000 })])) ∧
      ¬ ∀ t ∈ trace (step {}) (beginPlay {} 1 1)
          ((approach 0).take 3 ++ [.enemy 0 (.tick { deltaSeconds := 4, distance := 1000 })]),
        InReach {} 0 t :=
  ⟨run_trace _ _ _, by decide +kernel⟩

end World

end MyTPSGame
