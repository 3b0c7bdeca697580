/-
**The death of an enemy.**

`OnDamageProcess` asks for the health and not for the state, so damage to a dead enemy is another
death. `death_once_iff`: a death is processed once if and only if no damage reaches the enemy in DIE.
-/

import MyTPSGame.Enemy.Life
import MyTPSGame.Model.EnemyTrace

namespace MyTPSGame

open Machine

namespace EnemyFSM

variable {cfg : EnemyConfig} {fsm : EnemyFSM} {ts : List Move}

/-- The deaths that an enemy has before it. -/
def livesLeft (fsm : EnemyFSM) : ℕ :=
  if fsm.state = .die then 0 else 1

/-- A death takes the one life, and an enemy that is not hit in DIE does not get it back. -/
theorem Act.livesLeft {event : Event} {next : EnemyFSM} {calls : List EnemyCall}
    (act : Act cfg fsm event next calls)
    (spares : fsm.state = .die → ∀ damageAmount index, event ≠ .onDamageProcess damageAmount index) :
    next.livesLeft + calls.count (.addExp 1) = fsm.livesLeft := by
  unfold EnemyFSM.livesLeft
  rw [act.count_addExp]
  by_cases dead : fsm.state = .die
  · obtain ⟨stays, lives⟩ := act.die_stays dead (spares dead)
    rw [if_pos stays, if_neg lives, if_pos dead]
  · rw [if_neg dead]
    by_cases dies : fsm.Dies event
    · rw [if_pos ((act.die_iff dead).mpr dies), if_pos dies]
    · rw [if_neg fun now => dies ((act.die_iff dead).mp now), if_neg dies]

/-- An enemy that is not hit in DIE awards its experience once at most. -/
theorem awards_le_one (run : Run (step cfg) (beginPlay cfg) ts fsm)
    (spares : ∀ t ∈ ts, t.pre.state = .die →
      ∀ damageAmount index, t.event ≠ .onDamageProcess damageAmount index) :
    emitted (.addExp 1) ts ≤ 1 := by
  unfold emitted
  exact run.total_le EnemyFSM.livesLeft _ (Nat.zero_le _) fun t member taken =>
    ((taken_act taken).livesLeft (spares t member)).le

end EnemyFSM

namespace World

variable {cfg : GameConfig} {placed i : ℕ} {randTime : ℚ} {w : World} {ts : List Move}

/-- The damage that a transition does to enemy `i`, if it does any. -/
def damageTo (i : ℕ) (t : Move) : Option ℤ :=
  match t.pre.enemyEvent t.event with
  | some (j, .onDamageProcess damageAmount _) => if j = i then some damageAmount else none
  | _ => none

theorem damageTo_iff {t : Move} {damageAmount : ℤ} :
    damageAmount ∈ damageTo i t ↔
      ∃ index, t.pre.enemyEvent t.event = some (i, .onDamageProcess damageAmount index) := by
  unfold damageTo
  constructor
  · intro member
    split at member
    next j amount index named =>
      split at member
      next same =>
        obtain rfl : amount = damageAmount := Option.some.inj member
        exact ⟨index, same ▸ named⟩
      next => cases member
    next => cases member
  · rintro ⟨index, named⟩
    rw [named]
    exact if_pos rfl

/-- Damage to enemy `i` in DIE changes neither the counters of the game mode nor the way the dead
enemy is removed. -/
def LeavesCorpse (i : ℕ) (t : Move) : Prop :=
  ∀ damageAmount ∈ damageTo i t, ∀ fsm ∈ t.pre.enemies[i]?, fsm.state = .die →
    t.post.gameMode.exp = t.pre.gameMode.exp ∧ t.post.gameMode.level = t.pre.gameMode.level ∧
      ∃ next ∈ t.post.enemies[i]?, next.currentTime = fsm.currentTime ∧
        next.anim.bEnemyDieEnd = fsm.anim.bEnemyDieEnd

/-- The death of enemy `i` is processed once. -/
def DeathOnce (i : ℕ) (ts : List Move) : Prop :=
  emitted (.enemy i (.addExp 1)) ts ≤ 1 ∧ ∀ t ∈ ts, LeavesCorpse i t

/-- No damage reaches enemy `i` in DIE. -/
def SparesCorpse (i : ℕ) (ts : List Move) : Prop :=
  ∀ t ∈ ts, ∀ damageAmount ∈ damageTo i t, ∀ fsm ∈ t.pre.enemies[i]?, fsm.state ≠ .die

/-- Damage in DIE is another award. -/
theorem not_leavesCorpse {t : Move} {damageAmount : ℤ} {fsm : EnemyFSM} (taken : t.Taken (step cfg))
    (hit : damageAmount ∈ damageTo i t) (damage : 0 ≤ damageAmount)
    (found : fsm ∈ t.pre.enemies[i]?) (dead : fsm.state = .die) (spent : fsm.Spent) :
    ¬ LeavesCorpse i t := by
  intro leaves
  obtain ⟨exp, level, _⟩ := leaves damageAmount hit fsm found dead
  obtain ⟨index, named⟩ := damageTo_iff.mp hit
  obtain ⟨there, _, _, same, _, _, mode, _⟩ := (taken_change taken).acted named
  obtain rfl := Option.some.inj (same.symm.trans found)
  have dies : there.Dies (.onDamageProcess damageAmount index) :=
    (Int.sub_le_self _ damage).trans (spent dead)
  rw [mode, if_pos dies] at exp level
  exact t.pre.gameMode.addExp_one_moves ⟨exp, level⟩

/-- **A death is processed once if and only if no damage reaches the dead.** -/
theorem death_once_iff (run : Run (step cfg) (beginPlay cfg placed randTime) ts w) (i : ℕ)
    (damages : ∀ t ∈ ts, ∀ damageAmount ∈ damageTo i t, 0 ≤ damageAmount) :
    DeathOnce i ts ↔ SparesCorpse i ts := by
  have amounts {past : List Move} (inside : ∀ t ∈ past, t ∈ ts) :
      ∀ u ∈ enemyTrace i past, 0 ≤ u.event.damage := by
    intro u member
    obtain ⟨t, earlier, named, _⟩ := mem_enemyTrace member
    cases event : u.event with
    | onDamageProcess damageAmount index =>
      rw [event] at named
      exact damages t (inside t earlier) damageAmount (damageTo_iff.mpr ⟨index, named⟩)
    | _ => exact le_refl _
  constructor
  · rintro ⟨_, leaves⟩ t member damageAmount hit fsm found dead
    have kept := leaves t member
    obtain ⟨before, after, rfl, reach, taken, _⟩ := run.mem member
    have spent : fsm.Spent := EnemyFSM.spent_run (enemy_run reach found)
      (amounts fun t earlier => List.mem_append_left _ earlier)
    exact not_leavesCorpse taken hit (damages t member damageAmount hit) found dead spent kept
  · intro spares
    refine ⟨?_, fun t member damageAmount hit fsm found dead =>
      absurd dead (spares t member damageAmount hit fsm found)⟩
    rw [← emitted_enemyTrace i _ run]
    cases found : w.enemies[i]? with
    | none =>
      rw [(enemy_component i run).1 found]
      exact Nat.zero_le 1
    | some fsm =>
      refine EnemyFSM.awards_le_one (enemy_run run found) fun u member dead => ?_
      rintro damageAmount index event
      obtain ⟨t, inside, named, here⟩ := mem_enemyTrace member
      rw [event] at named
      exact spares t inside damageAmount (damageTo_iff.mpr ⟨index, named⟩) u.pre here dead

/-- An enemy that is hurt and then killed. -/
theorem death_once_iff_killed :
    DeathOnce 0 (trace (step {}) (beginPlay {} 1 1)
        [.enemy 0 (.onDamageProcess 9 0), .enemy 0 (.onDamageProcess 1 0)]) ↔
      SparesCorpse 0 (trace (step {}) (beginPlay {} 1 1)
        [.enemy 0 (.onDamageProcess 9 0), .enemy 0 (.onDamageProcess 1 0)]) :=
  death_once_iff (run_trace (step {}) (beginPlay {} 1 1) _) 0 (by decide +kernel)

/-- An enemy killed and then hit once more awards its experience twice. -/
theorem corpse_pays_again :
    Run (step {}) (beginPlay {} 1 1)
        (trace (step {}) (beginPlay {} 1 1)
          [.enemy 0 (.onDamageProcess 10 0), .enemy 0 (.onDamageProcess 1 0)])
        (final (step {}) (beginPlay {} 1 1)
          [.enemy 0 (.onDamageProcess 10 0), .enemy 0 (.onDamageProcess 1 0)]) ∧
      ¬ DeathOnce 0 (trace (step {}) (beginPlay {} 1 1)
        [.enemy 0 (.onDamageProcess 10 0), .enemy 0 (.onDamageProcess 1 0)]) :=
  ⟨run_trace _ _ _, fun once => absurd once.1 (by decide +kernel)⟩

end World

end MyTPSGame
