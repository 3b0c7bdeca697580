/-
**The counters of any game.**

Nothing is assumed here about a game: enemies may be placed in the level, and corpses may be shot. All
that game mode and spawn manager see of it are awards of one and firings of `MakeEnemy`, and that is
enough to keep their counters in step (`InStep`).

* `Counts`: what an event of the game can be to the counters;
* `counters_run`: they are in step after every run, no `LevelUpProcess` timer is ever armed, and the
  experience of all levels is what was awarded.
-/

import MyTPSGame.Progress.Experience
import MyTPSGame.Progress.Level

namespace MyTPSGame

open Machine Staircase

namespace GameMode

/-- The counters of game mode and spawn manager as every game keeps them. -/
structure InStep (gm : GameMode) : Prop where
  level_pos : 1 ≤ gm.level
  needExp : gm.needExp = gm.level
  makeTargetCount : gm.spawnManager.makeTargetCount = gm.level
  makeCount_nonneg : 0 ≤ gm.spawnManager.makeCount
  makeCount_le : gm.spawnManager.makeCount ≤ gm.level
  exp_nonneg : 0 ≤ gm.exp
  exp_lt : gm.exp < gm.level
  levelUpTimers : gm.levelUpTimers = 0

variable {gm next : GameMode}

/-- An award of one adds to the experience, or it is the last of its level and starts the next. -/
theorem InStep.addExp_cases (inStep : InStep gm) :
    (gm.exp + 1 < gm.level ∧ (gm.addExp 1).1 = { gm with exp := gm.exp + 1 }) ∨
      (gm.exp + 1 = gm.level ∧ (gm.addExp 1).1 = levelUp { gm with exp := 0 }) := by
  have need := inStep.needExp
  have level := inStep.level_pos
  have below := inStep.exp_lt
  by_cases last : gm.exp + 1 = gm.needExp
  · exact Or.inr ⟨last.trans need, addExp_last gm last (by omega)⟩
  · refine Or.inl ⟨by omega, ?_⟩
    rw [addExp_short gm (by omega)]

theorem InStep.addExp (inStep : InStep gm) : InStep (gm.addExp 1).1 := by
  have level := inStep.level_pos
  rcases inStep.addExp_cases with ⟨more, same⟩ | ⟨_, same⟩
  · rw [same]
    exact { inStep with
      exp_nonneg := add_nonneg inStep.exp_nonneg zero_le_one
      exp_lt := more }
  · rw [same]
    exact {
      level_pos := show 1 ≤ gm.level + 1 by omega
      needExp := rfl
      makeTargetCount := rfl
      makeCount_nonneg := le_refl 0
      makeCount_le := show 0 ≤ gm.level + 1 by omega
      exp_nonneg := le_refl 0
      exp_lt := show 0 < gm.level + 1 by omega
      levelUpTimers := inStep.levelUpTimers }

/-- What an event can be to the counters: nothing, an attempt to make an enemy, an award, or the award
that ends the level. -/
inductive Counts (gm next : GameMode) (spawned awarded : ℕ) : Prop
  | keeps : next.level = gm.level → next.exp = gm.exp →
      next.spawnManager.makeCount = gm.spawnManager.makeCount → spawned = 0 → awarded = 0 →
      Counts gm next spawned awarded
  | attempts : next.level = gm.level → next.exp = gm.exp →
      gm.spawnManager.makeCount < gm.level →
      next.spawnManager.makeCount = gm.spawnManager.makeCount + 1 → spawned ≤ 1 →
      (spawned ≠ 0 → gm.level < 5) → awarded = 0 → Counts gm next spawned awarded
  | awards : next.level = gm.level → next.exp = gm.exp + 1 →
      next.spawnManager.makeCount = gm.spawnManager.makeCount → spawned = 0 → awarded = 1 →
      Counts gm next spawned awarded
  | levels : gm.exp + 1 = gm.level → next.level = gm.level + 1 → next.exp = 0 →
      next.spawnManager.makeCount = 0 → spawned = 0 → awarded = 1 → Counts gm next spawned awarded

theorem InStep.counts_addExp (inStep : InStep gm) : Counts gm (gm.addExp 1).1 0 1 := by
  rcases inStep.addExp_cases with ⟨_, same⟩ | ⟨last, same⟩
  · rw [same]
    exact .awards rfl rfl rfl rfl rfl
  · rw [same]
    exact .levels last rfl rfl rfl rfl rfl

/-- The experience of all levels is what is awarded. -/
theorem Counts.balance {spawned awarded : ℕ} (counts : Counts gm next spawned awarded) :
    next.balance = gm.balance + awarded := by
  unfold GameMode.balance
  cases counts with
  | keeps level exp _ _ none | attempts level exp _ _ _ _ none => rw [level, exp, none]; simp
  | awards level exp _ _ one =>
    rw [level, exp, one]
    push_cast
    ring
  | levels last level exp _ _ one =>
    rw [level, exp, one, triangle_succ]
    push_cast
    omega

end GameMode

namespace World

/-- The calls of `AddExp(1)`. -/
def isAddExp : WorldCall → Bool
  | .enemy _ (.addExp amount) => amount = 1
  | _ => false

/-- How often a run calls `AddExp(1)`. -/
def awards (ts : List Move) : ℕ :=
  total (fun t => t.out.countP isAddExp) ts

variable {cfg : GameConfig} {w next : World} {event : Event} {out : List WorldCall}
  {ts : List Move}

/-! ### One event -/

section Step

/-- An enemy that dies is seen to award its experience, once. -/
theorem countP_isAddExp {cfg : EnemyConfig} {fsm there : EnemyFSM} {act : EnemyFSM.Event}
    {calls : List EnemyCall} (acts : EnemyFSM.Act cfg fsm act there calls) (i : ℕ) (w : World) :
    (w.hearAll i calls).2.countP isAddExp = if fsm.Dies act then 1 else 0 := by
  have heard : (w.heardCalls cfg fsm act).countP isAddExp = 0 := by
    refine List.countP_eq_zero.mpr ?_
    intro call member counted
    unfold heardCalls at member
    rcases List.mem_append.mp member with player | mode
    · split at player
      · obtain ⟨_, _, rfl⟩ := List.mem_map.mp player
        cases counted
      · cases player
    · split at mode
      · obtain ⟨_, _, rfl⟩ := List.mem_map.mp mode
        cases counted
      · cases mode
  have own : (calls.map (WorldCall.enemy i)).countP isAddExp = calls.count (.addExp 1) := by
    rw [List.countP_map, List.count]
    apply List.countP_congr
    intro call _
    cases call <;> simp [isAddExp]
  rw [hearAll_calls i w acts, List.countP_append, heard, own, add_zero, acts.count_addExp]

theorem drawn_nonneg {draw : MakeEnemyDraw} {cfg : SpawnConfig} (possible : draw.Possible cfg) :
    0 ≤ draw.rate :=
  possible.rate.1

/-- An event of the game as the counters see it. -/
theorem Change.counts (change : Change cfg w event next out) (inStep : w.gameMode.InStep) :
    next.gameMode.InStep ∧
      w.gameMode.Counts next.gameMode (out.countP isSpawnActor) (out.countP isAddExp) := by
  cases change with
  | spawns draw spawnManager calls possible made =>
    have awarded : (calls.map WorldCall.spawn).countP isAddExp = 0 := countP_map_other (fun _ => rfl) _
    rw [awarded, countP_spawn]
    cases made with
    | full _ => exact ⟨{ inStep with }, .keeps rfl rfl rfl rfl rfl⟩
    | attempt room _ _ =>
      have below : w.gameMode.spawnManager.makeCount < w.gameMode.level :=
        room.trans_eq inStep.makeTargetCount
      have nonneg := inStep.makeCount_nonneg
      refine ⟨{ inStep with
        makeCount_nonneg := show 0 ≤ w.gameMode.spawnManager.makeCount + 1 by omega
        makeCount_le := show w.gameMode.spawnManager.makeCount + 1 ≤ w.gameMode.level by omega }, ?_⟩
      rw [SpawnManager.countP_attemptCalls]
      refine .attempts rfl rfl below rfl ?_ ?_ rfl
      · split <;> simp
      · intro some
        by_contra high
        refine some ?_
        rw [if_neg fun makes => high ((rate_lt_iff (drawn_nonneg possible)).mp makes).1]
  | levels gm calls fired =>
    rw [GameMode.fireLevelUpTimer, inStep.levelUpTimers, if_neg (lt_irrefl 0)] at fired
    cases fired
  | acts event i act fsm there calls fire before after named found moved =>
    have acts := EnemyFSM.step_act moved
    rw [countP_act, countP_around (fun _ => rfl), countP_isAddExp acts]
    unfold heard
    by_cases dies : fsm.Dies act
    · simp only [dies, if_true]
      exact ⟨inStep.addExp, inStep.counts_addExp⟩
    · simp only [dies, if_false]
      exact ⟨inStep, .keeps rfl rfl rfl rfl rfl⟩
  | handles event index fire calls _ _ =>
    rw [countP_map_other (fun _ => rfl), countP_map_other (fun _ => rfl)]
    exact ⟨inStep, .keeps rfl rfl rfl rfl rfl⟩

end Step

/-! ### Whole runs -/

section Runs

variable {placed : ℕ} {randTime : ℚ}

theorem inStep_beginPlay (cfg : GameConfig) (placed : ℕ) (randTime : ℚ) :
    (beginPlay cfg placed randTime).gameMode.InStep where
  level_pos := show (1 : ℤ) ≤ 1 from le_refl 1
  needExp := rfl
  makeTargetCount := rfl
  makeCount_nonneg := le_refl 0
  makeCount_le := show (0 : ℤ) ≤ 1 by decide
  exp_nonneg := le_refl 0
  exp_lt := show (0 : ℤ) < 1 by decide
  levelUpTimers := rfl

theorem inStep_run (run : Run (step cfg) (beginPlay cfg placed randTime) ts w) :
    ∀ a ∈ visited (beginPlay cfg placed randTime) ts, a.gameMode.InStep :=
  run.invariant_visited (inStep_beginPlay cfg placed randTime)
    fun _ _ taken inStep => ((taken_change taken).counts inStep).1

/-- What the events of a game are to the counters. -/
theorem counts_run (run : Run (step cfg) (beginPlay cfg placed randTime) ts w) {t : Move}
    (member : t ∈ ts) :
    t.pre.gameMode.Counts t.post.gameMode (t.out.countP isSpawnActor) (t.out.countP isAddExp) :=
  ((taken_change (run.taken member)).counts (inStep_run run _ (run.pre_visited member))).2

/-- The experience of all levels is what was awarded. -/
theorem balance_awards (run : Run (step cfg) (beginPlay cfg placed randTime) ts w) :
    w.gameMode.balance = awards ts := by
  have moved := run.potential_eq (fun w => w.gameMode.balance)
    (fun t => (t.out.countP isAddExp : ℤ)) fun t member _ => (counts_run run member).balance
  rw [moved, awards, total_natCast ℤ]
  exact zero_add _

/-- **The counters of any game are in step**, whoever is placed in the level and whatever is hit: no
timer of a level up is ever armed, and the experience of all levels is what was awarded. -/
theorem counters_run (run : Run (step cfg) (beginPlay cfg placed randTime) ts w) :
    w.gameMode.spawnManager.makeTargetCount = w.gameMode.level ∧
      w.gameMode.needExp = w.gameMode.level ∧ 1 ≤ w.gameMode.level ∧
      (0 ≤ w.gameMode.spawnManager.makeCount ∧
        w.gameMode.spawnManager.makeCount ≤ w.gameMode.level) ∧
      (0 ≤ w.gameMode.exp ∧ w.gameMode.exp < w.gameMode.needExp) ∧
      w.gameMode.levelUpTimers = 0 ∧ emitted (.gameMode .setLevelUpTimer) ts = 0 ∧
      w.gameMode.level * (w.gameMode.level - 1) / 2 + w.gameMode.exp = awards ts := by
  have inStep := inStep_run run w run.last_visited
  have balance := balance_awards run
  have unarmed : emitted (.gameMode .setLevelUpTimer) ts = 0 := by
    apply total_eq_zero
    intro t member
    have timers := (taken_change (run.taken member)).timers
      (inStep_run run _ (run.pre_visited member)).levelUpTimers
    have later := (inStep_run run _ (post_visited member)).levelUpTimers
    omega
  refine ⟨inStep.makeTargetCount, inStep.needExp, inStep.level_pos,
    ⟨inStep.makeCount_nonneg, inStep.makeCount_le⟩,
    ⟨inStep.exp_nonneg, inStep.exp_lt.trans_eq inStep.needExp.symm⟩, inStep.levelUpTimers, unarmed, ?_⟩
  rw [← balance, GameMode.balance, triangle, add_comm]

/-- An enemy that is placed, killed and shot at once more pays twice, and the counters agree. -/
theorem counters_run_corpse :
    (final (step {}) (beginPlay {} 1 1)
        [.enemy 0 (.onDamageProcess 10 0), .enemy 0 (.onDamageProcess 1 0)]).gameMode.level *
          ((final (step {}) (beginPlay {} 1 1)
            [.enemy 0 (.onDamageProcess 10 0), .enemy 0 (.onDamageProcess 1 0)]).gameMode.level - 1) /
          2 +
        (final (step {}) (beginPlay {} 1 1)
          [.enemy 0 (.onDamageProcess 10 0), .enemy 0 (.onDamageProcess 1 0)]).gameMode.exp =
      awards (trace (step {}) (beginPlay {} 1 1)
        [.enemy 0 (.onDamageProcess 10 0), .enemy 0 (.onDamageProcess 1 0)]) :=
  (counters_run (run_trace (step {}) (beginPlay {} 1 1) _)).2.2.2.2.2.2.2

end Runs

end World

end MyTPSGame
