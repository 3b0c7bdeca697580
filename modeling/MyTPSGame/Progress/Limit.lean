/-
**How far a game can go.**

From level five on no drawn rate lets `MakeEnemy` make an enemy, and below it a level has as many
attempts as its number: ten in all. So a game has ten enemies besides those placed in the level, however
long it is played, and where each of them pays once the level is bounded.

* `attemptsLeft`: the attempts that can still make an enemy; each call of `SpawnActor` takes one;
* `spawn_limit`: ten calls of `SpawnActor` at most;
* `level_limit`: the dead have paid for the levels, and there are no more dead than enemies.
-/

import MyTPSGame.Progress.Counters

namespace MyTPSGame

open Machine Staircase

namespace GameMode

/-- The attempts that can still make an enemy: those left of this level and of the levels up to the
fourth. -/
def attemptsLeft (gm : GameMode) : ℤ :=
  if gm.level < 5 then triangle 5 - triangle gm.level - gm.spawnManager.makeCount else 0

variable {gm next : GameMode} {spawned awarded : ℕ}

theorem InStep.attemptsLeft_nonneg (inStep : InStep gm) : 0 ≤ gm.attemptsLeft := by
  have level := inStep.level_pos
  have made := inStep.makeCount_le
  unfold attemptsLeft
  by_cases low : gm.level < 5
  · have rises := triangle_monotone (gm.level + 1) 5 (by omega) (by omega)
    rw [triangle_succ] at rises
    rw [if_pos low]
    omega
  · rw [if_neg low]

/-- An enemy that is made takes one of the attempts left, and a level up gives away those of its level
that have not been made. -/
theorem Counts.attemptsLeft (counts : Counts gm next spawned awarded) (inStep : InStep gm) :
    next.attemptsLeft + spawned ≤ gm.attemptsLeft := by
  have nonneg := inStep.attemptsLeft_nonneg
  cases counts with
  | keeps level _ made none _ | awards level _ made none _ =>
    unfold GameMode.attemptsLeft
    rw [level, made, none]
    simp
  | attempts level _ room made one low _ =>
    unfold GameMode.attemptsLeft at nonneg ⊢
    rw [level, made]
    by_cases below : gm.level < 5
    · rw [if_pos below, if_pos below]
      omega
    · have none : spawned = 0 := by
        by_contra some
        exact below (low some)
      rw [if_neg below, if_neg below, none]
      simp
  | levels _ level _ made none _ =>
    have used := inStep.makeCount_le
    unfold GameMode.attemptsLeft at nonneg ⊢
    rw [level, made, none, triangle_succ]
    by_cases below : gm.level < 5
    · rw [if_pos below] at nonneg ⊢
      split
      · push_cast
        omega
      · push_cast
        omega
    · rw [if_neg below, if_neg (by omega)]
      simp

end GameMode

namespace World

variable {cfg : GameConfig} {placed : ℕ} {randTime : ℚ} {w next : World} {event : Event}
  {out : List WorldCall} {ts : List Move}

/-! ### Calls of `SpawnActor` -/

theorem spawnActorCalls_le (run : Run (step cfg) (beginPlay cfg placed randTime) ts w) :
    spawnActorCalls ts ≤ 10 := by
  have paid := run.total_le (fun w => w.gameMode.attemptsLeft)
    (fun t => (t.out.countP isSpawnActor : ℤ))
    (inStep_run run w run.last_visited).attemptsLeft_nonneg
    fun t member _ => (counts_run run member).attemptsLeft (inStep_run run _ (run.pre_visited member))
  have ten : (beginPlay cfg placed randTime).gameMode.attemptsLeft = 10 := rfl
  rw [ten, ← total_natCast ℤ] at paid
  exact_mod_cast paid

/-- No enemy leaves a game. -/
theorem length_le {v : World} (run : Run (step cfg) w ts v) : w.enemies.length ≤ v.enemies.length :=
  run.invariant (I := fun a => w.enemies.length ≤ a.enemies.length) (le_refl _)
    fun _ _ taken before => before.trans (taken_change taken).enemies.1

theorem enemies_length_le (run : Run (step cfg) (beginPlay cfg placed randTime) ts w) :
    w.enemies.length ≤ placed + spawnActorCalls ts := by
  have grown := run.potential_le_add (fun w => w.enemies.length) (fun t => t.out.countP isSpawnActor)
    fun t _ taken => (taken_change taken).enemies.2
  have begun : (beginPlay cfg placed randTime).enemies.length = placed := by
    simp [beginPlay]
  rwa [begun] at grown

/-- Ten enemies, each killed before the next is made. -/
def tenKills : List Event :=
  (List.range 10).flatMap fun i => [.makeEnemy ⟨0, 0, 1, true⟩, .enemy i (.onDamageProcess 10 0)]

/-- Where only living enemies are hit, a death is that of an enemy that was alive, and any other act
leaves an enemy as dead as it was. -/
theorem act_census {i : ℕ} {act : EnemyFSM.Event} {fsm there : EnemyFSM} {calls : List EnemyCall}
    (live : w.hitsDead event = false) (named : w.enemyEvent event = some (i, act))
    (found : w.enemies[i]? = some fsm)
    (acts : EnemyFSM.Act (cfg.enemy i) fsm act there calls) :
    (fsm.Dies act → fsm.state ≠ .die ∧ there.state = .die) ∧
      (¬ fsm.Dies act → (there.state = .die ↔ fsm.state = .die)) := by
  have unhurt (dead : fsm.state = .die) (damageAmount : ℤ) (index : Fin 2) :
      act ≠ .onDamageProcess damageAmount index := by
    rintro rfl
    exact alive_of_hit live named found dead
  constructor
  · intro dies
    have alive : fsm.state ≠ .die := fun dead => (acts.die_stays dead (unhurt dead)).2 dies
    exact ⟨alive, (acts.die_iff alive).mpr dies⟩
  · intro survives
    by_cases dead : fsm.state = .die
    · exact ⟨fun _ => dead, fun _ => (acts.die_stays dead (unhurt dead)).1⟩
    · exact ⟨fun died => absurd ((acts.die_iff dead).mp died) survives,
        fun died => absurd died dead⟩

/-- Where only living enemies are hit, each award is one more that is dead. -/
theorem Change.dead (change : Change cfg w event next out) (live : w.hitsDead event = false) :
    next.dead = w.dead + out.countP isAddExp := by
  cases change with
  | spawns draw spawnManager calls _ _ =>
    rw [countP_map_other (fun _ => rfl)]
    show (w.enemies ++ w.spawned cfg _).countP _ = _
    rw [List.countP_append, (census_spawned cfg _).2]
    rfl
  | levels gm calls _ =>
    rw [countP_map_other (fun _ => rfl)]
    rfl
  | acts event i act fsm there calls fire before after named found moved =>
    have acts := EnemyFSM.step_act moved
    obtain ⟨killed, spared⟩ := act_census live named found acts
    rw [countP_around (fun _ => rfl), countP_isAddExp acts]
    by_cases dies : fsm.Dies act
    · rw [if_pos dies]
      exact (census_dies found (killed dies).1 (killed dies).2).2
    · rw [if_neg dies]
      exact (census_same found (spared dies)).2
  | handles event index fire calls _ _ =>
    rw [countP_map_other (fun _ => rfl)]
    rfl

theorem dead_awards (run : Run (step cfg) (beginPlay cfg placed randTime) ts w)
    (live : HitsLive ts) : w.dead = awards ts := by
  have moved := run.potential_eq World.dead (fun t => t.out.countP isAddExp)
    fun t member taken => (taken_change taken).dead (live t member)
  have nobody : (beginPlay cfg placed randTime).dead = 0 := by
    refine List.countP_eq_zero.mpr ?_
    simp [beginPlay, EnemyFSM.beginPlay]
  rw [moved, nobody, zero_add]
  rfl

/-- **Levels are paid for by the dead**, and there are ten of these besides the enemies placed: a game
in which only living enemies are hit ends on the level that they pay for. -/
theorem level_limit (run : Run (step cfg) (beginPlay cfg placed randTime) ts w)
    (live : HitsLive ts) :
    w.gameMode.level * (w.gameMode.level - 1) / 2 + w.gameMode.exp = w.dead ∧
      w.dead ≤ placed + 10 ∧ (placed = 0 → w.gameMode.level ≤ 5) := by
  have inStep := inStep_run run w run.last_visited
  have balance := balance_awards run
  rw [← dead_awards run live, GameMode.balance, triangle, add_comm] at balance
  have few : w.dead ≤ placed + 10 := by
    have all := w.dead_add_alive
    have length := enemies_length_le run
    have spawned := spawnActorCalls_le run
    omega
  refine ⟨balance, few, ?_⟩
  rintro rfl
  by_contra beyond
  have rises := triangle_monotone 6 w.gameMode.level (by omega) (by omega)
  have six : triangle 6 = 15 := rfl
  have nonneg := inStep.exp_nonneg
  unfold triangle at rises six
  omega

/-- The fifth level can be reached. -/
theorem level_limit_ten :
    (final (step {}) (beginPlay {} 0 1) tenKills).gameMode.level = 5 ∧
      (final (step {}) (beginPlay {} 0 1) tenKills).gameMode.level ≤ 5 :=
  ⟨by decide +kernel,
    (level_limit (run_trace (step {}) (beginPlay {} 0 1) tenKills) (by decide +kernel)).2.2 rfl⟩

end World

end MyTPSGame
