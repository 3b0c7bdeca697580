/-
**Game mode and spawn manager over closed runs.**

What the waves say of the four counters of the two classes, read back through the simulation:

* `wave_synchronised`: the counters stay in step, and `LevelUp` throws no attempt away;
* `enough_iff_attempts_make`: the enemies alive and to come are enough for the next level, in every
  state of a run, if and only if every attempt of the run makes an enemy.
-/

import MyTPSGame.Progress.Closed

namespace MyTPSGame

open Machine Staircase

namespace World

variable {cfg : GameConfig} {randTime : ℚ} {w next : World} {wave : Wave} {event : Event}
  {out : List WorldCall} {ts : List Move}

/-! ### Calls of `SpawnActor` and of `SetTimer` -/

section Calls

/-- The calls of `SpawnActor` that a game makes. -/
def isSpawnActor : WorldCall → Bool
  | .spawn (.spawnActor _) => true
  | _ => false

/-- How often a run calls `SpawnActor`. -/
def spawnActorCalls (ts : List Move) : ℕ :=
  total (fun t => t.out.countP isSpawnActor) ts

theorem countP_spawn (calls : List SpawnCall) :
    (calls.map WorldCall.spawn).countP isSpawnActor = calls.countP SpawnCall.isSpawnActor := by
  rw [List.countP_map]
  refine List.countP_congr fun call _ => ?_
  cases call <;> rfl

/-- No act calls `SpawnActor`. -/
theorem countP_act (i : ℕ) (w : World) (before after : List FireCall) (calls : List EnemyCall) :
    (before.map WorldCall.fire ++ (w.hearAll i calls).2 ++
      after.map WorldCall.fire).countP isSpawnActor = 0 := by
  refine List.countP_eq_zero.mpr fun call member spawns => ?_
  cases call with
  | spawn call => exact spawn_notMem_act i w before after call member
  | _ => cases spawns

/-- Every enemy that an event adds is a call of `SpawnActor`, though not every call adds one. -/
theorem Change.enemies (change : Change cfg w event next out) :
    w.enemies.length ≤ next.enemies.length ∧
      next.enemies.length ≤ w.enemies.length + out.countP isSpawnActor := by
  cases change with
  | spawns draw spawnManager calls _ _ =>
    rw [countP_spawn]
    show w.enemies.length ≤ (w.enemies ++ w.spawned cfg _).length ∧
      (w.enemies ++ w.spawned cfg _).length ≤ _
    rw [List.length_append, length_spawned]
    exact ⟨Nat.le_add_right _ _, Nat.add_le_add_left (draw.actors_le calls) _⟩
  | levels gm calls _ => exact ⟨le_refl _, Nat.le_add_right _ _⟩
  | acts event i act fsm there calls fire before after _ _ _ =>
    have same : (heard (cfg.enemy i) fsm act
        { w with fire := fire, enemies := w.enemies.set i there }).enemies.length =
          w.enemies.length := List.length_set
    rw [same]
    exact ⟨le_refl _, Nat.le_add_right _ _⟩
  | handles event index fire calls _ _ => exact ⟨le_refl _, Nat.le_add_right _ _⟩

/-- Only an attempt calls `SpawnActor`, and once at most. -/
theorem Change.spawnActor_cases (change : Change cfg w event next out) :
    out.countP isSpawnActor = 0 ∨
      out.countP isSpawnActor ≤ 1 ∧ ∃ draw, event = .makeEnemy draw ∧
        w.gameMode.spawnManager.makeCount < w.gameMode.spawnManager.makeTargetCount := by
  cases change with
  | spawns draw spawnManager calls _ made =>
    rw [countP_spawn]
    cases made with
    | full _ => exact Or.inl rfl
    | attempt room _ _ =>
      rw [SpawnManager.countP_attemptCalls]
      refine Or.inr ⟨?_, draw, rfl, room⟩
      split <;> simp
  | levels gm calls _ => exact Or.inl (countP_map_other (fun _ => rfl) calls)
  | acts event i act fsm there calls fire before after _ _ _ =>
    exact Or.inl (countP_act i _ before after calls)
  | handles event index fire calls _ _ => exact Or.inl (countP_map_other (fun _ => rfl) calls)

/-- A call of `SpawnActor` is an attempt of the wave. -/
theorem Change.spawnActor_le (change : Change cfg w event next out) :
    out.countP isSpawnActor ≤
      ((waveEvents ⟨w, event, next, out⟩).map Wave.Event.attempts).sum := by
  rcases change.spawnActor_cases with none | ⟨one, draw, rfl, room⟩
  · rw [none]
    exact Nat.zero_le _
  · simp only [waveEvents, if_pos room]
    exact one

/-- The calls of `SpawnActor` are no more than the attempts. -/
theorem spawnActorCalls_le_attempts {start : World} (run : Run (step cfg) start ts w) :
    spawnActorCalls ts ≤ ((ts.flatMap waveEvents).map Wave.Event.attempts).sum := by
  rw [List.map_flatMap, List.flatMap_def, List.sum_flatten, List.map_map]
  exact List.sum_le_sum fun t member => (taken_change (run.taken member)).spawnActor_le

/-- Without a timer that could fire, each call of `SetTimer` leaves one. -/
theorem Change.timers (change : Change cfg w event next out)
    (idle : w.gameMode.levelUpTimers = 0) :
    next.gameMode.levelUpTimers =
      w.gameMode.levelUpTimers + out.count (.gameMode .setLevelUpTimer) := by
  cases change with
  | spawns draw spawnManager calls _ _ =>
    rw [count_map_other (by simp)]
    rfl
  | levels gm calls fired =>
    rw [GameMode.fireLevelUpTimer, idle, if_neg (lt_irrefl 0)] at fired
    cases fired
  | acts event i act fsm there calls fire before after _ _ moved =>
    rw [count_around (by simp), count_hearAll_gameMode i _ (EnemyFSM.step_act moved)]
    unfold heard
    by_cases dies : fsm.Dies act
    · rw [if_pos dies, if_pos dies]
      exact GameMode.addExp_timers _ 1
    · rw [if_neg dies, if_neg dies]
      rfl
  | handles event index fire calls _ _ =>
    rw [count_map_other (by simp)]
    rfl

end Calls

/-! ### The counters in step -/

section Step

/-- An event of the game is at most one of the wave. -/
theorem waveEvents_length (t : Move) : (waveEvents t).length ≤ 1 := by
  unfold waveEvents
  split <;> split <;> simp

/-- `LevelUp` comes when the attempts of the wave are used up and its last enemy is dead. -/
theorem levelUp_complete (change : Change cfg w event next out) (refines : Refines w wave)
    (live : w.hitsDead event = false) (rises : next.gameMode.level ≠ w.gameMode.level) :
    w.gameMode.spawnManager.makeCount = w.gameMode.spawnManager.makeTargetCount ∧
      next.alive = 0 := by
  obtain ⟨us, after, run, events, there⟩ := refines_change change refines live
  have short : us.length ≤ 1 := by
    rw [← List.length_map Transition.event, events]
    exact waveEvents_length _
  have before := refines.level
  have now := there.level
  match us with
  | [] =>
    obtain rfl := run_nil_iff.mp run
    exact absurd (now.trans before.symm) rises
  | [u] =>
    obtain ⟨rfl, taken, rest⟩ := run_cons_iff.mp run
    obtain rfl := run_nil_iff.mp rest
    have apart : u.post.level ≠ u.pre.level := fun same =>
      rises (by rw [now, before, same])
    obtain ⟨used, gone⟩ := Wave.level_rises taken apart
    rw [refines.made, refines.target, used, there.alive, gone]
    exact ⟨rfl, rfl⟩
  | u :: v :: us => simp at short

/-- The counters of game mode and spawn manager are in step. -/
structure Synchronised (ts : List Move) (w : World) : Prop where
  makeTargetCount : w.gameMode.spawnManager.makeTargetCount = w.gameMode.level
  needExp : w.gameMode.needExp = w.gameMode.level
  makeCount_nonneg : 0 ≤ w.gameMode.spawnManager.makeCount
  makeCount_le : w.gameMode.spawnManager.makeCount ≤ w.gameMode.spawnManager.makeTargetCount
  exp_nonneg : 0 ≤ w.gameMode.exp
  exp_lt : w.gameMode.exp < w.gameMode.needExp
  deaths : (w.dead : ℤ) = w.gameMode.level * (w.gameMode.level - 1) / 2 + w.gameMode.exp
  spawns : (spawnActorCalls ts : ℤ) ≤
    w.gameMode.level * (w.gameMode.level - 1) / 2 + w.gameMode.spawnManager.makeCount
  timer : emitted (.gameMode .setLevelUpTimer) ts = 0
  levelUpTimers : w.gameMode.levelUpTimers = 0

theorem Refines.synchronised (refines : Refines w wave)
    (spawned : (spawnActorCalls ts : ℤ) ≤ triangle wave.level + wave.attempts)
    (timer : emitted (.gameMode .setLevelUpTimer) ts = 0) : Synchronised ts w := by
  have level := refines.level
  have target := refines.target
  have need := refines.needExp
  have made := refines.made
  have exp := refines.exp
  have room := wave.attempts_le
  have less := wave.kills_lt
  have paid : w.gameMode.level * (w.gameMode.level - 1) / 2 = triangle wave.level := by
    rw [level]
    rfl
  have deaths : (w.dead : ℤ) = triangle wave.level + wave.kills := refines.dead
  refine ⟨by omega, by omega, by omega, by omega, by omega, by omega, ?_, ?_, timer,
    refines.timers⟩
  · rw [paid, exp, deaths]
  · rw [paid, made]
    exact spawned

/-- **Game mode and spawn manager stay in step** over every closed run. -/
theorem wave_synchronised (run : Run (step cfg) (beginPlay cfg 0 randTime) ts w)
    (live : HitsLive ts) :
    Synchronised ts w ∧ ∀ t ∈ ts, t.post.gameMode.level ≠ t.pre.gameMode.level →
      t.pre.gameMode.spawnManager.makeCount = t.pre.gameMode.spawnManager.makeTargetCount ∧
        t.post.alive = 0 := by
  obtain ⟨us, wave, waves, events, refines⟩ := refines_run run live
  have attempts := Wave.attempts_run waves
  rw [events] at attempts
  have spawned : (spawnActorCalls ts : ℤ) ≤ triangle wave.level + wave.attempts :=
    attempts ▸ Int.ofNat_le.mpr (spawnActorCalls_le_attempts run)
  refine ⟨refines.synchronised spawned ?_, fun t member rises => ?_⟩
  · have moved := run.potential_eq (fun w => w.gameMode.levelUpTimers)
      (fun t => t.out.count (.gameMode .setLevelUpTimer)) fun t member taken => by
        obtain ⟨_, there⟩ := refines_pre run live member
        exact (taken_change taken).timers there.timers
    rw [refines.timers] at moved
    exact (Nat.add_eq_zero_iff.mp moved.symm).2
  · obtain ⟨_, there⟩ := refines_pre run live member
    exact levelUp_complete (taken_change (run.taken member)) there (live t member) rises

/-- A game with one enemy made, killed and paid for. -/
theorem wave_synchronised_one :
    Synchronised
      (trace (step {}) (beginPlay {} 0 1)
        [.makeEnemy ⟨0, 0, 1, true⟩, .enemy 0 (.onDamageProcess 10 0)])
      (final (step {}) (beginPlay {} 0 1)
        [.makeEnemy ⟨0, 0, 1, true⟩, .enemy 0 (.onDamageProcess 10 0)]) :=
  (wave_synchronised (run_trace (step {}) (beginPlay {} 0 1) _) (by decide +kernel)).1

end Step

/-! ### The supply of enemies -/

section Supply

/-- The enemies alive and those still to be made are enough for the next level. -/
def Enough (w : World) : Prop :=
  w.gameMode.needExp - w.gameMode.exp ≤
    w.alive + (w.gameMode.spawnManager.makeTargetCount - w.gameMode.spawnManager.makeCount)

instance (w : World) : Decidable w.Enough :=
  inferInstanceAs (Decidable (_ ≤ _))

theorem Refines.enough_iff (refines : Refines w wave) : w.Enough ↔ wave.Supplied := by
  have need := refines.needExp
  have exp := refines.exp
  have alive := refines.alive
  have target := refines.target
  have made := refines.made
  have room := wave.attempts_le
  have less := wave.kills_lt
  unfold Enough Wave.Supplied
  omega

/-- Every attempt of a run makes an enemy: it is made below level five, with a rate below fifty, and
`SpawnActor` answers with an actor. -/
def AttemptsMake (ts : List Move) : Prop :=
  ∀ t ∈ ts, ∀ draw, t.event = .makeEnemy draw →
    t.pre.gameMode.spawnManager.makeCount < t.pre.gameMode.spawnManager.makeTargetCount →
      t.pre.gameMode.level < 5 ∧ draw.rate < 50 ∧ draw.actor = true

theorem rate_lt_iff {level rate : ℤ} (drawn : 0 ≤ rate) :
    rate < SpawnManager.levelTargetRate level ↔ level < 5 ∧ rate < 50 := by
  unfold SpawnManager.levelTargetRate
  split <;> omega

theorem makes_iff {level : ℤ} {draw : MakeEnemyDraw} (drawn : 0 ≤ draw.rate) :
    Makes level draw ↔ level < 5 ∧ draw.rate < 50 ∧ draw.actor = true := by
  rw [Makes, rate_lt_iff drawn, and_assoc]

/-- Where a wave sees an attempt fail. -/
theorem mem_waveEvents {t : Move} (fails : Wave.Event.attempt false ∈ waveEvents t) :
    ∃ draw, t.event = .makeEnemy draw ∧
      t.pre.gameMode.spawnManager.makeCount < t.pre.gameMode.spawnManager.makeTargetCount ∧
      ¬ Makes t.pre.gameMode.level draw := by
  obtain ⟨w, event, next, out⟩ := t
  cases event with
  | makeEnemy draw =>
    by_cases room : w.gameMode.spawnManager.makeCount < w.gameMode.spawnManager.makeTargetCount
    · simp only [waveEvents, if_pos room, List.mem_singleton, Wave.Event.attempt.injEq] at fails
      exact ⟨draw, rfl, room, of_decide_eq_false fails.symm⟩
    · simp only [waveEvents, if_neg room, List.not_mem_nil] at fails
  | _ =>
    simp only [waveEvents] at fails
    split at fails <;> simp at fails

/-- After an attempt that fails there are too few. -/
theorem not_enough_of_failure {draw : MakeEnemyDraw}
    (change : Change cfg w (.makeEnemy draw) next out) (refines : Refines w wave)
    (room : w.gameMode.spawnManager.makeCount < w.gameMode.spawnManager.makeTargetCount)
    (fails : ¬ (w.gameMode.level < 5 ∧ draw.rate < 50 ∧ draw.actor = true)) : ¬ next.Enough := by
  have drawn : 0 ≤ draw.rate := by
    cases change with
    | spawns _ _ _ possible _ => exact possible.rate.1
    | acts _ _ _ _ _ _ _ _ _ named _ _ => cases named
  obtain ⟨us, after, run, events, there⟩ := refines_change change refines rfl
  have one : us.map Transition.event = [.attempt false] := by
    rw [events]
    simp only [waveEvents, if_pos room, decide_eq_false (mt (makes_iff drawn).mp fails)]
  obtain ⟨u, rfl, event⟩ := List.map_eq_singleton_iff.mp one
  obtain ⟨rfl, taken, rest⟩ := run_cons_iff.mp run
  obtain rfl := run_nil_iff.mp rest
  rw [there.enough_iff]
  exact Wave.attempt_false_short taken event

/-- **There are always enough enemies if and only if every attempt makes one.** -/
theorem enough_iff_attempts_make (run : Run (step cfg) (beginPlay cfg 0 randTime) ts w)
    (live : HitsLive ts) :
    (∀ a ∈ visited (beginPlay cfg 0 randTime) ts, a.Enough) ↔ AttemptsMake ts := by
  constructor
  · intro enough t member draw event room
    by_contra fails
    obtain ⟨wave, refines⟩ := refines_pre run live member
    have change := taken_change (run.taken member)
    rw [event] at change
    exact not_enough_of_failure change refines room fails (enough _ (post_visited member))
  · intro make a member
    obtain ⟨before, after, rfl, reach⟩ := run.visited_prefix member
    obtain ⟨us, wave, waves, events, refines⟩ :=
      refines_run reach fun u earlier => live u (List.mem_append_left _ earlier)
    refine refines.enough_iff.mpr (Wave.supplied_run waves fun fails => ?_)
    rw [events, List.mem_flatMap] at fails
    obtain ⟨t, earlier, seen⟩ := fails
    obtain ⟨draw, event, room, high⟩ := mem_waveEvents seen
    obtain ⟨low, rate, actor⟩ := make t (List.mem_append_left _ earlier) draw event room
    refine high ⟨?_, actor⟩
    rw [SpawnManager.levelTargetRate, if_pos low]
    exact rate

/-- A game in which the one attempt of the first wave makes an enemy. -/
theorem enough_iff_attempts_make_one :
    (∀ a ∈ visited (beginPlay {} 0 1) (trace (step {}) (beginPlay {} 0 1) [.makeEnemy ⟨0, 49, 1, true⟩]),
        a.Enough) ↔
      AttemptsMake (trace (step {}) (beginPlay {} 0 1) [.makeEnemy ⟨0, 49, 1, true⟩]) :=
  enough_iff_attempts_make (run_trace (step {}) (beginPlay {} 0 1) _) (by decide +kernel)

/-- With a rate of fifty the one attempt of the first wave makes none: there is nobody to kill, and
nobody to come. -/
theorem failed_attempt_starves :
    HitsLive (trace (step {}) (beginPlay {} 0 1) [.makeEnemy ⟨0, 50, 1, true⟩]) ∧
      Run (step {}) (beginPlay {} 0 1)
        (trace (step {}) (beginPlay {} 0 1) [.makeEnemy ⟨0, 50, 1, true⟩])
        (final (step {}) (beginPlay {} 0 1) [.makeEnemy ⟨0, 50, 1, true⟩]) ∧
      ¬ (final (step {}) (beginPlay {} 0 1) [.makeEnemy ⟨0, 50, 1, true⟩]).Enough :=
  ⟨by decide +kernel, run_trace _ _ _, by decide +kernel⟩

end Supply

end World

end MyTPSGame
