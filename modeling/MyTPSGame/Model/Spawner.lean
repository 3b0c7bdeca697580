/-
**The spawn manager on its own.**

Its timer fires `MakeEnemy`, which looks up the game mode's level, and `LevelUp` sets its counters.
Here both levels are free; `spawnManager_run` says that a game, seen from its spawn manager, is a run
of this machine with the calls that the game makes for it, so that what holds of every run of it holds
of the game.
-/

import MyTPSGame.Machine.Simulation
import MyTPSGame.Model.WorldStep

namespace MyTPSGame

open Machine

namespace SpawnManager

/-- What `AMyTPSGameGameModeBase::LevelUp` does to the spawn manager. -/
def levelUp (sm : SpawnManager) (level : ℤ) : SpawnManager :=
  { sm with makeTargetCount := level, makeCount := 0 }

/-- The events of the spawn manager: its timer fires, at the game mode's level, and a level up. -/
inductive Event
  | makeEnemy (level : ℤ) (draw : MakeEnemyDraw)
  | levelUp (level : ℤ)

/-- The spawn manager on its own. The timer can fire only while it is pending. -/
def step (cfg : SpawnConfig) : Step SpawnManager Event SpawnCall
  | sm, .makeEnemy level draw =>
    if sm.spawnEnemyTimer.isSome then sm.makeEnemy cfg level draw else none
  | sm, .levelUp level => some (sm.levelUp level, [])

/-- The transitions of the spawn manager. -/
abbrev Move := Transition SpawnManager Event SpawnCall

/-- The spawn manager after its `BeginPlay` and that of the game mode. -/
def start (randTime : ℚ) : SpawnManager :=
  GameMode.beginPlay.spawnManager.beginPlay randTime

variable {cfg : SpawnConfig} {sm next : SpawnManager} {event : Event} {calls : List SpawnCall}

/-- Everything one event can do to the spawn manager. -/
inductive Spawned (cfg : SpawnConfig) (sm : SpawnManager) :
    Event → SpawnManager → List SpawnCall → Prop
  | fires (level : ℤ) (draw : MakeEnemyDraw) (next : SpawnManager) (calls : List SpawnCall) :
      draw.Possible cfg → Made cfg level sm draw next calls →
      Spawned cfg sm (.makeEnemy level draw) next calls
  | levels (level : ℤ) : Spawned cfg sm (.levelUp level) (sm.levelUp level) []

theorem step_spawned (done : step cfg sm event = some (next, calls)) :
    Spawned cfg sm event next calls := by
  cases event with
  | makeEnemy level draw =>
    change (if sm.spawnEnemyTimer.isSome then sm.makeEnemy cfg level draw else none) = _ at done
    by_cases armed : sm.spawnEnemyTimer.isSome
    · rw [if_pos armed] at done
      obtain ⟨possible, made⟩ := makeEnemy_made done
      exact .fires level draw next calls possible made
    · rw [if_neg armed] at done
      cases done
  | levelUp level =>
    cases done
    exact .levels level

end SpawnManager

/-! ### The spawn manager of a game -/

namespace GameMode

variable (gm : GameMode)

/-- `LevelUpProcess` takes the spawn manager up one level. -/
theorem levelUpProcess_spawnManager :
    gm.levelUpProcess.1.level = gm.level + 1 ∧
      gm.levelUpProcess.1.spawnManager = gm.spawnManager.levelUp (gm.level + 1) := by
  rw [levelUpProcess_spec]
  exact ⟨rfl, rfl⟩

/-- The game mode stays on its level and leaves the spawn manager alone, or takes it up with it. -/
def Follows (next : GameMode) : Prop :=
  next.level = gm.level ∧ next.spawnManager = gm.spawnManager ∨
    next.level = gm.level + 1 ∧ next.spawnManager = gm.spawnManager.levelUp (gm.level + 1)

variable {gm} in
/-- What follows the game mode is a run of the spawn manager. -/
theorem Follows.run {next : GameMode} (follows : gm.Follows next) (cfg : SpawnConfig) :
    ∃ us, Run (SpawnManager.step cfg) gm.spawnManager us next.spawnManager ∧
      us.map Transition.event =
        (if next.level = gm.level then [] else [.levelUp next.level]) ∧
      us.flatMap Transition.out = [] := by
  rcases follows with ⟨level, same⟩ | ⟨level, up⟩
  · rw [same, if_pos level]
    exact ⟨[], .nil, rfl, rfl⟩
  · have risen : next.level ≠ gm.level := by omega
    rw [up, if_neg risen, level]
    exact ⟨_, .one rfl, rfl, rfl⟩

theorem follows_addExp (amount : ℤ) : gm.Follows (gm.addExp amount).1 := by
  by_cases reached : gm.needExp ≤ gm.exp + amount
  · rw [addExp_reached gm reached]
    exact Or.inr (levelUpProcess_spawnManager _)
  · rw [addExp_short gm reached]
    exact Or.inl ⟨rfl, rfl⟩

theorem follows_fireLevelUpTimer {gm next : GameMode} {calls : List GameModeCall}
    (fired : gm.fireLevelUpTimer = some (next, calls)) : gm.Follows next := by
  unfold fireLevelUpTimer at fired
  by_cases pending : 0 < gm.levelUpTimers
  · rw [if_pos pending] at fired
    obtain rfl : _ = next := congrArg Prod.fst (Option.some.inj fired)
    exact Or.inr (levelUpProcess_spawnManager _)
  · rw [if_neg pending] at fired
    cases fired

end GameMode

/-- The call, if it is one of the spawn manager. -/
def WorldCall.ofSpawn : WorldCall → Option SpawnCall
  | .spawn call => some call
  | _ => none

namespace World

variable {cfg : GameConfig} {w next : World} {out : List WorldCall}

/-- What is heard of the spawn manager. -/
def spawnCalls (t : Move) : List SpawnCall :=
  t.out.filterMap WorldCall.ofSpawn

/-- What a transition of the game is to the spawn manager. -/
def spawnEvents (t : Move) : List SpawnManager.Event :=
  match t.event with
  | .makeEnemy draw => [.makeEnemy t.pre.gameMode.level draw]
  | _ =>
    if t.post.gameMode.level = t.pre.gameMode.level then []
    else [.levelUp t.post.gameMode.level]

/-- The game's spawn timer fires the spawn manager's `MakeEnemy`. -/
theorem spawnStep_spawnManager {draw : MakeEnemyDraw}
    (done : w.spawnStep cfg draw = some (next, out)) :
    ∃ calls, SpawnManager.step cfg.spawn w.gameMode.spawnManager
        (.makeEnemy w.gameMode.level draw) = some (next.gameMode.spawnManager, calls) ∧
      out = calls.map .spawn := by
  unfold spawnStep at done
  by_cases armed : w.gameMode.spawnManager.spawnEnemyTimer.isSome
  · rw [if_pos armed] at done
    cases fired : w.gameMode.spawnManager.makeEnemy cfg.spawn w.gameMode.level draw with
    | none =>
      rw [fired] at done
      cases done
    | some result =>
      obtain ⟨spawnManager, calls⟩ := result
      simp only [fired, Option.some.injEq, Prod.mk.injEq] at done
      obtain ⟨rfl, rfl⟩ := done
      exact ⟨calls, (if_pos armed).trans fired, rfl⟩
  · rw [if_neg armed] at done
    cases done

/-- Any other event leaves the spawn manager alone or takes it up a level. -/
theorem Change.follows {event : Event} (change : Change cfg w event next out)
    (other : ∀ draw, event ≠ .makeEnemy draw) : w.gameMode.Follows next.gameMode := by
  cases change with
  | spawns draw _ _ _ _ => exact absurd rfl (other draw)
  | levels _ _ fired => exact GameMode.follows_fireLevelUpTimer fired
  | acts _ _ act fsm _ _ _ _ _ _ _ _ =>
    unfold heard
    by_cases dies : fsm.Dies act
    · rw [if_pos dies]
      exact w.gameMode.follows_addExp 1
    · rw [if_neg dies]
      exact Or.inl ⟨rfl, rfl⟩
  | handles _ _ _ _ _ _ => exact Or.inl ⟨rfl, rfl⟩

/-- In any other event nothing is heard of the spawn manager. -/
theorem Change.silent {event : Event} (change : Change cfg w event next out)
    (other : ∀ draw, event ≠ .makeEnemy draw) : out.filterMap WorldCall.ofSpawn = [] := by
  cases change with
  | spawns draw _ _ _ _ => exact absurd rfl (other draw)
  | levels _ calls _ => simp [List.filterMap_map, WorldCall.ofSpawn]
  | acts _ i _ _ _ calls _ before after _ _ _ =>
    rw [List.filterMap_eq_nil_iff]
    intro call member
    cases call with
    | spawn call => exact absurd member (spawn_notMem_act i _ before after call)
    | _ => rfl
  | handles _ _ _ calls _ _ => simp [List.filterMap_map, WorldCall.ofSpawn]

/-- **A game, seen from its spawn manager**, is a run of the spawn manager, with its calls. -/
theorem spawnManager_run {placed : ℕ} {randTime : ℚ} {ts : List Move}
    (run : Run (step cfg) (beginPlay cfg placed randTime) ts w) :
    ∃ us, Run (SpawnManager.step cfg.spawn) (.start randTime) us w.gameMode.spawnManager ∧
      us.map Transition.event = ts.flatMap spawnEvents ∧
      us.flatMap Transition.out = ts.flatMap spawnCalls := by
  obtain ⟨us, _, reach, events, calls, rfl⟩ :=
    run.simulate_heard (R := fun w sm => w.gameMode.spawnManager = sm) spawnEvents spawnCalls rfl
      fun t _ taken sm here => by
        obtain ⟨w, event, next, out⟩ := t
        obtain rfl : w.gameMode.spawnManager = sm := here
        have change := taken_change taken
        cases event with
        | makeEnemy draw =>
          obtain ⟨calls, fired, rfl⟩ := spawnStep_spawnManager taken
          refine ⟨_, _, .one fired, ⟨rfl, ?_⟩, rfl⟩
          simp [spawnCalls, List.filterMap_map, Function.comp_def, WorldCall.ofSpawn]
        | levelUpTimer | enemy _ _ | fire _ _ =>
          obtain ⟨us, reach, events, silent⟩ := (change.follows (by simp)).run cfg.spawn
          exact ⟨us, _, reach, ⟨events, silent.trans (change.silent (by simp)).symm⟩, rfl⟩
  exact ⟨us, reach, events, calls⟩

end World

end MyTPSGame
