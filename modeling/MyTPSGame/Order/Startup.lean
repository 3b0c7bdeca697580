/-
**The start of a game.**

The engine calls `BeginPlay` on every actor of the level before the first tick, in an order of its own.
`constructed` is the game before that, and `Startup` one of these calls. The game mode writes counters of
the spawn manager whether or not the spawn manager has begun to play.

* `startup_commutes`: the calls commute;
* `startup_order`: all of them, in any order, lead to `World.beginPlay`, the start of every run.
-/

import MyTPSGame.Machine.Commute
import MyTPSGame.Model.World

namespace MyTPSGame

open Machine

/-- `UEnemyFSM::BeginPlay`, on a component that may hold anything. -/
def EnemyFSM.begin (cfg : EnemyConfig) (fsm : EnemyFSM) : EnemyFSM :=
  { fsm with state := .idle, moveSubState := .patrol, hp := cfg.maxHP }

/-- `ATPSPlayer::BeginPlay`, on a player that may hold anything. -/
def Player.begin (MaxHP : ℤ) (player : Player) : Player :=
  { player with HP := MaxHP }

/-- `UTPSPlayerFireComponent::BeginPlay`, on a component that may hold anything. -/
def FireComponent.begin (cfg : FireConfig) (fire : FireComponent) : FireComponent × List FireCall :=
  let chosen := { fire with crosshairUI := true }.chooseGun true
  ({ chosen.1 with gunAmmo := cfg.maxGunAmmo, sniperAmmo := cfg.maxSniperAmmo }, chosen.2)

namespace World

/-- One call of `BeginPlay`. That of the spawn manager draws a time. -/
inductive Startup
  | gameMode
  | spawnManager (randTime : ℚ)
  | enemy (i : ℕ)
  | player
  | fire
  deriving DecidableEq

/-- The game as the constructors leave it, with a number of enemies placed in the level. -/
def constructed (cfg : GameConfig) (placed : ℕ) : World where
  gameMode := {}
  enemies := List.replicate placed { hp := 0 }
  player := { HP := 0 }
  fire := { bChooseGrenadeGun := cfg.fire.bChooseGrenadeGun }

/-- One call of `BeginPlay`: what it leaves, and the calls it makes. -/
def begun (cfg : GameConfig) (w : World) : Startup → World × List WorldCall
  | .gameMode => ({ w with gameMode := w.gameMode.levelUp }, [])
  | .spawnManager randTime =>
    ({ w with
        gameMode := { w.gameMode with
          spawnManager := w.gameMode.spawnManager.beginPlay randTime } }, [])
  | .enemy i => ({ w with enemies := w.enemies.modify i (.begin (cfg.enemy i)) }, [])
  | .player => ({ w with player := w.player.begin cfg.MaxHP }, [])
  | .fire => ({ w with fire := (w.fire.begin cfg.fire).1 }, (w.fire.begin cfg.fire).2.map .fire)

/-- The calls of `BeginPlay` as a machine. -/
def startup (cfg : GameConfig) : Step World Startup WorldCall :=
  fun w actor => some (w.begun cfg actor)

/-- Every call of `BeginPlay` of a level. -/
def startups (placed : ℕ) (randTime : ℚ) : List Startup :=
  [.gameMode, .spawnManager randTime, .player, .fire] ++ (List.range placed).map .enemy

variable {cfg : GameConfig} {placed : ℕ} {randTime : ℚ} {a b : Startup} {w : World}

/-! ### Any two calls -/

section Commute

theorem modify_comm {α : Type*} {i j : ℕ} (apart : i ≠ j) (f g : α → α) (l : List α) :
    (l.modify i f).modify j g = (l.modify j g).modify i f := by
  apply List.ext_getElem?
  intro k
  simp only [List.getElem?_modify]
  by_cases first : i = k
  · have second : j ≠ k := fun same => apart (first.trans same.symm)
    simp [first, second]
  · simp [first]

/-- Two calls on different actors leave the same game in either order. -/
theorem begun_comm (apart : a ≠ b)
    (once : ∀ r r', a = .spawnManager r → b ≠ .spawnManager r') :
    ((w.begun cfg a).1.begun cfg b).1 = ((w.begun cfg b).1.begun cfg a).1 := by
  cases a with
  | gameMode => cases b <;> rfl
  | spawnManager r =>
    cases b with
    | spawnManager r' => exact absurd rfl (once r r' rfl)
    | _ => rfl
  | enemy i =>
    cases b with
    | enemy j =>
      have other : i ≠ j := fun same => apart (congrArg _ same)
      exact congrArg (fun enemies => { w with enemies := enemies }) (modify_comm other _ _ _)
    | _ => rfl
  | player => cases b <;> rfl
  | fire =>
    cases b with
    | fire => exact absurd rfl apart
    | _ => rfl

/-- Only the weapon's call makes another, and it does so in either order. -/
theorem begun_calls (apart : a ≠ b) :
    ((w.begun cfg a).2 ++ ((w.begun cfg a).1.begun cfg b).2).Perm
      ((w.begun cfg b).2 ++ ((w.begun cfg b).1.begun cfg a).2) := by
  cases a with
  | fire =>
    cases b with
    | fire => exact absurd rfl apart
    | _ => exact List.perm_append_comm
  | _ => cases b <;> exact List.perm_append_comm

/-- The calls of `BeginPlay` on two actors commute. -/
theorem startup_commutes (apart : a ≠ b)
    (once : ∀ r r', a = .spawnManager r → b ≠ .spawnManager r') :
    Commutes (startup cfg) a b := by
  intro w
  simp only [exec_cons, exec_nil, startup, Option.bind_some, Option.map_some, List.append_nil]
  rw [begun_comm apart once]
  exact .done _ (begun_calls apart)

end Commute

/-! ### All of them -/

section All

/-- The enemies of a level of which the first `k` have begun to play. -/
def begunEnemies (cfg : GameConfig) (placed k : ℕ) : List EnemyFSM :=
  (List.range placed).map fun i => if i < k then .beginPlay (cfg.enemy i) else { hp := 0 }

theorem begunEnemies_succ (k : ℕ) :
    (begunEnemies cfg placed k).modify k (.begin (cfg.enemy k)) = begunEnemies cfg placed (k + 1) := by
  apply List.ext_getElem?
  intro i
  simp only [List.getElem?_modify, begunEnemies, List.getElem?_map]
  by_cases inside : i < placed
  · rw [List.getElem?_range inside]
    by_cases here : k = i
    · subst here
      simp [EnemyFSM.begin, EnemyFSM.beginPlay]
    · have same : i < k + 1 ↔ i < k := by omega
      simp only [Option.map_some, Option.map_eq_map, here, if_false, same]
  · have past : (List.range placed)[i]? = none := List.getElem?_eq_none (by simpa using inside)
    simp [past]

theorem exec_enemies (w : World) (fresh : w.enemies = begunEnemies cfg placed 0) (k : ℕ) :
    exec (startup cfg) w ((List.range k).map .enemy) =
      some ({ w with enemies := begunEnemies cfg placed k }, []) := by
  induction k with
  | zero => rw [← fresh]; rfl
  | succ k ih =>
    rw [List.range_succ, List.map_append, exec_append, ih]
    simp [exec_cons, startup, begun, begunEnemies_succ]

/-- In the order of `startups` the calls lead to the start of a run. -/
theorem exec_startups :
    exec (startup cfg) (constructed cfg placed) (startups placed randTime) =
      some (beginPlay cfg placed randTime, [.fire (.onMyChooseGun true)]) := by
  have enemies : begunEnemies cfg placed placed =
      (List.range placed).map fun i => .beginPlay (cfg.enemy i) :=
    List.map_congr_left fun i member => if_pos (List.mem_range.mp member)
  have fresh : List.replicate placed { hp := 0 } = begunEnemies cfg placed 0 := by
    simp [begunEnemies, List.map_const']
  rw [startups, exec_append]
  simp only [exec_cons, exec_nil, startup, Option.bind_some, Option.map_some, begun]
  rw [exec_enemies _ fresh, enemies]
  rfl

/-- **The order of the start is irrelevant.** -/
theorem startup_order {es : List Startup} (perm : (startups placed randTime).Perm es) :
    exec (startup cfg) (constructed cfg placed) es =
      some (beginPlay cfg placed randTime, [.fire (.onMyChooseGun true)]) := by
  have agree : Agree (exec (startup cfg) (constructed cfg placed) (startups placed randTime))
      (exec (startup cfg) (constructed cfg placed) es) := by
    apply exec_perm perm
    intro a first b second apart
    apply startup_commutes apart
    rintro r r' rfl rfl
    simp only [startups, List.mem_append, List.mem_cons, List.mem_map, reduceCtorEq, false_or,
      or_false, and_false, exists_false, List.not_mem_nil, Startup.spawnManager.injEq] at first second
    exact apart (by rw [first, second])
  rw [exec_startups] at agree
  generalize exec (startup cfg) (constructed cfg placed) es = outcome at agree
  cases agree with
  | done _ same => rw [List.singleton_perm.mp same]

/-- A level with two enemies, from the last of them back to the game mode. -/
theorem startup_order_reversed :
    exec (startup {}) (constructed {} 2) (startups 2 1).reverse =
      some (beginPlay {} 2 1, [.fire (.onMyChooseGun true)]) :=
  startup_order (List.reverse_perm _).symm

end All

end World

end MyTPSGame
