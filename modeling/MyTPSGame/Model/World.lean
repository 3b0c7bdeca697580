/-
**The game: game mode, enemies, player and fire component together.**

A `World` holds the game mode with its spawn manager, every enemy spawned so far (an enemy is its
place in that order; the dead stay in the list), the player and the fire component. Its events are
one timer firing, one enemy event or one input event at a time; which of them comes next is free.
The calls a handler makes on another object are carried out here: `AddExp` on the game mode, `OnHit`
on the player, the sniper's `OnDamageProcess` on the enemy its trace hit.
-/

import MyTPSGame.Model.GameMode
import MyTPSGame.Model.EnemyAct
import MyTPSGame.Model.Player

namespace MyTPSGame

open Machine

/-- The configuration of a game. `enemy i` is that of the `i`-th enemy. -/
structure GameConfig where
  spawn : SpawnConfig := {}
  enemy : ℕ → EnemyConfig := fun _ => {}
  MaxHP : ℤ := 2
  fire : FireConfig := {}

/-- The state of a game. -/
structure World where
  gameMode : GameMode
  enemies : List EnemyFSM
  player : Player
  fire : FireComponent
  deriving DecidableEq

/-- A call, with the object that makes it. -/
inductive WorldCall
  | spawn (call : SpawnCall)
  | gameMode (call : GameModeCall)
  | enemy (i : ℕ) (call : EnemyCall)
  | player (call : PlayerCall)
  | fire (call : FireCall)
  deriving DecidableEq

namespace World

/-- One event. The last argument of `fire` is the draw of the montage section in
`OnDamageProcess`, should the event be a shot that hits an enemy. -/
inductive Event
  | makeEnemy (draw : MakeEnemyDraw)
  | levelUpTimer
  | enemy (i : ℕ) (event : EnemyFSM.Event)
  | fire (event : FireComponent.Event) (index : Fin 2)

/-- The state after every `BeginPlay`, with a number of enemies placed in the level. -/
def beginPlay (cfg : GameConfig) (placed : ℕ) (randTime : ℚ) : World where
  gameMode :=
    { GameMode.beginPlay with
      spawnManager := GameMode.beginPlay.spawnManager.beginPlay randTime }
  enemies := (List.range placed).map fun i => .beginPlay (cfg.enemy i)
  player := .beginPlay cfg.MaxHP
  fire := .beginPlay cfg.fire

/-! ### Calls across objects -/

/-- A call of enemy `i` is carried out. -/
def hear (i : ℕ) (w : World) : EnemyCall → World × List WorldCall
  | .onHit damage =>
    ({ w with player := (w.player.onHit damage).1 },
      .enemy i (.onHit damage) :: (w.player.onHit damage).2.map .player)
  | .addExp amount =>
    ({ w with gameMode := (w.gameMode.addExp amount).1 },
      .enemy i (.addExp amount) :: (w.gameMode.addExp amount).2.map .gameMode)
  | call => (w, [.enemy i call])

/-- The calls of enemy `i` are carried out in order. -/
def hearAll (i : ℕ) : World → List EnemyCall → World × List WorldCall
  | w, [] => (w, [])
  | w, call :: calls =>
    ((hearAll i (w.hear i call).1 calls).1, (w.hear i call).2 ++ (hearAll i (w.hear i call).1 calls).2)

/-- Enemy `i` takes one event. -/
def enemyStep (cfg : GameConfig) (w : World) (i : ℕ) (event : EnemyFSM.Event) :
    Option (World × List WorldCall) :=
  match w.enemies[i]? with
  | none => none
  | some fsm =>
    match fsm.step (cfg.enemy i) event with
    | none => none
    | some (next, calls) => some (hearAll i { w with enemies := w.enemies.set i next } calls)

/-- The calls of the fire component are carried out in order. -/
def hearFire (cfg : GameConfig) (index : Fin 2) :
    World → List FireCall → Option (World × List WorldCall)
  | w, [] => some (w, [])
  | w, .onDamageProcess i damageAmount :: calls =>
    match w.enemyStep cfg i (.onDamageProcess damageAmount index) with
    | none => none
    | some (hit, out) =>
      (hearFire cfg index hit calls).map fun (next, rest) =>
        (next, .fire (.onDamageProcess i damageAmount) :: out ++ rest)
  | w, call :: calls =>
    (hearFire cfg index w calls).map fun (next, rest) => (next, .fire call :: rest)

/-- The spawn timer fires `MakeEnemy`. What `SpawnActor` answers is dropped, and may be no actor. -/
def spawnStep (cfg : GameConfig) (w : World) (draw : MakeEnemyDraw) :
    Option (World × List WorldCall) :=
  if w.gameMode.spawnManager.spawnEnemyTimer.isSome then
    match w.gameMode.spawnManager.makeEnemy cfg.spawn w.gameMode.level draw with
    | none => none
    | some (spawnManager, calls) =>
      some ({ w with
          gameMode := { w.gameMode with spawnManager := spawnManager }
          enemies := w.enemies ++
            (List.range (draw.actors calls)).map fun k =>
              .beginPlay (cfg.enemy (w.enemies.length + k)) },
        calls.map .spawn)
  else none

/-- One event of the game. -/
def step (cfg : GameConfig) : Step World Event WorldCall
  | w, .makeEnemy draw => w.spawnStep cfg draw
  | w, .levelUpTimer =>
    w.gameMode.fireLevelUpTimer.map fun (gm, calls) =>
      ({ w with gameMode := gm }, calls.map .gameMode)
  | w, .enemy i event => w.enemyStep cfg i event
  | w, .fire event index =>
    match w.fire.step cfg.fire event with
    | none => none
    | some (fire, calls) => hearFire cfg index { w with fire := fire } calls

/-- The transitions of a game. -/
abbrev Move := Transition World Event WorldCall

/-- The enemy event that an event of the game is: its own, or the damage of a shot that hits. -/
def enemyEvent (w : World) : Event → Option (ℕ × EnemyFSM.Event)
  | .enemy i event => some (i, event)
  | .fire (.onActionFirePressed shot) index =>
    (w.fire.struck shot).map fun i => (i, .onDamageProcess 1 index)
  | _ => none

end World

end MyTPSGame
