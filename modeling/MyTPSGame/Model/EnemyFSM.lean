/-
**An enemy: its state machine, its animation flags and its health.**

`EnemyFSM` is the `UEnemyFSM` component with what it writes of its owner `me` (`AEnemy::hp`) and of
`me->enemyAnim` (`UEnemyAnim`). A handler answers with the next state and the calls it makes on
other objects, in order; `none` is a handler that dereferences a null pointer or indexes out of
range.

`tickComponent`, `onDamageProcess` and `onHitEvent` are the component's entry points, and `step`
takes the events that reach them.
-/

import MyTPSGame.Machine.Run
import MyTPSGame.Model.Engine

namespace MyTPSGame

open Machine

/-- `EEnemyState`. -/
inductive EnemyState
  | idle
  | move
  | attack
  | damage
  | die
  deriving DecidableEq

/-- `EEnemyMoveSubState`. -/
inductive EnemyMoveSubState
  | patrol
  | chase
  | oldMove
  deriving DecidableEq

/-- `EPathFollowingRequestResult`, the answer of `MoveToLocation`. -/
inductive PathFollowingRequestResult
  | failed
  | alreadyAtGoal
  | requestSuccessful
  deriving DecidableEq

/-- `ENavigationQueryResult`, the answer of `FindPathSync`. -/
inductive NavigationQueryResult
  | invalid
  | error
  | fail
  | success
  deriving DecidableEq

/-- What a non-null `ATPSPlayer*` points to: the player of the one local controller. -/
inductive Pawn
  | player
  deriving DecidableEq

/-- The `EditAnywhere` fields of the enemy, and what `BeginPlay` looks up: whether there is an AI
controller, and the number of waypoints of the path manager if there is one. -/
structure EnemyConfig where
  attackRange : ℚ := 200
  attackDelayTime : ℚ := 3
  detectDistance : ℚ := 500
  abandonDistance : ℚ := 800
  maxHP : ℤ := 10
  ai : Bool := true
  wayPoints : Option ℕ := some 1

/-- `UEnemyAnim`. -/
structure EnemyAnim where
  state : EnemyState := .idle
  bAttackPlay : Bool := false
  bEnemyDieEnd : Bool := false
  deriving DecidableEq

/-- `UEnemyFSM` and `me->hp`. -/
structure EnemyFSM where
  state : EnemyState := .idle
  moveSubState : EnemyMoveSubState := .patrol
  target : Option Pawn := none
  currentTime : ℚ := 0
  bAttackPlay : Bool := false
  wayIndex : ℤ := 0
  hp : ℤ
  anim : EnemyAnim := {}
  deriving DecidableEq

/-- What the engine decides about one tick: `GetDeltaSeconds`, the distance of enemy and target,
`GetPlayerPawn`, and the answers of the path requests. -/
structure Frame where
  deltaSeconds : ℚ
  distance : ℚ
  playerPawn : Option Pawn := some .player
  moveResult : PathFollowingRequestResult := .requestSuccessful
  pathResult : NavigationQueryResult := .success
  deltaSeconds_nonneg : 0 ≤ deltaSeconds := by decide
  distance_nonneg : 0 ≤ distance := by decide

/-- Where `MoveToLocation` is sent. -/
inductive MoveGoal
  | wayPoint (index : ℤ)
  | target
  | randomLocation
  deriving DecidableEq

/-- The calls an enemy makes on other objects. `setActorLocation` is a move down by that much. -/
inductive EnemyCall
  | moveToLocation (goal : MoveGoal)
  | stopMovement
  | updateRandomLocation
  | onHit (damage : ℤ)
  | onMyDamage (sectionName : String)
  | setCollisionEnabledNoCollision
  | addExp (amount : ℤ)
  | printLog (text : String)
  | setActorLocation (down : ℚ)
  | destroy
  deriving DecidableEq

namespace EnemyFSM

/-! ### The handlers -/

/-- `UEnemyFSM::BeginPlay`. -/
def beginPlay (cfg : EnemyConfig) : EnemyFSM :=
  { hp := cfg.maxHP }

/-- `UEnemyFSM::SetState`. -/
def setState (fsm : EnemyFSM) (next : EnemyState) : EnemyFSM :=
  { fsm with state := next, anim := { fsm.anim with state := next }, currentTime := 0 }

/-- `UEnemyFSM::TIckIdle`. -/
def tickIdle (fsm : EnemyFSM) (frame : Frame) : EnemyFSM :=
  let looked := { fsm with target := frame.playerPawn }
  if looked.target.isSome then looked.setState .move else looked

/-- `AActor::GetDistanceTo(target)`: the distance to a null actor is zero. -/
def getDistanceTo (fsm : EnemyFSM) (frame : Frame) : ℚ :=
  if fsm.target.isSome then frame.distance else 0

/-- The waypoint part of `UEnemyFSM::TickPatrol`: on to the next one, and from the last to the
first. -/
def nextWayPoint (fsm : EnemyFSM) (num : ℕ) (frame : Frame) : EnemyFSM :=
  if frame.moveResult = .alreadyAtGoal ∨ frame.moveResult = .failed then
    { fsm with wayIndex := if (num : ℤ) ≤ fsm.wayIndex + 1 then 0 else fsm.wayIndex + 1 }
  else fsm

/-- The detection part of `UEnemyFSM::TickPatrol`. -/
def detect (cfg : EnemyConfig) (fsm : EnemyFSM) (frame : Frame) : EnemyFSM :=
  if fsm.getDistanceTo frame ≤ cfg.detectDistance then { fsm with moveSubState := .chase } else fsm

/-- `UEnemyFSM::TickPatrol`. -/
def tickPatrol (cfg : EnemyConfig) (fsm : EnemyFSM) (frame : Frame) :
    Option (EnemyFSM × List EnemyCall) :=
  match cfg.wayPoints with
  | none => none
  | some num =>
    if 0 ≤ fsm.wayIndex ∧ fsm.wayIndex < num ∧ cfg.ai = true then
      some ((fsm.nextWayPoint num frame).detect cfg frame,
        [.moveToLocation (.wayPoint fsm.wayIndex)])
    else none

/-- `UEnemyFSM::TickChase`. -/
def tickChase (cfg : EnemyConfig) (fsm : EnemyFSM) (frame : Frame) :
    Option (EnemyFSM × List EnemyCall) :=
  if fsm.target.isSome ∧ cfg.ai = true then
    if frame.distance ≤ cfg.attackRange then
      some (fsm.setState .attack, [.moveToLocation .target])
    else if cfg.abandonDistance < frame.distance then
      some ({ fsm with moveSubState := .patrol }, [.moveToLocation .target])
    else some (fsm, [.moveToLocation .target])
  else none

/-- `UEnemyFSM::TickMoveOldMove`. `EPathFollowingRequestResult::Failed` stands there as a condition
of its own and is zero, so only `AlreadyAtGoal` draws a new location. -/
def tickMoveOldMove (cfg : EnemyConfig) (fsm : EnemyFSM) (frame : Frame) :
    Option (EnemyFSM × List EnemyCall) :=
  if fsm.target.isSome ∧ cfg.ai = true then
    if frame.pathResult = .success ∨ frame.pathResult = .fail then
      some (fsm, [.moveToLocation .target])
    else if frame.moveResult = .alreadyAtGoal then
      some (fsm, [.moveToLocation .randomLocation, .updateRandomLocation])
    else some (fsm, [.moveToLocation .randomLocation])
  else none

/-- `UEnemyFSM::TickMove`. -/
def tickMove (cfg : EnemyConfig) (fsm : EnemyFSM) (frame : Frame) :
    Option (EnemyFSM × List EnemyCall) :=
  match fsm.moveSubState with
  | .patrol => fsm.tickPatrol cfg frame
  | .chase => fsm.tickChase cfg frame
  | .oldMove => fsm.tickMoveOldMove cfg frame

/-- `currentTime += GetWorld()->GetDeltaSeconds()`. -/
def runClock (fsm : EnemyFSM) (frame : Frame) : EnemyFSM :=
  { fsm with currentTime := fsm.currentTime + frame.deltaSeconds }

/-- `UEnemyFSM::TickAttack`. The hit comes before the range is looked at. -/
def tickAttack (cfg : EnemyConfig) (fsm : EnemyFSM) (frame : Frame) :
    Option (EnemyFSM × List EnemyCall) :=
  let later := fsm.runClock frame
  if cfg.attackDelayTime < later.currentTime then
    if later.target.isSome then
      if cfg.attackRange < frame.distance then some (later.setState .move, [.onHit 1])
      else
        some ({ later with
            currentTime := 0
            bAttackPlay := false
            anim := { later.anim with bAttackPlay := true } }, [.onHit 1])
    else none
  else some (later, [])

/-- `UEnemyFSM::TickDamage`. -/
def tickDamage (fsm : EnemyFSM) (frame : Frame) : EnemyFSM :=
  let later := fsm.runClock frame
  if 1 < later.currentTime then { later.setState .move with currentTime := 0 } else later

/-- `UEnemyFSM::TickDie`. -/
def tickDie (fsm : EnemyFSM) (frame : Frame) : EnemyFSM × List EnemyCall :=
  if fsm.anim.bEnemyDieEnd = false then (fsm, [])
  else
    let later := fsm.runClock frame
    (later, .setActorLocation (200 * frame.deltaSeconds) ::
      if 1 < later.currentTime then [.destroy] else [])

/-- The first line of `TickComponent`: the animation sees the state. -/
def showState (fsm : EnemyFSM) : EnemyFSM :=
  { fsm with anim := { fsm.anim with state := fsm.state } }

/-- `UEnemyFSM::TickComponent`. -/
def tickComponent (cfg : EnemyConfig) (fsm : EnemyFSM) (frame : Frame) :
    Option (EnemyFSM × List EnemyCall) :=
  let shown := fsm.showState
  match shown.state with
  | .idle => some (shown.tickIdle frame, [])
  | .move => shown.tickMove cfg frame
  | .attack => shown.tickAttack cfg frame
  | .damage => some (shown.tickDamage frame, [])
  | .die => some (shown.tickDie frame)

/-- The start of `UEnemyFSM::OnDamageProcess`: `StopMovement`, where there is a controller. -/
def stopCalls (cfg : EnemyConfig) : List EnemyCall :=
  if cfg.ai then [.stopMovement] else []

/-- `UEnemyFSM::OnDamageProcess`. `index` is the draw of the montage section. -/
def onDamageProcess (cfg : EnemyConfig) (fsm : EnemyFSM) (damageAmount : ℤ) (index : Fin 2) :
    EnemyFSM × List EnemyCall :=
  let hurt := { fsm with hp := fsm.hp - damageAmount }
  if hurt.hp ≤ 0 then
    let dead := hurt.setState .die
    ({ dead with anim := { dead.anim with bEnemyDieEnd := false } },
      stopCalls cfg ++ [.onMyDamage "Die", .setCollisionEnabledNoCollision, .addExp 1])
  else
    (hurt.setState .damage, stopCalls cfg ++ [.onMyDamage ("Damage" ++ toString index.val)])

/-- `UEnemyFSM::OnHitEvent`, which is what `UEnemyAnim::AnimNotify_OnHit` calls. -/
def onHitEvent (cfg : EnemyConfig) (fsm : EnemyFSM) (distance : ℚ) :
    Option (EnemyFSM × List EnemyCall) :=
  if fsm.target.isSome then
    some ({ fsm with anim := { fsm.anim with bAttackPlay := false } },
      if distance ≤ cfg.attackRange then [.printLog "Enemyisattack"] else [])
  else none

/-! ### The events of an enemy -/

/-- The events of an enemy. `enemyDieEnd` is the animation blueprint setting `bEnemyDieEnd`. -/
inductive Event
  | tick (frame : Frame)
  | onDamageProcess (damageAmount : ℤ) (index : Fin 2)
  | animNotifyOnHit (distance : ℚ)
  | enemyDieEnd

/-- One event of an enemy. -/
def step (cfg : EnemyConfig) : Step EnemyFSM Event EnemyCall
  | fsm, .tick frame => fsm.tickComponent cfg frame
  | fsm, .onDamageProcess damageAmount index => some (fsm.onDamageProcess cfg damageAmount index)
  | fsm, .animNotifyOnHit distance => fsm.onHitEvent cfg distance
  | fsm, .enemyDieEnd => some ({ fsm with anim := { fsm.anim with bEnemyDieEnd := true } }, [])

/-- The transitions of an enemy. -/
abbrev Move := Transition EnemyFSM Event EnemyCall

end EnemyFSM

end MyTPSGame
