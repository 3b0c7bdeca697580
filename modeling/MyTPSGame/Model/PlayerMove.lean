/-
**The player's movement.**

`MoveComponent` is `UTPSPlayerMoveComponent` with what it writes of the character movement. The
coordinates are over any ordered field, and the angles of the control rotation are cosines and sines,
so that `TransformVector` is exact; its roll is zero. `FVector::Normalize` needs a root and is a
parameter.

* `horizontal`: the vector that `TickComponent` normalises and passes on;
* `direction_level`: the input it is computed from has no `Z`;
* `PlayerAnim.nativeUpdateAnimation`: what the animation makes of the velocity.
-/

import MyTPSGame.Machine.Run
import MyTPSGame.Arith.Turn

namespace MyTPSGame

open Machine Plane

universe u

/-- `FVector`. -/
@[ext] structure FVector (K : Type u) where
  X : K
  Y : K
  Z : K
  deriving DecidableEq

namespace FVector

variable {K : Type u}

/-- `FVector::ZeroVector`. -/
def ZeroVector [Zero K] : FVector K :=
  ⟨0, 0, 0⟩

instance [Mul K] : SMul K (FVector K) where
  smul c v := ⟨c * v.X, c * v.Y, c * v.Z⟩

instance [CommRing K] : MulAction K (FVector K) where
  one_smul v := by
    ext
    · exact one_mul v.X
    · exact one_mul v.Y
    · exact one_mul v.Z
  mul_smul c d v := by
    ext
    · exact mul_assoc c d v.X
    · exact mul_assoc c d v.Y
    · exact mul_assoc c d v.Z

end FVector

/-- `FRotator` with roll zero. -/
structure FRotator (K : Type u) [CommRing K] where
  pitch : Turn K
  yaw : Turn K

/-- `UTPSPlayerMoveComponent`, and the speeds it sets. -/
structure MoveComponent (K : Type u) where
  direction : FVector K
  MaxWalkSpeed : K
  MaxWalkSpeedCrouched : K
  deriving DecidableEq

/-- The calls on the character. -/
inductive MoveCall (K : Type u)
  | addControllerPitchInput (value : K)
  | addControllerYawInput (value : K)
  | jump
  | crouch
  | unCrouch
  | addMovementInput (worldDirection : FVector K)

namespace MoveComponent

variable {K : Type u} [CommRing K]

/-- `runSpeed`. -/
def runSpeed : K := 600

/-- `walkSpeed`. -/
def walkSpeed : K := 400

/-- `crouchSpeed`. -/
def crouchSpeed : K := 300

/-- `UTPSPlayerMoveComponent::BeginPlay`, with the engine's crouched speed. -/
def beginPlay : MoveComponent K where
  direction := .ZeroVector
  MaxWalkSpeed := walkSpeed
  MaxWalkSpeedCrouched := 300

/-- `FTransform::TransformVector` of the control rotation: the sum of its three axes. -/
def transformVector (rotation : FRotator K) (v : FVector K) : FVector K where
  X := v.X * (rotation.pitch.cos * rotation.yaw.cos) - v.Y * rotation.yaw.sin -
    v.Z * (rotation.pitch.sin * rotation.yaw.cos)
  Y := v.X * (rotation.pitch.cos * rotation.yaw.sin) + v.Y * rotation.yaw.cos -
    v.Z * (rotation.pitch.sin * rotation.yaw.sin)
  Z := v.X * rotation.pitch.sin + v.Z * rotation.pitch.cos

/-- `resultDirection` before `Normalize`. -/
def horizontal (rotation : FRotator K) (direction : FVector K) : FVector K :=
  { transformVector rotation direction with Z := 0 }

variable (move : MoveComponent K)

/-- `UTPSPlayerMoveComponent::TickComponent`. -/
def tickComponent (normalize : FVector K → FVector K) (rotation : FRotator K) :
    MoveComponent K × List (MoveCall K) :=
  ({ move with direction := .ZeroVector },
    [.addMovementInput (normalize (horizontal rotation move.direction))])

/-- `UTPSPlayerMoveComponent::OnAxisHorizontal`. -/
def onAxisHorizontal (value : K) : MoveComponent K :=
  { move with direction := { move.direction with Y := value } }

/-- `UTPSPlayerMoveComponent::OnAxisVertical`. -/
def onAxisVertical (value : K) : MoveComponent K :=
  { move with direction := { move.direction with X := value } }

/-- `UTPSPlayerMoveComponent::OnActionRunPressed`. -/
def onActionRunPressed : MoveComponent K :=
  { move with MaxWalkSpeed := runSpeed }

/-- `UTPSPlayerMoveComponent::OnActionRunReleased`. -/
def onActionRunReleased : MoveComponent K :=
  { move with MaxWalkSpeed := walkSpeed }

/-- `UTPSPlayerMoveComponent::OnActionCouchPressed`. -/
def onActionCouchPressed : MoveComponent K × List (MoveCall K) :=
  ({ move with MaxWalkSpeedCrouched := crouchSpeed }, [.crouch])

/-- `UTPSPlayerMoveComponent::OnActionCouchReleased`. -/
def onActionCouchReleased : MoveComponent K × List (MoveCall K) :=
  ({ move with MaxWalkSpeedCrouched := walkSpeed }, [.unCrouch])

/-- The events of the component: its input, and ticks under a control rotation. -/
inductive Event (K : Type u) [CommRing K]
  | onAxisHorizontal (value : K)
  | onAxisVertical (value : K)
  | onAxisLookUp (value : K)
  | onAxisTurnRight (value : K)
  | onActionJump
  | onActionRunPressed
  | onActionRunReleased
  | onActionCouchPressed
  | onActionCouchReleased
  | tick (rotation : FRotator K)

/-- One event of the component. -/
def step (normalize : FVector K → FVector K) : Step (MoveComponent K) (Event K) (MoveCall K)
  | move, .onAxisHorizontal value => some (move.onAxisHorizontal value, [])
  | move, .onAxisVertical value => some (move.onAxisVertical value, [])
  | move, .onAxisLookUp value => some (move, [.addControllerPitchInput value])
  | move, .onAxisTurnRight value => some (move, [.addControllerYawInput value])
  | move, .onActionJump => some (move, [.jump])
  | move, .onActionRunPressed => some (move.onActionRunPressed, [])
  | move, .onActionRunReleased => some (move.onActionRunReleased, [])
  | move, .onActionCouchPressed => some move.onActionCouchPressed
  | move, .onActionCouchReleased => some move.onActionCouchReleased
  | move, .tick rotation => some (move.tickComponent normalize rotation)

/-- `GetActorForwardVector`. -/
def getActorForwardVector (rotation : FRotator K) : FVector K :=
  transformVector rotation ⟨1, 0, 0⟩

/-- `GetActorRightVector`. -/
def getActorRightVector (rotation : FRotator K) : FVector K :=
  transformVector rotation ⟨0, 1, 0⟩

/-- The transitions of the component. -/
abbrev Move (K : Type u) [CommRing K] := Transition (MoveComponent K) (Event K) (MoveCall K)

variable {normalize : FVector K → FVector K} {move : MoveComponent K} {ts : List (Move K)}

/-- No event gives the input a `Z`. -/
theorem taken_level {t : Move K} (taken : t.Taken (step normalize)) (level : t.pre.direction.Z = 0) :
    t.post.direction.Z = 0 := by
  obtain ⟨move, event, next, calls⟩ := t
  change step normalize move event = some (next, calls) at taken
  change move.direction.Z = 0 at level
  cases event with
  | tick rotation =>
    obtain ⟨rfl, _⟩ := Prod.mk.inj (Option.some.inj taken)
    rfl
  | _ =>
    obtain ⟨rfl, _⟩ := Prod.mk.inj (Option.some.inj taken)
    exact level

/-- The input that a tick finds is the two axes. -/
theorem direction_level (run : Run (step normalize) beginPlay ts move) :
    move.direction = ⟨move.direction.X, move.direction.Y, 0⟩ := by
  have level : move.direction.Z = 0 :=
    run.invariant (I := fun move => move.direction.Z = 0) rfl fun _ _ taken => taken_level taken
  ext
  · rfl
  · rfl
  · exact level

end MoveComponent

/-! ### What the animation shows -/

/-- `FVector::DotProduct`. -/
def FVector.dotProduct {K : Type u} [CommRing K] (u v : FVector K) : K :=
  u.X * v.X + u.Y * v.Y + u.Z * v.Z

/-- What the engine says about the character of an animation. -/
structure Character (K : Type u) [CommRing K] where
  velocity : FVector K
  rotation : FRotator K
  isFalling : Bool
  isCrouching : Bool

/-- The variables of `UTPSPlayerAnim`. -/
structure PlayerAnim (K : Type u) where
  forwordVelocity : K
  rightVelocity : K
  isInAir : Bool
  isCrouching : Bool

/-- `UTPSPlayerAnim::NativeUpdateAnimation`; the owner may not be a player. -/
def PlayerAnim.nativeUpdateAnimation {K : Type u} [CommRing K] (anim : PlayerAnim K)
    (owner : Option (Character K)) : PlayerAnim K :=
  match owner with
  | none => anim
  | some owner =>
    { forwordVelocity := owner.velocity.dotProduct (MoveComponent.getActorForwardVector owner.rotation)
      rightVelocity := owner.velocity.dotProduct (MoveComponent.getActorRightVector owner.rotation)
      isInAir := owner.isFalling
      isCrouching := owner.isCrouching }

end MyTPSGame
