/-
**Playing with keys.**

`DefaultInput.ini` maps keys to the names of actions and of axes; `SetupPlayerInputComponent` has the
two components of the player bind their handlers to these names. A `Session` is a game with its
movement component and the keys that are down. A key that goes down or comes up calls the handlers of
its actions; once a frame every axis is called with its value.

* `playerInput`: what the components bind;
* `Session.parts`: what an event of a session has the components do;
* `Session.play`, `Session.handle`: one thing that a component does, and one event, whatever the game
  does with its own;
* `Session.step`: one event of a session.
-/

import Mathlib.Data.Finset.Basic
import MyTPSGame.Machine.Commute
import MyTPSGame.Model.PlayerMove
import MyTPSGame.Model.World

namespace MyTPSGame

open Machine

universe u

/-! ### The mappings -/

/-- The keys of `DefaultInput.ini`. -/
inductive Key
  | gamepadFaceButtonBottom
  | spaceBar
  | leftMouseButton
  | one
  | two
  | rightMouseButton
  | leftShift
  | leftControl
  | r
  | gamepadRightY
  | mouseY
  | gamepadLeftY
  | s
  | w
  | a
  | d
  | gamepadLeftX
  | gamepadRightX
  | mouseX
  deriving DecidableEq

/-- `ActionName`. -/
inductive ActionName
  | jump
  | fireBullet
  | grenadeGun
  | sniperGun
  | sniperZoom
  | run
  | crouch
  | reload
  deriving DecidableEq

/-- `AxisName`. -/
inductive AxisName
  | lookUpDownGamepad
  | lookUp
  | vertical
  | horizontal
  | turnRightLeftGamepad
  | turnRight
  deriving DecidableEq

/-- `ActionMappings`. -/
def actionMappings : List (ActionName × Key) :=
  [(.jump, .gamepadFaceButtonBottom), (.jump, .spaceBar), (.fireBullet, .leftMouseButton),
    (.grenadeGun, .one), (.sniperGun, .two), (.sniperZoom, .rightMouseButton), (.run, .leftShift),
    (.crouch, .leftControl), (.reload, .r)]

/-- `AxisMappings`: name, scale and key. -/
def axisMappings : List (AxisName × ℤ × Key) :=
  [(.lookUpDownGamepad, 1, .gamepadRightY), (.lookUp, -1, .mouseY), (.vertical, 1, .gamepadLeftY),
    (.vertical, -1, .s), (.vertical, 1, .w), (.horizontal, -1, .a), (.horizontal, 1, .d),
    (.horizontal, 1, .gamepadLeftX), (.turnRightLeftGamepad, 1, .gamepadRightX),
    (.turnRight, 1, .mouseX)]

/-- The keys that are moved, not pressed. -/
def Key.analog : Key → Bool
  | .gamepadRightY | .mouseY | .gamepadLeftY | .gamepadLeftX | .gamepadRightX | .mouseX => true
  | _ => false

section Axis

variable {K : Type u} [CommRing K]

/-- The value of a key: what the device says, or whether it is down. -/
def keyValue (keys : Finset Key) (device : Key → K) (key : Key) : K :=
  if key.analog then device key else if key ∈ keys then 1 else 0

/-- The value of an axis: that of its keys, scaled and added up. -/
def axisValue (keys : Finset Key) (device : Key → K) (axisName : AxisName) : K :=
  ((axisMappings.filter fun mapping => mapping.1 = axisName).map fun mapping =>
    (mapping.2.1 : K) * keyValue keys device mapping.2.2).sum

end Axis

/-! ### The bindings -/

/-- The two kinds of `EInputEvent` that handlers are bound to. -/
inductive InputEvent
  | pressed
  | released
  deriving DecidableEq

/-- What the engine decides about an input event, should it be a press of the fire button: the shot,
and the montage section of the enemy it hits. -/
structure PressDraw where
  shot : Shot
  index : Fin 2

/-- What a component does: an event of the movement component, or one of the game. -/
inductive Part (K : Type u) [CommRing K]
  | move (event : MoveComponent.Event K)
  | world (event : World.Event)

/-- A binding of `BindAction`. -/
structure ActionBinding (K : Type u) [CommRing K] where
  actionName : ActionName
  keyEvent : InputEvent
  handler : PressDraw → Part K

/-- A binding of `BindAxis`. -/
structure AxisBinding (K : Type u) [CommRing K] where
  axisName : AxisName
  handler : K → Part K

/-- `UInputComponent`. -/
structure InputComponent (K : Type u) [CommRing K] where
  actionBindings : List (ActionBinding K) := []
  axisBindings : List (AxisBinding K) := []

variable {K : Type u} [CommRing K]

namespace InputComponent

/-- `UInputComponent::BindAction`. -/
def bindAction (input : InputComponent K) (actionName : ActionName) (keyEvent : InputEvent)
    (handler : PressDraw → Part K) : InputComponent K :=
  { input with actionBindings := input.actionBindings ++ [⟨actionName, keyEvent, handler⟩] }

/-- `UInputComponent::BindAxis`. -/
def bindAxis (input : InputComponent K) (axisName : AxisName) (handler : K → Part K) :
    InputComponent K :=
  { input with axisBindings := input.axisBindings ++ [⟨axisName, handler⟩] }

/-- What a key calls that goes down or comes up. -/
def actionParts (input : InputComponent K) (key : Key) (keyEvent : InputEvent) (draw : PressDraw) :
    List (Part K) :=
  (input.actionBindings.filter fun binding =>
    binding.keyEvent = keyEvent ∧ (binding.actionName, key) ∈ actionMappings).map fun binding =>
      binding.handler draw

/-- What the axes call in a frame. -/
def axisParts (input : InputComponent K) (keys : Finset Key) (device : Key → K) : List (Part K) :=
  input.axisBindings.map fun binding =>
    binding.handler (axisValue keys device binding.axisName)

end InputComponent

/-- A handler of the fire component. -/
def fireHandler (event : Shot → FireComponent.Event) (draw : PressDraw) : Part K :=
  .world (.fire (event draw.shot) draw.index)

/-- A handler of the movement component. -/
def moveHandler (event : MoveComponent.Event K) (_ : PressDraw) : Part K :=
  .move event

/-- `UTPSPlayerMoveComponent::SetupPlayerInput`. -/
def MoveComponent.setupPlayerInput (input : InputComponent K) : InputComponent K :=
  input
    |>.bindAxis .horizontal (fun value => .move (.onAxisHorizontal value))
    |>.bindAxis .vertical (fun value => .move (.onAxisVertical value))
    |>.bindAxis .turnRight (fun value => .move (.onAxisTurnRight value))
    |>.bindAxis .lookUp (fun value => .move (.onAxisLookUp value))
    |>.bindAction .jump .pressed (moveHandler .onActionJump)
    |>.bindAction .run .pressed (moveHandler .onActionRunPressed)
    |>.bindAction .run .released (moveHandler .onActionRunReleased)
    |>.bindAction .crouch .pressed (moveHandler .onActionCouchPressed)
    |>.bindAction .crouch .released (moveHandler .onActionCouchReleased)

/-- `UTPSPlayerFireComponent::SetupPlayerInput`. -/
def FireComponent.setupPlayerInput (input : InputComponent K) : InputComponent K :=
  input
    |>.bindAction .fireBullet .pressed (fireHandler .onActionFirePressed)
    |>.bindAction .fireBullet .released (fireHandler fun _ => .onActionFireRelesed)
    |>.bindAction .grenadeGun .pressed (fireHandler fun _ => .onActionGrenade)
    |>.bindAction .sniperGun .pressed (fireHandler fun _ => .onActionSniper)
    |>.bindAction .sniperZoom .pressed (fireHandler fun _ => .onActionZoomIn)
    |>.bindAction .sniperZoom .released (fireHandler fun _ => .onActionZoomOut)
    |>.bindAction .reload .pressed (fireHandler fun _ => .onActionReload)

/-- `UTPSPlayerBaseComponent::InitializeComponent`: the delegate gets one more function to call. -/
def initializeComponent (setupInputDelegate : List (InputComponent K → InputComponent K))
    (setupPlayerInput : InputComponent K → InputComponent K) :
    List (InputComponent K → InputComponent K) :=
  setupInputDelegate ++ [setupPlayerInput]

/-- `ATPSPlayer::SetupPlayerInputComponent`: `Broadcast` calls what was added last first. -/
def setupPlayerInputComponent (setupInputDelegate : List (InputComponent K → InputComponent K))
    (input : InputComponent K) : InputComponent K :=
  setupInputDelegate.foldr (fun setupPlayerInput input => setupPlayerInput input) input

/-- The input of the player: `moveComp` is initialised before `fireComp`. -/
def playerInput : InputComponent K :=
  setupPlayerInputComponent
    (initializeComponent (initializeComponent [] MoveComponent.setupPlayerInput)
      FireComponent.setupPlayerInput) {}

/-! ### What the bindings come to -/

/-- The action of a key. -/
def Key.action : Key → Option ActionName
  | .gamepadFaceButtonBottom | .spaceBar => some .jump
  | .leftMouseButton => some .fireBullet
  | .one => some .grenadeGun
  | .two => some .sniperGun
  | .rightMouseButton => some .sniperZoom
  | .leftShift => some .run
  | .leftControl => some .crouch
  | .r => some .reload
  | _ => none

/-- A key has one action at most. -/
theorem mem_actionMappings (actionName : ActionName) (key : Key) :
    (actionName, key) ∈ actionMappings ↔ key.action = some actionName := by
  cases key <;> cases actionName <;> decide

/-- What is called for an action. -/
def ActionName.parts (draw : PressDraw) : InputEvent → ActionName → List (Part K)
  | .pressed, .jump => [.move .onActionJump]
  | .pressed, .fireBullet => [.world (.fire (.onActionFirePressed draw.shot) draw.index)]
  | .pressed, .grenadeGun => [.world (.fire .onActionGrenade draw.index)]
  | .pressed, .sniperGun => [.world (.fire .onActionSniper draw.index)]
  | .pressed, .sniperZoom => [.world (.fire .onActionZoomIn draw.index)]
  | .pressed, .run => [.move .onActionRunPressed]
  | .pressed, .crouch => [.move .onActionCouchPressed]
  | .pressed, .reload => [.world (.fire .onActionReload draw.index)]
  | .released, .fireBullet => [.world (.fire .onActionFireRelesed draw.index)]
  | .released, .sniperZoom => [.world (.fire .onActionZoomOut draw.index)]
  | .released, .run => [.move .onActionRunReleased]
  | .released, .crouch => [.move .onActionCouchReleased]
  | .released, _ => []

theorem playerInput_actionBindings : (playerInput (K := K)).actionBindings =
    [⟨.fireBullet, .pressed, fireHandler .onActionFirePressed⟩,
      ⟨.fireBullet, .released, fireHandler fun _ => .onActionFireRelesed⟩,
      ⟨.grenadeGun, .pressed, fireHandler fun _ => .onActionGrenade⟩,
      ⟨.sniperGun, .pressed, fireHandler fun _ => .onActionSniper⟩,
      ⟨.sniperZoom, .pressed, fireHandler fun _ => .onActionZoomIn⟩,
      ⟨.sniperZoom, .released, fireHandler fun _ => .onActionZoomOut⟩,
      ⟨.reload, .pressed, fireHandler fun _ => .onActionReload⟩,
      ⟨.jump, .pressed, moveHandler .onActionJump⟩,
      ⟨.run, .pressed, moveHandler .onActionRunPressed⟩,
      ⟨.run, .released, moveHandler .onActionRunReleased⟩,
      ⟨.crouch, .pressed, moveHandler .onActionCouchPressed⟩,
      ⟨.crouch, .released, moveHandler .onActionCouchReleased⟩] := rfl

/-- **What a key calls** is what is called for its action. -/
theorem actionParts_eq (key : Key) (keyEvent : InputEvent) (draw : PressDraw) :
    (playerInput (K := K)).actionParts key keyEvent draw =
      key.action.elim [] (ActionName.parts draw keyEvent) := by
  unfold InputComponent.actionParts
  rw [playerInput_actionBindings]
  simp only [mem_actionMappings]
  cases key.action with
  | none => simp
  | some actionName =>
    simp only [Option.some.injEq]
    cases keyEvent <;> cases actionName <;> rfl

/-- **What a frame calls**: four handlers of the movement component. -/
theorem axisParts_eq (keys : Finset Key) (device : Key → K) :
    playerInput.axisParts keys device =
      [.move (.onAxisHorizontal (axisValue keys device .horizontal)),
        .move (.onAxisVertical (axisValue keys device .vertical)),
        .move (.onAxisTurnRight (axisValue keys device .turnRight)),
        .move (.onAxisLookUp (axisValue keys device .lookUp))] := rfl

/-! ### Sessions -/

/-- A game, its movement component and the keys that are down. -/
structure Session (K : Type u) (ω : Type) where
  keys : Finset Key
  move : MoveComponent K
  world : ω

/-- The calls of a session. -/
inductive SessionCall (K : Type u)
  | move (call : MoveCall K)
  | world (call : WorldCall)

/-- The event comes from the player's input. -/
def FireComponent.Event.isInput : FireComponent.Event → Bool
  | .fireTimer | .reloadGun | .reloadSniper => false
  | _ => true

/-- The event comes from the player's input. -/
def World.Event.isInput : World.Event → Bool
  | .fire event _ => event.isInput
  | _ => false

namespace Session

/-- One event: a key goes down or comes up, the axes of a frame, a tick of the movement component
under a control rotation, or anything in the game that is no input. -/
inductive Event (K : Type u) [CommRing K]
  | keyDown (key : Key) (draw : PressDraw)
  | keyUp (key : Key) (draw : PressDraw)
  | axes (device : Key → K)
  | tick (rotation : FRotator K)
  | world (event : World.Event)

/-- After every `BeginPlay`, with no key down. -/
def beginPlay (cfg : GameConfig) (placed : ℕ) (randTime : ℚ) : Session K World where
  keys := ∅
  move := .beginPlay
  world := .beginPlay cfg placed randTime

/-- A key goes down where it is up and comes up where it is down, and what is input comes from keys. -/
def Event.Possible (keys : Finset Key) : Event K → Prop
  | .keyDown key _ => key ∉ keys
  | .keyUp key _ => key ∈ keys
  | .world event => event.isInput = false
  | _ => True

instance (keys : Finset Key) : DecidablePred (Event.Possible (K := K) keys)
  | .keyDown key _ => inferInstanceAs (Decidable (key ∉ keys))
  | .keyUp key _ => inferInstanceAs (Decidable (key ∈ keys))
  | .world event => inferInstanceAs (Decidable (event.isInput = false))
  | .axes _ | .tick _ => inferInstanceAs (Decidable True)

/-- The keys that are down after an event. -/
def keysAfter (keys : Finset Key) : Event K → Finset Key
  | .keyDown key _ => insert key keys
  | .keyUp key _ => keys.erase key
  | _ => keys

/-- What an event has the components do, in order. -/
def parts (keys : Finset Key) : Event K → List (Part K)
  | .keyDown key draw => playerInput.actionParts key .pressed draw
  | .keyUp key draw => playerInput.actionParts key .released draw
  | .axes device => playerInput.axisParts keys device
  | .tick rotation => [.move (.tick rotation)]
  | .world event => [.world event]

section Handle

variable {ω : Type} (game : Step ω World.Event WorldCall) (normalize : FVector K → FVector K)

/-- One thing that a component does. -/
def play : Step (Session K ω) (Part K) (SessionCall K)
  | session, .move event =>
    (MoveComponent.step normalize session.move event).map fun (move, calls) =>
      ({ session with move := move }, calls.map .move)
  | session, .world event =>
    (game session.world event).map fun (world, calls) =>
      ({ session with world := world }, calls.map .world)

/-- One event: the keys change, and the components do their parts. -/
def handle : Step (Session K ω) (Event K) (SessionCall K) := fun session event =>
  if event.Possible session.keys then
    exec (play game normalize) { session with keys := keysAfter session.keys event }
      (parts session.keys event)
  else none

end Handle

/-- One event of a session. -/
def step (cfg : GameConfig) (normalize : FVector K → FVector K) :
    Step (Session K World) (Event K) (SessionCall K) :=
  handle (World.step cfg) normalize

/-- The transitions of a session. -/
abbrev Move (K : Type u) [CommRing K] := Transition (Session K World) (Event K) (SessionCall K)

end Session

end MyTPSGame
