/-
**From the keys to the legs.**

The axes of a frame write the direction, the next tick of the movement component turns it by the control
rotation, adds it as movement input and forgets it. The animation turns the velocity back.

* `steered`: the movement input that a tick adds is that of the last frame's axes, or none if the last
  tick is later, whatever keys and game do in between;
* `stands_iff`: with the gamepad at rest it is zero if and only if opposite keys are both down or both up;
* `shown_iff`: the animation of a character that goes where the input points and faces where the player
  looks shows the direction of the axes, at any yaw, if and only if the player goes along an axis or
  looks straight ahead.
-/

import MyTPSGame.Player.Controls
import MyTPSGame.Player.Pitch

namespace MyTPSGame

open Machine Plane MoveComponent

universe u

/-! ### The direction -/

namespace MoveComponent

variable {K : Type u} [CommRing K] {normalize : FVector K → FVector K}

/-- The direction, after an event. -/
def steering : Event K → FVector K → FVector K
  | .onAxisHorizontal value, direction => { direction with Y := value }
  | .onAxisVertical value, direction => { direction with X := value }
  | .tick _, _ => .ZeroVector
  | _, direction => direction

theorem tracks_steering : Tracks (step normalize) (fun direction move => move.direction = direction)
    steering := by
  rintro move event next calls _ done rfl
  cases event <;> cases done <;> rfl

end MoveComponent

namespace Session

section Direction

variable {K : Type u} [CommRing K] {cfg : GameConfig} {normalize : FVector K → FVector K} {placed : ℕ}
  {randTime : ℚ} {s : Session K World} {ts : List (Move K)} {t : Move K}

/-- The input that a transition leaves to the next tick: that of the axes, or none after a tick. -/
def sampled (t : Move K) : Option (K × K) :=
  match t.event with
  | .axes device =>
    some (axisValue t.pre.keys device .vertical, axisValue t.pre.keys device .horizontal)
  | .tick _ => some (0, 0)
  | _ => none

/-- What a transition does to the direction. -/
theorem taken_direction (taken : t.Taken (step cfg normalize)) :
    t.post.move.direction =
      updated (onMove steering) t.pre.move.direction (parts t.pre.keys t.event) :=
  (tracks_move tracks_steering).exec (taken_parts taken).2 rfl

/-- The direction has no `Z`. -/
theorem direction_run (run : Run (step cfg normalize) (beginPlay cfg placed randTime) ts s) :
    s.move.direction.Z = 0 := by
  have flat : Tracks (MoveComponent.step normalize) (fun _ move => move.direction.Z = 0)
      fun _ (_ : Unit) => () := by
    intro move event next calls _ done level
    exact taken_level (t := ⟨move, event, next, calls⟩) done level
  refine run.invariant (I := fun s => s.move.direction.Z = 0) rfl ?_
  intro t _ taken level
  exact (tracks_move flat).exec (a := ()) (taken_parts taken).2 level

/-- Keys and game leave the direction alone. -/
theorem taken_unsampled (taken : t.Taken (step cfg normalize)) (idle : sampled t = none) :
    t.post.move.direction = t.pre.move.direction := by
  rw [taken_direction taken]
  unfold sampled at idle
  cases event : t.event with
  | keyDown key draw =>
    rw [parts, actionParts_eq]
    cases key <;> rfl
  | keyUp key draw =>
    rw [parts, actionParts_eq]
    cases key <;> rfl
  | axes device =>
    rw [event] at idle
    cases idle
  | tick rotation =>
    rw [event] at idle
    cases idle
  | world event => rfl

/-- The axes and the tick write it. -/
theorem taken_sampled {X Y : K} (taken : t.Taken (step cfg normalize)) (level : t.pre.move.direction.Z = 0)
    (sample : sampled t = some (X, Y)) : t.post.move.direction = ⟨X, Y, 0⟩ := by
  rw [taken_direction taken]
  unfold sampled at sample
  cases event : t.event with
  | axes device =>
    rw [event] at sample
    obtain ⟨rfl, rfl⟩ := Prod.mk.inj (Option.some.inj sample)
    rw [parts, axisParts_eq, ← level]
    rfl
  | tick rotation =>
    rw [event] at sample
    obtain ⟨rfl, rfl⟩ := Prod.mk.inj (Option.some.inj sample)
    rfl
  | keyDown _ _ | keyUp _ _ | world _ =>
    rw [event] at sample
    cases sample

/-- What a tick adds. -/
theorem taken_tick {rotation : FRotator K} (taken : t.Taken (step cfg normalize))
    (tick : t.event = .tick rotation) :
    t.out = [.move (.addMovementInput (normalize (horizontal rotation t.pre.move.direction)))] := by
  have done := (taken_parts taken).2
  rw [tick] at done
  obtain ⟨_, _, moved, _, calls⟩ := play_move (exec_one.symm.trans done)
  cases moved
  exact calls

end Direction

/-! ### Walking -/

section Walking

variable {K : Type u} [Field K] {cfg : GameConfig} {normalize : FVector K → FVector K} {placed : ℕ}
  {randTime : ℚ} {before mid : List (Move K)} {t v : Move K} {X Y : K} {rotation : FRotator K}
  {device : Key → K}

/-- **Where the keys steer, a tick goes**: it adds the axes of the last frame, shortened by the pitch and
turned by the yaw, or nothing if no frame came after the last tick. -/
theorem steered (first : Run (step cfg normalize) (beginPlay cfg placed randTime) before t.pre)
    (taken : t.Taken (step cfg normalize)) (between : Run (step cfg normalize) t.post mid v.pre)
    (last : v.Taken (step cfg normalize)) (sample : sampled t = some (X, Y))
    (idle : ∀ m ∈ mid, sampled m = none) (tick : v.event = .tick rotation) :
    v.out = [.move (.addMovementInput
      (normalize (level (rotation.yaw.rotate (X * rotation.pitch.cos, Y)))))] := by
  have here := taken_sampled taken (direction_run first) sample
  have kept : v.pre.move.direction = ⟨X, Y, 0⟩ :=
    between.invariant (I := fun s => s.move.direction = ⟨X, Y, 0⟩) here fun m member moved same =>
      (taken_unsampled moved (idle m member)).trans same
  rw [taken_tick last tick, kept, ← horizontal_eq]

theorem axisValue_vertical (keys : Finset Key) (device : Key → K) :
    axisValue keys device .vertical = device .gamepadLeftY +
      ((if .w ∈ keys then 1 else 0) - if .s ∈ keys then 1 else 0) := by
  have sum : axisValue keys device .vertical = ((1 : ℤ) : K) * device .gamepadLeftY +
      (((-1 : ℤ) : K) * (if .s ∈ keys then 1 else 0) +
        (((1 : ℤ) : K) * (if .w ∈ keys then 1 else 0) + 0)) := rfl
  rw [sum]
  push_cast
  ring

theorem axisValue_horizontal (keys : Finset Key) (device : Key → K) :
    axisValue keys device .horizontal = device .gamepadLeftX +
      ((if .d ∈ keys then 1 else 0) - if .a ∈ keys then 1 else 0) := by
  have sum : axisValue keys device .horizontal = ((-1 : ℤ) : K) * (if .a ∈ keys then 1 else 0) +
      (((1 : ℤ) : K) * (if .d ∈ keys then 1 else 0) +
        (((1 : ℤ) : K) * device .gamepadLeftX + 0)) := rfl
  rw [sum]
  push_cast
  ring

/-- Opposite keys cancel. -/
theorem opposite_iff (p q : Prop) [Decidable p] [Decidable q] :
    ((if p then (1 : K) else 0) - if q then 1 else 0) = 0 ↔ (p ↔ q) := by
  by_cases forth : p <;> by_cases back : q <;> simp [forth, back]

theorem rotate_eq_zero_iff (turn : Turn K) (x y : K) :
    level (turn.rotate (x, y)) = .ZeroVector ↔ x = 0 ∧ y = 0 := by
  have still : (FVector.ZeroVector : FVector K) = level (turn.rotate (0, 0)) := by
    ext <;> simp [level, Turn.rotate, FVector.ZeroVector]
  rw [still, level_injective.eq_iff, turn.rotate_injective.eq_iff, Prod.mk.injEq]

variable [LinearOrder K] [IsStrictOrderedRing K]

/-- Normalising makes nothing zero that is not, and the zero vector stays as it is. -/
theorem normal_eq_zero_iff (normal : ∀ u, SameDirection K (normalize u) u) (u : FVector K) :
    normalize u = .ZeroVector ↔ u = .ZeroVector := by
  obtain ⟨c, positive, scaled⟩ := normal u
  have coordinates : (c • u = .ZeroVector) ↔ u = .ZeroVector := by
    show (⟨c * u.X, c * u.Y, c * u.Z⟩ : FVector K) = ⟨0, 0, 0⟩ ↔ u = ⟨0, 0, 0⟩
    rw [FVector.ext_iff, FVector.ext_iff]
    simp [positive.ne']
  rw [scaled, coordinates]

/-- **The player stands still** if and only if opposite keys are both down or both up. -/
theorem stands_iff (first : Run (step cfg normalize) (beginPlay cfg placed randTime) before t.pre)
    (taken : t.Taken (step cfg normalize)) (between : Run (step cfg normalize) t.post mid v.pre)
    (last : v.Taken (step cfg normalize)) (axes : t.event = .axes device)
    (idle : ∀ m ∈ mid, sampled m = none) (tick : v.event = .tick rotation)
    (gamepad : device .gamepadLeftX = 0 ∧ device .gamepadLeftY = 0)
    (ahead : rotation.pitch.cos ≠ 0) (normal : ∀ u, SameDirection K (normalize u) u) :
    v.out = [.move (.addMovementInput .ZeroVector)] ↔
      (.w ∈ t.pre.keys ↔ .s ∈ t.pre.keys) ∧ (.d ∈ t.pre.keys ↔ .a ∈ t.pre.keys) := by
  have sample : sampled t = some (axisValue t.pre.keys device .vertical,
      axisValue t.pre.keys device .horizontal) := by
    rw [sampled, axes]
  rw [steered first taken between last sample idle tick, List.singleton_inj, SessionCall.move.injEq,
    MoveCall.addMovementInput.injEq, normal_eq_zero_iff normal, rotate_eq_zero_iff,
    mul_eq_zero_iff_right ahead, axisValue_vertical, axisValue_horizontal, gamepad.1, gamepad.2,
    zero_add, zero_add, opposite_iff, opposite_iff]

end Walking

end Session

/-! ### What the animation shows -/

/-- The direction that the animation shows: forward and to the right. -/
def PlayerAnim.shown {K : Type u} (anim : PlayerAnim K) : K × K :=
  (anim.forwordVelocity, anim.rightVelocity)

section Shown

variable {K : Type u} [Field K] {character : Character K}

/-- The character stands upright. -/
def Character.Upright (character : Character K) : Prop :=
  character.rotation.pitch.cos = 1 ∧ character.rotation.pitch.sin = 0

/-- The animation turns the velocity back, and does not see it rise or fall. -/
theorem shown_eq (upright : character.Upright) (anim : PlayerAnim K) :
    (anim.nativeUpdateAnimation (some character)).shown =
      character.rotation.yaw.back.rotate (character.velocity.X, character.velocity.Y) := by
  obtain ⟨cos, sin⟩ := upright
  ext
  · show character.velocity.dotProduct (getActorForwardVector character.rotation) = _
    simp [FVector.dotProduct, getActorForwardVector, transformVector, Turn.rotate, Turn.back, cos, sin]
  · show character.velocity.dotProduct (getActorRightVector character.rotation) = _
    simp [FVector.dotProduct, getActorRightVector, transformVector, Turn.rotate, Turn.back]

variable [LinearOrder K]

/-- What a character shows that goes where the plane is turned to, and faces that way. -/
theorem shown_sameDirection (upright : character.Upright) {w : K × K}
    (goes : SameDirection K (character.velocity.X, character.velocity.Y)
      (character.rotation.yaw.rotate w)) (anim : PlayerAnim K) :
    SameDirection K (anim.nativeUpdateAnimation (some character)).shown w := by
  have turned := (sameDirection_map_iff character.rotation.yaw.back.rotate_injective
    character.rotation.yaw.back.rotate_smul).mpr goes
  rwa [Turn.rotate_back, ← shown_eq upright anim] at turned

variable [IsStrictOrderedRing K] {cfg : GameConfig} {normalize : FVector K → FVector K} {placed : ℕ}
  {randTime : ℚ} {before mid : List (Session.Move K)} {t v : Session.Move K} {X Y : K}
  {rotation : FRotator K}

/-- **The legs follow the keys**: a character that goes where the movement input points, and faces where
the player looks, shows the direction of the axes if and only if the player goes along an axis or does
not look up or down. -/
theorem shown_iff (first : Run (Session.step cfg normalize) (.beginPlay cfg placed randTime) before t.pre)
    (taken : t.Taken (Session.step cfg normalize))
    (between : Run (Session.step cfg normalize) t.post mid v.pre)
    (last : v.Taken (Session.step cfg normalize)) (sample : Session.sampled t = some (X, Y))
    (idle : ∀ m ∈ mid, Session.sampled m = none) (tick : v.event = .tick rotation)
    (ahead : 0 < rotation.pitch.cos) (normal : ∀ u, SameDirection K (normalize u) u)
    (upright : character.Upright) (faces : character.rotation.yaw = rotation.yaw)
    (follows : ∀ input, .move (.addMovementInput input) ∈ v.out →
      SameDirection K (level (character.velocity.X, character.velocity.Y)) input)
    (anim : PlayerAnim K) :
    SameDirection K (anim.nativeUpdateAnimation (some character)).shown (X, Y) ↔
      X = 0 ∨ Y = 0 ∨ rotation.pitch.cos = 1 := by
  have calls := Session.steered first taken between last sample idle tick
  have goes : SameDirection K (character.velocity.X, character.velocity.Y)
      (character.rotation.yaw.rotate (X * rotation.pitch.cos, Y)) := by
    rw [faces, ← sameDirection_map_iff level_injective level_smul]
    exact (follows _ (by rw [calls]; exact List.mem_singleton_self _)).trans (normal _)
  have same := shown_sameDirection upright goes anim
  calc SameDirection K (anim.nativeUpdateAnimation (some character)).shown (X, Y)
      ↔ SameDirection K (X * rotation.pitch.cos, Y) (X * 1, Y) := by
        rw [mul_one]
        exact ⟨same.symm.trans, same.trans⟩
    _ ↔ X = 0 ∨ Y = 0 ∨ rotation.pitch.cos = 1 := sameDirection_stretch_iff ahead zero_lt_one

end Shown

/-! ### Walking uphill -/

section Uphill

/-- Normalising, along the axes. -/
def along (u : FVector ℚ) : FVector ℚ :=
  (|u.X| + |u.Y| + |u.Z|)⁻¹ • u

theorem along_normal (u : FVector ℚ) : SameDirection ℚ (along u) u := by
  by_cases zero : |u.X| + |u.Y| + |u.Z| = 0
  · refine ⟨1, one_pos, ?_⟩
    have X : u.X = 0 := abs_eq_zero.mp (by linarith [abs_nonneg u.X, abs_nonneg u.Y, abs_nonneg u.Z])
    have Y : u.Y = 0 := abs_eq_zero.mp (by linarith [abs_nonneg u.X, abs_nonneg u.Y, abs_nonneg u.Z])
    have Z : u.Z = 0 := abs_eq_zero.mp (by linarith [abs_nonneg u.X, abs_nonneg u.Y, abs_nonneg u.Z])
    show (⟨_ * u.X, _ * u.Y, _ * u.Z⟩ : FVector ℚ) = ⟨1 * u.X, 1 * u.Y, 1 * u.Z⟩
    rw [X, Y, Z, mul_zero, mul_zero]
  · refine ⟨_, inv_pos.mpr (lt_of_le_of_ne (by positivity) (Ne.symm zero)), rfl⟩

/-- Looking up, and to the right. -/
def uphill : FRotator ℚ where
  pitch := ⟨3 / 5, 4 / 5, by norm_num⟩
  yaw := ⟨0, 1, by norm_num⟩

/-- A character that walks to the right and faces that way. -/
def walker : Character ℚ where
  velocity := ⟨0, 400, 0⟩
  rotation := ⟨⟨1, 0, by norm_num⟩, uphill.yaw⟩
  isFalling := false
  isCrouching := false

/-- Keys go down. -/
def pressing (keys : List Key) (draw : PressDraw) : Session ℚ World :=
  final (Session.step {} along) (.beginPlay {} 0 1) (keys.map fun key => .keyDown key draw)

/-- A frame comes. -/
def framed (keys : List Key) (draw : PressDraw) : Session ℚ World :=
  final (Session.step {} along) (pressing keys draw) [.axes fun _ => 0]

/-- What the next tick calls. -/
def stroll (keys : List Key) (draw : PressDraw) : List (SessionCall ℚ) :=
  ((Session.step {} along (framed keys draw) (.tick uphill)).map Prod.snd).getD []

/-- Ahead and back at once, and nothing to the sides. -/
theorem stands_iff_both :
    stroll [.w, .s] ⟨{}, 0⟩ = [.move (.addMovementInput .ZeroVector)] ↔
      (Key.w ∈ (pressing [.w, .s] ⟨{}, 0⟩).keys ↔ Key.s ∈ (pressing [.w, .s] ⟨{}, 0⟩).keys) ∧
        (Key.d ∈ (pressing [.w, .s] ⟨{}, 0⟩).keys ↔ Key.a ∈ (pressing [.w, .s] ⟨{}, 0⟩).keys) := by
  have axes : Session.step {} along (pressing [.w, .s] ⟨{}, 0⟩) (.axes fun _ => 0) =
      some (framed [.w, .s] ⟨{}, 0⟩, _) := rfl
  have tick : Session.step {} along (framed [.w, .s] ⟨{}, 0⟩) (.tick uphill) =
      some (_, stroll [.w, .s] ⟨{}, 0⟩) := rfl
  exact Session.stands_iff (t := ⟨pressing [.w, .s] ⟨{}, 0⟩, .axes fun _ => 0, _, _⟩)
    (v := ⟨framed [.w, .s] ⟨{}, 0⟩, .tick uphill, _, stroll [.w, .s] ⟨{}, 0⟩⟩)
    (run_trace (Session.step {} along) (.beginPlay {} 0 1) _) axes .nil tick rfl (by simp) rfl
    ⟨rfl, rfl⟩ (show (3 / 5 : ℚ) ≠ 0 by norm_num) along_normal

/-- Straight ahead, looking up: the legs go straight ahead. -/
theorem shown_iff_ahead :
    SameDirection ℚ (PlayerAnim.nativeUpdateAnimation ⟨0, 0, false, false⟩ (some walker)).shown
      (1, 0) ↔ (1 : ℚ) = 0 ∨ (0 : ℚ) = 0 ∨ (3 / 5 : ℚ) = 1 := by
  have first := run_trace (Session.step {} along) (.beginPlay {} 0 1) [.keyDown .w ⟨{}, 0⟩]
  have axes : Session.step {} along (pressing [.w] ⟨{}, 0⟩) (.axes fun _ => 0) =
      some (framed [.w] ⟨{}, 0⟩, _) := rfl
  have tick : Session.step {} along (framed [.w] ⟨{}, 0⟩) (.tick uphill) =
      some (_, stroll [.w] ⟨{}, 0⟩) := rfl
  have sample : some (axisValue (pressing [.w] ⟨{}, 0⟩).keys (fun _ => (0 : ℚ)) .vertical,
      axisValue (pressing [.w] ⟨{}, 0⟩).keys (fun _ => (0 : ℚ)) .horizontal) = some (1, 0) := by
    decide +kernel
  have calls := Session.steered (t := ⟨pressing [.w] ⟨{}, 0⟩, .axes fun _ => 0, _, _⟩)
    (v := ⟨framed [.w] ⟨{}, 0⟩, .tick uphill, _, stroll [.w] ⟨{}, 0⟩⟩) first axes .nil tick sample
    (by simp) rfl
  refine shown_iff (t := ⟨pressing [.w] ⟨{}, 0⟩, .axes fun _ => 0, _, _⟩)
    (v := ⟨framed [.w] ⟨{}, 0⟩, .tick uphill, _, stroll [.w] ⟨{}, 0⟩⟩) first axes .nil tick sample
    (by simp) rfl (show (0 : ℚ) < 3 / 5 by norm_num) along_normal ⟨rfl, rfl⟩ rfl ?_ _
  intro input called
  have same : SessionCall.move (MoveCall.addMovementInput input) = _ :=
    List.mem_singleton.mp (calls ▸ called)
  obtain rfl := MoveCall.addMovementInput.inj (SessionCall.move.inj same)
  refine SameDirection.trans ?_ (along_normal _).symm
  refine (sameDirection_map_iff level_injective level_smul).mpr ⟨2000 / 3, by norm_num, ?_⟩
  ext <;> norm_num [walker, uphill, Turn.rotate]

end Uphill

end MyTPSGame
