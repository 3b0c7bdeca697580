/-
**The player: health and fire component.**

`Player` is `ATPSPlayer` as far as `OnHit` goes. `FireComponent` is `UTPSPlayerFireComponent` with
what it writes of the player's camera, of the two gun meshes and of the two widgets. Its handlers
answer with the calls they make, in order; a press of the fire button takes what the engine says
about the shot as an input.

* `FireComponent.step`: the component under its input, its timer and the reload notifications;
* `Press`, `onActionFirePressed_press`: everything a press can do;
* `Handled`, `step_handled`: everything any event can do.
-/

import MyTPSGame.Machine.Run
import MyTPSGame.Model.Engine

namespace MyTPSGame

open Machine

/-! ### The player's health -/

/-- `ATPSPlayer`. `MaxHP` is a constant of the run. -/
structure Player where
  HP : ℤ
  deriving DecidableEq

/-- The Blueprint event of `ATPSPlayer::OnHit`. -/
inductive PlayerCall
  | onMyGameOver
  deriving DecidableEq

namespace Player

/-- `ATPSPlayer::BeginPlay`. -/
def beginPlay (MaxHP : ℤ) : Player :=
  { HP := MaxHP }

/-- `ATPSPlayer::OnHit`. -/
def onHit (player : Player) (damage : ℤ) : Player × List PlayerCall :=
  let hurt := { player with HP := player.HP - damage }
  (hurt, if hurt.HP ≤ 0 then [.onMyGameOver] else [])

@[simp] theorem onHit_HP (player : Player) (damage : ℤ) :
    (player.onHit damage).1.HP = player.HP - damage := rfl

end Player

/-! ### The fire component -/

/-- The `EditAnywhere` fields of `UTPSPlayerFireComponent`. -/
structure FireConfig where
  maxGunAmmo : ℤ := 20
  maxSniperAmmo : ℤ := 5
  fireInterval : ℚ := 1 / 2
  bChooseGrenadeGun : Bool := false

/-- `UTPSPlayerFireComponent`, the camera's field of view, which widgets are in the viewport and
which gun meshes are visible. `fireTimer` is the interval of the looping timer while it is active;
`canShakeInstance` is whether that pointer is set. -/
structure FireComponent where
  bChooseGrenadeGun : Bool
  gunAmmo : ℤ := 0
  sniperAmmo : ℤ := 0
  fireTimer : Option ℚ := none
  canShakeInstance : Bool := false
  fieldOfView : ℕ := 90
  crosshairUI : Bool := false
  sniperUI : Bool := false
  gunMeshVisible : Bool := true
  sniperMeshVisible : Bool := true
  deriving DecidableEq

/-- A hit of the sniper's line trace: which enemy the actor is, if it is one, and whether there is a
component that simulates physics. -/
structure TraceHit where
  enemy : Option ℕ
  simulatingPhysics : Bool := false
  deriving DecidableEq

/-- What the engine decides about one press: whether the old camera shake has finished, whether
starting one gives an instance, and what the line trace hits. -/
structure Shot where
  shakeFinished : Bool := true
  shakeStarted : Bool := true
  trace : Option TraceHit := none
  deriving DecidableEq

/-- The calls the fire component makes. -/
inductive FireCall
  | onMyGrenadeGunAmmoUpdate (current max : ℤ)
  | onMySniperGunAmmoUpdate (current max : ℤ)
  | stopCameraShake
  | startCameraShake
  | onFire (sectionName : String)
  | playSoundAtLocation
  | spawnBullet
  | lineTrace
  | spawnEmitterAtLocation
  | onDamageProcess (enemy : ℕ) (damageAmount : ℤ)
  | addForce
  | onMyChooseGun (isGrenadeGun : Bool)
  deriving DecidableEq

namespace FireComponent

/-- The first part of `OnActionFirePressed`: one round of the chosen gun, or the return. -/
def takeAmmo (cfg : FireConfig) (fire : FireComponent) : Option (FireComponent × List FireCall) :=
  if fire.bChooseGrenadeGun then
    if 0 < fire.gunAmmo then
      some ({ fire with gunAmmo := fire.gunAmmo - 1 },
        [.onMyGrenadeGunAmmoUpdate (fire.gunAmmo - 1) cfg.maxGunAmmo])
    else none
  else
    if 0 < fire.sniperAmmo then
      some ({ fire with sniperAmmo := fire.sniperAmmo - 1 },
        [.onMySniperGunAmmoUpdate (fire.sniperAmmo - 1) cfg.maxSniperAmmo])
    else none

/-- The part of `OnActionFirePressed` that every accepted press shares: camera, montage, sound. -/
def shakeCamera (fire : FireComponent) (shot : Shot) : FireComponent × List FireCall :=
  ({ fire with canShakeInstance := shot.shakeStarted },
    (if fire.canShakeInstance = true ∧ shot.shakeFinished = false then [.stopCameraShake] else []) ++
      [.startCameraShake, .onFire "Default", .playSoundAtLocation])

/-- `UTPSPlayerFireComponent::DoFire`. -/
def doFire : List FireCall :=
  [.spawnBullet]

/-- The sniper's part of `OnActionFirePressed`: the trace, and what it does to what it hits. -/
def traceCalls (shot : Shot) : List FireCall :=
  .lineTrace ::
    match shot.trace with
    | none => []
    | some hit =>
      .spawnEmitterAtLocation ::
        (match hit.enemy with
          | none => []
          | some enemy => [.onDamageProcess enemy 1]) ++
        if hit.simulatingPhysics then [.addForce] else []

/-- The last part of `OnActionFirePressed`: the looping timer and a bullet, or the trace. -/
def shoot (cfg : FireConfig) (fire : FireComponent) (shot : Shot) :
    FireComponent × List FireCall :=
  if fire.bChooseGrenadeGun then ({ fire with fireTimer := setTimer cfg.fireInterval }, doFire)
  else (fire, traceCalls shot)

/-- `UTPSPlayerFireComponent::OnActionFirePressed`. -/
def onActionFirePressed (cfg : FireConfig) (fire : FireComponent) (shot : Shot) :
    FireComponent × List FireCall :=
  match fire.takeAmmo cfg with
  | none => (fire, [])
  | some (paid, report) =>
    let (shaken, effects) := paid.shakeCamera shot
    let (fired, shots) := shaken.shoot cfg shot
    (fired, report ++ effects ++ shots)

/-- `UTPSPlayerFireComponent::OnActionFireRelesed`. -/
def onActionFireRelesed (fire : FireComponent) : FireComponent :=
  { fire with fireTimer := none }

/-- `UTPSPlayerFireComponent::ChooseGun`. -/
def chooseGun (fire : FireComponent) (bGrenade : Bool) : FireComponent × List FireCall :=
  let unzoomed :=
    if fire.bChooseGrenadeGun = false ∧ bGrenade = true then
      { fire with fieldOfView := 90, crosshairUI := true, sniperUI := false }
    else fire
  ({ unzoomed with
      bChooseGrenadeGun := bGrenade
      gunMeshVisible := bGrenade
      sniperMeshVisible := !bGrenade }, [.onMyChooseGun bGrenade])

/-- `UTPSPlayerFireComponent::OnActionGrenade`: `GRENADE_GUN` is `true`. -/
def onActionGrenade (fire : FireComponent) : FireComponent × List FireCall :=
  fire.chooseGun true

/-- `UTPSPlayerFireComponent::OnActionSniper`: `SNIPER_GUN` is `false`. -/
def onActionSniper (fire : FireComponent) : FireComponent × List FireCall :=
  fire.chooseGun false

/-- `UTPSPlayerFireComponent::OnActionZoomIn`. -/
def onActionZoomIn (fire : FireComponent) : FireComponent :=
  if fire.bChooseGrenadeGun then fire
  else { fire with fieldOfView := 20, crosshairUI := false, sniperUI := true }

/-- `UTPSPlayerFireComponent::OnActionZoomOut`. -/
def onActionZoomOut (fire : FireComponent) : FireComponent :=
  if fire.bChooseGrenadeGun then fire
  else { fire with fieldOfView := 90, crosshairUI := true, sniperUI := false }

/-- `UTPSPlayerFireComponent::OnActionReload`: only the montage; the rounds come with its
notification. -/
def onActionReload (fire : FireComponent) : List FireCall :=
  if fire.bChooseGrenadeGun then [.onFire "GunReload"] else [.onFire "SniperReload"]

/-- `UTPSPlayerFireComponent::ReloadGun`, called by `UTPSPlayerAnim::OnGunReload`. -/
def reloadGun (cfg : FireConfig) (fire : FireComponent) : FireComponent × List FireCall :=
  ({ fire with gunAmmo := cfg.maxGunAmmo },
    [.onMyGrenadeGunAmmoUpdate cfg.maxGunAmmo cfg.maxGunAmmo])

/-- `UTPSPlayerFireComponent::ReloadSniper`, called by `UTPSPlayerAnim::OnSniperReload`. -/
def reloadSniper (cfg : FireConfig) (fire : FireComponent) : FireComponent × List FireCall :=
  ({ fire with sniperAmmo := cfg.maxSniperAmmo },
    [.onMySniperGunAmmoUpdate cfg.maxSniperAmmo cfg.maxSniperAmmo])

/-- `UTPSPlayerFireComponent::BeginPlay`. -/
def beginPlay (cfg : FireConfig) : FireComponent :=
  let shown : FireComponent := { bChooseGrenadeGun := cfg.bChooseGrenadeGun, crosshairUI := true }
  { (shown.chooseGun true).1 with gunAmmo := cfg.maxGunAmmo, sniperAmmo := cfg.maxSniperAmmo }

/-- The events of the fire component: its input, one firing of the looping timer, and the reload
notifications. -/
inductive Event
  | onActionFirePressed (shot : Shot)
  | onActionFireRelesed
  | fireTimer
  | onActionGrenade
  | onActionSniper
  | onActionZoomIn
  | onActionZoomOut
  | onActionReload
  | reloadGun
  | reloadSniper
  deriving DecidableEq

/-- One event of the fire component. The timer can fire only while it is active. -/
def step (cfg : FireConfig) : Step FireComponent Event FireCall
  | fire, .onActionFirePressed shot => some (fire.onActionFirePressed cfg shot)
  | fire, .onActionFireRelesed => some (fire.onActionFireRelesed, [])
  | fire, .fireTimer => if fire.fireTimer.isSome then some (fire, doFire) else none
  | fire, .onActionGrenade => some fire.onActionGrenade
  | fire, .onActionSniper => some fire.onActionSniper
  | fire, .onActionZoomIn => some (fire.onActionZoomIn, [])
  | fire, .onActionZoomOut => some (fire.onActionZoomOut, [])
  | fire, .onActionReload => some (fire, fire.onActionReload)
  | fire, .reloadGun => some (fire.reloadGun cfg)
  | fire, .reloadSniper => some (fire.reloadSniper cfg)

/-- The transitions of the fire component. -/
abbrev Move := Transition FireComponent Event FireCall

/-! ### Everything an event can do -/

/-- The enemy that a press of the fire button shoots, if it does. -/
def struck (fire : FireComponent) (shot : Shot) : Option ℕ :=
  if fire.bChooseGrenadeGun = false ∧ 0 < fire.sniperAmmo then shot.trace.bind TraceHit.enemy
  else none

/-- The calls of `shakeCamera`. -/
def shakeCalls (fire : FireComponent) (shot : Shot) : List FireCall :=
  (fire.shakeCamera shot).2

/-- Everything a press of the fire button can do: nothing on an empty gun, one round and the timer
on the rifle, one round and the trace on the sniper. -/
inductive Press (cfg : FireConfig) (fire : FireComponent) (shot : Shot) :
    FireComponent → List FireCall → Prop
  | dryGun : fire.bChooseGrenadeGun = true → fire.gunAmmo ≤ 0 → Press cfg fire shot fire []
  | drySniper : fire.bChooseGrenadeGun = false → fire.sniperAmmo ≤ 0 → Press cfg fire shot fire []
  | gun : fire.bChooseGrenadeGun = true → 0 < fire.gunAmmo →
      Press cfg fire shot
        { fire with
          gunAmmo := fire.gunAmmo - 1
          canShakeInstance := shot.shakeStarted
          fireTimer := setTimer cfg.fireInterval }
        ([.onMyGrenadeGunAmmoUpdate (fire.gunAmmo - 1) cfg.maxGunAmmo] ++ fire.shakeCalls shot ++
          [.spawnBullet])
  | sniper : fire.bChooseGrenadeGun = false → 0 < fire.sniperAmmo →
      Press cfg fire shot
        { fire with
          sniperAmmo := fire.sniperAmmo - 1
          canShakeInstance := shot.shakeStarted }
        ([.onMySniperGunAmmoUpdate (fire.sniperAmmo - 1) cfg.maxSniperAmmo] ++
          fire.shakeCalls shot ++ traceCalls shot)

theorem onActionFirePressed_press (cfg : FireConfig) (fire : FireComponent) (shot : Shot) :
    Press cfg fire shot (fire.onActionFirePressed cfg shot).1
      (fire.onActionFirePressed cfg shot).2 := by
  unfold onActionFirePressed takeAmmo shoot
  cases chosen : fire.bChooseGrenadeGun with
  | true =>
    by_cases loaded : 0 < fire.gunAmmo
    · have press : Press cfg fire shot _ _ := .gun chosen loaded
      simpa only [loaded, if_true, chosen, shakeCalls, shakeCamera, doFire] using press
    · simp only [loaded, if_true, if_false]
      exact .dryGun chosen (not_lt.mp loaded)
  | false =>
    by_cases loaded : 0 < fire.sniperAmmo
    · have press : Press cfg fire shot _ _ := .sniper chosen loaded
      simpa only [loaded, if_true, Bool.false_eq_true, if_false, chosen, shakeCalls, shakeCamera]
        using press
    · simp only [loaded, Bool.false_eq_true, if_false]
      exact .drySniper chosen (not_lt.mp loaded)

/-- Everything one event can do to the fire component. -/
inductive Handled (cfg : FireConfig) (fire : FireComponent) :
    Event → FireComponent → List FireCall → Prop
  | presses (shot : Shot) (next : FireComponent) (calls : List FireCall) :
      Press cfg fire shot next calls → Handled cfg fire (.onActionFirePressed shot) next calls
  | releases : Handled cfg fire .onActionFireRelesed { fire with fireTimer := none } []
  | fires : fire.fireTimer ≠ none → Handled cfg fire .fireTimer fire [.spawnBullet]
  | choosesRifle :
      Handled cfg fire .onActionGrenade (fire.chooseGun true).1 [.onMyChooseGun true]
  | choosesSniper :
      Handled cfg fire .onActionSniper (fire.chooseGun false).1 [.onMyChooseGun false]
  | zoomsIn : fire.bChooseGrenadeGun = false →
      Handled cfg fire .onActionZoomIn
        { fire with fieldOfView := 20, crosshairUI := false, sniperUI := true } []
  | zoomsOut : fire.bChooseGrenadeGun = false →
      Handled cfg fire .onActionZoomOut
        { fire with fieldOfView := 90, crosshairUI := true, sniperUI := false } []
  | zoomIgnored (event : Event) : fire.bChooseGrenadeGun = true →
      event = .onActionZoomIn ∨ event = .onActionZoomOut → Handled cfg fire event fire []
  | asksReload (sectionName : String) :
      sectionName = (if fire.bChooseGrenadeGun then "GunReload" else "SniperReload") →
      Handled cfg fire .onActionReload fire [.onFire sectionName]
  | reloadsGun :
      Handled cfg fire .reloadGun { fire with gunAmmo := cfg.maxGunAmmo }
        [.onMyGrenadeGunAmmoUpdate cfg.maxGunAmmo cfg.maxGunAmmo]
  | reloadsSniper :
      Handled cfg fire .reloadSniper { fire with sniperAmmo := cfg.maxSniperAmmo }
        [.onMySniperGunAmmoUpdate cfg.maxSniperAmmo cfg.maxSniperAmmo]

section Inversion

variable {cfg : FireConfig} {fire next : FireComponent} {calls : List FireCall}

theorem step_press {shot : Shot}
    (done : step cfg fire (.onActionFirePressed shot) = some (next, calls)) :
    Press cfg fire shot next calls := by
  have press := onActionFirePressed_press cfg fire shot
  rwa [show fire.onActionFirePressed cfg shot = (next, calls) from Option.some.inj done] at press

/-- **The component does nothing but handle its events.** -/
theorem step_handled {event : Event} (done : step cfg fire event = some (next, calls)) :
    Handled cfg fire event next calls := by
  cases event with
  | onActionFirePressed shot => exact .presses shot next calls (step_press done)
  | onActionFireRelesed =>
    cases done
    exact .releases
  | fireTimer =>
    change (if fire.fireTimer.isSome then some (fire, doFire) else none) = _ at done
    by_cases active : fire.fireTimer.isSome
    · rw [if_pos active] at done
      cases done
      exact .fires (Option.isSome_iff_ne_none.mp active)
    · rw [if_neg active] at done
      cases done
  | onActionGrenade =>
    cases done
    exact .choosesRifle
  | onActionSniper =>
    cases done
    exact .choosesSniper
  | onActionZoomIn =>
    cases done
    unfold onActionZoomIn
    by_cases rifle : fire.bChooseGrenadeGun = true
    · rw [if_pos rifle]
      exact .zoomIgnored _ rifle (Or.inl rfl)
    · rw [if_neg rifle]
      exact .zoomsIn (Bool.eq_false_iff.mpr rifle)
  | onActionZoomOut =>
    cases done
    unfold onActionZoomOut
    by_cases rifle : fire.bChooseGrenadeGun = true
    · rw [if_pos rifle]
      exact .zoomIgnored _ rifle (Or.inr rfl)
    · rw [if_neg rifle]
      exact .zoomsOut (Bool.eq_false_iff.mpr rifle)
  | onActionReload =>
    cases done
    unfold onActionReload
    cases chosen : fire.bChooseGrenadeGun with
    | true => exact .asksReload "GunReload" (by rw [chosen]; rfl)
    | false => exact .asksReload "SniperReload" (by rw [chosen]; rfl)
  | reloadGun =>
    cases done
    exact .reloadsGun
  | reloadSniper =>
    cases done
    exact .reloadsSniper

end Inversion

section ChooseGun

variable (fire : FireComponent) (bGrenade : Bool)

@[simp] theorem chooseGun_gunAmmo : (fire.chooseGun bGrenade).1.gunAmmo = fire.gunAmmo := by
  unfold chooseGun
  dsimp only
  split <;> rfl

@[simp] theorem chooseGun_fireTimer : (fire.chooseGun bGrenade).1.fireTimer = fire.fireTimer := by
  unfold chooseGun
  dsimp only
  split <;> rfl

@[simp] theorem chooseGun_bChooseGrenadeGun :
    (fire.chooseGun bGrenade).1.bChooseGrenadeGun = bGrenade := rfl

end ChooseGun

/-! ### The one call of a press on an enemy -/

/-- Calls that damage no enemy. -/
def Harmless (calls : List FireCall) : Prop :=
  ∀ call ∈ calls, ∀ enemy damageAmount, call ≠ .onDamageProcess enemy damageAmount

section Harmless

variable {cfg : FireConfig} {fire next : FireComponent} {shot : Shot} {calls : List FireCall}
  {enemy : ℕ}

theorem Harmless.append {first second : List FireCall} (left : Harmless first)
    (right : Harmless second) : Harmless (first ++ second) := fun call member =>
  (List.mem_append.mp member).elim (left call) (right call)

theorem harmless_shakeCalls (fire : FireComponent) (shot : Shot) :
    Harmless (fire.shakeCalls shot) := by
  unfold shakeCalls shakeCamera
  refine Harmless.append ?_ (by simp [Harmless])
  split <;> simp [Harmless]

/-- A press that shoots an enemy damages that enemy, once and by one. -/
theorem Press.struck (press : Press cfg fire shot next calls)
    (struck : fire.struck shot = some enemy) :
    ∃ before after, Harmless before ∧ Harmless after ∧
      calls = before ++ .onDamageProcess enemy 1 :: after := by
  unfold FireComponent.struck at struck
  by_cases loaded : fire.bChooseGrenadeGun = false ∧ 0 < fire.sniperAmmo
  · rw [if_pos loaded] at struck
    obtain ⟨hit, traced, named⟩ := Option.bind_eq_some_iff.mp struck
    cases press with
    | dryGun chosen _ => rw [loaded.1] at chosen; cases chosen
    | drySniper _ empty => exact absurd loaded.2 (not_lt.mpr empty)
    | gun chosen _ => rw [loaded.1] at chosen; cases chosen
    | sniper _ _ =>
      refine ⟨[.onMySniperGunAmmoUpdate (fire.sniperAmmo - 1) cfg.maxSniperAmmo] ++
        fire.shakeCalls shot ++ [.lineTrace, .spawnEmitterAtLocation],
        if hit.simulatingPhysics then [.addForce] else [], ?_, ?_, ?_⟩
      · refine (Harmless.append ?_ (harmless_shakeCalls fire shot)).append ?_ <;> simp [Harmless]
      · split <;> simp [Harmless]
      · simp [traceCalls, traced, named]
  · rw [if_neg loaded] at struck
    cases struck

/-- A press that shoots no enemy damages none. -/
theorem Press.missed (press : Press cfg fire shot next calls) (missed : fire.struck shot = none) :
    Harmless calls := by
  cases press with
  | dryGun _ _ => simp [Harmless]
  | drySniper _ _ => simp [Harmless]
  | gun _ _ =>
    refine (Harmless.append ?_ (harmless_shakeCalls fire shot)).append ?_ <;> simp [Harmless]
  | sniper chosen loaded =>
    have nobody : shot.trace.bind TraceHit.enemy = none := by
      rwa [FireComponent.struck, if_pos ⟨chosen, loaded⟩] at missed
    refine (Harmless.append (by simp [Harmless]) (harmless_shakeCalls fire shot)).append ?_
    unfold traceCalls
    cases traced : shot.trace with
    | none => simp [Harmless]
    | some hit =>
      have none : hit.enemy = none := by simpa [traced] using nobody
      simp only [none]
      split <;> simp [Harmless]

/-- Only a press of the fire button can damage an enemy. -/
theorem Handled.harmless {event : Event} (handled : Handled cfg fire event next calls)
    (other : ∀ shot, event ≠ .onActionFirePressed shot) : Harmless calls := by
  cases handled with
  | presses shot _ _ _ => exact absurd rfl (other shot)
  | _ => simp [Harmless]

end Harmless

end FireComponent

end MyTPSGame
