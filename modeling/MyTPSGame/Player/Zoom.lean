/-
**The zoom of the sniper.**

The zoom handlers ignore their button while the rifle is chosen, so a release may be lost after the
press was heard. `ChooseGun` makes up for it when the rifle is taken: the component is zoomed for a
held button on the chosen sniper only, and the two widgets and the field of view never disagree.
-/

import MyTPSGame.Model.Player

namespace MyTPSGame

open Machine

namespace FireComponent

/-- Looking through the sniper's sight. -/
def Zoomed (fire : FireComponent) : Prop :=
  fire.fieldOfView = 20 ∧ fire.sniperUI = true ∧ fire.crosshairUI = false

/-- Looking over the crosshair. -/
def Unzoomed (fire : FireComponent) : Prop :=
  fire.fieldOfView = 90 ∧ fire.crosshairUI = true ∧ fire.sniperUI = false

/-- The zoom button, after an event. -/
def zooming (down : Bool) : Event → Bool
  | .onActionZoomIn => true
  | .onActionZoomOut => false
  | _ => down

/-- Whether the zoom button is held after a run. -/
def zoomHeld (ts : List Move) : Bool :=
  ts.foldl (fun down t => zooming down t.event) false

/-- What field of view, widgets and meshes have to do with the zoom button and the chosen gun. -/
structure Sighted (down : Bool) (fire : FireComponent) : Prop where
  sights : Xor (Zoomed fire) (Unzoomed fire)
  zoomed : Zoomed fire → fire.bChooseGrenadeGun = false ∧ down = true
  gunMesh : fire.gunMeshVisible = fire.bChooseGrenadeGun
  sniperMesh : fire.sniperMeshVisible = !fire.bChooseGrenadeGun

variable {cfg : FireConfig} {fire next : FireComponent} {calls : List FireCall} {ts : List Move}
  {down : Bool}

/-! ### One event -/

section Step

theorem not_both (zoomed : Zoomed fire) : ¬ Unzoomed fire := by
  intro unzoomed
  rw [Zoomed, unzoomed.1] at zoomed
  exact absurd zoomed.1 (by decide)

/-- With the crosshair back, any gun may be chosen and the button be up. -/
theorem Unzoomed.sighted (unzoomed : Unzoomed fire)
    (gunMesh : fire.gunMeshVisible = fire.bChooseGrenadeGun)
    (sniperMesh : fire.sniperMeshVisible = !fire.bChooseGrenadeGun) : Sighted down fire where
  sights := Or.inr ⟨unzoomed, fun zoomed => not_both zoomed unzoomed⟩
  zoomed zoomed := absurd unzoomed (not_both zoomed)
  gunMesh := gunMesh
  sniperMesh := sniperMesh

/-- On the rifle the crosshair is back. -/
theorem Sighted.rifle (sighted : Sighted down fire) (chosen : fire.bChooseGrenadeGun = true) :
    Unzoomed fire := by
  rcases sighted.sights with ⟨zoomed, _⟩ | ⟨unzoomed, _⟩
  · exact absurd (chosen.symm.trans (sighted.zoomed zoomed).1) (by decide)
  · exact unzoomed

/-- Taking the rifle brings the crosshair back. -/
theorem Sighted.choosesRifle (sighted : Sighted down fire) :
    Sighted down (fire.chooseGun true).1 := by
  unfold chooseGun
  cases chosen : fire.bChooseGrenadeGun with
  | true => exact Unzoomed.sighted (sighted.rifle chosen) rfl rfl
  | false => exact Unzoomed.sighted ⟨rfl, rfl, rfl⟩ rfl rfl

/-- Taking the sniper leaves the sight as it is. -/
theorem Sighted.choosesSniper (sighted : Sighted down fire) :
    Sighted down (fire.chooseGun false).1 := by
  have kept : (if fire.bChooseGrenadeGun = false ∧ false = true then
      { fire with fieldOfView := 90, crosshairUI := true, sniperUI := false } else fire) = fire :=
    if_neg fun both => absurd both.2 (by decide)
  unfold chooseGun
  rw [kept]
  exact ⟨sighted.sights, fun zoomed => ⟨rfl, (sighted.zoomed zoomed).2⟩, rfl, rfl⟩

theorem Press.sighted {shot : Shot} (press : Press cfg fire shot next calls)
    (sighted : Sighted down fire) : Sighted down next := by
  obtain ⟨sights, zoomed, gunMesh, sniperMesh⟩ := sighted
  cases press <;> exact ⟨sights, zoomed, gunMesh, sniperMesh⟩

theorem Handled.sighted {event : Event} (handled : Handled cfg fire event next calls)
    (sighted : Sighted down fire) : Sighted (zooming down event) next := by
  have ⟨sights, zoomed, gunMesh, sniperMesh⟩ := sighted
  cases handled with
  | presses _ _ _ press => exact press.sighted sighted
  | choosesRifle => exact sighted.choosesRifle
  | choosesSniper => exact sighted.choosesSniper
  | zoomsIn chosen =>
    refine ⟨Or.inl ⟨⟨rfl, rfl, rfl⟩, not_both ⟨rfl, rfl, rfl⟩⟩, ?_, gunMesh, sniperMesh⟩
    exact fun _ => ⟨chosen, rfl⟩
  | zoomsOut _ => exact Unzoomed.sighted ⟨rfl, rfl, rfl⟩ gunMesh sniperMesh
  | zoomIgnored _ chosen _ => exact Unzoomed.sighted (sighted.rifle chosen) gunMesh sniperMesh
  | releases | fires _ | asksReload _ _ | reloadsGun | reloadsSniper =>
    exact ⟨sights, zoomed, gunMesh, sniperMesh⟩

theorem sighted_beginPlay (cfg : FireConfig) : Sighted down (beginPlay cfg) := by
  unfold beginPlay chooseGun
  cases cfg.bChooseGrenadeGun with
  | true => exact Unzoomed.sighted ⟨rfl, rfl, rfl⟩ rfl rfl
  | false => exact Unzoomed.sighted ⟨rfl, rfl, rfl⟩ rfl rfl

end Step

/-- **Zoom, widgets and guns agree** after every run, whatever the buttons do. -/
theorem sighted_run (run : Run (step cfg) (beginPlay cfg) ts fire) : Sighted (zoomHeld ts) fire := by
  induction run with
  | nil => exact sighted_beginPlay cfg
  | @snoc past t _ taken ih =>
    unfold zoomHeld
    rw [List.foldl_append]
    exact (step_handled taken).sighted ih

/-- A press of the zoom that is heard on the sniper, and its release lost on the rifle. -/
theorem sighted_run_lost :
    Sighted (zoomHeld (trace (step {}) (beginPlay {})
        [.onActionSniper, .onActionZoomIn, .onActionGrenade, .onActionZoomOut, .onActionSniper]))
      (final (step {}) (beginPlay {})
        [.onActionSniper, .onActionZoomIn, .onActionGrenade, .onActionZoomOut, .onActionSniper]) :=
  sighted_run (run_trace (step {}) (beginPlay {}) _)

end FireComponent

end MyTPSGame
