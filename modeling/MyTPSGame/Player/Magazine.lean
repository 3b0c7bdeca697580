/-
**The magazines of the two guns.**

The rifle and the sniper keep their rounds in a field each, and every handler treats the two alike.
`Gun` names the fields, the limit, the reload and the Blueprint event of each, and `Magazine` says for
either what an event does to its rounds: a press takes one and reports it, a reload fills them up and
reports it, and nothing else changes or reports them.
-/

import MyTPSGame.Machine.Account
import MyTPSGame.Model.Player
import Mathlib.Tactic.Ring

namespace MyTPSGame

open Machine

namespace FireComponent

/-- The two guns. -/
inductive Gun
  | grenadeGun
  | sniper
  deriving DecidableEq

namespace Gun

/-- The rounds left. -/
def ammo : Gun → FireComponent → ℤ
  | .grenadeGun, fire => fire.gunAmmo
  | .sniper, fire => fire.sniperAmmo

/-- The rounds a reload gives. -/
def maxAmmo : Gun → FireConfig → ℤ
  | .grenadeGun, cfg => cfg.maxGunAmmo
  | .sniper, cfg => cfg.maxSniperAmmo

/-- The gun is the one in hand. -/
def Chosen : Gun → FireComponent → Prop
  | .grenadeGun, fire => fire.bChooseGrenadeGun = true
  | .sniper, fire => fire.bChooseGrenadeGun = false

/-- The notification that reloads it. -/
def reload : Gun → Event
  | .grenadeGun => .reloadGun
  | .sniper => .reloadSniper

/-- What a call reports of it: the rounds left and the limit. -/
def report : Gun → FireCall → Option (ℤ × ℤ)
  | .grenadeGun, .onMyGrenadeGunAmmoUpdate current max => some (current, max)
  | .sniper, .onMySniperGunAmmoUpdate current max => some (current, max)
  | _, _ => none

variable (gun : Gun)

/-- The reports of it, in order. -/
def reports (calls : List FireCall) : List (ℤ × ℤ) :=
  calls.filterMap gun.report

/-- The rounds taken along a run. -/
def taken (ts : List Move) : ℕ :=
  total (fun t => (gun.ammo t.pre - gun.ammo t.post).toNat) ts

/-- The reloads of a run. -/
def reloads (ts : List Move) : ℕ :=
  total (fun t => if t.event = gun.reload then 1 else 0) ts

/-- The rounds are between none and the limit. -/
def Within (cfg : FireConfig) (fire : FireComponent) : Prop :=
  0 ≤ gun.ammo fire ∧ gun.ammo fire ≤ gun.maxAmmo cfg

end Gun

/-! ### One event -/

section Step

/-- What an event does to the rounds of a gun. -/
inductive Magazine (cfg : FireConfig) (gun : Gun) (t : Move) : Prop
  | shoots (shot : Shot) : t.event = .onActionFirePressed shot → gun.Chosen t.pre →
      0 < gun.ammo t.pre → gun.ammo t.post = gun.ammo t.pre - 1 →
      gun.reports t.out = [(gun.ammo t.post, gun.maxAmmo cfg)] → Magazine cfg gun t
  | reloads : t.event = gun.reload → gun.ammo t.post = gun.maxAmmo cfg →
      gun.reports t.out = [(gun.ammo t.post, gun.maxAmmo cfg)] → Magazine cfg gun t
  | keeps : gun.ammo t.post = gun.ammo t.pre → gun.reports t.out = [] → Magazine cfg gun t

variable {cfg : FireConfig} {fire next : FireComponent} {calls : List FireCall} {gun : Gun} {t : Move}
  {shot : Shot}

theorem reports_append (first second : List FireCall) :
    gun.reports (first ++ second) = gun.reports first ++ gun.reports second :=
  List.filterMap_append

theorem reports_shakeCalls (fire : FireComponent) (shot : Shot) :
    gun.reports (fire.shakeCalls shot) = [] := by
  unfold shakeCalls shakeCamera
  split <;> cases gun <;> rfl

theorem reports_traceCalls (shot : Shot) : gun.reports (traceCalls shot) = [] := by
  unfold traceCalls
  cases shot.trace with
  | none => cases gun <;> rfl
  | some hit =>
    obtain ⟨enemy, simulatingPhysics⟩ := hit
    cases enemy <;> cases simulatingPhysics <;> cases gun <;> rfl

theorem chooseGun_ammo (fire : FireComponent) (bGrenade : Bool) :
    gun.ammo (fire.chooseGun bGrenade).1 = gun.ammo fire := by
  unfold chooseGun
  dsimp only
  split <;> cases gun <;> rfl

theorem Press.magazine (press : Press cfg fire shot next calls) :
    Magazine cfg gun ⟨fire, .onActionFirePressed shot, next, calls⟩ := by
  cases press with
  | dryGun _ _ | drySniper _ _ => exact .keeps rfl rfl
  | gun chosen loaded =>
    have reports (report : List FireCall) :
        gun.reports (report ++ fire.shakeCalls shot ++ [.spawnBullet]) = gun.reports report := by
      rw [reports_append, reports_append, reports_shakeCalls]
      cases gun <;> simp [Gun.reports, Gun.report]
    cases gun with
    | grenadeGun => exact .shoots shot rfl chosen loaded rfl (reports _)
    | sniper => exact .keeps rfl (reports _)
  | sniper chosen loaded =>
    have reports (report : List FireCall) :
        gun.reports (report ++ fire.shakeCalls shot ++ traceCalls shot) = gun.reports report := by
      rw [reports_append, reports_append, reports_shakeCalls, reports_traceCalls, List.append_nil,
        List.append_nil]
    cases gun with
    | grenadeGun => exact .keeps rfl (reports _)
    | sniper => exact .shoots shot rfl chosen loaded rfl (reports _)

theorem taken_magazine (gun : Gun) (taken : t.Taken (step cfg)) : Magazine cfg gun t := by
  obtain ⟨fire, event, next, calls⟩ := t
  have handled : Handled cfg fire event next calls := step_handled taken
  cases handled with
  | presses shot _ _ press => exact press.magazine
  | choosesRifle | choosesSniper =>
    refine .keeps (chooseGun_ammo fire _) ?_
    cases gun <;> rfl
  | reloadsGun =>
    cases gun with
    | grenadeGun => exact .reloads rfl rfl rfl
    | sniper => exact .keeps rfl rfl
  | reloadsSniper =>
    cases gun with
    | grenadeGun => exact .keeps rfl rfl
    | sniper => exact .reloads rfl rfl rfl
  | _ => cases gun <;> exact .keeps rfl rfl

/-- A press on an empty gun does nothing. -/
theorem Press.dry (press : Press cfg fire shot next calls) (chosen : gun.Chosen fire)
    (empty : gun.ammo fire ≤ 0) : next = fire ∧ calls = [] := by
  cases press with
  | dryGun _ _ | drySniper _ _ => exact ⟨rfl, rfl⟩
  | gun rifle loaded =>
    cases gun with
    | grenadeGun => exact absurd loaded (not_lt.mpr empty)
    | sniper => exact absurd (chosen.symm.trans rifle) Bool.false_ne_true
  | sniper sniper loaded =>
    cases gun with
    | grenadeGun => exact absurd (sniper.symm.trans chosen) Bool.false_ne_true
    | sniper => exact absurd loaded (not_lt.mpr empty)

/-- A press on a loaded gun takes one round. -/
theorem Press.takes (press : Press cfg fire shot next calls) (chosen : gun.Chosen fire)
    (loaded : 0 < gun.ammo fire) : gun.ammo next = gun.ammo fire - 1 := by
  cases gun with
  | grenadeGun =>
    cases press with
    | gun _ _ => rfl
    | dryGun _ empty => exact absurd loaded (not_lt.mpr empty)
    | drySniper sniper _ | sniper sniper _ =>
      exact absurd (sniper.symm.trans chosen) Bool.false_ne_true
  | sniper =>
    cases press with
    | sniper _ _ => rfl
    | drySniper _ empty => exact absurd loaded (not_lt.mpr empty)
    | dryGun rifle _ | gun rifle _ => exact absurd (chosen.symm.trans rifle) Bool.false_ne_true

/-- Each change of the rounds is reported once, with the new number. -/
theorem Magazine.reported (magazine : Magazine cfg gun t)
    (changes : gun.ammo t.post ≠ gun.ammo t.pre) :
    gun.reports t.out = [(gun.ammo t.post, gun.maxAmmo cfg)] := by
  cases magazine with
  | shoots _ _ _ _ _ reports => exact reports
  | reloads _ _ reports => exact reports
  | keeps same _ => exact absurd same changes

theorem Magazine.within (magazine : Magazine cfg gun t) (max : 0 ≤ gun.maxAmmo cfg)
    (within : gun.Within cfg t.pre) : gun.Within cfg t.post := by
  obtain ⟨low, high⟩ := within
  unfold Gun.Within
  cases magazine with
  | shoots _ _ _ loaded one _ =>
    rw [one]
    exact ⟨by omega, by omega⟩
  | reloads _ full _ =>
    rw [full]
    exact ⟨max, le_refl _⟩
  | keeps same _ =>
    rw [same]
    exact ⟨low, high⟩

/-- What a transition takes is paid for by the rounds there were, or by a reload. -/
theorem Magazine.paid (magazine : Magazine cfg gun t) (within : gun.Within cfg t.pre) :
    gun.ammo t.post + (gun.ammo t.pre - gun.ammo t.post).toNat ≤
      gun.ammo t.pre + ((if t.event = gun.reload then 1 else 0 : ℕ) : ℤ) * gun.maxAmmo cfg := by
  obtain ⟨low, high⟩ := within
  have gain : 0 ≤ ((if t.event = gun.reload then 1 else 0 : ℕ) : ℤ) * gun.maxAmmo cfg :=
    mul_nonneg (Int.natCast_nonneg _) (low.trans high)
  cases magazine with
  | shoots _ _ _ _ one _ => omega
  | keeps same _ => omega
  | reloads event full _ =>
    rw [if_pos event, Nat.cast_one, one_mul]
    omega

end Step

/-! ### Whole runs -/

section Runs

variable {cfg : FireConfig} {fire : FireComponent} {gun : Gun} {ts : List Move}

theorem within_from {start : FireComponent} (run : Run (step cfg) start ts fire)
    (max : 0 ≤ gun.maxAmmo cfg) (within : gun.Within cfg start) :
    ∀ a ∈ visited start ts, gun.Within cfg a :=
  run.invariant_visited within fun _ _ taken => (taken_magazine gun taken).within max

theorem within_run (run : Run (step cfg) (beginPlay cfg) ts fire) (max : 0 ≤ gun.maxAmmo cfg) :
    ∀ a ∈ visited (beginPlay cfg) ts, gun.Within cfg a := by
  refine within_from run max ?_
  cases gun with
  | grenadeGun => exact ⟨max, le_refl _⟩
  | sniper => exact ⟨max, le_refl _⟩

/-- **The rounds taken** from any time on are those there were then, and those of the reloads. -/
theorem taken_le_from {start : FireComponent} (run : Run (step cfg) start ts fire)
    (max : 0 ≤ gun.maxAmmo cfg) (start_within : gun.Within cfg start) :
    (gun.taken ts : ℤ) ≤ gun.maxAmmo cfg * (1 + gun.reloads ts) := by
  have within := within_from run max start_within
  have paid := run.potential_le gun.ammo (fun t => ((gun.ammo t.pre - gun.ammo t.post).toNat : ℤ))
    (fun t => ((if t.event = gun.reload then 1 else 0 : ℕ) : ℤ) * gun.maxAmmo cfg)
    fun t member taken => (taken_magazine gun taken).paid (within _ (run.pre_visited member))
  rw [total_mul, ← total_natCast ℤ, ← total_natCast ℤ] at paid
  have left := (within fire run.last_visited).1
  calc (gun.taken ts : ℤ) ≤ gun.ammo fire + gun.taken ts := le_add_of_nonneg_left left
    _ ≤ gun.ammo start + gun.reloads ts * gun.maxAmmo cfg := paid
    _ ≤ gun.maxAmmo cfg + gun.reloads ts * gun.maxAmmo cfg := add_le_add_left start_within.2 _
    _ = gun.maxAmmo cfg * (1 + gun.reloads ts) := by ring

theorem taken_le (run : Run (step cfg) (beginPlay cfg) ts fire) (max : 0 ≤ gun.maxAmmo cfg) :
    (gun.taken ts : ℤ) ≤ gun.maxAmmo cfg * (1 + gun.reloads ts) :=
  taken_le_from run max (within_run run max _ List.mem_cons_self)

end Runs

end FireComponent

end MyTPSGame
