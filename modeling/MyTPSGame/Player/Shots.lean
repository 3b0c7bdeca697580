/-
**Shots and damage.**

The trace of the sniper is all that damages an enemy. So what the enemies have lost is what has been
shot at them, and that is paid for with rounds of the sniper: `conserved_run` follows the rounds of
both guns and the health of all enemies through a game.

* `taken_harm`: what an event does to the health of the enemies;
* `wounds_run`, `wound_run`: over a run, the health lost by all of them and by one.
-/

import MyTPSGame.Enemy.Life
import MyTPSGame.Model.EnemyTrace
import MyTPSGame.Model.FireTrace
import MyTPSGame.Player.Magazine

namespace MyTPSGame

open Machine
open FireComponent (Gun)

namespace World

/-- The enemy that a transition shoots: the press is accepted for the sniper and its trace hits. -/
def shotEnemy (t : Move) : Option ℕ :=
  match t.event with
  | .fire (.onActionFirePressed shot) _ => t.pre.fire.struck shot
  | _ => none

/-- The shots of a run that hit an enemy. -/
def shots (ts : List Move) : ℕ :=
  total (fun t => if (shotEnemy t).isSome then 1 else 0) ts

/-- The shots of a run that hit enemy `i`. -/
def shotsAt (i : ℕ) (ts : List Move) : ℕ :=
  total (fun t => if shotEnemy t = some i then 1 else 0) ts

/-- The health that the enemies of a game have lost. -/
def wounds (cfg : GameConfig) (w : World) : ℤ :=
  (w.enemies.mapIdx fun i fsm => (cfg.enemy i).maxHP - fsm.hp).sum

/-- The health that enemy `i` has lost. -/
def wound (cfg : GameConfig) (i : ℕ) (w : World) : ℤ :=
  (w.enemies[i]?).elim 0 fun fsm => (cfg.enemy i).maxHP - fsm.hp

/-- The event damages an enemy without a shot. -/
def Event.damages : Event → Bool
  | .enemy _ (.onDamageProcess _ _) => true
  | _ => false

/-- No enemy is damaged but by shots. -/
abbrev OnlyShots (ts : List Move) : Prop :=
  ∀ t ∈ ts, t.event.damages = false

variable {cfg : GameConfig} {w : World} {t : Move} {ts : List Move} {i : ℕ} {shot : Shot}
  {index : Fin 2}

/-! ### One event -/

section Harm

/-- What an event does to the health of the enemies: a shot takes one from the enemy it hits, and
nothing else takes any. -/
inductive Harm (cfg : GameConfig) (t : Move) : Prop
  | unseen : shotEnemy t = none → t.post.enemies = t.pre.enemies → Harm cfg t
  | born (n : ℕ) : shotEnemy t = none →
      t.post.enemies = t.pre.enemies ++ t.pre.spawned cfg n → Harm cfg t
  | acts (i : ℕ) (fsm next : EnemyFSM) : shotEnemy t = none → t.pre.enemies[i]? = some fsm →
      t.post.enemies = t.pre.enemies.set i next → next.hp = fsm.hp → Harm cfg t
  | shot (i : ℕ) (fsm next : EnemyFSM) : shotEnemy t = some i → t.pre.enemies[i]? = some fsm →
      t.post.enemies = t.pre.enemies.set i next → next.hp = fsm.hp - 1 → Harm cfg t

theorem struck_rifle {fire : FireComponent} (rifle : Gun.grenadeGun.Chosen fire) :
    fire.struck shot = none :=
  if_neg fun both => Bool.false_ne_true (both.1.symm.trans rifle)

/-- The event of the enemy that a shot hits. -/
theorem shotEnemy_acts {event : Event} {next : World} {out : List WorldCall}
    {act : EnemyFSM.Event} (named : w.enemyEvent event = some (i, act))
    (shots : event.damages = false) :
    shotEnemy ⟨w, event, next, out⟩ = none ∧ act.damage = 0 ∨
      shotEnemy ⟨w, event, next, out⟩ = some i ∧ act.damage = 1 := by
  cases event with
  | enemy j own =>
    obtain ⟨rfl, rfl⟩ := Prod.mk.inj (Option.some.inj named)
    refine Or.inl ⟨rfl, ?_⟩
    cases own with
    | onDamageProcess damageAmount index => cases shots
    | _ => rfl
  | fire event index =>
    cases event with
    | onActionFirePressed shot =>
      obtain ⟨j, struck, same⟩ := Option.map_eq_some_iff.mp named
      obtain ⟨rfl, rfl⟩ := Prod.mk.inj same
      exact Or.inr ⟨struck, rfl⟩
    | _ => cases named
  | makeEnemy _ | levelUpTimer => cases named

theorem taken_harm (taken : t.Taken (step cfg)) (shots : t.event.damages = false) :
    Harm cfg t := by
  obtain ⟨w, event, next, out⟩ := t
  have change : Change cfg w event next out := taken_change taken
  cases change with
  | spawns draw _ calls _ _ => exact .born (draw.actors calls) rfl rfl
  | levels _ _ _ => exact .unseen rfl rfl
  | acts _ i act fsm there _ fire _ _ named found moved =>
    have hp := (EnemyFSM.step_act moved).hp
    rcases shotEnemy_acts named shots with ⟨none, damage⟩ | ⟨some, damage⟩
    · refine .acts i fsm there none found rfl ?_
      rw [hp, damage, sub_zero]
    · refine .shot i fsm there some found rfl ?_
      rw [hp, damage]
  | handles event index _ _ nobody _ =>
    refine .unseen ?_ rfl
    cases event with
    | onActionFirePressed shot => exact Option.map_eq_none_iff.mp nobody
    | _ => rfl

end Harm

/-! ### The health of the enemies -/

section Wounds

/-- Enemies that have just begun to play have lost nothing. -/
theorem wounds_fresh (cfg : GameConfig) (n k : ℕ) :
    (((List.range k).map fun j => EnemyFSM.beginPlay (cfg.enemy (n + j))).mapIdx fun i fsm =>
      (cfg.enemy (i + n)).maxHP - fsm.hp).sum = 0 := by
  apply List.sum_eq_zero
  intro lost member
  obtain ⟨i, inside, rfl⟩ := List.mem_mapIdx.mp member
  rw [List.getElem_map, List.getElem_range, Nat.add_comm n i]
  exact sub_self _

theorem wounds_beginPlay (cfg : GameConfig) (placed : ℕ) (randTime : ℚ) :
    wounds cfg (beginPlay cfg placed randTime) = 0 := by
  have fresh := wounds_fresh cfg 0 placed
  simp only [Nat.zero_add, Nat.add_zero] at fresh
  exact fresh

theorem wounds_born (n : ℕ) {next : World}
    (enemies : next.enemies = w.enemies ++ w.spawned cfg n) : wounds cfg next = wounds cfg w := by
  unfold wounds
  rw [enemies, List.mapIdx_append, List.sum_append, spawned, wounds_fresh, add_zero]

theorem wounds_set {fsm there : EnemyFSM} {next : World} (found : w.enemies[i]? = some fsm)
    (enemies : next.enemies = w.enemies.set i there) :
    wounds cfg next = wounds cfg w + (fsm.hp - there.hp) := by
  obtain ⟨inside, same⟩ := List.getElem?_eq_some_iff.mp found
  have bound : i < (w.enemies.mapIdx fun i fsm => (cfg.enemy i).maxHP - fsm.hp).length := by
    rw [List.length_mapIdx]
    exact inside
  unfold wounds
  rw [enemies, List.mapIdx_set, List.sum_set', dif_pos bound, List.getElem_mapIdx, same]
  ring

/-- A transition costs the enemies what it shoots. -/
theorem Harm.wounds (harm : Harm cfg t) :
    wounds cfg t.post = wounds cfg t.pre + if (shotEnemy t).isSome then 1 else 0 := by
  cases harm with
  | unseen none same =>
    rw [none, World.wounds, same]
    exact (add_zero _).symm
  | born n none born =>
    rw [none, wounds_born n born]
    exact (add_zero _).symm
  | acts i fsm next none found set hp =>
    rw [none, wounds_set found set, hp, sub_self]
    rfl
  | shot i fsm next some found set hp =>
    rw [some, wounds_set found set, hp, sub_sub_cancel]
    rfl

theorem wound_set {fsm there : EnemyFSM} {next : World} {j : ℕ} (found : w.enemies[j]? = some fsm)
    (enemies : next.enemies = w.enemies.set j there) :
    wound cfg i next = wound cfg i w + if j = i then fsm.hp - there.hp else 0 := by
  unfold wound
  rw [enemies]
  by_cases same : j = i
  · subst same
    obtain ⟨inside, _⟩ := List.getElem?_eq_some_iff.mp found
    rw [if_pos rfl, List.getElem?_set_self inside, found, Option.elim_some, Option.elim_some]
    ring
  · rw [if_neg same, List.getElem?_set_ne same, add_zero]

/-- A transition costs an enemy what it shoots at it. -/
theorem Harm.wound (harm : Harm cfg t) (i : ℕ) :
    wound cfg i t.post = wound cfg i t.pre + if shotEnemy t = some i then 1 else 0 := by
  cases harm with
  | unseen none same =>
    rw [none, World.wound, same]
    exact (add_zero _).symm
  | born n none born =>
    rw [none, World.wound, World.wound, born]
    rcases getElem?_spawned cfg t.pre n i with same | ⟨absent, fresh⟩
    · rw [same]
      exact (add_zero _).symm
    · rw [absent, fresh]
      exact sub_self _
  | acts j fsm next none found set hp =>
    rw [none, wound_set found set, hp, sub_self, ite_self]
    rfl
  | shot j fsm next some found set hp =>
    rw [some, wound_set found set, hp, sub_sub_cancel]
    simp only [Option.some.injEq]

end Wounds

/-! ### The press that shoots -/

section Press

/-- A press on an empty gun does nothing to the game. -/
theorem taken_dry {gun : Gun} (taken : t.Taken (step cfg))
    (named : t.event = .fire (.onActionFirePressed shot) index) (chosen : gun.Chosen t.pre.fire)
    (empty : gun.ammo t.pre.fire ≤ 0) : t.post = t.pre ∧ t.out = [] := by
  obtain ⟨w, _, next, out⟩ := t
  obtain rfl : _ = Event.fire (.onActionFirePressed shot) index := named
  have press := FireComponent.onActionFirePressed_press cfg.fire w.fire shot
  obtain ⟨same, silent⟩ := press.dry chosen empty
  change step cfg w (.fire (.onActionFirePressed shot) index) = some (next, out) at taken
  simp only [step, FireComponent.step, same, silent, hearFire] at taken
  cases taken
  exact ⟨rfl, rfl⟩

/-- A press on the rifle reaches no enemy. -/
theorem taken_rifle (taken : t.Taken (step cfg))
    (named : t.event = .fire (.onActionFirePressed shot) index)
    (rifle : Gun.grenadeGun.Chosen t.pre.fire) : t.post.enemies = t.pre.enemies := by
  obtain ⟨w, _, next, out⟩ := t
  obtain rfl : _ = Event.fire (.onActionFirePressed shot) index := named
  have change : Change cfg w (.fire (.onActionFirePressed shot) index) next out := taken_change taken
  cases change with
  | handles _ _ _ _ _ _ => rfl
  | acts _ i act _ _ _ _ _ _ hits _ _ =>
    have missed : w.enemyEvent (.fire (.onActionFirePressed shot) index) = none :=
      Option.map_eq_none_iff.mpr (struck_rifle rifle)
    exact absurd (missed.symm.trans hits) (by simp)

/-- A shot that hits takes a round of the sniper. -/
theorem taken_shot (taken : t.Taken (step cfg)) (hits : (shotEnemy t).isSome) :
    1 ≤ Gun.sniper.taken (fireShare t) := by
  unfold shotEnemy at hits
  unfold fireShare
  split at hits
  next shot index named =>
    have press := FireComponent.step_press (taken_fire taken named)
    have loaded : t.pre.fire.bChooseGrenadeGun = false ∧ 0 < t.pre.fire.sniperAmmo := by
      by_contra unloaded
      rw [FireComponent.struck, if_neg unloaded] at hits
      cases hits
    have one : Gun.sniper.ammo t.post.fire = Gun.sniper.ammo t.pre.fire - 1 :=
      press.takes loaded.1 loaded.2
    rw [named]
    show 1 ≤ (Gun.sniper.ammo t.pre.fire - Gun.sniper.ammo t.post.fire).toNat + 0
    omega
  next => cases hits

/-- A change of the rounds is reported once, with the new number. -/
theorem taken_reported (gun : Gun) (taken : t.Taken (step cfg))
    (changes : gun.ammo t.post.fire ≠ gun.ammo t.pre.fire) :
    gun.reports (t.out.filterMap WorldCall.ofFire) =
      [(gun.ammo t.post.fire, gun.maxAmmo cfg.fire)] := by
  cases named : t.event with
  | fire event index =>
    have took : Transition.Taken (FireComponent.step cfg.fire)
      ⟨t.pre.fire, event, t.post.fire, t.out.filterMap WorldCall.ofFire⟩ := taken_fire taken named
    exact (FireComponent.taken_magazine gun took).reported changes
  | makeEnemy _ | levelUpTimer | enemy _ _ =>
    have kept := (taken_other taken (by simp [named])).1
    exact absurd (congrArg gun.ammo kept) changes

end Press

/-! ### Whole runs -/

section Runs

variable {placed : ℕ} {randTime : ℚ}

/-- What the enemies have lost has been shot at them. -/
theorem wounds_run (run : Run (step cfg) (beginPlay cfg placed randTime) ts w) (only : OnlyShots ts) :
    wounds cfg w = shots ts := by
  have moved := run.potential_eq (wounds cfg) (fun t => if (shotEnemy t).isSome then 1 else 0)
    fun t member taken => (taken_harm taken (only t member)).wounds
  rw [moved, wounds_beginPlay, zero_add, shots, total_natCast ℤ]
  apply total_congr
  intro t _
  split <;> rfl

/-- What an enemy has lost has been shot at it. -/
theorem wound_run (run : Run (step cfg) (beginPlay cfg placed randTime) ts w) (only : OnlyShots ts)
    (i : ℕ) : wound cfg i w = shotsAt i ts := by
  have moved := run.potential_eq (wound cfg i) (fun t => if shotEnemy t = some i then 1 else 0)
    fun t member taken => (taken_harm taken (only t member)).wound i
  have fresh : wound cfg i (beginPlay cfg placed randTime) = 0 := by
    unfold wound
    cases found : (beginPlay cfg placed randTime).enemies[i]? with
    | none => rfl
    | some fsm =>
      rw [enemies_beginPlay found]
      exact sub_self _
  rw [moved, fresh, zero_add, shotsAt, total_natCast ℤ]
  apply total_congr
  intro t _
  split <;> rfl

/-- Every shot that hits is paid for with a round. -/
theorem shots_le {start : World} (run : Run (step cfg) start ts w) :
    shots ts ≤ Gun.sniper.taken (fireTrace ts) := by
  unfold shots fireTrace Gun.taken
  rw [total_flatMap]
  apply List.sum_le_sum
  intro t member
  by_cases hits : (shotEnemy t).isSome
  · rw [if_pos hits]
    exact taken_shot (run.taken member) hits
  · rw [if_neg hits]
    exact Nat.zero_le _

/-- What holds of rounds, reports and damage over a run that ends in `w`. -/
structure Conserved (cfg : GameConfig) (start : World) (ts : List Move) (w : World) : Prop where
  /-- The rounds of both guns stay between none and the limit. -/
  within : ∀ a ∈ visited start ts, ∀ gun : Gun, gun.Within cfg.fire a.fire
  /-- A press with the chosen gun empty changes nothing. -/
  dry : ∀ t ∈ ts, ∀ shot index, t.event = .fire (.onActionFirePressed shot) index →
    ∀ gun : Gun, gun.Chosen t.pre.fire → gun.ammo t.pre.fire = 0 → t.post = t.pre
  /-- Each change of the rounds is reported once, with the new number. -/
  reported : ∀ t ∈ ts, ∀ gun : Gun, gun.ammo t.post.fire ≠ gun.ammo t.pre.fire →
    gun.reports (t.out.filterMap WorldCall.ofFire) =
      [(gun.ammo t.post.fire, gun.maxAmmo cfg.fire)]
  /-- What the enemies have lost has been shot at them, with rounds of the sniper. -/
  wounds : World.wounds cfg w = shots ts
  paid : shots ts ≤ Gun.sniper.taken (fireTrace ts)
  loaded : (Gun.sniper.taken (fireTrace ts) : ℤ) ≤
    cfg.fire.maxSniperAmmo * (1 + Gun.sniper.reloads (fireTrace ts))
  /-- An enemy without health has been hit as often as it had health. -/
  lethal : ∀ i fsm, w.enemies[i]? = some fsm → fsm.hp ≤ 0 → (cfg.enemy i).maxHP ≤ shotsAt i ts
  /-- A press on the rifle leaves every enemy as it is. -/
  rifle : ∀ t ∈ ts, ∀ shot index, t.event = .fire (.onActionFirePressed shot) index →
    Gun.grenadeGun.Chosen t.pre.fire → t.post.enemies = t.pre.enemies

/-- **Shots and damage are conserved** over every game in which only shots damage an enemy. -/
theorem conserved_run (run : Run (step cfg) (beginPlay cfg placed randTime) ts w)
    (gun : 0 ≤ cfg.fire.maxGunAmmo) (sniper : 0 ≤ cfg.fire.maxSniperAmmo) (only : OnlyShots ts) :
    Conserved cfg (beginPlay cfg placed randTime) ts w where
  within := by
    intro a member gun
    obtain ⟨before, after, rfl, reach⟩ := run.visited_prefix member
    have fire := fire_run reach
    refine FireComponent.within_run fire ?_ _ fire.last_visited
    cases gun with
    | grenadeGun => assumption
    | sniper => exact sniper
  dry t member _ _ named gun chosen empty :=
    (taken_dry (run.taken member) named chosen empty.le).1
  reported t member gun changes := taken_reported gun (run.taken member) changes
  wounds := wounds_run run only
  paid := shots_le run
  loaded := FireComponent.taken_le (fire_run run) sniper
  lethal i fsm found spent := by
    have lost := wound_run run only i
    rw [wound, found, Option.elim_some] at lost
    omega
  rifle t member _ _ named rifle := taken_rifle (run.taken member) named rifle

/-- A round of each gun, of which the sniper's hits an enemy, and a reload of the sniper. -/
theorem conserved_run_hit :
    Conserved {} (beginPlay {} 1 1)
      (trace (step {}) (beginPlay {} 1 1)
        [.fire (.onActionFirePressed {}) 0, .fire .fireTimer 0, .fire .onActionFireRelesed 0,
          .fire .onActionSniper 0, .fire (.onActionFirePressed { trace := some { enemy := some 0 } }) 1,
          .enemy 0 (.tick { deltaSeconds := 2, distance := 300 }), .fire .reloadSniper 0])
      (final (step {}) (beginPlay {} 1 1)
        [.fire (.onActionFirePressed {}) 0, .fire .fireTimer 0, .fire .onActionFireRelesed 0,
          .fire .onActionSniper 0, .fire (.onActionFirePressed { trace := some { enemy := some 0 } }) 1,
          .enemy 0 (.tick { deltaSeconds := 2, distance := 300 }), .fire .reloadSniper 0]) :=
  conserved_run (run_trace (step {}) (beginPlay {} 1 1) _) (by decide) (by decide) (by decide +kernel)

end Runs

end World

end MyTPSGame
