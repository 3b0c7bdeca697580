/-
**Which levels can still be won.**

A player who shoots the living is paid one point for each enemy, and below level five each attempt
that is left can make one more. `prospect` is what the level can be paid with: the experience there is,
the enemies alive, and those attempts.

* `stalled`: where that is less than the level needs, the level never ends, whatever happens;
* `rises`: where it is enough, the player can end it with shots, if the attempts make enemies;
* `rises_iff`: so a level can be won if and only if its prospect is enough;
* `five_reachable`: from the start, level five can always be reached.
-/

import MyTPSGame.Enemy.Crash
import MyTPSGame.Machine.Reach
import MyTPSGame.Player.Shots
import MyTPSGame.Progress.Limit
import MyTPSGame.Progress.SpawnTimer

namespace MyTPSGame

open Machine

namespace World

variable {cfg : GameConfig} {placed : ℕ} {randTime : ℚ} {w v next : World} {event : Event}
  {out : List WorldCall} {ts us : List Move} {i : ℕ} {fsm : EnemyFSM}

/-- What a level can be paid with: experience, enemies alive, and attempts that can make one. -/
def prospect (w : World) : ℤ :=
  w.gameMode.exp + w.alive +
    if w.gameMode.level < 5 then
      w.gameMode.spawnManager.makeTargetCount - w.gameMode.spawnManager.makeCount
    else 0

/-- Nobody is damaged but by shots, and no corpse is. -/
abbrev Fair (t : Move) : Prop :=
  t.event.damages = false ∧ t.pre.hitsDead t.event = false

/-! ### Levels that cannot be won -/

section Stalled

theorem Change.alive (change : Change cfg w event next out) (live : w.hitsDead event = false) :
    next.alive + out.countP isAddExp ≤ w.alive + out.countP isSpawnActor := by
  have enemies := change.enemies.2
  have dead := change.dead live
  have before := w.dead_add_alive
  have after := next.dead_add_alive
  omega

/-- An event that does not end the level makes its prospect no better, and one that does needs it. -/
theorem Change.prospect (change : Change cfg w event next out) (inStep : w.gameMode.InStep)
    (live : w.hitsDead event = false) :
    next.gameMode.level = w.gameMode.level ∧ next.prospect ≤ w.prospect ∨
      w.gameMode.level ≤ w.prospect := by
  have alive := change.alive live
  obtain ⟨later, counts⟩ := change.counts inStep
  have target := inStep.makeTargetCount
  have room := inStep.makeCount_le
  have nextTarget := later.makeTargetCount
  cases counts with
  | keeps level exp made spawned awarded | awards level exp made spawned awarded =>
    refine Or.inl ⟨level, ?_⟩
    unfold World.prospect
    rw [level] at nextTarget ⊢
    split <;> omega
  | attempts level exp room' made spawned low awarded =>
    refine Or.inl ⟨level, ?_⟩
    unfold World.prospect
    rw [level] at nextTarget ⊢
    split
    next below => omega
    next above =>
      have none : out.countP isSpawnActor = 0 := by
        by_contra some
        exact above (low some)
      omega
  | levels last level exp made spawned awarded =>
    refine Or.inr ?_
    unfold World.prospect
    split <;> omega

/-- **A level without prospect never ends.** -/
theorem stalled (inStep : w.gameMode.InStep) (short : w.prospect < w.gameMode.level)
    (run : Run (step cfg) w us v) (live : HitsLive us) : v.gameMode.level = w.gameMode.level := by
  have kept : v.gameMode.InStep ∧ v.gameMode.level = w.gameMode.level ∧ v.prospect ≤ w.prospect := by
    refine run.invariant (I := fun a => a.gameMode.InStep ∧ a.gameMode.level = w.gameMode.level ∧
      a.prospect ≤ w.prospect) ⟨inStep, rfl, le_refl _⟩ ?_
    rintro t member taken ⟨here, level, less⟩
    have change := taken_change taken
    rcases change.prospect here (live t member) with ⟨same, worse⟩ | enough
    · exact ⟨(change.counts here).1, same.trans level, worse.trans less⟩
    · omega
  exact kept.2.1

end Stalled

/-! ### Killing an enemy -/

section Kill

/-- The weapon is handled while nobody is shot. -/
theorem leads_handle {event : FireComponent.Event} {fire : FireComponent} {calls : List FireCall}
    (done : w.fire.step cfg.fire event = some (fire, calls))
    (other : ∀ shot, event ≠ .onActionFirePressed shot) :
    Leads (step cfg) Fair w { w with fire := fire } := by
  have harmless := (FireComponent.step_handled done).harmless other
  have taken : step cfg w (.fire event 0) = some ({ w with fire := fire }, calls.map .fire) := by
    rw [step_fire, done, Option.bind_some]
    exact hearFire_harmless harmless
  refine .one taken ⟨rfl, ?_⟩
  cases event with
  | onActionFirePressed shot => exact absurd rfl (other shot)
  | _ => rfl

/-- A loaded sniper can be taken up at any time. -/
theorem leads_loaded (sniper : 0 < cfg.fire.maxSniperAmmo) (w : World) :
    ∃ fire : FireComponent, Leads (step cfg) Fair w { w with fire := fire } ∧
      fire.bChooseGrenadeGun = false ∧ 0 < fire.sniperAmmo := by
  have chosen : Leads (step cfg) Fair w { w with fire := w.fire.onActionSniper.1 } :=
    leads_handle (show w.fire.step cfg.fire .onActionSniper = some w.fire.onActionSniper from rfl)
      (by simp)
  have loaded : Leads (step cfg) Fair { w with fire := w.fire.onActionSniper.1 }
      { w with fire := (w.fire.onActionSniper.1.reloadSniper cfg.fire).1 } :=
    leads_handle (show w.fire.onActionSniper.1.step cfg.fire .reloadSniper =
      some (w.fire.onActionSniper.1.reloadSniper cfg.fire) from rfl) (by simp)
  exact ⟨(w.fire.onActionSniper.1.reloadSniper cfg.fire).1, chosen.trans loaded, rfl, sniper⟩

/-- A shot at a living enemy. -/
theorem leads_shot (sniper : 0 < cfg.fire.maxSniperAmmo) (found : w.enemies[i]? = some fsm)
    (live : fsm.state ≠ .die) :
    ∃ v there, Leads (step cfg) Fair w v ∧ v.enemies = w.enemies.set i there ∧
      there.hp = fsm.hp - 1 ∧ (there.state = .die ↔ fsm.hp - 1 ≤ 0) ∧
      v.gameMode = if fsm.hp - 1 ≤ 0 then (w.gameMode.addExp 1).1 else w.gameMode := by
  obtain ⟨fire, ready, chosen, loaded⟩ := leads_loaded sniper w
  let shot : Shot := { trace := some { enemy := some i } }
  have struck : fire.struck shot = some i := if_pos ⟨chosen, loaded⟩
  have there : (step cfg { w with fire := fire } (.fire (.onActionFirePressed shot) 0)).isSome := by
    refine fireStep_isSome (by simp) fun j touches => ?_
    obtain rfl := Option.some.inj (of_decide_eq_true touches)
    exact (List.getElem?_eq_some_iff.mp found).1
  obtain ⟨⟨v, out⟩, done⟩ := Option.isSome_iff_exists.mp there
  have named : enemyEvent { w with fire := fire } (.fire (.onActionFirePressed shot) 0) =
      some (i, .onDamageProcess 1 0) :=
    enemyEvent_shot struck
  obtain ⟨fsm', next, calls, found', acted, enemies, gameMode, _⟩ :=
    (taken_change (t := ⟨_, _, v, out⟩) done).acted named
  obtain rfl := Option.some.inj (found'.symm.trans found)
  have acts := EnemyFSM.step_act acted
  refine ⟨v, next, ready.trans (.one done ⟨rfl, ?_⟩), enemies, acts.hp, acts.die_iff live, ?_⟩
  · unfold hitsDead
    rw [named]
    simp [found, live]
  · exact gameMode

/-- A living enemy can be shot until it is dead. -/
theorem leads_kill (sniper : 0 < cfg.fire.maxSniperAmmo) (found : w.enemies[i]? = some fsm)
    (live : fsm.state ≠ .die) :
    ∃ v there, Leads (step cfg) Fair w v ∧ v.enemies = w.enemies.set i there ∧
      there.state = .die ∧ v.gameMode = (w.gameMode.addExp 1).1 := by
  generalize size : fsm.hp.toNat = n
  induction n using Nat.strongRecOn generalizing w fsm with
  | ind n ih =>
    obtain ⟨v, there, shot, enemies, hp, dies, gameMode⟩ := leads_shot sniper found live
    by_cases last : fsm.hp - 1 ≤ 0
    · rw [if_pos last] at gameMode
      exact ⟨v, there, shot, enemies, dies.mpr last, gameMode⟩
    · rw [if_neg last] at gameMode
      have now : v.enemies[i]? = some there := by
        rw [enemies]
        exact List.getElem?_set_self (List.getElem?_eq_some_iff.mp found).1
      obtain ⟨u, corpse, rest, later, dead, paid⟩ :=
        ih there.hp.toNat (by omega) now (mt dies.mp last) rfl
      rw [enemies, List.set_set] at later
      rw [gameMode] at paid
      exact ⟨u, corpse, shot.trans rest, later, dead, paid⟩

end Kill

/-! ### Levels that can be won -/

section Rises

/-- A player that can shoot, and a spawn point that keeps trying. -/
structure Playable (cfg : GameConfig) : Prop where
  sniper : 0 < cfg.fire.maxSniperAmmo
  spawnList : 1 ≤ cfg.spawn.spawnNum
  minTime : 1 ≤ cfg.spawn.minTime
  ordered : cfg.spawn.minTime ≤ cfg.spawn.maxTime

/-- A state from which the game goes on. -/
structure Ready (w : World) : Prop where
  inStep : w.gameMode.InStep
  armed : w.gameMode.spawnManager.spawnEnemyTimer.isSome

/-- A level has ended. -/
def Ended (w v : World) : Prop :=
  v.gameMode.level = w.gameMode.level + 1 ∧ v.gameMode.exp = 0 ∧
    v.gameMode.spawnManager.makeCount = 0

/-- Below level five a level that has ended leaves one with a prospect. -/
theorem Ended.prospect (ended : Ended w v) (ready : Ready v) (low : v.gameMode.level < 5) :
    v.gameMode.level ≤ v.prospect := by
  obtain ⟨_, exp, made⟩ := ended
  have target := ready.inStep.makeTargetCount
  unfold World.prospect
  rw [if_pos low, exp, made]
  omega

variable (playable : Playable cfg)

include playable

/-- A time that is drawn arms the timer. -/
theorem armed_of_drawn (sm : SpawnManager)
    (drawn : FRandRange cfg.spawn.minTime cfg.spawn.maxTime randTime) :
    (sm.armSpawnTimer randTime).spawnEnemyTimer.isSome := by
  have low := (SpawnManager.FRandRange.bounds drawn playable.ordered).1
  have least := playable.minTime
  have whole : 1 ≤ ⌊randTime⌋ := Int.le_floor.mpr (by push_cast; linarith)
  have floor : truncToInt randTime = ⌊randTime⌋ := truncToInt_eq_floor (by linarith)
  have positive : (0 : ℚ) < ⌊randTime⌋ := by exact_mod_cast whole
  unfold SpawnManager.armSpawnTimer setTimer
  rw [floor, if_pos positive]
  rfl

theorem Change.ready (change : Change cfg w event next out) (ready : Ready w) : Ready next := by
  refine ⟨(change.counts ready.inStep).1, ?_⟩
  by_cases fires : ∃ draw, event = .makeEnemy draw
  · obtain ⟨draw, rfl⟩ := fires
    cases change with
    | spawns _ _ _ possible made =>
      cases made with
      | full _ | attempt _ _ _ => exact armed_of_drawn playable _ possible.randTime
    | acts _ _ _ _ _ _ _ _ _ named _ _ => cases named
  · rcases change.follows fun draw same => fires ⟨draw, same⟩ with ⟨_, same⟩ | ⟨_, up⟩
    · rw [same]
      exact ready.armed
    · rw [up]
      exact ready.armed

theorem Leads.ready (leads : Leads (step cfg) Fair w v) (ready : Ready w) : Ready v :=
  leads.invariant ready fun _ taken _ here => Change.ready playable (taken_change taken) here

/-- An attempt that makes an enemy, where the level has one left. -/
theorem leads_spawn (ready : Ready w) (low : w.gameMode.level < 5)
    (room : w.gameMode.spawnManager.makeCount < w.gameMode.spawnManager.makeTargetCount) :
    ∃ v, Leads (step cfg) Fair w v ∧ v.alive = w.alive + 1 ∧ v.gameMode.level = w.gameMode.level ∧
      v.gameMode.exp = w.gameMode.exp ∧
      v.gameMode.spawnManager.makeTargetCount = w.gameMode.spawnManager.makeTargetCount ∧
      v.gameMode.spawnManager.makeCount = w.gameMode.spawnManager.makeCount + 1 := by
  let draw : MakeEnemyDraw := ⟨0, 0, cfg.spawn.minTime, true⟩
  have some := playable.spawnList
  have possible : draw.Possible cfg.spawn := by
    refine ⟨?_, show RandRange 0 99 0 by decide, ⟨min_le_left _ _, le_max_left _ _⟩⟩
    show RandRange 0 (cfg.spawn.spawnNum - 1) 0
    unfold RandRange
    rw [if_pos (by omega)]
    exact ⟨le_refl 0, by omega⟩
  obtain ⟨⟨v, out⟩, done⟩ :=
    Option.isSome_iff_exists.mp (spawnStep_isSome playable.spawnList ready.armed possible)
  have leads : Leads (step cfg) Fair w v := .one (e := .makeEnemy draw) done ⟨rfl, rfl⟩
  refine ⟨v, leads, ?_⟩
  cases spawnStep_change done with
  | spawns _ _ _ _ made =>
    cases made with
    | full full => omega
    | attempt _ _ _ =>
      have makes : Makes w.gameMode.level draw :=
        (makes_iff (le_refl 0)).mpr ⟨low, show (0 : ℤ) < 50 by decide, rfl⟩
      rw [actors_attemptCalls, decide_eq_true makes]
      refine ⟨?_, rfl, rfl, rfl, rfl⟩
      show (w.enemies ++ w.spawned cfg _).countP _ = _
      rw [List.countP_append, (census_spawned cfg _).1]
      rfl
  | acts _ _ _ _ _ _ _ _ _ named _ _ => cases named

/-- Where the level has a prospect, there is an enemy to kill or to make. -/
theorem leads_target (ready : Ready w) (enough : w.gameMode.level ≤ w.prospect) :
    ∃ v, Leads (step cfg) Fair w v ∧ 0 < v.alive ∧ v.gameMode.level = w.gameMode.level ∧
      v.gameMode.exp = w.gameMode.exp ∧ v.prospect = w.prospect := by
  by_cases some : 0 < w.alive
  · exact ⟨w, .refl w, some, rfl, rfl, rfl⟩
  · have short := ready.inStep.exp_lt
    unfold prospect at enough
    by_cases low : w.gameMode.level < 5
    · rw [if_pos low] at enough
      obtain ⟨v, leads, alive, level, exp, target, made⟩ :=
        leads_spawn playable ready low (by omega)
      refine ⟨v, leads, by omega, level, exp, ?_⟩
      unfold prospect
      rw [level, exp, target, made, alive, if_pos low, if_pos low]
      push_cast
      ring
    · rw [if_neg low] at enough
      omega

/-- Where the level has a prospect, the next point can be had. -/
theorem leads_point (ready : Ready w) (enough : w.gameMode.level ≤ w.prospect) :
    ∃ v, Leads (step cfg) Fair w v ∧
      (v.gameMode.level = w.gameMode.level ∧ v.gameMode.exp = w.gameMode.exp + 1 ∧
        v.prospect = w.prospect ∨ Ended w v) := by
  obtain ⟨u, first, some, level, exp, same⟩ := leads_target playable ready enough
  have there : Ready u := Leads.ready playable first ready
  obtain ⟨fsm, member, live⟩ := List.countP_pos_iff.mp some
  obtain ⟨i, found⟩ := List.mem_iff_getElem?.mp member
  have live : fsm.state ≠ .die := of_decide_eq_true live
  obtain ⟨v, corpse, second, enemies, dead, gameMode⟩ :=
    leads_kill playable.sniper found live
  refine ⟨v, first.trans second, ?_⟩
  have alive : v.alive + 1 = u.alive := by
    have census := (census_dies (w := u) found live dead).1
    unfold World.alive at census ⊢
    rwa [enemies]
  rcases there.inStep.addExp_cases with ⟨_, more⟩ | ⟨_, last⟩
  · rw [more] at gameMode
    refine Or.inl ⟨by rw [gameMode]; exact level, by rw [gameMode, exp], ?_⟩
    rw [← same]
    unfold prospect
    rw [gameMode]
    dsimp only
    omega
  · rw [last] at gameMode
    refine Or.inr ⟨?_, ?_, ?_⟩
    · rw [gameMode, ← level]
      rfl
    · rw [gameMode]
      rfl
    · rw [gameMode]
      rfl

/-- **A level with a prospect can be ended**, by a player who shoots the living. -/
theorem rises (ready : Ready w) (enough : w.gameMode.level ≤ w.prospect) :
    ∃ v, Leads (step cfg) Fair w v ∧ Ended w v := by
  refine leads_of_variant
    (I := fun a => Ready a ∧ (a.gameMode.level = w.gameMode.level ∧ w.gameMode.level ≤ a.prospect ∨
      Ended w a))
    (fun a => if a.gameMode.level = w.gameMode.level then (w.gameMode.level - a.gameMode.exp).toNat
      else 0) ?_ ⟨ready, Or.inl ⟨rfl, enough⟩⟩
  rintro a ⟨here, ⟨level, enough⟩ | ended⟩
  · -- the missing experience gets less, or the level ends
    have short := here.inStep.exp_lt
    obtain ⟨v, leads, ⟨same, more, prospect⟩ | ended⟩ :=
      leads_point playable here (level.trans_le enough)
    · have there := Leads.ready playable leads here
      refine Or.inr ⟨v, leads, ⟨there, Or.inl ⟨same.trans level, ?_⟩⟩, ?_⟩
      · rwa [prospect]
      · rw [if_pos level, if_pos (same.trans level)]
        omega
    · have next : Ended w v := ⟨ended.1.trans (congrArg (· + 1) level), ended.2⟩
      have other : ¬ v.gameMode.level = w.gameMode.level := by
        rw [next.1]
        omega
      refine Or.inr ⟨v, leads, ⟨Leads.ready playable leads here, Or.inr next⟩, ?_⟩
      rw [if_pos level, if_neg other]
      omega
  · exact Or.inl ended

theorem ready_beginPlay (drawn : FRandRange cfg.spawn.minTime cfg.spawn.maxTime randTime) :
    Ready (beginPlay cfg placed randTime) :=
  ⟨inStep_beginPlay cfg placed randTime, armed_of_drawn playable _ drawn⟩

theorem ready_run (run : Run (step cfg) (beginPlay cfg placed randTime) ts w)
    (drawn : FRandRange cfg.spawn.minTime cfg.spawn.maxTime randTime) : Ready w :=
  run.invariant (ready_beginPlay playable drawn) fun _ _ taken here =>
    Change.ready playable (taken_change taken) here

/-- **A level can be won if and only if its prospect is enough.** Where it is, shots at living enemies
win it; where it is not, nothing that spares the corpses does. -/
theorem rises_iff (run : Run (step cfg) (beginPlay cfg placed randTime) ts w)
    (drawn : FRandRange cfg.spawn.minTime cfg.spawn.maxTime randTime) :
    (w.gameMode.needExp ≤ w.prospect →
        ∃ us v, Run (step cfg) w us v ∧ OnlyShots us ∧ HitsLive us ∧
          v.gameMode.level = w.gameMode.level + 1) ∧
      (w.prospect < w.gameMode.needExp → ∀ us v, Run (step cfg) w us v → HitsLive us →
        v.gameMode.level = w.gameMode.level) := by
  have ready := ready_run playable run drawn
  rw [ready.inStep.needExp]
  constructor
  · intro enough
    obtain ⟨v, ⟨us, rest, fair⟩, ended⟩ := rises playable ready enough
    exact ⟨us, v, rest, fun t member => (fair t member).1, fun t member => (fair t member).2,
      ended.1⟩
  · intro short us v rest live
    exact stalled ready.inStep short rest live

/-- **Level five can be reached** from every start. -/
theorem five_reachable (drawn : FRandRange cfg.spawn.minTime cfg.spawn.maxTime randTime)
    (placed : ℕ) :
    ∃ us v, Run (step cfg) (beginPlay cfg placed randTime) us v ∧ OnlyShots us ∧ HitsLive us ∧
      v.gameMode.level = 5 := by
  have begun : (1 : ℤ) ≤ (beginPlay cfg placed randTime).prospect := by
    show (1 : ℤ) ≤ 0 + ((beginPlay cfg placed randTime).alive : ℤ) + 1
    omega
  have reached : ∃ v, Leads (step cfg) Fair (beginPlay cfg placed randTime) v ∧
      v.gameMode.level = 5 := by
    refine leads_of_variant
      (I := fun a => Ready a ∧ a.gameMode.level ≤ 5 ∧
        (a.gameMode.level < 5 → a.gameMode.level ≤ a.prospect))
      (fun a => (5 - a.gameMode.level).toNat) ?_
      ⟨ready_beginPlay playable drawn, show (1 : ℤ) ≤ 5 by decide, fun _ => begun⟩
    rintro a ⟨here, most, enough⟩
    by_cases five : a.gameMode.level = 5
    · exact Or.inl five
    · obtain ⟨v, leads, ended⟩ := rises playable here (enough (by omega))
      have there := Leads.ready playable leads here
      have level := ended.1
      exact Or.inr ⟨v, leads, ⟨there, by omega, ended.prospect there⟩, by omega⟩
  obtain ⟨v, ⟨us, run, fair⟩, five⟩ := reached
  exact ⟨us, v, run, fun t member => (fair t member).1, fun t member => (fair t member).2, five⟩

omit playable

theorem playable_default : Playable {} where
  sniper := show (0 : ℤ) < 5 by decide
  spawnList := le_refl 1
  minTime := le_refl 1
  ordered := show (1 : ℚ) ≤ 2 by decide

/-- The first level can be won at the start, and no more once its one attempt has failed. -/
theorem rises_iff_first :
    (∃ us v, Run (step {}) (beginPlay {} 0 1) us v ∧ OnlyShots us ∧ HitsLive us ∧
        v.gameMode.level = 2) ∧
      ∀ us v, Run (step {}) (final (step {}) (beginPlay {} 0 1) [.makeEnemy ⟨0, 50, 1, true⟩]) us v →
        HitsLive us → v.gameMode.level = 1 :=
  ⟨(rises_iff playable_default .nil (by decide)).1 (by decide),
    (rises_iff playable_default (run_trace (step {}) (beginPlay {} 0 1) [.makeEnemy ⟨0, 50, 1, true⟩])
      (by decide)).2 (by decide +kernel)⟩

theorem five_reachable_default :
    ∃ us v, Run (step {}) (beginPlay {} 0 1) us v ∧ OnlyShots us ∧ HitsLive us ∧
      v.gameMode.level = 5 :=
  five_reachable playable_default (by decide) 0

end Rises

end World

end MyTPSGame
