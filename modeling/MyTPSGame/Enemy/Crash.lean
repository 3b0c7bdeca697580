/-
**What crashes the game.**

An enemy's handlers use its controller, its path and its target without a look, and `MakeEnemy`
indexes the list of spawn points. In a level that has a controller and a waypoint for every enemy, and
a spawn point, the target is the only thing that can be missing. An enemy that survives damage in IDLE
comes to MOVE without one: it takes the null target to be near, and the chase reads it (`crashes`).

* `handled`: where no enemy has survived damage in IDLE, whatever the engine delivers is handled;
* `crash_free_iff`: with no negative `detectDistance`, only there can ticks never crash the game.
-/

import MyTPSGame.Enemy.Life
import MyTPSGame.Enemy.Patrol
import MyTPSGame.Model.EnemyTrace
import MyTPSGame.Model.Health
import MyTPSGame.Order.Interleaving
import MyTPSGame.Progress.SpawnPoint

namespace MyTPSGame

open Machine Cycle

namespace EnemyFSM

/-- What an enemy uses without a look: a controller, and a path with a waypoint. -/
structure Equipped (cfg : EnemyConfig) : Prop where
  ai : cfg.ai = true
  path : ∃ num, cfg.wayPoints = some num ∧ 1 ≤ num

variable {cfg : EnemyConfig} {fsm next : EnemyFSM} {event : Event} {calls : List EnemyCall}
  {ts : List Move} {frame : Frame}

/-- What an enemy is known to be where nobody has survived damage in IDLE. -/
structure Sane (cfg : EnemyConfig) (fsm : EnemyFSM) : Prop where
  searched : Searched fsm
  spent : Spent fsm
  wayIndex : ∀ num, cfg.wayPoints = some num → Place num fsm.wayIndex

/-! ### What is handled -/

section Handled

theorem sane_run (run : Run (step cfg) (beginPlay cfg) ts fsm) (equipped : Equipped cfg)
    (damages : ∀ t ∈ ts, 0 ≤ t.event.damage) (spares : ∀ t ∈ ts, SparesIdle t) : Sane cfg fsm := by
  obtain ⟨searched, spent⟩ := searched_run run damages spares fsm run.last_visited
  refine ⟨searched, spent, fun num path => ?_⟩
  obtain ⟨num', path', some⟩ := equipped.path
  obtain rfl := Option.some.inj (path'.symm.trans path)
  rw [wayIndex_run run path some]
  exact emod_place (by omega) _

/-- A tick keeps an enemy sane. -/
theorem Sane.tick (sane : Sane cfg fsm) (act : Act cfg fsm (.tick frame) next calls) :
    Sane cfg next := by
  refine ⟨act.searched sane.spent (le_refl 0) (fun _ => id) sane.searched,
    act.spent (le_refl 0) sane.spent, fun num path => ?_⟩
  rw [act.wayIndex path]
  split
  · exact succ_place (sane.wayIndex num path)
  · exact sane.wayIndex num path

theorem tickPatrol_isSome (equipped : Equipped cfg) (sane : Sane cfg fsm) :
    (fsm.showState.tickPatrol cfg frame).isSome := by
  obtain ⟨num, path, _⟩ := equipped.path
  obtain ⟨low, high⟩ := sane.wayIndex num path
  unfold tickPatrol
  rw [path]
  dsimp only
  rw [if_pos ⟨low, high, equipped.ai⟩]
  rfl

theorem tickChase_isSome (equipped : Equipped cfg) (target : fsm.target.isSome) :
    (fsm.showState.tickChase cfg frame).isSome := by
  unfold tickChase
  rw [if_pos ⟨target, equipped.ai⟩]
  split
  · rfl
  · split <;> rfl

theorem tickMoveOldMove_isSome (equipped : Equipped cfg) (target : fsm.target.isSome) :
    (fsm.showState.tickMoveOldMove cfg frame).isSome := by
  unfold tickMoveOldMove
  rw [if_pos ⟨target, equipped.ai⟩]
  split
  · rfl
  · split <;> rfl

theorem tickAttack_isSome (target : fsm.target.isSome) :
    (fsm.showState.tickAttack cfg frame).isSome := by
  have same : (fsm.showState.runClock frame).target.isSome := target
  unfold tickAttack
  dsimp only
  rw [if_pos same]
  split
  · split <;> rfl
  · rfl

/-- A sane enemy can be ticked. -/
theorem tick_isSome (equipped : Equipped cfg) (sane : Sane cfg fsm) (frame : Frame) :
    (step cfg fsm (.tick frame)).isSome := by
  have target (state : fsm.state = .move ∨ fsm.state = .attack) : fsm.target.isSome :=
    Option.isSome_iff_ne_none.mpr (sane.searched.targeted state)
  show (fsm.tickComponent cfg frame).isSome
  unfold tickComponent
  cases state : fsm.state with
  | idle | damage | die => simp [state]
  | attack =>
    simp only [showState_state, state]
    exact tickAttack_isSome (target (Or.inr state))
  | move =>
    simp only [showState_state, state, tickMove, showState_moveSubState]
    cases fsm.moveSubState with
    | patrol => exact tickPatrol_isSome equipped sane
    | chase => exact tickChase_isSome equipped (target (Or.inl state))
    | oldMove => exact tickMoveOldMove_isSome equipped (target (Or.inl state))

/-- A sane enemy can be ticked for ever. -/
theorem ticks_isSome (equipped : Equipped cfg) (sane : Sane cfg fsm) (frames : List Frame) :
    (exec (step cfg) fsm (frames.map .tick)).isSome := by
  refine exec_isSome (I := Sane cfg) sane fun fsm sane e member => ?_
  obtain ⟨frame, _, rfl⟩ := List.mem_map.mp member
  obtain ⟨⟨next, calls⟩, done⟩ := Option.isSome_iff_exists.mp (tick_isSome equipped sane frame)
  exact ⟨next, calls, done, sane.tick (step_act done)⟩

end Handled

/-! ### What crashes -/

section Crashes

/-- A tick of MOVE without a target is one of the patrol, which takes the null target to be near. -/
theorem blind_patrols (done : step cfg fsm (.tick frame) = some (next, calls))
    (state : fsm.state = .move) (blind : fsm.target = none) (detects : 0 ≤ cfg.detectDistance) :
    fsm.moveSubState = .patrol ∧ next.state = .move ∧ next.moveSubState = .chase ∧
      next.target = none := by
  cases step_act done with
  | patrols _ num _ sub _ _ _ =>
    have same := samePatrol_tick cfg fsm.showState num frame
    refine ⟨sub, same.state.trans state, ?_, same.target.trans blind⟩
    have unseen : (fsm.showState.nextWayPoint num frame).target = none :=
      (samePatrol_nextWayPoint fsm.showState num frame).target.trans blind
    unfold detect getDistanceTo
    rw [unseen, Option.isSome_none, if_neg Bool.false_ne_true, if_pos detects]
  | chaseAttacks _ _ _ target _ | chaseAbandons _ _ _ target _ _ | chases _ _ _ target _ _
    | oldMoves _ _ _ _ _ target _ => exact absurd blind target
  | idleWaits _ other | idleFinds _ _ other | attackWaits _ other | attackLeaves _ other
    | attackAgain _ other | damageWaits _ other | damageEnds _ other | dieWaits _ other
    | dieSinks _ _ other => exact absurd (state.symm.trans other) (by decide)

/-- An enemy that moves without a target is not ticked twice. -/
theorem crashes (state : fsm.state = .move) (blind : fsm.target = none)
    (detects : 0 ≤ cfg.detectDistance) (frame : Frame) :
    exec (step cfg) fsm [.tick frame, .tick frame] = none := by
  cases first : step cfg fsm (.tick frame) with
  | none => rw [exec, first]
  | some result =>
    obtain ⟨next, calls⟩ := result
    obtain ⟨_, moves, chase, lost⟩ := blind_patrols first state blind detects
    rw [exec_first first, Option.map_eq_none_iff]
    cases second : step cfg next (.tick frame) with
    | none => rw [exec, second]
    | some _ =>
      -- the second tick would have to be one of the patrol, too
      have patrol := (blind_patrols second moves lost detects).1
      exact absurd (chase.symm.trans patrol) (by decide)

/-- An enemy that has survived damage in IDLE is three ticks from the crash. -/
theorem crashes_of_hurt {t : Move} (taken : t.Taken (step cfg)) (lost : t.pre.target = none)
    (hurt : t.pre.Survives t.event) (detects : 0 ≤ cfg.detectDistance) :
    ∃ frames : List Frame, exec (step cfg) t.post (frames.map .tick) = none := by
  have staggers := (taken_act taken).staggers hurt
  obtain ⟨after, ticks, moves, same⟩ := tick_staggered cfg { deltaSeconds := 2, distance := 0 }
    (by decide) (congrArg EnemyFSM.state staggers) (congrArg EnemyFSM.currentTime staggers)
  have blind : after.target = none := by
    rw [same, staggers]
    exact lost
  refine ⟨List.replicate 3 { deltaSeconds := 2, distance := 0 }, ?_⟩
  simp only [List.replicate, List.map_cons, List.map_nil]
  rw [exec_first ticks, crashes moves blind detects]
  rfl

/-- Out of IDLE the target is not looked for again. -/
theorem Act.keeps_target (act : Act cfg fsm event next calls) (alert : fsm.state ≠ .idle) :
    next.state ≠ .idle ∧ next.target = fsm.target := by
  cases act with
  | idleWaits _ idle _ | idleFinds _ _ idle _ => exact absurd idle alert
  | patrols frame num _ _ _ _ _ =>
    have same := samePatrol_tick cfg fsm.showState num frame
    exact ⟨fun idle => alert (same.state.symm.trans idle), same.target⟩
  | chaseAttacks _ _ _ _ _ | attackLeaves _ _ _ _ _ | damageEnds _ _ _ | killed _ _ _
    | hurt _ _ _ => exact ⟨fun idle => (by cases idle), rfl⟩
  | _ => exact ⟨alert, rfl⟩

/-- An enemy that has been attacking has its target. -/
theorem target_of_attack (run : Run (step cfg) (beginPlay cfg) ts fsm)
    (damages : ∀ t ∈ ts, 0 ≤ t.event.damage) (spares : ∀ t ∈ ts, SparesIdle t) {t : Move}
    (member : t ∈ ts) (attack : t.post.state = .attack) : fsm.target.isSome := by
  obtain ⟨searched, _⟩ := searched_run run damages spares t.post (post_visited member)
  have alert : t.post.state ≠ .idle := by
    rw [attack]
    decide
  have found : t.post.target ≠ none := searched.targeted (Or.inr attack)
  obtain ⟨_, after, _, _, _, rest⟩ := run.mem member
  have kept : fsm.state ≠ .idle ∧ fsm.target = t.post.target :=
    rest.invariant (I := fun fsm => fsm.state ≠ .idle ∧ fsm.target = t.post.target) ⟨alert, rfl⟩
      fun u _ taken ⟨alert, same⟩ =>
        have keeps := (taken_act taken).keeps_target alert
        ⟨keeps.1, keeps.2.trans same⟩
  rw [kept.2]
  exact Option.isSome_iff_ne_none.mpr found

end Crashes

end EnemyFSM

namespace World

variable {cfg : GameConfig} {placed : ℕ} {randTime : ℚ} {w : World} {t : Move} {ts : List Move}
  {event : Event} {i : ℕ} {act : EnemyFSM.Event} {fsm : EnemyFSM}

/-- A level in which everything that is used without a look is there. -/
structure Built (cfg : GameConfig) : Prop where
  equipped : ∀ i, EnemyFSM.Equipped (cfg.enemy i)
  spawnList : 1 ≤ cfg.spawn.spawnNum

/-- What the engine delivers after a run: timers that are armed, with draws that are possible, events
of enemies that are there, and hits of these. The notification is part of the attack animation. -/
inductive Delivered (cfg : GameConfig) (ts : List Move) (w : World) : Event → Prop
  | makeEnemy (draw : MakeEnemyDraw) : w.gameMode.spawnManager.spawnEnemyTimer.isSome →
      draw.Possible cfg.spawn → Delivered cfg ts w (.makeEnemy draw)
  | levelUpTimer : 0 < w.gameMode.levelUpTimers → Delivered cfg ts w .levelUpTimer
  | enemy (i : ℕ) (act : EnemyFSM.Event) : i < w.enemies.length →
      (∀ distance, act = .animNotifyOnHit distance →
        ∃ u ∈ enemyTrace i ts, u.post.state = .attack) →
      Delivered cfg ts w (.enemy i act)
  | fire (event : FireComponent.Event) (index : Fin 2) :
      (event = .fireTimer → w.fire.fireTimer.isSome) →
      (∀ i, Event.touches (.fire event index) (.enemy i) = true → i < w.enemies.length) →
      Delivered cfg ts w (.fire event index)

/-- No enemy survives damage in IDLE. -/
abbrev SparesIdle (ts : List Move) : Prop :=
  ∀ t ∈ ts, ∀ named ∈ t.pre.enemyEvent t.event, ∀ fsm ∈ t.pre.enemies[named.1]?,
    fsm.state = .idle → ¬ fsm.Survives named.2

/-- No damage gives health. -/
abbrev Harms (ts : List Move) : Prop :=
  ∀ t ∈ ts, ∀ named ∈ t.pre.enemyEvent t.event, 0 ≤ named.2.damage

theorem SparesIdle.enemy (spares : SparesIdle ts) (i : ℕ) :
    ∀ u ∈ enemyTrace i ts, EnemyFSM.SparesIdle u := by
  intro u member
  obtain ⟨t, inside, named, found⟩ := mem_enemyTrace member
  exact spares t inside _ named _ found

theorem Harms.enemy (harms : Harms ts) (i : ℕ) : ∀ u ∈ enemyTrace i ts, 0 ≤ u.event.damage := by
  intro u member
  obtain ⟨t, inside, named, _⟩ := mem_enemyTrace member
  exact harms t inside _ named

theorem built_default : Built {} where
  equipped _ := ⟨rfl, 1, rfl, le_refl 1⟩
  spawnList := le_refl 1

/-! ### What is handled -/

section Handled

theorem enemyStep_isSome (found : w.enemies[i]? = some fsm)
    (acts : (fsm.step (cfg.enemy i) act).isSome) : (w.enemyStep cfg i act).isSome := by
  rw [enemyStep_eq, Option.isSome_map, enemyMove, found, Option.bind_some, Option.isSome_map]
  exact acts

theorem spawnStep_isSome {draw : MakeEnemyDraw} (nonempty : 1 ≤ cfg.spawn.spawnNum)
    (armed : w.gameMode.spawnManager.spawnEnemyTimer.isSome) (possible : draw.Possible cfg.spawn) :
    (w.spawnStep cfg draw).isSome := by
  obtain ⟨spawnManager, calls, fired, _⟩ :=
    w.gameMode.spawnManager.makeEnemy_inside w.gameMode.level possible nonempty
  unfold spawnStep
  rw [if_pos armed, fired]
  rfl

/-- A shot can be carried out where the enemy it hits is there. -/
theorem fireStep_isSome {event : FireComponent.Event} {index : Fin 2}
    (armed : event = .fireTimer → w.fire.fireTimer.isSome)
    (there : ∀ i, Event.touches (.fire event index) (.enemy i) = true → i < w.enemies.length) :
    (step cfg w (.fire event index)).isSome := by
  rw [step_fire]
  rcases fireStep_cases cfg w event index with stuck | ⟨fire, calls, done, harmless⟩ |
    ⟨fire, before, after, i, done, quietBefore, quietAfter, touches⟩
  · -- only the timer can be impossible
    cases event with
    | fireTimer =>
      rw [FireComponent.step, if_pos (armed rfl)] at stuck
      cases stuck
    | _ => cases stuck
  · simp [done, hearFire_harmless harmless]
  · have found : w.enemies[i]? = some (w.enemies.get ⟨i, there i touches⟩) :=
      List.getElem?_eq_getElem (there i touches)
    have hit : ({ w with fire := fire }.enemyStep cfg i (.onDamageProcess 1 index)).isSome :=
      enemyStep_isSome found rfl
    simp [done, hearFire_middle quietBefore quietAfter, hit]

/-- **Whatever the engine delivers is handled**, after every run in which no enemy has survived
damage in IDLE: no handler reads a controller, a path or a target that is missing, or indexes out of a
list. -/
theorem handled (run : Run (step cfg) (beginPlay cfg placed randTime) ts w) (built : Built cfg)
    (harms : Harms ts) (spares : SparesIdle ts) (delivered : Delivered cfg ts w event) :
    (step cfg w event).isSome := by
  cases delivered with
  | makeEnemy draw armed possible => exact spawnStep_isSome built.spawnList armed possible
  | levelUpTimer pending =>
    simp [step, GameMode.fireLevelUpTimer, pending]
  | enemy i act there attacked =>
    have found : w.enemies[i]? = some (w.enemies.get ⟨i, there⟩) := List.getElem?_eq_getElem there
    have played := enemy_run run found
    refine enemyStep_isSome found ?_
    cases act with
    | tick frame =>
      have sane := EnemyFSM.sane_run played (built.equipped i) (harms.enemy i) (spares.enemy i)
      exact EnemyFSM.tick_isSome (built.equipped i) sane frame
    | onDamageProcess damageAmount index => rfl
    | animNotifyOnHit distance =>
      obtain ⟨u, member, attack⟩ := attacked distance rfl
      have target := EnemyFSM.target_of_attack played (harms.enemy i) (spares.enemy i) member attack
      show (EnemyFSM.onHitEvent _ _ distance).isSome
      rw [EnemyFSM.onHitEvent, if_pos target]
      rfl
    | enemyDieEnd => rfl
  | fire event index armed there => exact fireStep_isSome armed there

/-- The notification of an attack. -/
theorem handled_notified :
    (step {} (final (step {}) (beginPlay {} 1 1) (approach 0))
      (.enemy 0 (.animNotifyOnHit 100))).isSome :=
  handled (run_trace (step {}) (beginPlay {} 1 1) (approach 0)) built_default (by decide +kernel)
    (by decide +kernel) (.enemy 0 (.animNotifyOnHit 100) (by decide +kernel)
      fun _ _ => by decide +kernel)

end Handled

/-! ### What crashes -/

section Crashes

/-- Events of one enemy can be executed in the game where they can be in the enemy. -/
theorem exec_enemy (found : w.enemies[i]? = some fsm) (acts : List EnemyFSM.Event) :
    (exec (step cfg) w (acts.map (.enemy i))).isSome =
      (exec (EnemyFSM.step (cfg.enemy i)) fsm acts).isSome := by
  induction acts generalizing w fsm with
  | nil => rfl
  | cons act acts ih =>
    have stepped : step cfg w (.enemy i act) = (w.enemyMove cfg i act).map (w.moved cfg i) :=
      enemyStep_eq
    unfold enemyMove at stepped
    rw [found, Option.bind_some] at stepped
    cases done : fsm.step (cfg.enemy i) act with
    | none =>
      rw [done] at stepped
      rw [List.map_cons, exec, exec, stepped, done]
      rfl
    | some result =>
      obtain ⟨next, calls⟩ := result
      rw [done] at stepped
      obtain ⟨inside, _⟩ := List.getElem?_eq_some_iff.mp found
      have now : (w.moved cfg i ⟨fsm, act, next, calls⟩).1.enemies[i]? = some next :=
        List.getElem?_set_self inside
      rw [List.map_cons, exec_first stepped, exec_first done, Option.isSome_map, Option.isSome_map]
      exact ih now

/-- **What crashes the game** is an enemy that has survived damage in IDLE, and nothing else: where
there is none, no enemy can ever be ticked into a crash, and where there is one, it can. -/
theorem crash_free_iff (run : Run (step cfg) (beginPlay cfg placed randTime) ts w)
    (built : Built cfg) (harms : Harms ts) (detects : ∀ i, 0 ≤ (cfg.enemy i).detectDistance) :
    SparesIdle ts ↔ ∀ a ∈ visited (beginPlay cfg placed randTime) ts, ∀ i < a.enemies.length,
      ∀ frames : List Frame,
        (exec (step cfg) a ((frames.map EnemyFSM.Event.tick).map (.enemy i))).isSome := by
  constructor
  · intro spares a member i there frames
    obtain ⟨before, after, rfl, reach⟩ := run.visited_prefix member
    have sparesNow : SparesIdle before := fun u inside => spares u (List.mem_append_left _ inside)
    have harmsNow : Harms before := fun u inside => harms u (List.mem_append_left _ inside)
    have found : a.enemies[i]? = some (a.enemies.get ⟨i, there⟩) := List.getElem?_eq_getElem there
    have sane := EnemyFSM.sane_run (enemy_run reach found) (built.equipped i) (harmsNow.enemy i)
      (sparesNow.enemy i)
    rw [exec_enemy found]
    exact EnemyFSM.ticks_isSome (built.equipped i) sane frames
  · rintro free t member ⟨i, act⟩ named fsm found idle hurt
    obtain ⟨before, after, rfl, reach, taken, _⟩ := run.mem member
    obtain ⟨fsm', next, calls, found', acted, enemies, _, _⟩ := (taken_change taken).acted named
    obtain rfl := Option.some.inj (found'.symm.trans found)
    obtain ⟨inside, _⟩ := List.getElem?_eq_some_iff.mp found
    have now : t.post.enemies[i]? = some next := by
      rw [enemies]
      exact List.getElem?_set_self inside
    have lost : fsm'.state = .idle → fsm'.target = none :=
      (enemy_run reach found').invariant (I := fun fsm => fsm.state = .idle → fsm.target = none)
        (fun _ => rfl) fun _ _ took => (EnemyFSM.taken_act took).lost
    obtain ⟨there, _⟩ := List.getElem?_eq_some_iff.mp now
    obtain ⟨frames, crash⟩ : ∃ frames : List Frame,
        exec (EnemyFSM.step (cfg.enemy i)) next (frames.map .tick) = none :=
      EnemyFSM.crashes_of_hurt (t := ⟨fsm', act, next, calls⟩) acted (lost idle) hurt (detects i)
    have alive := free t.post (post_visited member) i there frames
    rw [exec_enemy now, crash] at alive
    cases alive

/-- One point of damage to an enemy that has not been ticked yet. -/
theorem crash_free_iff_hurt :
    ¬ ∀ a ∈ visited (beginPlay {} 1 1)
        (trace (step {}) (beginPlay {} 1 1) [.enemy 0 (.onDamageProcess 1 0)]),
      ∀ i < a.enemies.length, ∀ frames : List Frame,
        (exec (step {}) a ((frames.map EnemyFSM.Event.tick).map (.enemy i))).isSome := by
  have hurt : ¬ SparesIdle
      (trace (step {}) (beginPlay {} 1 1) [.enemy 0 (.onDamageProcess 1 0)]) := by
    decide +kernel
  exact (crash_free_iff (run_trace (step {}) (beginPlay {} 1 1) [.enemy 0 (.onDamageProcess 1 0)])
    built_default (by decide +kernel) fun _ => show (0 : ℚ) ≤ 500 by decide).not.mp hurt

end Crashes

end World

end MyTPSGame
