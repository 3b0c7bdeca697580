/-
**Everything one event can do to a game.**

`Change cfg w event next out` has four cases: the spawn timer fires, a level-up timer fires, one
enemy acts (by its own event, or because a shot hits it), or the fire component handles an event
that reaches no enemy. `taken_change` is the inversion of the game's step function.

An enemy's act reaches the other objects through the one call it may make on them, so its effect is
read off the act: `heard` is the game after it, and the `count_hearAll` lemmas count the calls seen.
-/

import MyTPSGame.Model.World
import MyTPSGame.Machine.Account
import Mathlib.Data.List.Count

namespace MyTPSGame

open Machine

namespace World

/-! ### Counting calls -/

section Count

variable {α : Type*} {call : α → WorldCall} {p : WorldCall → Bool} {o : WorldCall}

/-- An object whose calls `p` does not count adds nothing. -/
theorem countP_map_other (other : ∀ a, p (call a) = false) (l : List α) :
    (l.map call).countP p = 0 := by
  rw [List.countP_map]
  exact List.countP_eq_zero.mpr fun a _ => by simp [other a]

theorem count_map_other (other : ∀ a, call a ≠ o) (l : List α) : (l.map call).count o = 0 :=
  countP_map_other (p := (· == o)) (fun a => beq_false_of_ne (other a)) l

/-- The calls of the fire component around those of an act add nothing either. -/
theorem countP_around (silent : ∀ call, p (.fire call) = false) (before after : List FireCall)
    (out : List WorldCall) :
    (before.map WorldCall.fire ++ out ++ after.map WorldCall.fire).countP p = out.countP p := by
  rw [List.countP_append, List.countP_append, countP_map_other silent, countP_map_other silent,
    zero_add, add_zero]

theorem count_around (silent : ∀ call, .fire call ≠ o) (before after : List FireCall)
    (out : List WorldCall) :
    (before.map WorldCall.fire ++ out ++ after.map WorldCall.fire).count o = out.count o :=
  countP_around (p := (· == o)) (fun call => beq_false_of_ne (silent call)) before after out

end Count

/-! ### Carrying out the calls of an act -/

section Hear

variable (i : ℕ) (w : World)

theorem hearAll_append (first second : List EnemyCall) :
    w.hearAll i (first ++ second) =
      (((w.hearAll i first).1.hearAll i second).1,
        (w.hearAll i first).2 ++ ((w.hearAll i first).1.hearAll i second).2) := by
  induction first generalizing w with
  | nil => rfl
  | cons call first ih =>
    rw [List.cons_append, hearAll, ih, hearAll, List.append_assoc]

theorem hear_quiet {call : EnemyCall} (noHit : ∀ damage, call ≠ .onHit damage)
    (noExp : ∀ amount, call ≠ .addExp amount) : w.hear i call = (w, [.enemy i call]) := by
  cases call with
  | onHit damage => exact absurd rfl (noHit damage)
  | addExp amount => exact absurd rfl (noExp amount)
  | _ => rfl

theorem hearAll_quiet {calls : List EnemyCall} (quiet : EnemyFSM.Quiet calls) :
    w.hearAll i calls = (w, calls.map (.enemy i)) := by
  induction calls with
  | nil => rfl
  | cons call calls ih =>
    obtain ⟨noHit, noExp⟩ := quiet call List.mem_cons_self
    rw [hearAll, hear_quiet i w noHit noExp, ih fun other member =>
      quiet other (List.mem_cons_of_mem _ member)]
    rfl

/-- The game after enemy `i` has acted: the game mode hears of its death, the player of its hit. -/
def heard (cfg : EnemyConfig) (fsm : EnemyFSM) (event : EnemyFSM.Event) (w : World) : World :=
  { w with
    gameMode := if fsm.Dies event then (w.gameMode.addExp 1).1 else w.gameMode
    player := if fsm.Strikes cfg event then (w.player.onHit 1).1 else w.player }

/-- What is seen of player and game mode when enemy `i` has acted. -/
def heardCalls (cfg : EnemyConfig) (fsm : EnemyFSM) (event : EnemyFSM.Event) (w : World) :
    List WorldCall :=
  (if fsm.Strikes cfg event then (w.player.onHit 1).2.map .player else []) ++
    if fsm.Dies event then (w.gameMode.addExp 1).2.map .gameMode else []

variable {cfg : EnemyConfig} {fsm next : EnemyFSM} {event : EnemyFSM.Event}
  {calls : List EnemyCall}

theorem hearAll_act (act : EnemyFSM.Act cfg fsm event next calls) :
    (w.hearAll i calls).1 = w.heard cfg fsm event := by
  unfold heard
  rcases act.calls_cases with ⟨noHit, noExp, quiet⟩ | ⟨hit, noExp, rfl⟩ | ⟨noHit, dies, q, quiet, rfl⟩
  · rw [hearAll_quiet i w quiet, if_neg noExp, if_neg noHit]
  · rw [if_neg noExp, if_pos hit]
    rfl
  · rw [hearAll_append, hearAll_quiet i w quiet, if_pos dies, if_neg noHit]
    rfl

theorem hearAll_calls (act : EnemyFSM.Act cfg fsm event next calls) :
    (w.hearAll i calls).2 = calls.map (.enemy i) ++ w.heardCalls cfg fsm event := by
  unfold heardCalls
  rcases act.calls_cases with ⟨noHit, noExp, quiet⟩ | ⟨hit, noExp, rfl⟩ | ⟨noHit, dies, q, quiet, rfl⟩
  · rw [hearAll_quiet i w quiet, if_neg noHit, if_neg noExp]
    simp
  · rw [if_pos hit, if_neg noExp]
    simp [hearAll, hear]
  · rw [hearAll_append, hearAll_quiet i w quiet, if_neg noHit, if_pos dies]
    simp [hearAll, hear]

/-- The player is seen to make its calls when it is struck. -/
theorem count_hearAll_player (act : EnemyFSM.Act cfg fsm event next calls) (call : PlayerCall) :
    (w.hearAll i calls).2.count (.player call) =
      if fsm.Strikes cfg event then (w.player.onHit 1).2.count call else 0 := by
  rcases act.calls_cases with ⟨noHit, _, quiet⟩ | ⟨hit, _, rfl⟩ | ⟨noHit, _, q, quiet, rfl⟩
  · rw [hearAll_quiet i w quiet, if_neg noHit, count_map_other (by simp)]
  · rw [if_pos hit]
    have injective : Function.Injective WorldCall.player := fun _ _ same => by cases same; rfl
    simp [hearAll, hear, List.count_map_of_injective _ _ injective]
  · rw [if_neg noHit, hearAll_append, hearAll_quiet i w quiet, List.count_append,
      count_map_other (by simp), zero_add]
    refine List.count_eq_zero.mpr ?_
    simp [hearAll, hear]

/-- The game mode is seen to make its calls when the enemy dies. -/
theorem count_hearAll_gameMode (act : EnemyFSM.Act cfg fsm event next calls)
    (call : GameModeCall) :
    (w.hearAll i calls).2.count (.gameMode call) =
      if fsm.Dies event then (w.gameMode.addExp 1).2.count call else 0 := by
  rcases act.calls_cases with ⟨_, noExp, quiet⟩ | ⟨_, noExp, rfl⟩ | ⟨_, dies, q, quiet, rfl⟩
  · rw [hearAll_quiet i w quiet, if_neg noExp, count_map_other (by simp)]
  · rw [if_neg noExp]
    refine List.count_eq_zero.mpr ?_
    simp [hearAll, hear]
  · rw [if_pos dies, hearAll_append, hearAll_quiet i w quiet, List.count_append,
      count_map_other (by simp), zero_add]
    have injective : Function.Injective WorldCall.gameMode := fun _ _ same => by cases same; rfl
    simp [hearAll, hear, List.count_map_of_injective _ _ injective]

/-- No enemy spawns another. -/
theorem count_hearAll_spawn (call : SpawnCall) :
    (w.hearAll i calls).2.count (.spawn call) = 0 := by
  induction calls generalizing w with
  | nil => rfl
  | cons first calls ih =>
    rw [hearAll, List.count_append, ih, add_zero]
    refine List.count_eq_zero.mpr ?_
    cases first <;> simp [hear]

theorem spawn_notMem_act (before after : List FireCall) (call : SpawnCall) :
    .spawn call ∉ before.map WorldCall.fire ++ (w.hearAll i calls).2 ++ after.map WorldCall.fire := by
  refine List.count_eq_zero.mp ?_
  rw [count_around (by simp), count_hearAll_spawn]

end Hear

/-! ### The inversion of the step function -/

/-- The enemies a firing of `MakeEnemy` adds, if it adds `n`. -/
def spawned (cfg : GameConfig) (w : World) (n : ℕ) : List EnemyFSM :=
  (List.range n).map fun k => .beginPlay (cfg.enemy (w.enemies.length + k))

@[simp] theorem length_spawned (cfg : GameConfig) (w : World) (n : ℕ) :
    (w.spawned cfg n).length = n := by
  rw [spawned, List.length_map, List.length_range]

/-- Everything one event can do to a game. In `acts`, `before` and `after` are the calls of the fire
component around the damage of a shot; they are empty when the event is the enemy's own. -/
inductive Change (cfg : GameConfig) (w : World) : Event → World → List WorldCall → Prop
  | spawns (draw : MakeEnemyDraw) (spawnManager : SpawnManager) (calls : List SpawnCall) :
      draw.Possible cfg.spawn →
      SpawnManager.Made cfg.spawn w.gameMode.level w.gameMode.spawnManager draw spawnManager calls →
      Change cfg w (.makeEnemy draw)
        { w with
          gameMode := { w.gameMode with spawnManager := spawnManager }
          enemies := w.enemies ++ w.spawned cfg (draw.actors calls) }
        (calls.map .spawn)
  | levels (gm : GameMode) (calls : List GameModeCall) :
      w.gameMode.fireLevelUpTimer = some (gm, calls) →
      Change cfg w .levelUpTimer { w with gameMode := gm } (calls.map .gameMode)
  | acts (event : Event) (i : ℕ) (act : EnemyFSM.Event) (fsm next : EnemyFSM)
      (calls : List EnemyCall) (fire : FireComponent) (before after : List FireCall) :
      w.enemyEvent event = some (i, act) → w.enemies[i]? = some fsm →
      fsm.step (cfg.enemy i) act = some (next, calls) →
      Change cfg w event
        (heard (cfg.enemy i) fsm act { w with fire := fire, enemies := w.enemies.set i next })
        (before.map .fire ++
          (hearAll i { w with fire := fire, enemies := w.enemies.set i next } calls).2 ++
          after.map .fire)
  | handles (event : FireComponent.Event) (index : Fin 2) (fire : FireComponent)
      (calls : List FireCall) :
      w.enemyEvent (.fire event index) = none →
      w.fire.step cfg.fire event = some (fire, calls) →
      Change cfg w (.fire event index) { w with fire := fire } (calls.map .fire)

section Inversion

variable {cfg : GameConfig} {w next : World} {out : List WorldCall} {index : Fin 2}

theorem hearFire_harmless {calls : List FireCall} (harmless : FireComponent.Harmless calls) :
    hearFire cfg index w calls = some (w, calls.map .fire) := by
  induction calls with
  | nil => rfl
  | cons call calls ih =>
    have rest := ih fun other member => harmless other (List.mem_cons_of_mem _ member)
    have head := harmless call List.mem_cons_self
    cases call with
    | onDamageProcess i damageAmount => exact absurd rfl (head i damageAmount)
    | _ => simp [hearFire, rest]

/-- Calls that damage one enemy, in the middle of calls that damage none. -/
theorem hearFire_hit {before after : List FireCall} {i : ℕ} {damageAmount : ℤ}
    (quietBefore : FireComponent.Harmless before) (quietAfter : FireComponent.Harmless after)
    (done : hearFire cfg index w (before ++ FireCall.onDamageProcess i damageAmount :: after) =
      some (next, out)) :
    ∃ hit, w.enemyStep cfg i (.onDamageProcess damageAmount index) = some (next, hit) ∧
      out = (before ++ [FireCall.onDamageProcess i damageAmount]).map .fire ++ hit ++
        after.map .fire := by
  induction before generalizing out with
  | nil =>
    simp only [List.nil_append, hearFire] at done
    cases struck : w.enemyStep cfg i (.onDamageProcess damageAmount index) with
    | none =>
      rw [struck] at done
      cases done
    | some result =>
      obtain ⟨there, hit⟩ := result
      simp only [struck, hearFire_harmless quietAfter, Option.map_some, Option.some.injEq,
        Prod.mk.injEq] at done
      obtain ⟨rfl, rfl⟩ := done
      exact ⟨hit, rfl, rfl⟩
  | cons call before ih =>
    have head := quietBefore call List.mem_cons_self
    have rest : ∃ o, hearFire cfg index w (before ++ FireCall.onDamageProcess i damageAmount :: after) =
        some (next, o) ∧ out = .fire call :: o := by
      cases call with
      | onDamageProcess j amount => exact absurd rfl (head j amount)
      | _ =>
        simp only [List.cons_append, hearFire, Option.map_eq_some_iff] at done
        obtain ⟨⟨there, o⟩, reach, same⟩ := done
        obtain ⟨rfl, rfl⟩ := Prod.mk.inj same
        exact ⟨o, reach, rfl⟩
    obtain ⟨o, reach, rfl⟩ := rest
    obtain ⟨hit, struck, rfl⟩ :=
      ih (fun other member => quietBefore other (List.mem_cons_of_mem _ member)) reach
    exact ⟨hit, struck, rfl⟩

theorem enemyEvent_shot {shot : Shot} {i : ℕ} (struck : w.fire.struck shot = some i) :
    w.enemyEvent (.fire (.onActionFirePressed shot) index) =
      some (i, .onDamageProcess 1 index) := by
  simp [enemyEvent, struck]

theorem enemyStep_cases {i : ℕ} {act : EnemyFSM.Event}
    (done : w.enemyStep cfg i act = some (next, out)) :
    ∃ fsm there calls, w.enemies[i]? = some fsm ∧
      fsm.step (cfg.enemy i) act = some (there, calls) ∧
      next = heard (cfg.enemy i) fsm act { w with enemies := w.enemies.set i there } ∧
      out = (hearAll i { w with enemies := w.enemies.set i there } calls).2 := by
  unfold enemyStep at done
  cases found : w.enemies[i]? with
  | none =>
    rw [found] at done
    cases done
  | some fsm =>
    cases moved : fsm.step (cfg.enemy i) act with
    | none =>
      simp only [found, moved] at done
      cases done
    | some result =>
      obtain ⟨there, calls⟩ := result
      simp only [found, moved, Option.some.injEq] at done
      refine ⟨fsm, there, calls, rfl, moved, ?_, ?_⟩
      · rw [← hearAll_act i _ (EnemyFSM.step_act moved), done]
      · rw [done]

theorem spawnStep_change {draw : MakeEnemyDraw} (done : w.spawnStep cfg draw = some (next, out)) :
    Change cfg w (.makeEnemy draw) next out := by
  unfold spawnStep at done
  by_cases armed : w.gameMode.spawnManager.spawnEnemyTimer.isSome
  · rw [if_pos armed] at done
    cases fired : w.gameMode.spawnManager.makeEnemy cfg.spawn w.gameMode.level draw with
    | none =>
      rw [fired] at done
      cases done
    | some result =>
      obtain ⟨spawnManager, calls⟩ := result
      simp only [fired, Option.some.injEq, Prod.mk.injEq] at done
      obtain ⟨rfl, rfl⟩ := done
      obtain ⟨possible, made⟩ := SpawnManager.makeEnemy_made fired
      exact .spawns draw spawnManager calls possible made
  · rw [if_neg armed] at done
    cases done

theorem fireStep_change {event : FireComponent.Event} {fire : FireComponent} {calls : List FireCall}
    (moved : w.fire.step cfg.fire event = some (fire, calls))
    (done : hearFire cfg index { w with fire := fire } calls = some (next, out)) :
    Change cfg w (.fire event index) next out := by
  have quiet (none : w.enemyEvent (.fire event index) = none)
      (harmless : FireComponent.Harmless calls) : Change cfg w (.fire event index) next out := by
    rw [hearFire_harmless harmless] at done
    cases done
    exact .handles event index fire calls none moved
  cases event with
  | onActionFirePressed shot =>
    have press := FireComponent.step_press moved
    cases struck : w.fire.struck shot with
    | none => exact quiet (by simp [enemyEvent, struck]) (press.missed struck)
    | some i =>
      obtain ⟨before, after, quietBefore, quietAfter, rfl⟩ := press.struck struck
      obtain ⟨hit, struckStep, rfl⟩ := hearFire_hit quietBefore quietAfter done
      obtain ⟨fsm, there, acts, found, acted, rfl, rfl⟩ := enemyStep_cases struckStep
      exact .acts (.fire (.onActionFirePressed shot) index) i _ fsm there acts fire
        (before ++ [.onDamageProcess i 1]) after (enemyEvent_shot struck) found acted
  | _ => exact quiet rfl ((FireComponent.step_handled moved).harmless (by simp))

/-- **The step function does nothing but changes.** -/
theorem taken_change {t : Transition World Event WorldCall} (taken : t.Taken (step cfg)) :
    Change cfg t.pre t.event t.post t.out := by
  obtain ⟨w, event, next, out⟩ := t
  change step cfg w event = some (next, out) at taken
  cases event with
  | makeEnemy draw => exact spawnStep_change taken
  | levelUpTimer =>
    simp only [step, Option.map_eq_some_iff] at taken
    obtain ⟨⟨gm, calls⟩, fired, same⟩ := taken
    obtain ⟨rfl, rfl⟩ := Prod.mk.inj same
    exact .levels gm calls fired
  | enemy i act =>
    obtain ⟨fsm, there, calls, found, acted, rfl, rfl⟩ := enemyStep_cases taken
    have change := Change.acts (.enemy i act) i act fsm there calls w.fire [] [] rfl found acted
    simpa using change
  | fire event index =>
    simp only [step] at taken
    cases moved : w.fire.step cfg.fire event with
    | none =>
      rw [moved] at taken
      cases taken
    | some result =>
      obtain ⟨fire, calls⟩ := result
      simp only [moved] at taken
      exact fireStep_change moved taken

/-- What an enemy's event does to the game: to that enemy, to the game mode if it dies, and to the
player if it strikes. -/
theorem Change.acted {event : Event} {i : ℕ} {act : EnemyFSM.Event}
    (change : Change cfg w event next out) (named : w.enemyEvent event = some (i, act)) :
    ∃ fsm there calls, w.enemies[i]? = some fsm ∧
      fsm.step (cfg.enemy i) act = some (there, calls) ∧ next.enemies = w.enemies.set i there ∧
      next.gameMode = (if fsm.Dies act then (w.gameMode.addExp 1).1 else w.gameMode) ∧
      next.player = (if fsm.Strikes (cfg.enemy i) act then (w.player.onHit 1).1 else w.player) := by
  cases change with
  | spawns draw spawnManager calls _ _ => cases named
  | levels gm calls _ => cases named
  | acts event j act' fsm there calls fire before after named' found moved =>
    obtain ⟨rfl, rfl⟩ := Prod.mk.inj (Option.some.inj (named'.symm.trans named))
    exact ⟨fsm, there, calls, found, moved, rfl, rfl, rfl⟩
  | handles event index fire calls nobody _ =>
    rw [nobody] at named
    cases named

end Inversion

end World

end MyTPSGame
