/-
**The player's health in a game.**

`Health` is what an event can do to it: nothing, unless it is a tick on which an enemy strikes, and
then one point, with the game-over event when none is left. `onHitCalls` counts the `OnHit(1)` calls
of all enemies, and `health_run` is what they have cost.
-/

import MyTPSGame.Model.WorldStep

namespace MyTPSGame

open Machine

namespace World

/-- The calls of `OnHit(1)`. -/
def isOnHit : WorldCall → Bool
  | .enemy _ (.onHit damage) => damage = 1
  | _ => false

/-- How often a run calls `OnHit(1)`. -/
def onHitCalls (ts : List Move) : ℕ :=
  total (fun t => t.out.countP isOnHit) ts

/-- The event is a tick on which an enemy strikes. -/
def strikes (cfg : GameConfig) (w : World) (event : Event) : Bool :=
  match w.enemyEvent event with
  | none => false
  | some (i, act) => (w.enemies[i]?).any fun fsm => decide (fsm.Strikes (cfg.enemy i) act)

/-- What an event can do to the player's health. -/
inductive Health (cfg : GameConfig) (w : World) (event : Event) (next : World)
    (out : List WorldCall) : Prop
  | spared : w.strikes cfg event = false → next.player = w.player → out.countP isOnHit = 0 →
      out.count (.player .onMyGameOver) = 0 → Health cfg w event next out
  | struck : w.strikes cfg event = true → next.player.HP = w.player.HP - 1 →
      out.countP isOnHit = 1 →
      out.count (.player .onMyGameOver) = (if w.player.HP - 1 ≤ 0 then 1 else 0) →
      Health cfg w event next out

/-- Four ticks of four seconds each, with enemy `i` a hundred units from the player: it finds the
player, notices it, comes to attack it, and strikes. -/
def approach (i : ℕ) : List Event :=
  List.replicate 4 (.enemy i (.tick { deltaSeconds := 4, distance := 100 }))

variable {cfg : GameConfig} {w next : World} {event : Event} {out : List WorldCall}

/-! ### One event -/

section Event

theorem countP_isOnHit_hear (i : ℕ) (w : World) (call : EnemyCall) :
    (w.hear i call).2.countP isOnHit = [call].count (.onHit 1) := by
  have player (l : List PlayerCall) : (l.map WorldCall.player).countP isOnHit = 0 :=
    countP_map_other (fun _ => rfl) l
  have mode (l : List GameModeCall) : (l.map WorldCall.gameMode).countP isOnHit = 0 :=
    countP_map_other (fun _ => rfl) l
  cases call with
  | onHit damage =>
    by_cases one : damage = 1
    · simp [hear, player, isOnHit, one]
    · simp [hear, player, isOnHit, one]
  | addExp amount => simp [hear, mode, isOnHit]
  | _ => simp [hear, isOnHit]

theorem countP_isOnHit_hearAll (i : ℕ) (w : World) (calls : List EnemyCall) :
    (w.hearAll i calls).2.countP isOnHit = calls.count (.onHit 1) := by
  induction calls generalizing w with
  | nil => rfl
  | cons call calls ih =>
    rw [hearAll, List.countP_append, ih, countP_isOnHit_hear, ← List.count_append,
      List.singleton_append]

theorem strikes_eq {i : ℕ} {act : EnemyFSM.Event} {fsm : EnemyFSM}
    (named : w.enemyEvent event = some (i, act)) (found : w.enemies[i]? = some fsm) :
    w.strikes cfg event = decide (fsm.Strikes (cfg.enemy i) act) := by
  unfold strikes
  rw [named]
  show Option.any _ w.enemies[i]? = _
  rw [found, Option.any_some]

theorem strikes_eq_false (nobody : w.enemyEvent event = none) : w.strikes cfg event = false := by
  unfold strikes
  rw [nobody]

theorem Change.health (change : Change cfg w event next out) : Health cfg w event next out := by
  cases change with
  | spawns draw spawnManager calls _ _ =>
    exact .spared rfl rfl (countP_map_other (fun _ => rfl) calls) (count_map_other (by simp) calls)
  | levels gm calls _ =>
    exact .spared rfl rfl (countP_map_other (fun _ => rfl) calls) (count_map_other (by simp) calls)
  | acts event i act fsm there calls fire before after named found moved =>
    have acts := EnemyFSM.step_act moved
    have strikes : w.strikes cfg event = _ := strikes_eq named found
    by_cases hits : fsm.Strikes (cfg.enemy i) act
    · rw [decide_eq_true hits] at strikes
      refine .struck strikes ?_ ?_ ?_
      · show (if fsm.Strikes (cfg.enemy i) act then (w.player.onHit 1).1 else w.player).HP = _
        rw [if_pos hits]
        rfl
      · rw [countP_around (fun _ => rfl), countP_isOnHit_hearAll, acts.count_onHit, if_pos hits]
      · rw [count_around (by simp), count_hearAll_player i _ acts, if_pos hits, Player.onHit]
        show List.count _ (if w.player.HP - 1 ≤ 0 then _ else _) = _
        split <;> rfl
    · rw [decide_eq_false hits] at strikes
      refine .spared strikes ?_ ?_ ?_
      · exact if_neg hits
      · rw [countP_around (fun _ => rfl), countP_isOnHit_hearAll, acts.count_onHit, if_neg hits]
      · rw [count_around (by simp), count_hearAll_player i _ acts, if_neg hits]
  | handles event index fire calls nobody _ =>
    exact .spared (strikes_eq_false nobody) rfl (countP_map_other (fun _ => rfl) calls)
      (count_map_other (by simp) calls)

/-- Each `OnHit(1)` costs a point. -/
theorem Health.HP (health : Health cfg w event next out) :
    next.player.HP + out.countP isOnHit = w.player.HP := by
  cases health with
  | spared _ same none _ => simp [same, none]
  | struck _ less one _ => simp [less, one]

end Event

/-! ### Whole runs -/

/-- The health lost over a run is the number of hits. -/
theorem health_run {start : World} {ts : List Move} (run : Run (step cfg) start ts w) :
    w.player.HP + onHitCalls ts = start.player.HP := by
  have moved := run.potential_eq (fun w => -w.player.HP) (fun t => (t.out.countP isOnHit : ℤ))
    fun t _ taken => by
      have health := (taken_change taken).health.HP
      omega
  rw [← total_natCast ℤ] at moved
  unfold onHitCalls
  omega

end World

end MyTPSGame
