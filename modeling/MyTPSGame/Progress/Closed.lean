/-
**The closed game follows the waves.**

In a closed game every enemy comes from `MakeEnemy` and no enemy is hit again once it is dead
(`HitsLive`). `Refines` reads its counters as a wave, and `refines_run` is the simulation: what the
spawn timer and the hits do to a game, attempts and kills do to a wave.

* `refines_change`: one event of the game is at most one event of the wave;
* `refines_run`: a run of the game is a run of the waves.
-/

import MyTPSGame.Machine.Simulation
import MyTPSGame.Arith.Staircase
import MyTPSGame.Model.WorldStep
import MyTPSGame.Progress.Wave

namespace MyTPSGame

open Machine Staircase

namespace World

/-! ### The census of a game -/

section Census

/-- A list with one entry replaced counts one entry less and one entry more. -/
theorem countP_set {α : Type*} (p : α → Bool) {l : List α} {i : ℕ} {a b : α}
    (found : l[i]? = some a) :
    (l.set i b).countP p + (p a).toNat = l.countP p + (p b).toNat := by
  induction l generalizing i with
  | nil => simp at found
  | cons first rest ih =>
    cases i with
    | zero =>
      obtain rfl : first = a := by simpa using found
      rw [List.set_cons_zero, List.countP_cons, List.countP_cons]
      cases p first <;> cases p b <;> simp
    | succ i =>
      have later := ih (i := i) (by simpa using found)
      rw [List.set_cons_succ, List.countP_cons, List.countP_cons]
      omega

/-- The enemies that are not dead. -/
def alive (w : World) : ℕ :=
  w.enemies.countP fun fsm => fsm.state ≠ .die

/-- The enemies that are dead. -/
def dead (w : World) : ℕ :=
  w.enemies.countP fun fsm => fsm.state = .die

theorem dead_add_alive (w : World) : w.dead + w.alive = w.enemies.length := by
  rw [List.length_eq_countP_add_countP fun fsm : EnemyFSM => decide (fsm.state = .die)]
  simp [dead, alive]

variable {w : World} {i : ℕ} {fsm next : EnemyFSM}

theorem alive_set (found : w.enemies[i]? = some fsm) :
    alive { w with enemies := w.enemies.set i next } + (decide (fsm.state ≠ .die)).toNat =
      w.alive + (decide (next.state ≠ .die)).toNat :=
  countP_set _ found

theorem dead_set (found : w.enemies[i]? = some fsm) :
    dead { w with enemies := w.enemies.set i next } + (decide (fsm.state = .die)).toNat =
      w.dead + (decide (next.state = .die)).toNat :=
  countP_set _ found

/-- An enemy that dies is one alive less and one dead more. -/
theorem census_dies (found : w.enemies[i]? = some fsm) (live : fsm.state ≠ .die)
    (dies : next.state = .die) :
    alive { w with enemies := w.enemies.set i next } + 1 = w.alive ∧
      dead { w with enemies := w.enemies.set i next } = w.dead + 1 := by
  have alive : alive { w with enemies := w.enemies.set i next } + _ = _ := alive_set found
  have dead : dead { w with enemies := w.enemies.set i next } + _ = _ := dead_set found
  simp only [live, dies, ne_eq, not_true, not_false_iff, decide_true, decide_false, Bool.toNat_true,
    Bool.toNat_false] at alive dead
  omega

/-- An enemy that is as dead as before changes no number. -/
theorem census_same (found : w.enemies[i]? = some fsm)
    (same : next.state = .die ↔ fsm.state = .die) :
    alive { w with enemies := w.enemies.set i next } = w.alive ∧
      dead { w with enemies := w.enemies.set i next } = w.dead := by
  have alive : alive { w with enemies := w.enemies.set i next } + _ = _ := alive_set found
  have dead : dead { w with enemies := w.enemies.set i next } + _ = _ := dead_set found
  simp only [ne_eq, same] at alive dead
  omega

theorem census_spawned (cfg : GameConfig) (n : ℕ) :
    (w.spawned cfg n).countP (fun fsm => fsm.state ≠ .die) = n ∧
      (w.spawned cfg n).countP (fun fsm => fsm.state = .die) = 0 := by
  unfold spawned
  rw [List.countP_map, List.countP_map]
  constructor
  · have every := List.countP_eq_length.mpr fun k (_ : k ∈ List.range n) =>
      (rfl : ((fun fsm : EnemyFSM => decide (fsm.state ≠ .die)) ∘ fun k =>
        EnemyFSM.beginPlay (cfg.enemy (w.enemies.length + k))) k = true)
    rw [every, List.length_range]
  · exact List.countP_eq_zero.mpr fun k _ => by simp [EnemyFSM.beginPlay]

end Census

/-! ### The simulation -/

section Simulation

/-- The event hits an enemy that is dead. -/
def hitsDead (w : World) (event : Event) : Bool :=
  match w.enemyEvent event with
  | some (i, .onDamageProcess _ _) => (w.enemies[i]?).any fun fsm => decide (fsm.state = .die)
  | _ => false

/-- Only living enemies are hit. -/
abbrev HitsLive (ts : List Move) : Prop :=
  ∀ t ∈ ts, t.pre.hitsDead t.event = false

/-- The counters of the game are those of the wave. -/
structure Refines (w : World) (wave : Wave) : Prop where
  level : w.gameMode.level = wave.level
  needExp : w.gameMode.needExp = wave.level
  target : w.gameMode.spawnManager.makeTargetCount = wave.level
  made : w.gameMode.spawnManager.makeCount = wave.attempts
  exp : w.gameMode.exp = wave.kills
  timers : w.gameMode.levelUpTimers = 0
  alive : w.alive = wave.alive
  dead : (w.dead : ℤ) = triangle wave.level + wave.kills

/-- The event kills the enemy it is for. -/
def kills (w : World) (event : Event) : Bool :=
  match w.enemyEvent event with
  | none => false
  | some (i, act) => (w.enemies[i]?).any fun fsm => decide (fsm.Dies act)

/-- An attempt at this level makes an enemy: its rate is low enough, and `SpawnActor` answers. -/
abbrev Makes (level : ℤ) (draw : MakeEnemyDraw) : Prop :=
  draw.rate < SpawnManager.levelTargetRate level ∧ draw.actor = true

/-- What a transition of the game is to the wave. -/
def waveEvents (t : Move) : List Wave.Event :=
  match t.event with
  | .makeEnemy draw =>
    if t.pre.gameMode.spawnManager.makeCount < t.pre.gameMode.spawnManager.makeTargetCount then
      [.attempt (decide (Makes t.pre.gameMode.level draw))]
    else []
  | event => if t.pre.kills event then [.kill] else []

variable {cfg : GameConfig} {w next : World} {out : List WorldCall} {wave : Wave}

theorem refines_beginPlay (cfg : GameConfig) (randTime : ℚ) :
    Refines (beginPlay cfg 0 randTime) .first := by
  constructor <;> rfl

/-- An attempt leaves one enemy if it makes one. -/
theorem actors_attemptCalls (level rIndex : ℤ) (draw : MakeEnemyDraw) :
    draw.actors (SpawnManager.attemptCalls level draw.rate rIndex) =
      (decide (Makes level draw)).toNat := by
  unfold MakeEnemyDraw.actors Makes
  rw [SpawnManager.countP_attemptCalls]
  by_cases low : draw.rate < SpawnManager.levelTargetRate level
  · cases draw.actor <;> simp [low]
  · simp [low]

/-- An attempt of `MakeEnemy` is one of the wave. -/
theorem refines_spawns {draw : MakeEnemyDraw} {spawnManager : SpawnManager} {calls : List SpawnCall}
    (refines : Refines w wave)
    (made : SpawnManager.Made cfg.spawn w.gameMode.level w.gameMode.spawnManager draw spawnManager
      calls) :
    ∃ us after, Run Wave.step wave us after ∧
      us.map Transition.event = waveEvents ⟨w, .makeEnemy draw, next, out⟩ ∧
      Refines
        { w with
          gameMode := { w.gameMode with spawnManager := spawnManager }
          enemies := w.enemies ++ w.spawned cfg (draw.actors calls) } after := by
  have target := refines.target
  have count := refines.made
  cases made with
  | full full =>
    refine ⟨[], wave, .nil, ?_, ?_⟩
    · exact (if_neg (not_lt.mpr full)).symm
    · have nobody : draw.actors [] = 0 := Nat.le_zero.mp (draw.actors_le [])
      have same : w.enemies ++ w.spawned cfg 0 = w.enemies := List.append_nil _
      rw [nobody, same]
      exact ⟨refines.level, refines.needExp, target, count, refines.exp, refines.timers,
        refines.alive, refines.dead⟩
  | attempt room low high =>
    have left : wave.attempts < wave.level := by omega
    refine ⟨_, _, .one (Wave.step_attempt _ left), (if_pos room).symm, ?_⟩
    rw [actors_attemptCalls]
    have counts := w.census_spawned cfg (decide (Makes w.gameMode.level draw)).toNat
    refine ⟨refines.level, refines.needExp, target, ?_, refines.exp, refines.timers, ?_, ?_⟩
    · show w.gameMode.spawnManager.makeCount + 1 = ((wave.attempts + 1 : ℕ) : ℤ)
      omega
    · show (w.enemies ++ _).countP _ = wave.alive + _
      rw [List.countP_append, counts.1, ← refines.alive]
      rfl
    · show (((w.enemies ++ _).countP _ : ℕ) : ℤ) = triangle wave.level + wave.kills
      rw [List.countP_append, counts.2, ← refines.dead]
      rfl

section Kills

variable {event : Event} {i : ℕ} {act : EnemyFSM.Event} {fsm : EnemyFSM}

theorem alive_of_hit {damageAmount : ℤ} {index : Fin 2} (live : w.hitsDead event = false)
    (named : w.enemyEvent event = some (i, .onDamageProcess damageAmount index))
    (found : w.enemies[i]? = some fsm) : fsm.state ≠ .die := by
  unfold hitsDead at live
  rw [named] at live
  change Option.any _ w.enemies[i]? = false at live
  rw [found, Option.any_some] at live
  exact of_decide_eq_false live

theorem waveEvents_acts (named : w.enemyEvent event = some (i, act))
    (found : w.enemies[i]? = some fsm) :
    waveEvents ⟨w, event, next, out⟩ = if fsm.Dies act then [.kill] else [] := by
  have kills : w.kills event = decide (fsm.Dies act) := by
    unfold kills
    rw [named]
    show Option.any _ w.enemies[i]? = _
    rw [found, Option.any_some]
  have asked : waveEvents ⟨w, event, next, out⟩ = if w.kills event then [.kill] else [] := by
    cases event with
    | makeEnemy draw => cases named
    | _ => rfl
  rw [asked, kills]
  simp only [decide_eq_true_eq]

theorem waveEvents_handles (nobody : w.enemyEvent event = none)
    (other : ∀ draw, event ≠ .makeEnemy draw) : waveEvents ⟨w, event, next, out⟩ = [] := by
  have kills : w.kills event = false := by
    unfold kills
    rw [nobody]
  have none : (if w.kills event then [Wave.Event.kill] else []) = [] := by simp [kills]
  cases event with
  | makeEnemy draw => exact absurd rfl (other draw)
  | _ => exact none

end Kills

section Dies

variable {i : ℕ} {fsm there : EnemyFSM}

/-- A death that is not the last of its wave adds to the experience. -/
theorem refines_killOne (fire : FireComponent) (player : Player) (refines : Refines w wave)
    (found : w.enemies[i]? = some fsm) (live : fsm.state ≠ .die) (dead : there.state = .die)
    (more : wave.kills + 1 < wave.level) (some : 0 < wave.alive) :
    Refines
      { w with
        gameMode := (w.gameMode.addExp 1).1
        enemies := w.enemies.set i there
        player := player
        fire := fire } (wave.killOne more some) := by
  obtain ⟨fewer, buried⟩ := census_dies found live dead
  have need := refines.needExp
  have exp := refines.exp
  have died := refines.dead
  have short : ¬ w.gameMode.needExp ≤ w.gameMode.exp + 1 := by omega
  rw [w.gameMode.addExp_short short]
  refine ⟨refines.level, need, refines.target, refines.made, ?_, refines.timers, ?_, ?_⟩
  · show w.gameMode.exp + 1 = ((wave.kills + 1 : ℕ) : ℤ)
    omega
  · exact Nat.eq_sub_of_add_eq (fewer.trans refines.alive)
  · refine (congrArg Nat.cast buried).trans ?_
    show ((w.dead + 1 : ℕ) : ℤ) = triangle wave.level + ((wave.kills + 1 : ℕ) : ℤ)
    omega

/-- The last death of a wave is a level up. -/
theorem refines_next (fire : FireComponent) (player : Player) (refines : Refines w wave)
    (found : w.enemies[i]? = some fsm) (live : fsm.state ≠ .die) (dead : there.state = .die)
    (some : 0 < wave.alive) (last : ¬ wave.kills + 1 < wave.level) :
    Refines
      { w with
        gameMode := (w.gameMode.addExp 1).1
        enemies := w.enemies.set i there
        player := player
        fire := fire } (wave.next some last) := by
  obtain ⟨fewer, buried⟩ := census_dies found live dead
  have level := refines.level
  have need := refines.needExp
  have exp := refines.exp
  have died := refines.dead
  have less := wave.kills_lt
  rw [w.gameMode.addExp_last (by omega) (by omega)]
  refine ⟨?_, ?_, ?_, rfl, rfl, refines.timers, ?_, ?_⟩
  · exact congrArg (· + 1) level
  · exact congrArg (· + 1) level
  · exact congrArg (· + 1) level
  · exact Nat.eq_sub_of_add_eq (fewer.trans refines.alive)
  · refine (congrArg Nat.cast buried).trans ?_
    show ((w.dead + 1 : ℕ) : ℤ) = triangle ((wave.level : ℤ) + 1) + 0
    rw [triangle_succ]
    omega

/-- The death of a living enemy is a kill of the wave. -/
theorem refines_dies (fire : FireComponent) (player : Player) (refines : Refines w wave)
    (found : w.enemies[i]? = some fsm) (live : fsm.state ≠ .die) (dead : there.state = .die) :
    ∃ after out, Wave.step wave .kill = some (after, out) ∧
      Refines
        { w with
          gameMode := (w.gameMode.addExp 1).1
          enemies := w.enemies.set i there
          player := player
          fire := fire } after := by
  have some : 0 < wave.alive := by
    have alive := refines.alive
    have fewer := (census_dies found live dead).1
    omega
  by_cases more : wave.kills + 1 < wave.level
  · exact ⟨_, _, Wave.step_killOne more some,
      refines_killOne fire player refines found live dead more some⟩
  · exact ⟨_, _, Wave.step_next some more,
      refines_next fire player refines found live dead some more⟩

end Dies

/-- An act that kills nobody is nothing to the wave. -/
theorem refines_survives {i : ℕ} {fsm there : EnemyFSM} (fire : FireComponent) (player : Player)
    (refines : Refines w wave) (found : w.enemies[i]? = some fsm)
    (same : there.state = .die ↔ fsm.state = .die) :
    Refines { w with enemies := w.enemies.set i there, player := player, fire := fire } wave := by
  obtain ⟨alive, dead⟩ := census_same found same
  exact ⟨refines.level, refines.needExp, refines.target, refines.made, refines.exp, refines.timers,
    alive.trans refines.alive, (congrArg Nat.cast dead).trans refines.dead⟩

/-- **One event**: the wave takes what the event is to it, and the counters still agree. -/
theorem refines_change {event : Event} (change : Change cfg w event next out)
    (refines : Refines w wave) (live : w.hitsDead event = false) :
    ∃ us after, Run Wave.step wave us after ∧
      us.map Transition.event = waveEvents ⟨w, event, next, out⟩ ∧ Refines next after := by
  cases change with
  | spawns draw spawnManager calls _ made => exact refines_spawns refines made
  | levels gm calls fired =>
    have idle : ¬ 0 < w.gameMode.levelUpTimers := by
      rw [refines.timers]
      exact lt_irrefl 0
    rw [GameMode.fireLevelUpTimer, if_neg idle] at fired
    cases fired
  | acts event i act fsm there calls fire before after named found moved =>
    have acts := EnemyFSM.step_act moved
    rw [waveEvents_acts named found]
    unfold heard
    by_cases dies : fsm.Dies act
    · have alive : fsm.state ≠ .die := by
        cases act with
        | onDamageProcess damageAmount index => exact alive_of_hit live named found
        | _ => exact dies.elim
      obtain ⟨next, out, done, agrees⟩ := refines_dies fire
        (if fsm.Strikes (cfg.enemy i) act then (w.player.onHit 1).1 else w.player) refines found
        alive ((acts.die_iff alive).mpr dies)
      rw [if_pos dies, if_pos dies]
      exact ⟨_, next, .one done, rfl, agrees⟩
    · rw [if_neg dies, if_neg dies]
      refine ⟨[], wave, .nil, rfl, refines_survives fire _ refines found ?_⟩
      by_cases dead : fsm.state = .die
      · have unhurt (damageAmount : ℤ) (index : Fin 2) :
            act ≠ .onDamageProcess damageAmount index := by
          rintro rfl
          exact alive_of_hit live named found dead
        exact ⟨fun _ => dead, fun _ => (acts.die_stays dead unhurt).1⟩
      · exact ⟨fun died => absurd ((acts.die_iff dead).mp died) dies, fun died => absurd died dead⟩
  | handles event index fire calls nobody _ =>
    refine ⟨[], wave, .nil, (waveEvents_handles nobody (by simp)).symm, ?_⟩
    exact ⟨refines.level, refines.needExp, refines.target, refines.made, refines.exp,
      refines.timers, refines.alive, refines.dead⟩

end Simulation

/-! ### Whole runs -/

section Runs

variable {cfg : GameConfig} {randTime : ℚ} {w : World} {ts : List Move}

/-- **The simulation**: a closed run is a run of the waves. -/
theorem refines_run (run : Run (step cfg) (beginPlay cfg 0 randTime) ts w) (live : HitsLive ts) :
    ∃ us wave, Run Wave.step .first us wave ∧
      us.map Transition.event = ts.flatMap waveEvents ∧ Refines w wave :=
  run.simulate waveEvents (refines_beginPlay cfg randTime) fun t member taken _ refines =>
    refines_change (taken_change taken) refines (live t member)

/-- A closed run has a wave before each of its transitions. -/
theorem refines_pre (run : Run (step cfg) (beginPlay cfg 0 randTime) ts w) (live : HitsLive ts)
    {t : Move} (member : t ∈ ts) : ∃ wave, Refines t.pre wave := by
  obtain ⟨before, after, rfl, reach, _, _⟩ := run.mem member
  obtain ⟨_, wave, _, _, refines⟩ :=
    refines_run reach fun u earlier => live u (List.mem_append_left _ earlier)
  exact ⟨wave, refines⟩

end Runs

end World

end MyTPSGame
