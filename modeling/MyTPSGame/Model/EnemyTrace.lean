/-
**One enemy of a game.**

`share i` is what a transition of the game is to enemy `i`: one transition of that enemy with the
calls it made, or nothing. `enemyTrace i` puts them together over a run.

* `enemy_run`: an enemy that is there has gone through a run of its own, from its `BeginPlay`;
* `emitted_enemyTrace`: the calls seen of the enemy are those of that run.
-/

import MyTPSGame.Machine.Simulation
import MyTPSGame.Model.WorldStep

namespace MyTPSGame

open Machine

/-- The call, if it is one of enemy `i`. -/
def WorldCall.ofEnemy (i : ℕ) : WorldCall → Option EnemyCall
  | .enemy j call => if j = i then some call else none
  | _ => none

namespace World

/-- What a transition of the game is to enemy `i`. -/
def share (i : ℕ) (t : Move) : List EnemyFSM.Move :=
  match t.pre.enemyEvent t.event with
  | none => []
  | some (j, act) =>
    if j = i then
      match t.pre.enemies[i]?, t.post.enemies[i]? with
      | some fsm, some next => [⟨fsm, act, next, t.out.filterMap (WorldCall.ofEnemy i)⟩]
      | _, _ => []
    else []

/-- What a run of the game is to enemy `i`. -/
def enemyTrace (i : ℕ) (ts : List Move) : List EnemyFSM.Move :=
  ts.flatMap (share i)

variable {cfg : GameConfig} {i j : ℕ} {w : World} {t : Move} {ts : List Move}

/-! ### The calls of one enemy -/

section Calls

theorem ofEnemy_hear (i j : ℕ) (w : World) (call : EnemyCall) :
    (w.hear j call).2.filterMap (WorldCall.ofEnemy i) = if j = i then [call] else [] := by
  have player (l : List PlayerCall) :
      (l.map WorldCall.player).filterMap (WorldCall.ofEnemy i) = [] := by
    simp [List.filterMap_map, WorldCall.ofEnemy]
  have mode (l : List GameModeCall) :
      (l.map WorldCall.gameMode).filterMap (WorldCall.ofEnemy i) = [] := by
    simp [List.filterMap_map, WorldCall.ofEnemy]
  by_cases same : j = i
  · cases call <;> simp [hear, player, mode, WorldCall.ofEnemy, same]
  · cases call <;> simp [hear, player, mode, WorldCall.ofEnemy, same]

theorem ofEnemy_hearAll (i j : ℕ) (w : World) (calls : List EnemyCall) :
    (w.hearAll j calls).2.filterMap (WorldCall.ofEnemy i) = if j = i then calls else [] := by
  induction calls generalizing w with
  | nil => simp [hearAll]
  | cons call calls ih =>
    rw [hearAll, List.filterMap_append, ih, ofEnemy_hear]
    by_cases same : j = i
    · rw [if_pos same, if_pos same, if_pos same, List.singleton_append]
    · rw [if_neg same, if_neg same, if_neg same, List.nil_append]

theorem ofEnemy_fire (i : ℕ) (calls : List FireCall) :
    (calls.map WorldCall.fire).filterMap (WorldCall.ofEnemy i) = [] := by
  simp [List.filterMap_map, WorldCall.ofEnemy]

theorem count_ofEnemy (i : ℕ) (call : EnemyCall) (out : List WorldCall) :
    (out.filterMap (WorldCall.ofEnemy i)).count call = out.count (.enemy i call) := by
  induction out with
  | nil => rfl
  | cons first rest ih =>
    rw [List.count_cons, ← ih]
    cases first with
    | enemy j other =>
      by_cases same : j = i
      · simp [WorldCall.ofEnemy, same, List.count_cons]
      · simp [WorldCall.ofEnemy, same]
    | _ => simp [List.filterMap_cons, WorldCall.ofEnemy]

end Calls

/-! ### One transition -/

section Part

/-- What a transition can be to enemy `i`: nothing, its birth, or one transition of its own. -/
inductive Part (cfg : GameConfig) (i : ℕ) (t : Move) : Prop
  | nothing : share i t = [] → t.out.filterMap (WorldCall.ofEnemy i) = [] →
      t.post.enemies[i]? = t.pre.enemies[i]? → Part cfg i t
  | born : share i t = [] → t.out.filterMap (WorldCall.ofEnemy i) = [] →
      t.pre.enemies[i]? = none → t.post.enemies[i]? = some (.beginPlay (cfg.enemy i)) → Part cfg i t
  | acts (u : EnemyFSM.Move) : share i t = [u] → t.out.filterMap (WorldCall.ofEnemy i) = u.out →
      t.pre.enemies[i]? = some u.pre → t.post.enemies[i]? = some u.post →
      u.Taken (EnemyFSM.step (cfg.enemy i)) → Part cfg i t

/-- A firing of `MakeEnemy` leaves an enemy as it is, or gives birth to it. -/
theorem getElem?_spawned (cfg : GameConfig) (w : World) (n : ℕ) (i : ℕ) :
    (w.enemies ++ w.spawned cfg n)[i]? = w.enemies[i]? ∨
      w.enemies[i]? = none ∧
        (w.enemies ++ w.spawned cfg n)[i]? = some (.beginPlay (cfg.enemy i)) := by
  by_cases old : i < w.enemies.length
  · exact Or.inl (List.getElem?_append_left old)
  · have past : w.enemies.length ≤ i := not_lt.mp old
    have absent : w.enemies[i]? = none := List.getElem?_eq_none past
    cases born : (w.enemies ++ w.spawned cfg n)[i]? with
    | none => exact Or.inl absent.symm
    | some fsm =>
      refine Or.inr ⟨absent, congrArg some ?_⟩
      rw [List.getElem?_append_right past, World.spawned, List.getElem?_map,
        Option.map_eq_some_iff] at born
      obtain ⟨k, inside, rfl⟩ := born
      obtain ⟨_, rfl⟩ := List.getElem?_eq_some_iff.mp inside
      rw [List.getElem_range, Nat.add_sub_cancel' past]

theorem part_spawns {draw : MakeEnemyDraw} {next : World} {n : ℕ} (calls : List SpawnCall)
    (spawned : next.enemies = w.enemies ++ w.spawned cfg n) :
    Part cfg i ⟨w, .makeEnemy draw, next, calls.map .spawn⟩ := by
  have silent : (calls.map WorldCall.spawn).filterMap (WorldCall.ofEnemy i) = [] := by
    simp [List.filterMap_map, WorldCall.ofEnemy]
  rcases getElem?_spawned cfg w n i with same | ⟨absent, born⟩
  · rw [← spawned] at same
    exact .nothing rfl silent same
  · rw [← spawned] at born
    exact .born rfl silent absent born

theorem change_part {event : Event} {next : World} {out : List WorldCall}
    (change : Change cfg w event next out) : Part cfg i ⟨w, event, next, out⟩ := by
  cases change with
  | spawns draw spawnManager calls _ _ => exact part_spawns calls rfl
  | levels gm calls _ => exact .nothing rfl (by simp [List.filterMap_map, WorldCall.ofEnemy]) rfl
  | acts event j act fsm there calls fire before after named found moved =>
    have out : (before.map WorldCall.fire ++
        (hearAll j { w with fire := fire, enemies := w.enemies.set j there } calls).2 ++
        after.map WorldCall.fire).filterMap (WorldCall.ofEnemy i) = if j = i then calls else [] := by
      rw [List.filterMap_append, List.filterMap_append, ofEnemy_fire, ofEnemy_fire,
        ofEnemy_hearAll, List.nil_append, List.append_nil]
    by_cases same : j = i
    · subst same
      rw [if_pos rfl] at out
      obtain ⟨inside, _⟩ := List.getElem?_eq_some_iff.mp found
      have now : (w.enemies.set j there)[j]? = some there := List.getElem?_set_self inside
      refine .acts ⟨fsm, act, there, calls⟩ ?_ out found now moved
      simp only [share, named, found, heard, now, out, if_true]
    · rw [if_neg same] at out
      refine .nothing ?_ out (List.getElem?_set_ne same)
      simp only [share, named, if_neg same]
  | handles event index fire calls nobody _ =>
    refine .nothing ?_ (ofEnemy_fire i calls) rfl
    simp only [share, nobody]

theorem taken_part (i : ℕ) (taken : t.Taken (step cfg)) : Part cfg i t :=
  change_part (taken_change taken)

/-- The calls of the enemy are the calls of its share. -/
theorem Part.out (part : Part cfg i t) :
    (share i t).flatMap Transition.out = t.out.filterMap (WorldCall.ofEnemy i) := by
  cases part with
  | nothing shared out _ | born shared out _ _ => rw [shared, out, List.flatMap_nil]
  | acts u shared out _ _ _ => rw [shared, out, List.flatMap_singleton]

end Part

/-- A transition of the enemy is an event of the game that reaches it. -/
theorem mem_share {u : EnemyFSM.Move} (member : u ∈ share i t) :
    t.pre.enemyEvent t.event = some (i, u.event) ∧ t.pre.enemies[i]? = some u.pre := by
  unfold share at member
  cases named : t.pre.enemyEvent t.event with
  | none => simp [named] at member
  | some pair =>
    obtain ⟨j, act⟩ := pair
    by_cases same : j = i
    · simp only [named, if_pos same] at member
      cases found : t.pre.enemies[i]? with
      | none => simp [found] at member
      | some fsm =>
        cases now : t.post.enemies[i]? with
        | none => simp [found, now] at member
        | some next =>
          simp only [found, now, List.mem_singleton] at member
          rw [member, same]
          exact ⟨rfl, rfl⟩
    · simp [named, same] at member

theorem mem_enemyTrace {u : EnemyFSM.Move} (member : u ∈ enemyTrace i ts) :
    ∃ t ∈ ts, t.pre.enemyEvent t.event = some (i, u.event) ∧ t.pre.enemies[i]? = some u.pre := by
  obtain ⟨t, inside, shared⟩ := List.mem_flatMap.mp member
  exact ⟨t, inside, mem_share shared⟩

/-- The transition of enemy `i` behind an event of the game that reaches it. -/
theorem taken_share {act : EnemyFSM.Event} (taken : t.Taken (step cfg))
    (named : t.pre.enemyEvent t.event = some (i, act)) :
    ∃ u : EnemyFSM.Move, u.event = act ∧ t.pre.enemies[i]? = some u.pre ∧
      u.Taken (EnemyFSM.step (cfg.enemy i)) ∧ t.out.filterMap (WorldCall.ofEnemy i) = u.out := by
  obtain ⟨fsm, there, calls, found, _, enemies, _, _⟩ := (taken_change taken).acted named
  obtain ⟨inside, _⟩ := List.getElem?_eq_some_iff.mp found
  have now : t.post.enemies[i]? = some there := by
    rw [enemies]
    exact List.getElem?_set_self inside
  have single : share i t = [⟨fsm, act, there, t.out.filterMap (WorldCall.ofEnemy i)⟩] := by
    simp only [share, named, found, now, if_true]
  cases taken_part i taken with
  | nothing none _ _ | born none _ _ _ =>
    rw [none] at single
    cases single
  | acts u shared out pre _ took =>
    rw [shared] at single
    have same := (List.cons.inj single).1
    exact ⟨u, congrArg Transition.event same, pre, took, out⟩

/-! ### Whole runs -/

section Runs

variable {placed : ℕ} {randTime : ℚ}

theorem enemies_beginPlay {fsm : EnemyFSM}
    (found : (beginPlay cfg placed randTime).enemies[i]? = some fsm) :
    fsm = .beginPlay (cfg.enemy i) := by
  change ((List.range placed).map fun k => EnemyFSM.beginPlay (cfg.enemy k))[i]? = _ at found
  rw [List.getElem?_map, Option.map_eq_some_iff] at found
  obtain ⟨k, inside, rfl⟩ := found
  obtain ⟨_, rfl⟩ := List.getElem?_eq_some_iff.mp inside
  rw [List.getElem_range]

theorem enemy_component (i : ℕ) (run : Run (step cfg) (beginPlay cfg placed randTime) ts w) :
    (w.enemies[i]? = none → enemyTrace i ts = []) ∧
      ∀ fsm, w.enemies[i]? = some fsm →
        Run (EnemyFSM.step (cfg.enemy i)) (.beginPlay (cfg.enemy i)) (enemyTrace i ts) fsm := by
  refine run.component (fun w => w.enemies[i]?) (.beginPlay (cfg.enemy i)) (share i)
    (fun fsm found => enemies_beginPlay found) ?_ ?_
  · intro t _ taken absent
    cases taken_part i taken with
    | nothing shared _ same =>
      exact ⟨shared, fun fsm found => by rw [same, absent] at found; cases found⟩
    | born shared _ _ now => exact ⟨shared, fun fsm found => by rw [now] at found; cases found; rfl⟩
    | acts u _ _ found _ _ => rw [found] at absent; cases absent
  · intro t _ taken fsm found
    cases taken_part i taken with
    | nothing shared _ same => exact ⟨fsm, same.trans found, shared ▸ .nil⟩
    | born _ _ absent _ => rw [found] at absent; cases absent
    | acts u shared _ here now moved =>
      obtain rfl := Option.some.inj (here.symm.trans found)
      exact ⟨u.post, now, shared ▸ .one moved⟩

/-- **An enemy of a game has gone through a run of its own.** -/
theorem enemy_run {fsm : EnemyFSM} (run : Run (step cfg) (beginPlay cfg placed randTime) ts w)
    (found : w.enemies[i]? = some fsm) :
    Run (EnemyFSM.step (cfg.enemy i)) (.beginPlay (cfg.enemy i)) (enemyTrace i ts) fsm :=
  (enemy_component i run).2 fsm found

/-- The calls seen of an enemy are those of its own run. -/
theorem emitted_enemyTrace {start : World} (i : ℕ) (call : EnemyCall)
    (run : Run (step cfg) start ts w) :
    emitted call (enemyTrace i ts) = emitted (.enemy i call) ts := by
  unfold emitted enemyTrace
  rw [total_flatMap]
  apply total_congr
  intro t member
  rw [← count_ofEnemy, ← (taken_part i (run.taken member)).out, List.count_flatMap]
  rfl

end Runs

end World

end MyTPSGame
