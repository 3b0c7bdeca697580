/-
**The game under the engine's clock.**

The engine ticks each `UEnemyFSM` once a frame at most, with the time of the frame, and its timer manager
fires `MakeEnemy` and `DoFire` when they are due. `timedStep` is the game under this clock.

* `untimed_run`: a game under the clock is a game;
* `elapsed_le`: no enemy has been ticked for longer than the game has been running;
* `armed_run`: the clock has a time for just those timers that are active.
-/

import MyTPSGame.Enemy.AttackRate
import MyTPSGame.Machine.Clock
import MyTPSGame.Model.FireTrace
import MyTPSGame.Model.Spawner

namespace MyTPSGame

open Machine

namespace World

/-- The handles of the timers that fire. `LevelUpProcess` arms timers without one. -/
inductive Timer
  | spawnEnemyTimer
  | fireTimerHandle
  deriving DecidableEq

instance : Fintype Timer where
  elems := {.spawnEnemyTimer, .fireTimerHandle}
  complete k := by cases k <;> decide

/-- What `SetTimer` does to the timer of its handle. -/
def setUse (rate : ℚ) : Use ℚ :=
  match setTimer rate with
  | some rate => .sets rate
  | none => .clears

/-- What a transition does to `spawnEnemyTimer`: `MakeEnemy` is its last firing, and arms it anew. -/
def spawnUse (t : Move) : Use ℚ :=
  match t.event with
  | .makeEnemy draw => .expires (setTimer (truncToInt draw.randTime))
  | _ => .keeps

/-- What a transition does to `fireTimerHandle`: a press that is accepted for the rifle arms it, a release
clears it, and `DoFire` is one of its firings. -/
def fireUse (cfg : FireConfig) (t : Move) : Use ℚ :=
  match t.event with
  | .fire (.onActionFirePressed _) _ =>
    if t.pre.fire.bChooseGrenadeGun = true ∧ 0 < t.pre.fire.gunAmmo then setUse cfg.fireInterval
    else .keeps
  | .fire .onActionFireRelesed _ => .clears
  | .fire .fireTimer _ => .loops cfg.fireInterval
  | _ => .keeps

/-- The ticks of the enemies and the timers of the game. -/
def timing (cfg : GameConfig) : Timing World Event WorldCall ℕ Timer ℚ where
  ticks t :=
    match t.event with
    | .enemy i (.tick frame) => some (i, frame.deltaSeconds)
    | _ => none
  uses t
    | .spawnEnemyTimer => spawnUse t
    | .fireTimerHandle => fireUse cfg.fire t

/-- The game under the clock. -/
def timedStep (cfg : GameConfig) : Step (Clocked World ℕ Timer ℚ) (Timed Event ℚ) WorldCall :=
  timed (step cfg) (timing cfg)

/-- The game under the clock after every `BeginPlay`. -/
def start (cfg : GameConfig) (placed : ℕ) (randTime : ℚ) : Clocked World ℕ Timer ℚ where
  machine := beginPlay cfg placed randTime
  now := 0
  frame := 0
  ticked := []
  due
    | .spawnEnemyTimer => setTimer (truncToInt randTime)
    | .fireTimerHandle => none

/-- The transitions of the game under the clock. -/
abbrev TimedMove := Transition (Clocked World ℕ Timer ℚ) (Timed Event ℚ) WorldCall

/-- The transitions of the game behind those under the clock. -/
abbrev game (us : List TimedMove) : List Move :=
  us.flatMap untimed

variable {cfg : GameConfig} {placed : ℕ} {randTime : ℚ} {c d : Clocked World ℕ Timer ℚ}
  {us : List TimedMove} {t : Move} {i : ℕ}

/-- **A game under the clock is a game.** -/
theorem untimed_run (run : Run (timedStep cfg) (start cfg placed randTime) us c) :
    Run (step cfg) (beginPlay cfg placed randTime) (game us) c.machine :=
  run.untimed

/-! ### The time of the enemies -/

section Ticks

/-- An event of the game that reaches an enemy is a transition of that enemy. -/
theorem share_ne_nil {act : EnemyFSM.Event} (taken : t.Taken (step cfg))
    (named : t.pre.enemyEvent t.event = some (i, act)) : share i t ≠ [] := by
  obtain ⟨fsm, there, calls, found, _, enemies, _, _⟩ := (taken_change taken).acted named
  obtain ⟨inside, _⟩ := List.getElem?_eq_some_iff.mp found
  have now : t.post.enemies[i]? = some there := by
    rw [enemies]
    exact List.getElem?_set_self inside
  simp [share, named, found, now]

/-- The time that an event takes enemy `i`. -/
def secondsOf (i : ℕ) : Option (ℕ × EnemyFSM.Event) → ℚ
  | some (j, act) => if j = i then act.deltaSeconds else 0
  | none => 0

/-- What is a tick of an enemy to the engine is a tick of that enemy to the game. -/
theorem tickTime_eq (cfg : GameConfig) (i : ℕ) (t : Move) :
    tickTime (timing cfg) i t = secondsOf i (t.pre.enemyEvent t.event) := by
  obtain ⟨w, event, next, out⟩ := t
  cases event with
  | makeEnemy _ | levelUpTimer => rfl
  | enemy j act =>
    cases act with
    | tick frame => rfl
    | onDamageProcess _ _ | animNotifyOnHit _ | enemyDieEnd => exact (ite_self _).symm
  | fire event index =>
    cases event with
    | onActionFirePressed shot =>
      show 0 = secondsOf i ((w.fire.struck shot).map fun j => (j, .onDamageProcess 1 index))
      cases w.fire.struck shot with
      | none => rfl
      | some j => exact (ite_self _).symm
    | _ => rfl

/-- The time a transition takes an enemy. -/
theorem elapsed_share (i : ℕ) (taken : t.Taken (step cfg)) :
    EnemyFSM.elapsed (share i t) = tickTime (timing cfg) i t := by
  rw [tickTime_eq]
  have idle (silent : share i t = []) : secondsOf i (t.pre.enemyEvent t.event) = 0 := by
    cases named : t.pre.enemyEvent t.event with
    | none => rfl
    | some pair =>
      refine if_neg ?_
      intro same
      exact share_ne_nil taken (named.trans (by rw [← same])) silent
  cases taken_part i taken with
  | nothing silent _ _ | born silent _ _ _ =>
    rw [idle silent, silent]
    rfl
  | acts u one _ _ _ _ =>
    have member : u ∈ share i t := by
      rw [one]
      exact List.mem_cons_self
    rw [(mem_share member).1, one]
    show u.event.deltaSeconds + 0 = if i = i then u.event.deltaSeconds else 0
    rw [if_pos rfl, add_zero]

theorem elapsed_enemyTrace (i : ℕ) {w v : World} {ts : List Move} (run : Run (step cfg) w ts v) :
    EnemyFSM.elapsed (enemyTrace i ts) = total (tickTime (timing cfg) i) ts := by
  unfold EnemyFSM.elapsed enemyTrace
  rw [total_flatMap]
  exact total_congr fun t member => elapsed_share i (run.taken member)

/-- **No enemy is ticked for longer than the game is running.** -/
theorem elapsed_le (run : Run (timedStep cfg) (start cfg placed randTime) us c) (i : ℕ) :
    EnemyFSM.elapsed (enemyTrace i (game us)) ≤ c.now := by
  have owed := ticked_le run (le_refl 0) i
  have left : 0 ≤ c.owed i := owed_nonneg i (frame_nonneg run (le_refl 0))
  rw [elapsed_enemyTrace i (untimed_run run), now_eq run]
  calc total (tickTime (timing cfg) i) (game us)
      ≤ c.owed i + total (tickTime (timing cfg) i) (game us) := le_add_of_nonneg_left left
    _ ≤ (start cfg placed randTime).owed i + total passed us := owed
    _ = (start cfg placed randTime).now + total passed us := rfl

end Ticks

/-! ### The timers of the game -/

section Timers

/-- The timer is active in the game. -/
def active (w : World) : Timer → Bool
  | .spawnEnemyTimer => w.gameMode.spawnManager.spawnEnemyTimer.isSome
  | .fireTimerHandle => w.fire.fireTimer.isSome

variable {now : ℚ} {due : Option ℚ}

theorem isSome_setUse (rate : ℚ) : ((setUse rate).due now due).isSome = (setTimer rate).isSome := by
  unfold setUse
  cases setTimer rate <;> rfl

/-- A level up leaves the spawn timer as it is. -/
theorem spawnEnemyTimer_follows {gm next : GameMode} (follows : gm.Follows next) :
    next.spawnManager.spawnEnemyTimer = gm.spawnManager.spawnEnemyTimer := by
  rcases follows with ⟨_, same⟩ | ⟨_, up⟩
  · rw [same]
  · rw [up]
    rfl

/-- The clock has a time for `spawnEnemyTimer` as long as the game has one pending. -/
theorem isSome_spawnUse (taken : t.Taken (step cfg))
    (before : due.isSome = t.pre.active .spawnEnemyTimer) :
    ((spawnUse t).due now due).isSome = t.post.active .spawnEnemyTimer := by
  obtain ⟨w, event, next, out⟩ := t
  have change : Change cfg w event next out := taken_change taken
  have keeps (calm : ∀ draw, event ≠ .makeEnemy draw) : spawnUse ⟨w, event, next, out⟩ = .keeps := by
    cases event with
    | makeEnemy draw => exact absurd rfl (calm draw)
    | _ => rfl
  cases change with
  | spawns draw spawnManager calls _ made =>
    show ((setTimer (truncToInt draw.randTime)).map (now + ·)).isSome =
      spawnManager.spawnEnemyTimer.isSome
    rw [Option.isSome_map]
    cases made with
    | full _ | attempt _ _ _ => rfl
  | levels gm calls fired =>
    rw [keeps fun _ same => by cases same]
    refine before.trans (congrArg Option.isSome ?_)
    exact (spawnEnemyTimer_follows (GameMode.follows_fireLevelUpTimer fired)).symm
  | acts event i act fsm there calls fire _ _ named _ _ =>
    rw [keeps fun _ same => by rw [same] at named; cases named]
    refine before.trans (congrArg Option.isSome ?_)
    show _ = (heard (cfg.enemy i) fsm act _).gameMode.spawnManager.spawnEnemyTimer
    unfold heard
    by_cases dies : fsm.Dies act
    · simp only [dies, if_true]
      exact (spawnEnemyTimer_follows (w.gameMode.follows_addExp 1)).symm
    · simp only [dies, if_false]
  | handles _ _ _ _ _ _ =>
    rw [keeps fun _ same => by cases same]
    exact before

/-- The clock has a time for `fireTimerHandle` as long as the game has it active. -/
theorem isSome_fireUse (taken : t.Taken (step cfg))
    (before : due.isSome = t.pre.active .fireTimerHandle) :
    ((fireUse cfg.fire t).due now due).isSome = t.post.active .fireTimerHandle := by
  cases named : t.event with
  | makeEnemy _ | levelUpTimer | enemy _ _ =>
    have kept := (taken_other taken (by simp [named])).1
    unfold fireUse active at *
    rw [named, kept]
    exact before
  | fire event index =>
    have handled := FireComponent.step_handled (taken_fire taken named)
    unfold fireUse active at *
    rw [named]
    generalize t.pre.fire = pre, t.post.fire = post, t.out.filterMap WorldCall.ofFire = calls at *
    cases handled with
    | presses shot _ _ press =>
      cases press with
      | dryGun _ empty =>
        simp only [not_lt.mpr empty, and_false, if_false]
        exact before
      | drySniper sniper _ | sniper sniper _ =>
        simp only [sniper, Bool.false_eq_true, false_and, if_false]
        exact before
      | gun rifle loaded =>
        simp only [rifle, loaded, and_self, if_true]
        exact isSome_setUse _
    | releases => rfl
    | fires _ => exact (Option.isSome_map).trans before
    | choosesRifle | choosesSniper =>
      rw [FireComponent.chooseGun_fireTimer]
      exact before
    | zoomIgnored event _ zoom =>
      rcases zoom with rfl | rfl
      · exact before
      · exact before
    | _ => exact before

/-- **The clock agrees with the game** on which timers are active. -/
theorem armed_run (run : Run (timedStep cfg) (start cfg placed randTime) us c) (k : Timer) :
    (c.due k).isSome = c.machine.active k := by
  refine run.invariant (I := fun c => (c.due k).isSome = c.machine.active k) ?_ ?_
  · cases k with
    | spawnEnemyTimer => rfl
    | fireTimerHandle =>
      show false = (FireComponent.beginPlay cfg.fire).fireTimer.isSome
      unfold FireComponent.beginPlay
      rw [FireComponent.chooseGun_fireTimer]
      rfl
  · intro u _ taken before
    cases taken_passes taken with
    | frame _ _ _ _ _ begun =>
      rw [begun]
      exact before
    | event t _ _ same taken _ _ after =>
      rw [after]
      rw [same] at before
      cases k with
      | spawnEnemyTimer => exact isSome_spawnUse taken before
      | fireTimerHandle => exact isSome_fireUse taken before

end Timers

end World

end MyTPSGame
