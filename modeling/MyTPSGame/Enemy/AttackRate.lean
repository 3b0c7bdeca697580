/-
**How fast an enemy can hit.**

One clock, `currentTime`, serves the attack, the stagger after damage and the sinking of the dead.
`Clocked` says what an act can do to it. Three readings of the clock bound the time of the ticks
from below:

* `currentTime` itself, from the last time it was set to zero (`currentTime_le`);
* `sinceDamage`, which remembers in each state that a stagger of one second has passed
  (`sinceDamage_le`);
* `attackClock`, the clock while attacking, which pays for each hit (`hits_lt_attackTime`).

`attack_rate_bound` reads them over one enemy's runs and over games.
-/

import MyTPSGame.Model.EnemyTrace
import MyTPSGame.Model.Health

namespace MyTPSGame

open Machine

namespace EnemyFSM

/-! ### Time -/

section Time

/-- The time an event takes. -/
def Event.deltaSeconds : Event → ℚ
  | .tick frame => frame.deltaSeconds
  | _ => 0

theorem Event.deltaSeconds_nonneg (event : Event) : 0 ≤ event.deltaSeconds := by
  cases event with
  | tick frame => exact frame.deltaSeconds_nonneg
  | _ => exact le_refl _

/-- The time of all ticks. -/
def elapsed (ts : List Move) : ℚ :=
  total (fun t => t.event.deltaSeconds) ts

/-- The time of a tick in ATTACK. -/
def attackSeconds (t : Move) : ℚ :=
  if t.pre.state = .attack then t.event.deltaSeconds else 0

/-- The time of all ticks in ATTACK. -/
def attackTime (ts : List Move) : ℚ :=
  total attackSeconds ts

/-- The enemy enters ATTACK. -/
def Enters (t : Move) : Prop :=
  t.pre.state ≠ .attack ∧ t.post.state = .attack

/-- The enemy hits the player. -/
def Hits (t : Move) : Prop :=
  EnemyCall.onHit 1 ∈ t.out

end Time

/-! ### What an act does to the clock -/

section Clock

/-- What an act can do to state and clock: nothing, let the clock run, hit, enter ATTACK, go over to
MOVE, or be interrupted by damage. -/
inductive Clocked (cfg : EnemyConfig) (fsm : EnemyFSM) (event : Event) (next : EnemyFSM) : Prop
  | keeps : next.state = fsm.state → next.currentTime = fsm.currentTime →
      ¬ fsm.Strikes cfg event → Clocked cfg fsm event next
  | runs : next.state = fsm.state → next.currentTime = fsm.currentTime + event.deltaSeconds →
      ¬ fsm.Strikes cfg event → Clocked cfg fsm event next
  | strikes : fsm.Strikes cfg event → next.currentTime = 0 →
      next.state = .attack ∨ next.state = .move → Clocked cfg fsm event next
  | enters : fsm.state = .move → next.state = .attack → next.currentTime = 0 →
      ¬ fsm.Strikes cfg event → Clocked cfg fsm event next
  | moves : fsm.state = .idle ∨ (fsm.state = .damage ∧ 1 < fsm.currentTime + event.deltaSeconds) →
      next.state = .move → next.currentTime = 0 → ¬ fsm.Strikes cfg event →
      Clocked cfg fsm event next
  | interrupted (damageAmount : ℤ) (index : Fin 2) : event = .onDamageProcess damageAmount index →
      (next.hp ≤ 0 ∧ next.state = .die) ∨ (0 < next.hp ∧ next.state = .damage) →
      next.currentTime = 0 → Clocked cfg fsm event next

variable {cfg : EnemyConfig} {fsm next : EnemyFSM} {event : Event} {calls : List EnemyCall}

theorem Act.clocked (act : Act cfg fsm event next calls) : Clocked cfg fsm event next := by
  cases act with
  | idleWaits _ state | chaseAbandons _ state | chases _ state | oldMoves _ _ _ state
    | dieWaits _ state => exact .keeps rfl rfl (not_strikes state)
  | idleFinds _ _ state => exact .moves (Or.inl state) rfl rfl (not_strikes state)
  | patrols frame num state _ _ _ _ =>
    have same := samePatrol_tick cfg fsm.showState num frame
    exact .keeps same.state same.currentTime (not_strikes state)
  | chaseAttacks _ state => exact .enters state rfl rfl (not_strikes state)
  | attackWaits frame _ early =>
    exact .runs rfl rfl fun strikes => absurd strikes.2 (not_lt.mpr early)
  | attackLeaves _ state _ late _ => exact .strikes ⟨state, late⟩ rfl (Or.inr rfl)
  | attackAgain _ state _ late _ => exact .strikes ⟨state, late⟩ rfl (Or.inl state)
  | damageWaits _ state _ => exact .runs rfl rfl (not_strikes state)
  | damageEnds _ state late => exact .moves (Or.inr ⟨state, late⟩) rfl rfl (not_strikes state)
  | dieSinks _ _ state _ _ => exact .runs rfl rfl (not_strikes state)
  | killed damageAmount index lethal =>
    exact .interrupted damageAmount index rfl (Or.inl ⟨lethal, rfl⟩) rfl
  | hurt damageAmount index survived =>
    exact .interrupted damageAmount index rfl (Or.inr ⟨survived, rfl⟩) rfl
  | notified _ _ _ _ => exact .keeps rfl rfl not_false
  | dieEnded => exact .keeps rfl rfl not_false

/-- An enemy hits when it strikes. -/
theorem hits_iff {t : Move} (taken : t.Taken (step cfg)) :
    Hits t ↔ t.pre.Strikes cfg t.event := by
  have count := (taken_act taken).count_onHit
  unfold Hits
  rw [← List.count_pos_iff, count]
  by_cases strikes : t.pre.Strikes cfg t.event <;> simp [strikes]

/-- Entering ATTACK and hitting both set the clock to zero. -/
theorem Clocked.restarts (clocked : Clocked cfg fsm event next)
    (fresh : (fsm.state ≠ .attack ∧ next.state = .attack) ∨ fsm.Strikes cfg event) :
    next.currentTime = 0 := by
  cases clocked with
  | keeps same _ calm | runs same _ calm =>
    rcases fresh with ⟨outside, inside⟩ | strikes
    · exact absurd (same.symm.trans inside) outside
    · exact absurd strikes calm
  | strikes _ zero _ | enters _ _ zero _ | moves _ _ zero _ | interrupted _ _ _ _ zero => exact zero

theorem Clocked.currentTime_nonneg (clocked : Clocked cfg fsm event next)
    (nonneg : 0 ≤ fsm.currentTime) : 0 ≤ next.currentTime := by
  cases clocked with
  | keeps _ same _ => rwa [same]
  | runs _ later _ =>
    rw [later]
    exact add_nonneg nonneg event.deltaSeconds_nonneg
  | strikes _ zero _ | enters _ _ zero _ | moves _ _ zero _ | interrupted _ _ _ _ zero =>
    exact zero.ge

/-- The clock is no faster than time. -/
theorem Clocked.currentTime_le (clocked : Clocked cfg fsm event next)
    (nonneg : 0 ≤ fsm.currentTime) :
    next.currentTime ≤ fsm.currentTime + event.deltaSeconds := by
  have later := add_nonneg nonneg event.deltaSeconds_nonneg
  cases clocked with
  | keeps _ same _ =>
    rw [same]
    exact le_add_of_nonneg_right event.deltaSeconds_nonneg
  | runs _ run _ => exact run.le
  | strikes _ zero _ | enters _ _ zero _ | moves _ _ zero _ | interrupted _ _ _ _ zero =>
    exact zero.trans_le later

/-- How long ago the last damage was, at most: the clock while staggering, and a second more than
the clock in ATTACK. The dead have no way back but through DAMAGE. -/
def sinceDamage (fsm : EnemyFSM) : ℚ :=
  match fsm.state with
  | .idle => 1
  | .move => 1
  | .attack => 1 + fsm.currentTime
  | .damage => fsm.currentTime
  | .die => 0

theorem sinceDamage_congr (state : next.state = fsm.state)
    (clock : next.currentTime = fsm.currentTime) : next.sinceDamage = fsm.sinceDamage := by
  unfold sinceDamage
  rw [state, clock]

theorem sinceDamage_nonneg (nonneg : 0 ≤ fsm.currentTime) : 0 ≤ fsm.sinceDamage := by
  unfold sinceDamage
  cases fsm.state with
  | idle | move => exact zero_le_one
  | attack => exact add_nonneg zero_le_one nonneg
  | damage => exact nonneg
  | die => exact le_refl _

theorem one_le_sinceDamage (nonneg : 0 ≤ fsm.currentTime)
    (free : fsm.state = .attack ∨ fsm.state = .move ∨ fsm.state = .idle) : 1 ≤ fsm.sinceDamage := by
  unfold sinceDamage
  rcases free with state | state | state
  · rw [state]
    exact le_add_of_nonneg_right nonneg
  · rw [state]
  · rw [state]

theorem sinceDamage_free (zero : fsm.currentTime = 0)
    (free : fsm.state = .attack ∨ fsm.state = .move) : fsm.sinceDamage = 1 := by
  unfold sinceDamage
  rcases free with state | state
  · rw [state, zero, add_zero]
  · rw [state]

theorem Clocked.sinceDamage_le (clocked : Clocked cfg fsm event next)
    (nonneg : 0 ≤ fsm.currentTime) :
    next.sinceDamage ≤ fsm.sinceDamage + event.deltaSeconds := by
  have time := event.deltaSeconds_nonneg
  cases clocked with
  | keeps state clock _ =>
    rw [sinceDamage_congr state clock]
    exact le_add_of_nonneg_right time
  | runs state clock _ =>
    unfold sinceDamage
    rw [state, clock]
    cases fsm.state with
    | idle | move => exact le_add_of_nonneg_right time
    | attack => exact (add_assoc _ _ _).ge
    | damage => exact le_refl _
    | die => exact add_nonneg (le_refl _) time
  | strikes strikes zero free =>
    rw [sinceDamage_free zero free]
    exact (one_le_sinceDamage nonneg (Or.inl strikes.attacking)).trans
      (le_add_of_nonneg_right time)
  | enters state there zero _ =>
    rw [sinceDamage_free zero (Or.inl there)]
    exact (one_le_sinceDamage nonneg (Or.inr (Or.inl state))).trans (le_add_of_nonneg_right time)
  | moves free there zero _ =>
    rw [sinceDamage_free zero (Or.inr there)]
    rcases free with idle | ⟨damage, late⟩
    · exact (one_le_sinceDamage nonneg (Or.inr (Or.inr idle))).trans (le_add_of_nonneg_right time)
    · rw [sinceDamage, damage]
      exact late.le
  | interrupted _ _ _ states zero =>
    have none : next.sinceDamage = 0 := by
      unfold sinceDamage
      rcases states with ⟨_, state⟩ | ⟨_, state⟩
      · rw [state]
      · rw [state, zero]
    rw [none]
    exact add_nonneg (sinceDamage_nonneg nonneg) time

/-- The clock while attacking. -/
def attackClock (fsm : EnemyFSM) : ℚ :=
  if fsm.state = .attack then fsm.currentTime else 0

theorem attackClock_nonneg (nonneg : 0 ≤ fsm.currentTime) : 0 ≤ fsm.attackClock := by
  unfold attackClock
  split
  · exact nonneg
  · exact le_refl _

theorem attackClock_zero (zero : fsm.currentTime = 0) : fsm.attackClock = 0 := by
  unfold attackClock
  rw [zero, ite_self]

theorem attackSeconds_nonneg (t : Move) : 0 ≤ attackSeconds t := by
  unfold attackSeconds
  split
  · exact t.event.deltaSeconds_nonneg
  · exact le_refl _

theorem Strikes.late (strikes : fsm.Strikes cfg event) :
    cfg.attackDelayTime < fsm.currentTime + event.deltaSeconds := by
  cases event with
  | tick frame => exact strikes.2
  | _ => exact strikes.elim

/-- A strike costs more than its delay. -/
theorem Clocked.attackClock_lt {t : Move} (clocked : Clocked cfg t.pre t.event t.post)
    (strikes : t.pre.Strikes cfg t.event) :
    t.post.attackClock + cfg.attackDelayTime < t.pre.attackClock + attackSeconds t := by
  rw [attackClock_zero (clocked.restarts (Or.inr strikes)), zero_add]
  unfold attackClock attackSeconds
  rw [if_pos strikes.attacking, if_pos strikes.attacking]
  exact strikes.late

/-- Without a strike the clock is paid for by the time in ATTACK. -/
theorem Clocked.attackClock_le {t : Move} (clocked : Clocked cfg t.pre t.event t.post)
    (nonneg : 0 ≤ t.pre.currentTime) (calm : ¬ t.pre.Strikes cfg t.event) :
    t.post.attackClock ≤ t.pre.attackClock + attackSeconds t := by
  have free := add_nonneg (attackClock_nonneg nonneg) (attackSeconds_nonneg t)
  cases clocked with
  | keeps state clock _ =>
    unfold attackClock
    rw [state, clock]
    exact le_add_of_nonneg_right (attackSeconds_nonneg t)
  | runs state clock _ =>
    unfold attackClock attackSeconds
    rw [state, clock]
    split
    · exact le_refl _
    · exact (add_zero _).ge
  | strikes strikes _ _ => exact absurd strikes calm
  | enters _ _ zero _ | moves _ _ zero _ | interrupted _ _ _ _ zero =>
    exact (attackClock_zero zero).trans_le free

end Clock

/-! ### Runs -/

section Runs

variable {cfg : EnemyConfig} {start fsm : EnemyFSM} {ts : List Move}

theorem currentTime_nonneg (run : Run (step cfg) start ts fsm) (nonneg : 0 ≤ start.currentTime) :
    0 ≤ fsm.currentTime :=
  run.invariant (I := fun fsm => 0 ≤ fsm.currentTime) nonneg fun _ _ taken =>
    (taken_act taken).clocked.currentTime_nonneg

theorem currentTime_nonneg_pre (run : Run (step cfg) start ts fsm)
    (nonneg : 0 ≤ start.currentTime) {t : Move} (member : t ∈ ts) : 0 ≤ t.pre.currentTime :=
  run.invariant_pre (I := fun fsm => 0 ≤ fsm.currentTime) nonneg
    (fun _ _ taken => (taken_act taken).clocked.currentTime_nonneg) member

/-- A reading of the clock that is no faster than time on any act is not over a run. -/
theorem reading_le (run : Run (step cfg) start ts fsm) (nonneg : 0 ≤ start.currentTime)
    (reading : EnemyFSM → ℚ)
    (slow : ∀ t : Move, Clocked cfg t.pre t.event t.post → 0 ≤ t.pre.currentTime →
      reading t.post ≤ reading t.pre + t.event.deltaSeconds) :
    reading fsm ≤ reading start + elapsed ts :=
  run.potential_le_add reading (fun t => t.event.deltaSeconds) fun t member taken =>
    slow t (taken_act taken).clocked (currentTime_nonneg_pre run nonneg member)

/-- A hit, from a state with the clock at zero. -/
theorem delay_lt_elapsed {u : Move} (run : Run (step cfg) start ts u.pre)
    (strikes : u.pre.Strikes cfg u.event) (zero : start.currentTime = 0) :
    cfg.attackDelayTime < elapsed (ts ++ [u]) :=
  calc cfg.attackDelayTime
      < u.pre.currentTime + u.event.deltaSeconds := strikes.late
    _ ≤ start.currentTime + elapsed ts + u.event.deltaSeconds :=
        add_le_add_left (reading_le run zero.ge currentTime fun _ clocked nonneg =>
          clocked.currentTime_le nonneg) _
    _ = elapsed (ts ++ [u]) := by
        rw [zero, zero_add]
        exact total_snoc.symm

/-- A hit, from a state that has just been damaged. -/
theorem second_lt_elapsed {u : Move} (run : Run (step cfg) start ts u.pre)
    (strikes : u.pre.Strikes cfg u.event) (zero : start.currentTime = 0)
    (damage : start.state = .damage) : 1 + cfg.attackDelayTime < elapsed (ts ++ [u]) := by
  have fresh : start.sinceDamage = 0 := by
    rw [sinceDamage, damage]
    exact zero
  have since : u.pre.sinceDamage = 1 + u.pre.currentTime := by
    rw [sinceDamage, strikes.attacking]
  calc 1 + cfg.attackDelayTime
      < 1 + (u.pre.currentTime + u.event.deltaSeconds) := by gcongr; exact strikes.late
    _ = u.pre.sinceDamage + u.event.deltaSeconds := by rw [since, add_assoc]
    _ ≤ start.sinceDamage + elapsed ts + u.event.deltaSeconds :=
        add_le_add_left (reading_le run zero.ge sinceDamage fun _ clocked nonneg =>
          clocked.sinceDamage_le nonneg) _
    _ = elapsed (ts ++ [u]) := by
        rw [fresh, zero_add]
        exact total_snoc.symm

/-- How far apart the hits of a run are. `mid` is what lies between an event and a hit. -/
structure Paced (cfg : EnemyConfig) (ts : List Move) : Prop where
  entered : ∀ before t mid u after, ts = before ++ t :: (mid ++ u :: after) → Enters t → Hits u →
    cfg.attackDelayTime < elapsed (mid ++ [u])
  again : ∀ before t mid u after, ts = before ++ t :: (mid ++ u :: after) → Hits t → Hits u →
    cfg.attackDelayTime < elapsed (mid ++ [u])
  damaged : ∀ before t mid u after, ts = before ++ t :: (mid ++ u :: after) →
    t.pre.Survives t.event → Hits u → 1 + cfg.attackDelayTime < elapsed (mid ++ [u])

theorem paced_run (run : Run (step cfg) start ts fsm) : Paced cfg ts := by
  refine ⟨?_, ?_, ?_⟩
  · rintro before t mid u after rfl enters hits
    obtain ⟨taken, between, last⟩ := run.between
    exact delay_lt_elapsed between ((hits_iff last).mp hits)
      ((taken_act taken).clocked.restarts (Or.inl enters))
  · rintro before t mid u after rfl again hits
    obtain ⟨taken, between, last⟩ := run.between
    exact delay_lt_elapsed between ((hits_iff last).mp hits)
      ((taken_act taken).clocked.restarts (Or.inr ((hits_iff taken).mp again)))
  · rintro before t mid u after rfl survives hits
    obtain ⟨taken, between, last⟩ := run.between
    have staggers := (taken_act taken).staggers survives
    exact second_lt_elapsed between ((hits_iff last).mp hits)
      (congrArg EnemyFSM.currentTime staggers) (congrArg EnemyFSM.state staggers)

/-- **Each hit costs more than its delay** of the time in ATTACK. -/
theorem hits_lt_attackTime (run : Run (step cfg) (beginPlay cfg) ts fsm)
    (some : 1 ≤ emitted (.onHit 1) ts) :
    (emitted (.onHit 1) ts : ℚ) * cfg.attackDelayTime < attackTime ts := by
  have count {t : Move} (taken : t.Taken (step cfg)) := (taken_act taken).count_onHit
  obtain ⟨t, member, hits⟩ := emitted_pos_iff.mp some
  have strikes := (hits_iff (run.taken member)).mp hits
  have paid := run.potential_lt attackClock
    (fun t => (t.out.count (.onHit 1) : ℚ) * cfg.attackDelayTime) attackSeconds ?_ member ?_
  · rw [total_mul, ← total_natCast] at paid
    have left := attackClock_nonneg (currentTime_nonneg run (le_refl 0))
    calc (emitted (.onHit 1) ts : ℚ) * cfg.attackDelayTime
        ≤ fsm.attackClock + (emitted (.onHit 1) ts : ℚ) * cfg.attackDelayTime :=
          le_add_of_nonneg_left left
      _ < (beginPlay cfg).attackClock + attackTime ts := paid
      _ = attackTime ts := zero_add _
  · intro t member taken
    rw [count taken]
    by_cases strikes : t.pre.Strikes cfg t.event
    · rw [if_pos strikes, Nat.cast_one, one_mul]
      exact ((taken_act taken).clocked.attackClock_lt strikes).le
    · rw [if_neg strikes, Nat.cast_zero, zero_mul, add_zero]
      exact (taken_act taken).clocked.attackClock_le
        (currentTime_nonneg_pre run (le_refl 0) member) strikes
  · rw [count (run.taken member), if_pos strikes, Nat.cast_one, one_mul]
    exact (taken_act (run.taken member)).clocked.attackClock_lt strikes

end Runs

end EnemyFSM

/-! ### Games -/

namespace World

open EnemyFSM (Paced attackTime)

variable {cfg : GameConfig} {placed : ℕ} {randTime : ℚ} {w : World} {ts : List Move}

/-- Each enemy of a game pays for its hits with its own time in ATTACK. -/
theorem enemy_hits_lt (run : Run (step cfg) (beginPlay cfg placed randTime) ts w) (i : ℕ)
    (some : 1 ≤ emitted (.enemy i (.onHit 1)) ts) :
    (emitted (.enemy i (.onHit 1)) ts : ℚ) * (cfg.enemy i).attackDelayTime <
      attackTime (enemyTrace i ts) := by
  rw [← emitted_enemyTrace i _ run] at some ⊢
  cases found : w.enemies[i]? with
  | none =>
    rw [(enemy_component i run).1 found] at some
    exact absurd some (by simp)
  | some fsm => exact EnemyFSM.hits_lt_attackTime (enemy_run run found) some

/-- **The attack rate.** The hits of one enemy are paced; in a game, the player has lost a point for
each hit, and each enemy has paid for its hits with time in ATTACK. -/
theorem attack_rate_bound {enemy : EnemyConfig} {us : List EnemyFSM.Move} {fsm : EnemyFSM}
    (one : Run (EnemyFSM.step enemy) (.beginPlay enemy) us fsm)
    (game : Run (step cfg) (beginPlay cfg placed randTime) ts w) :
    Paced enemy us ∧ cfg.MaxHP - w.player.HP = onHitCalls ts ∧
      ∀ i, 1 ≤ emitted (.enemy i (.onHit 1)) ts →
        (emitted (.enemy i (.onHit 1)) ts : ℚ) * (cfg.enemy i).attackDelayTime <
          attackTime (enemyTrace i ts) := by
  refine ⟨EnemyFSM.paced_run one, ?_, enemy_hits_lt game⟩
  have lost : w.player.HP + onHitCalls ts = cfg.MaxHP := health_run game
  omega

/-- Two enemies, one of which has hit the player once. -/
theorem attack_rate_bound_approach :
    Paced {} (trace (EnemyFSM.step {}) (.beginPlay {})
        (List.replicate 5 (.tick { deltaSeconds := 4, distance := 100 }))) ∧
      2 - (final (step {}) (beginPlay {} 2 1) (approach 1)).player.HP =
        onHitCalls (trace (step {}) (beginPlay {} 2 1) (approach 1)) ∧
      (1 : ℚ) * 3 < attackTime (enemyTrace 1 (trace (step {}) (beginPlay {} 2 1) (approach 1))) := by
  obtain ⟨paced, lost, paid⟩ := attack_rate_bound
    (run_trace (EnemyFSM.step {}) (.beginPlay {})
      (List.replicate 5 (.tick { deltaSeconds := 4, distance := 100 })))
    (run_trace (step {}) (beginPlay {} 2 1) (approach 1))
  have one : emitted (.enemy 1 (.onHit 1)) (trace (step {}) (beginPlay {} 2 1) (approach 1)) = 1 := by
    decide +kernel
  have least := paid 1 one.ge
  rw [one, Nat.cast_one] at least
  exact ⟨paced, lost, least⟩

end World

end MyTPSGame
