/-
**How long a siege can last.**

A player who stays in the reach of an enemy, and does not kill it, is hit again and again: no frame
misses the enemy, and all the time that it does not spend on hits it has lost to staggers, of which
there are no more than it has health.

* `enemy_segment`: an enemy over a part of a game;
* `staggers_le`: its staggers, in a game of shots;
* `besieged`: what a siege of a given length has cost the player, and when it has ended the game.
-/

import MyTPSGame.Enemy.Response
import MyTPSGame.Progress.Price
import MyTPSGame.Timed.Survival

namespace MyTPSGame

open Machine
open EnemyFSM (approachTime staggers)

namespace World

/-- What is an event of enemy `i` is one with the player near. -/
def Near (cfg : GameConfig) (i : ℕ) (δ : ℚ) (t : Move) : Prop :=
  ∀ named ∈ t.pre.enemyEvent t.event, named.1 = i → named.2.Near (cfg.enemy i) δ

instance (cfg : GameConfig) (i : ℕ) (δ : ℚ) : DecidablePred (Near cfg i δ) := fun t =>
  inferInstanceAs (Decidable (∀ named ∈ t.pre.enemyEvent t.event,
    named.1 = i → named.2.Near (cfg.enemy i) δ))

variable {cfg : GameConfig} {placed : ℕ} {randTime : ℚ} {w v : World} {t : Move} {ts : List Move}
  {i : ℕ} {fsm next : EnemyFSM}

/-! ### One enemy over a part of a game -/

section Segment

/-- **An enemy that is there goes through a run of its own**, from where it is. -/
theorem enemy_segment (run : Run (step cfg) w ts v) (found : w.enemies[i]? = some fsm) :
    ∃ next, v.enemies[i]? = some next ∧
      Run (EnemyFSM.step (cfg.enemy i)) fsm (enemyTrace i ts) next := by
  induction run with
  | nil => exact ⟨fsm, found, .nil⟩
  | @snoc past t _ taken ih =>
    obtain ⟨here, now, reach⟩ := ih
    rw [enemyTrace, List.flatMap_append, List.flatMap_singleton]
    cases taken_part i taken with
    | nothing shared _ same =>
      rw [shared, List.append_nil]
      exact ⟨here, same.trans now, reach⟩
    | born _ _ absent _ =>
      rw [now] at absent
      cases absent
    | acts u shared _ pre post took =>
      obtain rfl := Option.some.inj (pre.symm.trans now)
      rw [shared]
      exact ⟨u.post, post, .snoc reach took⟩

/-- In a game of shots an enemy is damaged by one. -/
theorem damage_of_shot (only : t.event.damages = false) {damageAmount : ℤ} {index : Fin 2}
    (named : t.pre.enemyEvent t.event = some (i, .onDamageProcess damageAmount index)) :
    damageAmount = 1 := by
  obtain ⟨w, event, next, out⟩ := t
  cases event with
  | enemy j own =>
    obtain ⟨rfl, rfl⟩ := Prod.mk.inj (Option.some.inj named)
    cases only
  | fire event index =>
    cases event with
    | onActionFirePressed shot =>
      obtain ⟨j, _, same⟩ := Option.map_eq_some_iff.mp named
      cases same
      rfl
    | _ => cases named
  | makeEnemy _ | levelUpTimer => cases named

/-- The staggers of an enemy have cost it health. -/
theorem staggers_le (run : Run (EnemyFSM.step (cfg.enemy i)) fsm (enemyTrace i ts) next)
    (only : OnlyShots ts) : next.hp + staggers (enemyTrace i ts) ≤ fsm.hp := by
  have paid := run.potential_le EnemyFSM.hp
    (fun u => ((if u.pre.Survives u.event then 1 else 0 : ℕ) : ℤ)) (fun _ => 0)
    fun u member taken => by
      obtain ⟨t, inside, named, _⟩ := mem_enemyTrace member
      rw [(EnemyFSM.taken_act taken).hp, add_zero]
      cases event : u.event with
      | onDamageProcess damageAmount index =>
        rw [event] at named
        obtain rfl := damage_of_shot (only t inside) named
        show u.pre.hp - 1 + _ ≤ u.pre.hp
        split <;> simp
      | _ => exact (show u.pre.hp - 0 + ((0 : ℕ) : ℤ) = u.pre.hp by simp).le
  rw [← total_natCast ℤ, total_eq_zero fun _ _ => rfl, add_zero] at paid
  exact paid

/-- What one enemy hits is no more than the player loses. -/
theorem hits_le_lost (run : Run (step cfg) w ts v) (i : ℕ) :
    (emitted (.onHit 1) (enemyTrace i ts) : ℤ) ≤ w.player.HP - v.player.HP := by
  have lost := health_run run
  have few : emitted (.enemy i (.onHit 1)) ts ≤ onHitCalls ts :=
    List.sum_le_sum fun t _ => List.countP_mono_left fun call _ same => by
      rw [beq_iff_eq.mp same]
      rfl
  rw [emitted_enemyTrace i _ run]
  omega

end Segment

/-! ### Sieges -/

section Siege

/-- The player has some health left until the game is over. -/
theorem HP_pos_of_calm (run : Run (step cfg) w ts v) (alive : 0 < w.player.HP)
    (calm : emitted (.player .onMyGameOver) ts = 0) : 0 < v.player.HP := by
  refine run.invariant (I := fun w => 0 < w.player.HP) alive fun t member taken before => ?_
  cases (taken_change taken).health with
  | spared _ same _ _ => rwa [same]
  | struck _ less _ calls =>
    by_contra dead
    rw [if_pos (by omega)] at calls
    have called : WorldCall.player .onMyGameOver ∈ t.out :=
      List.count_pos_iff.mp (by rw [calls]; exact Nat.one_pos)
    have ended := emitted_pos_iff.mpr ⟨t, member, called⟩
    omega

variable {m c : Clocked World ℕ Timer ℚ} {before siege : List TimedMove} {δ : ℚ}

/-- The time of a siege that misses no tick is the time of the enemy. -/
theorem passed_le_elapsed (first : Run (timedStep cfg) (start cfg placed randTime) before m)
    (second : Run (timedStep cfg) m siege c) (attends : Attends i siege) (whole : c.owed i = 0) :
    total passed siege ≤ EnemyFSM.elapsed (enemyTrace i (game siege)) := by
  have ticked := ticked_eq second attends
  have owed : 0 ≤ m.owed i := owed_nonneg i (frame_nonneg first (le_refl 0))
  have spent : EnemyFSM.elapsed (enemyTrace i (game siege)) =
      total (tickTime (timing cfg) i) (game siege) :=
    elapsed_enemyTrace i second.untimed
  rw [spent]
  rw [whole, zero_add] at ticked
  linarith

/-- What a siege has cost. -/
theorem siege_cost (first : Run (timedStep cfg) (start cfg placed randTime) before m)
    (second : Run (timedStep cfg) m siege c) (only : OnlyShots (game (before ++ siege)))
    (found : m.machine.enemies[i]? = some fsm) (later : c.machine.enemies[i]? = some next)
    (alive : next.state ≠ .die) (health : 0 < (cfg.enemy i).maxHP)
    (near : ∀ t ∈ game siege, Near cfg i δ t) (attends : Attends i siege)
    (whole : c.owed i = 0) (nonneg : 0 ≤ δ) (delay : 0 ≤ (cfg.enemy i).attackDelayTime) :
    total passed siege ≤ (cfg.enemy i).maxHP * approachTime (cfg.enemy i) δ +
      (m.machine.player.HP - c.machine.player.HP : ℤ) * ((cfg.enemy i).attackDelayTime + δ) := by
  rw [game, List.flatMap_append] at only
  have onlyBefore : OnlyShots (game before) := fun t member => only t (List.mem_append_left _ member)
  have onlySiege : OnlyShots (game siege) := fun t member => only t (List.mem_append_right _ member)
  -- the enemy before the siege, and in it
  have past := enemy_run (untimed_run first) found
  obtain ⟨there, now, run⟩ := enemy_segment second.untimed found
  obtain rfl := Option.some.inj (now.symm.trans later)
  have harm : ∀ u ∈ enemyTrace i (game siege), 0 ≤ u.event.damage :=
    fun _ => damage_nonneg onlySiege
  have mortal := EnemyFSM.mortal_run past health (fun _ => damage_nonneg onlyBefore) fsm
    past.last_visited
  have live : fsm.state ≠ .die := fun dead =>
    alive (EnemyFSM.dies_run run harm dead (mortal.mpr dead))
  have wellFormed : EnemyFSM.WellFormed (cfg.enemy i) fsm :=
    past.invariant (EnemyFSM.wellFormed_beginPlay _) fun _ _ taken =>
      (EnemyFSM.taken_act taken).wellFormed delay
  have close : ∀ u ∈ enemyTrace i (game siege), u.event.Near (cfg.enemy i) δ := by
    intro u member
    obtain ⟨t, inside, named, _⟩ := mem_enemyTrace member
    exact near t inside _ named rfl
  have spent := EnemyFSM.elapsed_le_hits run wellFormed close live
    (EnemyFSM.spared_of_alive run harm alive) delay nonneg
  -- what the hits and the staggers are bounded by
  have hits : (emitted (.onHit 1) (enemyTrace i (game siege)) : ℚ) ≤
      (m.machine.player.HP - c.machine.player.HP : ℤ) := by
    exact_mod_cast hits_le_lost second.untimed i
  have hurt : (1 : ℚ) + staggers (enemyTrace i (game siege)) ≤ (cfg.enemy i).maxHP := by
    have mortalNow : EnemyFSM.Mortal there := by
      refine run.invariant (I := EnemyFSM.Mortal) mortal fun u member taken => ?_
      exact (EnemyFSM.taken_act taken).mortal (harm u member)
    have left : 0 < there.hp := not_le.mp (mt mortalNow.mp alive)
    have lostBefore := staggers_le past onlyBefore
    have lost : there.hp + (staggers (enemyTrace i (game siege)) : ℤ) ≤ fsm.hp :=
      staggers_le run onlySiege
    have begun : (EnemyFSM.beginPlay (cfg.enemy i)).hp = (cfg.enemy i).maxHP := rfl
    have few : 1 + (staggers (enemyTrace i (game siege)) : ℤ) ≤ (cfg.enemy i).maxHP := by omega
    exact_mod_cast few
  have way : 0 ≤ approachTime (cfg.enemy i) δ := by
    unfold approachTime
    positivity
  calc total passed siege ≤ EnemyFSM.elapsed (enemyTrace i (game siege)) :=
        passed_le_elapsed first second attends whole
    _ ≤ _ := spent
    _ ≤ (m.machine.player.HP - c.machine.player.HP : ℤ) * ((cfg.enemy i).attackDelayTime + δ) +
        (cfg.enemy i).maxHP * approachTime (cfg.enemy i) δ := by gcongr
    _ = _ := add_comm _ _

/-- **A siege ends the game.** Shots are all that damages enemies; an enemy survives, is ticked in
every frame, and finds the player in its reach on every tick. Then the time that passes is what the
player has lost, at a delay and a tick each, and a way to the player for each point of the enemy's
health; and as soon as that has been enough for all the health there is, the game is over. -/
theorem besieged (first : Run (timedStep cfg) (start cfg placed randTime) before m)
    (second : Run (timedStep cfg) m siege c) (only : OnlyShots (game (before ++ siege)))
    (found : m.machine.enemies[i]? = some fsm) (later : c.machine.enemies[i]? = some next)
    (alive : next.state ≠ .die) (health : 0 < (cfg.enemy i).maxHP)
    (near : ∀ t ∈ game siege, Near cfg i δ t) (attends : Attends i siege)
    (whole : c.owed i = 0) (nonneg : 0 ≤ δ) (delay : 0 < (cfg.enemy i).attackDelayTime)
    (player : 0 < cfg.MaxHP) :
    total passed siege ≤ (cfg.enemy i).maxHP * approachTime (cfg.enemy i) δ +
        (m.machine.player.HP - c.machine.player.HP : ℤ) * ((cfg.enemy i).attackDelayTime + δ) ∧
      ((cfg.enemy i).maxHP * approachTime (cfg.enemy i) δ +
          cfg.MaxHP * ((cfg.enemy i).attackDelayTime + δ) ≤ total passed siege →
        1 ≤ emitted (.player .onMyGameOver) (game (before ++ siege))) := by
  have cost :=
    siege_cost first second only found later alive health near attends whole nonneg delay.le
  refine ⟨cost, fun long => ?_⟩
  by_contra calm
  have played : Run (step cfg) (beginPlay cfg placed randTime) (game (before ++ siege)) c.machine :=
    untimed_run (first.append second)
  have left := HP_pos_of_calm played player (Nat.eq_zero_of_not_pos calm)
  have lost : m.machine.player.HP + onHitCalls (game before) = cfg.MaxHP :=
    health_run (untimed_run first)
  have short : ((m.machine.player.HP - c.machine.player.HP : ℤ) : ℚ) < cfg.MaxHP := by
    have less : m.machine.player.HP - c.machine.player.HP < cfg.MaxHP := by omega
    exact_mod_cast less
  have pace : 0 < (cfg.enemy i).attackDelayTime + δ := by linarith
  linarith [mul_lt_mul_of_pos_right short pace]

/-- So many frames, in which the first enemy is ticked. -/
def attended (frames : ℕ) (tick : Frame) : List (Timed Event ℚ) :=
  (List.replicate frames [.frame tick.deltaSeconds, .event (.enemy 0 (.tick tick))]).flatten

/-- With a single point of health in the enemy, fifteen seconds are long enough, and end the game. -/
theorem besieged_second :
    1 ≤ emitted (.player .onMyGameOver)
      (game ([] ++ trace (timedStep { enemy := fun _ => { maxHP := 1 } })
        (start { enemy := fun _ => { maxHP := 1 } } 1 1)
        (attended 15 { deltaSeconds := 1, distance := 100 }))) := by
  have alive : ∀ next ∈ (final (timedStep { enemy := fun _ => { maxHP := 1 } })
      (start { enemy := fun _ => { maxHP := 1 } } 1 1)
      (attended 15 { deltaSeconds := 1, distance := 100 })).machine.enemies[0]?,
      next.state ≠ .die := by decide +kernel
  cases later : (final (timedStep { enemy := fun _ => { maxHP := 1 } })
      (start { enemy := fun _ => { maxHP := 1 } } 1 1)
      (attended 15 { deltaSeconds := 1, distance := 100 })).machine.enemies[0]? with
  | none =>
    have there : ((final (timedStep { enemy := fun _ => { maxHP := 1 } })
      (start { enemy := fun _ => { maxHP := 1 } } 1 1)
      (attended 15 { deltaSeconds := 1, distance := 100 })).machine.enemies[0]?).isSome = true := by
      decide +kernel
    rw [later] at there
    cases there
  | some next =>
    have none : Run (timedStep { enemy := fun _ => { maxHP := 1 } })
      (start { enemy := fun _ => { maxHP := 1 } } 1 1) [] _ := .nil
    have near : ∀ t ∈ game (trace (timedStep { enemy := fun _ => { maxHP := 1 } })
        (start { enemy := fun _ => { maxHP := 1 } } 1 1)
        (attended 15 { deltaSeconds := 1, distance := 100 })),
      Near { enemy := fun _ => { maxHP := 1 } } 0 1 t := by decide +kernel
    exact (besieged none (run_trace _ _ _) (by decide +kernel) rfl later (alive next later)
      (show (0 : ℤ) < 1 by decide) near (by decide +kernel) (by decide +kernel) (by decide)
      (show (0 : ℚ) < 3 by decide) (show (0 : ℤ) < 2 by decide)).2 (by decide +kernel)

end Siege

end World

end MyTPSGame
