/-
**How soon an enemy hits a player in its reach.**

An enemy that finds the player within reach on every tick goes from IDLE or MOVE to ATTACK in a few ticks,
and from DAMAGE after a second more; in ATTACK its clock runs. `progress` measures how much of the way to
the next hit is behind it, in seconds. Time that does not show in it has been paid for with a hit, or was
lost to a stagger.

* `Advances`: what an event can be to an enemy with the player in its reach;
* `Advances.progress_le`: what it does to the progress;
* `elapsed_le_hits`: the time of a run is bounded by its hits and staggers.
-/

import MyTPSGame.Enemy.AttackRate
import MyTPSGame.Enemy.Life
import MyTPSGame.Enemy.Representation
import Mathlib.Tactic.Linarith

namespace MyTPSGame

open Machine

namespace EnemyFSM

/-- Ticks come after `δ` seconds at most, and find the player in the reach of the enemy. -/
def Event.Near (cfg : EnemyConfig) (δ : ℚ) : Event → Prop
  | .tick frame =>
    frame.deltaSeconds ≤ δ ∧ frame.playerPawn ≠ none ∧ frame.distance ≤ cfg.attackRange ∧
      frame.distance ≤ cfg.detectDistance
  | _ => True

instance (cfg : EnemyConfig) (δ : ℚ) : DecidablePred (Event.Near cfg δ)
  | .tick frame => inferInstanceAs (Decidable
      (frame.deltaSeconds ≤ δ ∧ frame.playerPawn ≠ none ∧ frame.distance ≤ cfg.attackRange ∧
        frame.distance ≤ cfg.detectDistance))
  | .onDamageProcess _ _ => instDecidableTrue
  | .animNotifyOnHit _ => instDecidableTrue
  | .enemyDieEnd => instDecidableTrue

/-- How much of the way to its next hit an enemy has behind it: a tick for finding the player, one for
noticing it, one for coming to attack it, and then the clock. A stagger is a second behind all that. -/
def progress (δ : ℚ) (fsm : EnemyFSM) : ℚ :=
  match fsm.state with
  | .idle => 0
  | .move => if fsm.moveSubState = .chase then 2 * δ else δ
  | .attack => 3 * δ + fsm.currentTime
  | .damage => fsm.currentTime - 1
  | .die => 0

/-- The whole way to a hit, out of a stagger. -/
def approachTime (cfg : EnemyConfig) (δ : ℚ) : ℚ :=
  1 + 3 * δ + cfg.attackDelayTime

/-- The time that an event accounts for: a hit gives away the delay that led to it, and the rest of its
tick; a stagger the whole way. -/
def toll (cfg : EnemyConfig) (δ : ℚ) (fsm : EnemyFSM) (event : Event) : ℚ :=
  (if fsm.Strikes cfg event then cfg.attackDelayTime + δ else 0) +
    if fsm.Survives event then approachTime cfg δ else 0

/-- The staggers of a run. -/
def staggers (ts : List Move) : ℕ :=
  total (fun t => if t.pre.Survives t.event then 1 else 0) ts

variable {cfg : EnemyConfig} {fsm next : EnemyFSM} {event : Event} {calls : List EnemyCall} {δ : ℚ}

/-! ### One event -/

section Step

theorem progress_move (state : fsm.state = .move) :
    fsm.progress δ = if fsm.moveSubState = .chase then 2 * δ else δ := by
  unfold progress
  rw [state]

theorem progress_attack (state : fsm.state = .attack) :
    fsm.progress δ = 3 * δ + fsm.currentTime := by
  unfold progress
  rw [state]

theorem progress_damage (state : fsm.state = .damage) :
    fsm.progress δ = fsm.currentTime - 1 := by
  unfold progress
  rw [state]

/-- In MOVE an enemy is one tick on its way at least, and two at most. -/
theorem progress_move_mem (nonneg : 0 ≤ δ) (state : fsm.state = .move) :
    δ ≤ fsm.progress δ ∧ fsm.progress δ ≤ 2 * δ := by
  rw [progress_move state]
  split
  · exact ⟨by linarith, le_refl _⟩
  · exact ⟨le_refl _, by linarith⟩

theorem progress_le (wellFormed : WellFormed cfg fsm) (nonneg : 0 ≤ δ)
    (delay : 0 ≤ cfg.attackDelayTime) : fsm.progress δ ≤ 3 * δ + cfg.attackDelayTime := by
  cases state : fsm.state with
  | idle | die =>
    unfold progress
    rw [state]
    positivity
  | move => linarith [(progress_move_mem nonneg state).2]
  | attack =>
    rw [progress_attack state]
    linarith [wellFormed.attacks state]
  | damage =>
    rw [progress_damage state]
    linarith [wellFormed.staggers state]

theorem neg_one_le_progress (wellFormed : WellFormed cfg fsm) (nonneg : 0 ≤ δ) :
    -1 ≤ fsm.progress δ := by
  have clock := wellFormed.nonneg
  cases state : fsm.state with
  | idle | die =>
    unfold progress
    rw [state]
    norm_num
  | move => linarith [(progress_move_mem nonneg state).1]
  | attack =>
    rw [progress_attack state]
    linarith
  | damage =>
    rw [progress_damage state]
    linarith

/-- What an event can be to a living enemy with the player in its reach. -/
inductive Advances (cfg : EnemyConfig) (δ : ℚ) (fsm : EnemyFSM) (event : Event) (next : EnemyFSM) :
    Prop
  | keeps : event.deltaSeconds = 0 → next.state = fsm.state → next.moveSubState = fsm.moveSubState →
      next.currentTime = fsm.currentTime → toll cfg δ fsm event = 0 → Advances cfg δ fsm event next
  | finds : event.deltaSeconds ≤ δ → fsm.state = .idle → next.state = .move →
      toll cfg δ fsm event = 0 → Advances cfg δ fsm event next
  | notices : event.deltaSeconds ≤ δ → fsm.state = .move → fsm.moveSubState ≠ .chase →
      next.state = .move → next.moveSubState = .chase → toll cfg δ fsm event = 0 →
      Advances cfg δ fsm event next
  | closes : event.deltaSeconds ≤ δ → fsm.state = .move → next.state = .attack →
      next.currentTime = 0 → toll cfg δ fsm event = 0 → Advances cfg δ fsm event next
  | runs : fsm.state = .attack ∨ fsm.state = .damage → next.state = fsm.state →
      next.currentTime = fsm.currentTime + event.deltaSeconds → toll cfg δ fsm event = 0 →
      Advances cfg δ fsm event next
  | strikes : event.deltaSeconds ≤ δ → fsm.state = .attack → next.state = .attack →
      next.currentTime = 0 → toll cfg δ fsm event = cfg.attackDelayTime + δ →
      Advances cfg δ fsm event next
  | staggers : event.deltaSeconds = 0 → next.state = .damage → next.currentTime = 0 →
      toll cfg δ fsm event = approachTime cfg δ → Advances cfg δ fsm event next
  | recovers : event.deltaSeconds ≤ δ → fsm.state = .damage → next.state = .move →
      toll cfg δ fsm event = 0 → Advances cfg δ fsm event next

theorem toll_tick {frame : Frame} (calm : ¬ fsm.Strikes cfg (.tick frame)) :
    toll cfg δ fsm (.tick frame) = 0 := by
  rw [toll, if_neg calm, if_neg (show ¬ fsm.Survives (.tick frame) from not_false), add_zero]

theorem Act.advances (act : Act cfg fsm event next calls) (noOldMove : fsm.moveSubState ≠ .oldMove)
    (near : event.Near cfg δ) (alive : fsm.state ≠ .die) (spared : ¬ fsm.Dies event) :
    Advances cfg δ fsm event next := by
  cases act with
  | idleWaits _ _ lost => exact absurd lost near.2.1
  | idleFinds _ _ state _ => exact .finds near.1 state rfl (toll_tick (not_strikes state))
  | patrols frame num state sub _ _ _ =>
    have noticed : fsm.showState.getDistanceTo frame ≤ cfg.detectDistance := by
      unfold getDistanceTo
      split
      · exact near.2.2.2
      · exact frame.distance_nonneg.trans near.2.2.2
    refine .notices near.1 state (by rw [sub]; decide) ?_ ?_ (toll_tick (not_strikes state))
    · exact (samePatrol_tick cfg fsm.showState num frame).state.trans state
    · rw [moveSubState_patrol, if_pos noticed]
  | chaseAttacks _ state _ _ _ => exact .closes near.1 state rfl rfl (toll_tick (not_strikes state))
  | chaseAbandons frame _ _ _ far _ | chases frame _ _ _ far _ =>
    exact absurd far (not_lt.mpr near.2.2.1)
  | oldMoves _ _ _ _ sub _ _ => exact absurd sub noOldMove
  | attackWaits _ state early =>
    exact .runs (Or.inl state) rfl rfl
      (toll_tick fun strikes => absurd strikes.2 (not_lt.mpr early))
  | attackLeaves _ _ _ _ far => exact absurd far (not_lt.mpr near.2.2.1)
  | attackAgain frame state _ late _ =>
    refine .strikes near.1 state state rfl ?_
    have strikes : fsm.Strikes cfg (.tick frame) := ⟨state, late⟩
    rw [toll, if_pos strikes, if_neg (show ¬ fsm.Survives (.tick frame) from not_false), add_zero]
  | damageWaits _ state _ => exact .runs (Or.inr state) rfl rfl (toll_tick (not_strikes state))
  | damageEnds _ state _ => exact .recovers near.1 state rfl (toll_tick (not_strikes state))
  | dieWaits _ state _ | dieSinks _ _ state _ _ => exact absurd state alive
  | killed _ _ lethal => exact absurd lethal spared
  | hurt damageAmount index survived =>
    refine .staggers rfl rfl rfl ?_
    have survives : fsm.Survives (.onDamageProcess damageAmount index) := survived
    rw [toll, if_neg (show ¬ fsm.Strikes cfg (.onDamageProcess damageAmount index) from not_false),
      if_pos survives, zero_add]
  | notified _ _ _ _ => exact .keeps rfl rfl rfl rfl (add_zero 0)
  | dieEnded => exact .keeps rfl rfl rfl rfl (add_zero 0)

/-- Time that an event takes shows in the progress, or is accounted for. -/
theorem Advances.progress_le (advances : Advances cfg δ fsm event next)
    (wellFormed : WellFormed cfg fsm) (delay : 0 ≤ cfg.attackDelayTime) (nonneg : 0 ≤ δ) :
    event.deltaSeconds + fsm.progress δ ≤ next.progress δ + toll cfg δ fsm event := by
  cases advances with
  | keeps none state sub clock free =>
    have same : next.progress δ = fsm.progress δ := by
      unfold progress
      rw [state, sub, clock]
    rw [none, same, free, zero_add, add_zero]
  | finds short idle moves free =>
    have before : fsm.progress δ = 0 := by
      unfold progress
      rw [idle]
    have after := (progress_move_mem nonneg moves).1
    rw [before, free]
    linarith
  | notices short moves unaware still aware free =>
    rw [progress_move moves, if_neg unaware, progress_move still, if_pos aware, free]
    linarith
  | closes short moves attacks zero free =>
    have before := (progress_move_mem nonneg moves).2
    rw [progress_attack attacks, zero, free]
    linarith
  | runs busy state clock free =>
    have later : next.progress δ = fsm.progress δ + event.deltaSeconds := by
      rcases busy with attacks | staggers
      · rw [progress_attack attacks, progress_attack (state.trans attacks), clock, add_assoc]
      · rw [progress_damage staggers, progress_damage (state.trans staggers), clock,
          sub_add_eq_add_sub]
    rw [later, free]
    linarith
  | strikes short attacks again zero paid =>
    have clock := wellFormed.attacks attacks
    rw [progress_attack attacks, progress_attack again, zero, paid]
    linarith
  | staggers none damage zero paid =>
    have before := EnemyFSM.progress_le wellFormed nonneg delay
    rw [none, progress_damage damage, zero, paid, approachTime]
    linarith
  | recovers short damage moves free =>
    have clock := wellFormed.staggers damage
    have after := (progress_move_mem nonneg moves).1
    rw [progress_damage damage, free]
    linarith

end Step

/-! ### Runs -/

section Runs

variable {start : EnemyFSM} {ts : List Move}

theorem Act.dies (act : Act cfg fsm event next calls) (dies : fsm.Dies event) :
    next.state = .die ∧ next.hp ≤ 0 := by
  cases act with
  | killed _ _ lethal => exact ⟨rfl, lethal⟩
  | hurt _ _ survived => exact absurd survived (not_lt.mpr dies)
  | _ => exact dies.elim

/-- The dead without health are dead at the end. -/
theorem dies_run (run : Run (step cfg) start ts fsm) (damages : ∀ t ∈ ts, 0 ≤ t.event.damage)
    (dead : start.state = .die) (spent : start.hp ≤ 0) : fsm.state = .die :=
  (run.invariant (I := fun fsm => fsm.state = .die ∧ fsm.hp ≤ 0) ⟨dead, spent⟩
    fun t member taken ⟨dead, spent⟩ => by
      have act := taken_act taken
      have damage := damages t member
      refine ⟨act.stays_dead damage dead spent, ?_⟩
      rw [act.hp]
      omega).1

/-- An enemy that is alive at the end has not died on the way. -/
theorem spared_of_alive (run : Run (step cfg) start ts fsm)
    (damages : ∀ t ∈ ts, 0 ≤ t.event.damage) (alive : fsm.state ≠ .die) :
    ∀ t ∈ ts, ¬ t.pre.Dies t.event := by
  intro t member dies
  obtain ⟨before, after, rfl, _, taken, rest⟩ := run.mem member
  obtain ⟨dead, spent⟩ := (taken_act taken).dies dies
  exact alive (dies_run rest (fun u inside =>
    damages u (List.mem_append_right _ (List.mem_cons_of_mem _ inside))) dead spent)

/-- **How soon an enemy hits.** While an enemy lives and has the player in its reach, each hit comes
within its delay and a tick, and the first one, like the first one after a stagger, within its whole way. -/
theorem elapsed_le_hits (run : Run (step cfg) start ts fsm) (wellFormed : WellFormed cfg start)
    (near : ∀ t ∈ ts, t.event.Near cfg δ) (live : start.state ≠ .die)
    (spared : ∀ t ∈ ts, ¬ t.pre.Dies t.event) (delay : 0 ≤ cfg.attackDelayTime) (nonneg : 0 ≤ δ) :
    elapsed ts ≤ emitted (.onHit 1) ts * (cfg.attackDelayTime + δ) +
      (1 + staggers ts) * approachTime cfg δ := by
  have sound : ∀ t ∈ ts, WellFormed cfg t.pre ∧ t.pre.state ≠ .die := fun t member =>
    run.invariant_pre (I := fun fsm => WellFormed cfg fsm ∧ fsm.state ≠ .die) ⟨wellFormed, live⟩
      (fun u inside taken ⟨before, alive⟩ => ⟨(taken_act taken).wellFormed delay before,
        fun dead => spared u inside (((taken_act taken).die_iff alive).mp dead)⟩) member
  have last : WellFormed cfg fsm := run.invariant wellFormed fun _ _ taken =>
    (taken_act taken).wellFormed delay
  have paid := run.potential_le (fun fsm => -fsm.progress δ) (fun t => t.event.deltaSeconds)
    (fun t => toll cfg δ t.pre t.event) fun t member taken => by
      obtain ⟨before, alive⟩ := sound t member
      have step := ((taken_act taken).advances before.noOldMove (near t member) alive
        (spared t member)).progress_le before delay nonneg
      linarith
  have tolls : total (fun t => toll cfg δ t.pre t.event) ts =
      emitted (.onHit 1) ts * (cfg.attackDelayTime + δ) + staggers ts * approachTime cfg δ := by
    unfold staggers emitted
    rw [total_natCast ℚ, total_natCast ℚ, ← total_mul, ← total_mul, ← total_add]
    refine total_congr fun t member => ?_
    rw [(taken_act (run.taken member)).count_onHit, toll]
    by_cases strikes : t.pre.Strikes cfg t.event <;>
      by_cases survives : t.pre.Survives t.event <;> simp [strikes, survives]
  have whole := EnemyFSM.progress_le last nonneg delay
  have early := neg_one_le_progress wellFormed nonneg
  rw [tolls] at paid
  unfold elapsed approachTime at *
  linarith

end Runs

end EnemyFSM

end MyTPSGame
