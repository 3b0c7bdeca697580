/-
**The life of an enemy: its target and its health.**

`target` is found by the tick of IDLE only, and damage leaves IDLE without it. Where no enemy is hurt
before it has found the player, an enemy that moves or attacks has a target (`targeted_run`); where
one is, a tick later it moves without one (`untargeted_of_hurt`).

The dead have no health left (`spent_run`), as long as no damage gives any; and an enemy without
health is dead, stays so, and neither hits nor walks (`dead_for_good`).
-/

import MyTPSGame.Model.EnemyAct

namespace MyTPSGame

open Machine

namespace EnemyFSM

variable {cfg : EnemyConfig} {fsm next : EnemyFSM} {event : Event} {calls : List EnemyCall}
  {ts : List Move}

/-! ### Health -/

section Health

/-- The dead have no health left. -/
def Spent (fsm : EnemyFSM) : Prop :=
  fsm.state = .die → fsm.hp ≤ 0

theorem Act.spent (act : Act cfg fsm event next calls) (damage : 0 ≤ event.damage)
    (spent : Spent fsm) : Spent next := by
  cases act with
  | killed damageAmount index lethal => exact fun _ => lethal
  | patrols frame num _ _ _ _ _ =>
    have same := samePatrol_tick cfg fsm.showState num frame
    intro dead
    rw [same.hp]
    exact spent (same.state.symm.trans dead)
  | idleFinds _ _ _ _ | chaseAttacks _ _ _ _ _ | attackLeaves _ _ _ _ _ | damageEnds _ _ _
    | hurt _ _ _ => exact fun dead => (by cases dead)
  | _ => exact spent

theorem spent_run (run : Run (step cfg) (beginPlay cfg) ts fsm)
    (damages : ∀ t ∈ ts, 0 ≤ t.event.damage) : Spent fsm :=
  run.invariant (fun dead => by cases dead) fun t member taken =>
    (taken_act taken).spent (damages t member)

/-- Only damage costs health. -/
theorem Act.hp (act : Act cfg fsm event next calls) : next.hp = fsm.hp - event.damage := by
  cases act with
  | killed _ _ _ | hurt _ _ _ => rfl
  | patrols frame num _ _ _ _ _ =>
    exact (samePatrol_tick cfg fsm.showState num frame).hp.trans (sub_zero fsm.hp).symm
  | _ => exact (sub_zero fsm.hp).symm

/-- The dead without health stay dead, whatever hits them. -/
theorem Act.stays_dead (act : Act cfg fsm event next calls) (damage : 0 ≤ event.damage)
    (dead : fsm.state = .die) (spent : fsm.hp ≤ 0) : next.state = .die := by
  cases event with
  | onDamageProcess damageAmount index =>
    cases act with
    | killed _ _ _ => rfl
    | hurt _ _ survived => exact absurd ((Int.sub_le_self _ damage).trans spent) (not_le.mpr survived)
  | _ => exact (act.die_stays dead (by simp)).1

/-- An enemy with health dies of what takes the last of it. -/
theorem dies_iff_damage (live : 0 < fsm.hp) :
    fsm.Dies event ↔ fsm.hp - event.damage ≤ 0 := by
  cases event with
  | onDamageProcess damageAmount index => exact Iff.rfl
  | _ => exact ⟨False.elim, fun spent => absurd ((sub_zero fsm.hp).ge.trans spent) (not_le.mpr live)⟩

/-- To be dead is to have no health. -/
def Mortal (fsm : EnemyFSM) : Prop :=
  fsm.hp ≤ 0 ↔ fsm.state = .die

theorem Act.mortal (act : Act cfg fsm event next calls) (damage : 0 ≤ event.damage)
    (mortal : Mortal fsm) : Mortal next := by
  unfold Mortal at mortal ⊢
  rw [act.hp]
  by_cases dead : fsm.state = .die
  · have spent : fsm.hp ≤ 0 := mortal.mpr dead
    have later : fsm.hp - event.damage ≤ 0 := (Int.sub_le_self _ damage).trans spent
    exact ⟨fun _ => act.stays_dead damage dead spent, fun _ => later⟩
  · have live : 0 < fsm.hp := not_le.mp (mt mortal.mp dead)
    rw [act.die_iff dead]
    exact (dies_iff_damage live).symm

theorem mortal_run (run : Run (step cfg) (beginPlay cfg) ts fsm) (alive : 0 < cfg.maxHP)
    (damages : ∀ t ∈ ts, 0 ≤ t.event.damage) : ∀ a ∈ visited (beginPlay cfg) ts, Mortal a := by
  refine run.invariant_visited ?_ fun t member taken => (taken_act taken).mortal (damages t member)
  constructor
  · intro spent
    exact absurd spent (not_le.mpr alive)
  · intro dead
    cases dead

/-- No call on the player, and none to go anywhere. -/
def StandsStill (calls : List EnemyCall) : Prop :=
  ∀ call ∈ calls, (∀ damage, call ≠ .onHit damage) ∧ ∀ goal, call ≠ .moveToLocation goal

theorem stopCalls_standsStill (cfg : EnemyConfig) : StandsStill (stopCalls cfg) := by
  unfold stopCalls
  split <;> simp [StandsStill]

/-- An act that leaves an enemy dead neither hits nor walks. -/
theorem Act.standsStill (act : Act cfg fsm event next calls) (dead : next.state = .die) :
    StandsStill calls := by
  cases act with
  | killed _ _ _ =>
    exact List.forall_mem_append.mpr ⟨stopCalls_standsStill cfg, by simp⟩
  | dieWaits _ _ _ | dieEnded => simp [StandsStill]
  | dieSinks _ last _ _ shape =>
    subst shape
    split <;> simp [StandsStill]
  | notified _ log _ shape => rcases shape with rfl | rfl <;> simp [StandsStill]
  | idleWaits _ state | chaseAbandons _ state | chases _ state | oldMoves _ _ _ state
    | attackWaits _ state | attackAgain _ state | damageWaits _ state =>
    exact absurd (dead.symm.trans state) (by decide)
  | patrols frame num state _ _ _ _ =>
    have same := (samePatrol_tick cfg fsm.showState num frame).state
    exact absurd (dead.symm.trans (same.trans state)) (by decide)
  | idleFinds _ _ _ _ | chaseAttacks _ _ _ _ _ | attackLeaves _ _ _ _ _ | damageEnds _ _ _
    | hurt _ _ _ => cases dead

/-- **Dead means DIE, for good**: an enemy is in DIE exactly when it has no health, it never gets
health back or leaves DIE, and once it has none it neither hits nor walks. -/
theorem dead_for_good (run : Run (step cfg) (beginPlay cfg) ts fsm) (alive : 0 < cfg.maxHP)
    (damages : ∀ t ∈ ts, 0 ≤ t.event.damage) :
    (∀ a ∈ visited (beginPlay cfg) ts, a.hp ≤ 0 ↔ a.state = .die) ∧
      ∀ t ∈ ts, t.post.hp ≤ t.pre.hp ∧ (t.pre.state = .die → t.post.state = .die) ∧
        (t.post.hp ≤ 0 → StandsStill t.out) := by
  have mortal := mortal_run run alive damages
  refine ⟨mortal, fun t member => ?_⟩
  have act := taken_act (run.taken member)
  have damage := damages t member
  refine ⟨?_, ?_, ?_⟩
  · rw [act.hp]
    exact Int.sub_le_self _ damage
  · intro dead
    exact act.stays_dead damage dead ((mortal _ (run.pre_visited member)).mpr dead)
  · intro spent
    exact act.standsStill ((mortal _ (post_visited member)).mp spent)

/-- An enemy killed on its way to the player, hit again, and ticking on. -/
theorem dead_for_good_killed :
    (final (step {}) (beginPlay {})
      [.tick { deltaSeconds := 1, distance := 100 }, .onDamageProcess 10 0, .onDamageProcess 1 0,
        .tick { deltaSeconds := 4, distance := 100 }]).state = .die := by
  have run := run_trace (step {}) (beginPlay {})
    [.tick { deltaSeconds := 1, distance := 100 }, .onDamageProcess 10 0, .onDamageProcess 1 0,
      .tick { deltaSeconds := 4, distance := 100 }]
  have dead := (dead_for_good run (by decide) (by decide +kernel)).1 _ run.last_visited
  exact dead.mp (by decide +kernel)

end Health

/-! ### Target -/

section Target

/-- An enemy that moves or attacks has a target. -/
def Targeted (fsm : EnemyFSM) : Prop :=
  fsm.state = .move ∨ fsm.state = .attack → fsm.target ≠ none

instance (fsm : EnemyFSM) : Decidable fsm.Targeted :=
  inferInstanceAs (Decidable (fsm.state = .move ∨ fsm.state = .attack → fsm.target ≠ none))

/-- The enemy survives no damage in IDLE. -/
abbrev SparesIdle (t : Move) : Prop :=
  t.pre.state = .idle → ¬ t.pre.Survives t.event

/-- What is known of the target: there is none in IDLE, and there is one in every state that a
living enemy comes to after it. -/
structure Searched (fsm : EnemyFSM) : Prop where
  lost : fsm.state = .idle → fsm.target = none
  found : fsm.state ≠ .idle → fsm.state ≠ .die → fsm.target ≠ none

theorem Searched.targeted (searched : Searched fsm) : Targeted fsm := by
  rintro (state | state)
  · exact searched.found (by rw [state]; decide) (by rw [state]; decide)
  · exact searched.found (by rw [state]; decide) (by rw [state]; decide)

/-- In IDLE there is no target, whatever came before. -/
theorem Act.lost (act : Act cfg fsm event next calls)
    (lost : fsm.state = .idle → fsm.target = none) : next.state = .idle → next.target = none := by
  cases act with
  | idleWaits _ _ _ => exact fun _ => rfl
  | patrols frame num _ _ _ _ _ =>
    have same := samePatrol_tick cfg fsm.showState num frame
    rw [same.state, same.target]
    exact lost
  | idleFinds _ _ _ _ | chaseAttacks _ _ _ _ _ | attackLeaves _ _ _ _ _ | damageEnds _ _ _
    | killed _ _ _ | hurt _ _ _ => exact fun idle => (by cases idle)
  | _ => exact lost

theorem Act.searched (act : Act cfg fsm event next calls) (spent : Spent fsm)
    (damage : 0 ≤ event.damage)
    (spares : fsm.state = .idle → ¬ fsm.Survives event) (searched : Searched fsm) :
    Searched next := by
  refine ⟨act.lost searched.lost, ?_⟩
  have found := searched.found
  cases act with
  | idleWaits _ state _ => exact fun alert => absurd state alert
  | idleFinds _ _ _ _ => exact fun _ _ => Option.some_ne_none _
  | patrols frame num _ _ _ _ _ =>
    have same := samePatrol_tick cfg fsm.showState num frame
    rw [same.state, same.target]
    exact found
  | chaseAttacks _ _ _ target _ | attackLeaves _ _ target _ _ => exact fun _ _ => target
  | damageEnds _ state _ => exact fun _ _ => found (by rw [state]; decide) (by rw [state]; decide)
  | killed _ _ _ => exact fun _ live => absurd rfl live
  | hurt damageAmount index survived =>
    -- survived in IDLE it would be the damage that the condition excludes, and in DIE the
    -- health was gone before
    have lethal (gone : fsm.hp ≤ 0) : fsm.hp - damageAmount ≤ 0 :=
      (Int.sub_le_self _ damage).trans gone
    refine fun _ _ => found (fun idle => ?_) fun dead => ?_
    · exact absurd survived (spares idle)
    · exact absurd survived (not_lt.mpr (lethal (spent dead)))
  | _ => exact found

theorem searched_run (run : Run (step cfg) (beginPlay cfg) ts fsm)
    (damages : ∀ t ∈ ts, 0 ≤ t.event.damage) (spares : ∀ t ∈ ts, SparesIdle t) :
    ∀ a ∈ visited (beginPlay cfg) ts, Searched a ∧ Spent a :=
  run.invariant_visited (I := fun fsm => Searched fsm ∧ Spent fsm)
    ⟨⟨fun _ => rfl, fun alert => absurd rfl alert⟩, fun dead => by cases dead⟩
    fun t member taken ⟨searched, spent⟩ =>
      ⟨(taken_act taken).searched spent (damages t member) (spares t member) searched,
        (taken_act taken).spent (damages t member) spent⟩

/-- A stagger that has just begun ends in MOVE on a tick of more than a second. -/
theorem tick_staggered (cfg : EnemyConfig) (frame : Frame) (long : 1 < frame.deltaSeconds)
    (state : fsm.state = .damage) (zero : fsm.currentTime = 0) :
    ∃ after, step cfg fsm (.tick frame) = some (after, []) ∧ after.state = .move ∧
      after.target = fsm.target := by
  have ticks : step cfg fsm (.tick frame) = some (fsm.showState.tickDamage frame, []) := by
    show fsm.tickComponent cfg frame = _
    unfold tickComponent
    simp only [showState_state, state]
  have late : 1 < (fsm.showState.runClock frame).currentTime := by
    show 1 < fsm.currentTime + frame.deltaSeconds
    rwa [zero, zero_add]
  refine ⟨_, ticks, ?_⟩
  unfold tickDamage
  dsimp only
  rw [if_pos late]
  exact ⟨rfl, rfl⟩

/-- Hurt in IDLE, an enemy moves without a target once its stagger is over. -/
theorem untargeted_of_hurt (run : Run (step cfg) (beginPlay cfg) ts fsm) {t : Move} (member : t ∈ ts)
    (hurt : ¬ SparesIdle t) :
    ∃ frame after calls, step cfg t.post (.tick frame) = some (after, calls) ∧
      ¬ Targeted after := by
  obtain ⟨idle, survives⟩ := Classical.not_imp.mp hurt
  have lost : t.pre.state = .idle → t.pre.target = none :=
    run.invariant_pre (I := fun fsm => fsm.state = .idle → fsm.target = none) (fun _ => rfl)
      (fun _ _ taken => (taken_act taken).lost) member
  have staggers := (taken_act (run.taken member)).staggers (not_not.mp survives)
  obtain ⟨after, ticks, moves, same⟩ := tick_staggered cfg { deltaSeconds := 2, distance := 0 }
    (by decide) (congrArg EnemyFSM.state staggers) (congrArg EnemyFSM.currentTime staggers)
  refine ⟨_, after, [], ticks, fun targeted => targeted (Or.inl moves) ?_⟩
  rw [same, staggers]
  exact lost idle

/-- **An enemy that moves or attacks has a target** in every run in which no damage in IDLE leaves it
alive; after such damage it has none one tick later. -/
theorem targeted_run (run : Run (step cfg) (beginPlay cfg) ts fsm)
    (damages : ∀ t ∈ ts, 0 ≤ t.event.damage) :
    ((∀ t ∈ ts, SparesIdle t) → ∀ a ∈ visited (beginPlay cfg) ts, Targeted a) ∧
      ∀ t ∈ ts, ¬ SparesIdle t → ∃ frame after calls,
        step cfg t.post (.tick frame) = some (after, calls) ∧ ¬ Targeted after := by
  constructor
  · intro spares a member
    exact (searched_run run damages spares a member).1.targeted
  · intro t member
    exact untargeted_of_hurt run member

/-- An enemy that finds the player, is hurt, and moves again. -/
theorem targeted_run_found :
    Targeted (final (step {}) (beginPlay {})
      [.tick { deltaSeconds := 2, distance := 300 }, .onDamageProcess 1 0,
        .tick { deltaSeconds := 2, distance := 300 }]) := by
  have run := run_trace (step {}) (beginPlay {})
    [.tick { deltaSeconds := 2, distance := 300 }, .onDamageProcess 1 0,
      .tick { deltaSeconds := 2, distance := 300 }]
  exact (targeted_run run (by decide +kernel)).1 (by decide +kernel) _ run.last_visited

/-- An enemy hurt before it has found the player moves without a target. It takes the null target to
be near, and the chase reads it. -/
theorem hurt_in_idle :
    Run (step {}) (beginPlay {})
        (trace (step {}) (beginPlay {})
          [.onDamageProcess 1 0, .tick { deltaSeconds := 2, distance := 900 }])
        (final (step {}) (beginPlay {})
          [.onDamageProcess 1 0, .tick { deltaSeconds := 2, distance := 900 }]) ∧
      ¬ Targeted (final (step {}) (beginPlay {})
          [.onDamageProcess 1 0, .tick { deltaSeconds := 2, distance := 900 }]) ∧
      step {}
        (final (step {}) (beginPlay {})
          [.onDamageProcess 1 0, .tick { deltaSeconds := 2, distance := 900 },
            .tick { deltaSeconds := 2, distance := 900 }])
        (.tick { deltaSeconds := 2, distance := 900 }) = none :=
  ⟨run_trace _ _ _, by decide +kernel, by decide +kernel⟩

end Target

end EnemyFSM

end MyTPSGame
