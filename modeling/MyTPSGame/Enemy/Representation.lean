/-
**The representation of an enemy.**

`currentTime` is the clock of ATTACK, of DAMAGE and of DIE, the animation has a state of its own, and
`moveSubState` outlives the state it belongs to. `WellFormed` is what they have to do with each other
after any event; `represented_run` adds what takes the whole run to say: how long the dead sink, and
that an enemy in IDLE has never been anywhere else.
-/

import MyTPSGame.Machine.Account
import MyTPSGame.Model.EnemyAct

namespace MyTPSGame

open Machine

namespace EnemyFSM

variable {cfg : EnemyConfig} {fsm next : EnemyFSM} {event : Event} {calls : List EnemyCall}
  {ts : List Move}

/-! ### The fields of a state -/

section WellFormed

/-- What the fields of an enemy have to do with each other. -/
structure WellFormed (cfg : EnemyConfig) (fsm : EnemyFSM) : Prop where
  anim : fsm.anim.state = fsm.state
  nonneg : 0 ≤ fsm.currentTime
  rests : fsm.state = .idle ∨ fsm.state = .move → fsm.currentTime = 0
  attacks : fsm.state = .attack → fsm.currentTime ≤ cfg.attackDelayTime
  staggers : fsm.state = .damage → fsm.currentTime ≤ 1
  chases : fsm.state = .attack → fsm.moveSubState = .chase
  noOldMove : fsm.moveSubState ≠ .oldMove

theorem wellFormed_beginPlay (cfg : EnemyConfig) : WellFormed cfg (beginPlay cfg) := by
  constructor <;> simp [beginPlay]

/-- With the clock at zero its bounds hold in every state. -/
theorem WellFormed.of_zero (delay : 0 ≤ cfg.attackDelayTime) (anim : fsm.anim.state = fsm.state)
    (zero : fsm.currentTime = 0) (chases : fsm.state = .attack → fsm.moveSubState = .chase)
    (noOldMove : fsm.moveSubState ≠ .oldMove) : WellFormed cfg fsm where
  anim := anim
  nonneg := zero.ge
  rests := fun _ => zero
  attacks := fun _ => zero.trans_le delay
  staggers := fun _ => zero.trans_le zero_le_one
  chases := chases
  noOldMove := noOldMove

/-- A clock that runs on in ATTACK, DAMAGE or DIE, within its bound. -/
theorem WellFormed.runs (wellFormed : WellFormed cfg fsm) (frame : Frame)
    (busy : ¬ (fsm.state = .idle ∨ fsm.state = .move))
    (attacks : fsm.state = .attack → fsm.currentTime + frame.deltaSeconds ≤ cfg.attackDelayTime)
    (staggers : fsm.state = .damage → fsm.currentTime + frame.deltaSeconds ≤ 1) :
    WellFormed cfg (fsm.showState.runClock frame) where
  anim := rfl
  nonneg := add_nonneg wellFormed.nonneg frame.deltaSeconds_nonneg
  rests := fun resting => absurd resting busy
  attacks := attacks
  staggers := staggers
  chases := wellFormed.chases
  noOldMove := wellFormed.noOldMove

theorem moveSubState_patrol (cfg : EnemyConfig) (fsm : EnemyFSM) (num : ℕ) (frame : Frame) :
    ((fsm.nextWayPoint num frame).detect cfg frame).moveSubState =
      if fsm.getDistanceTo frame ≤ cfg.detectDistance then .chase else fsm.moveSubState := by
  have target : (fsm.nextWayPoint num frame).target = fsm.target :=
    (samePatrol_nextWayPoint fsm num frame).target
  have distance : (fsm.nextWayPoint num frame).getDistanceTo frame = fsm.getDistanceTo frame := by
    rw [getDistanceTo, getDistanceTo, target]
  have sub : (fsm.nextWayPoint num frame).moveSubState = fsm.moveSubState := by
    unfold nextWayPoint
    split <;> rfl
  unfold detect
  rw [distance]
  by_cases near : fsm.getDistanceTo frame ≤ cfg.detectDistance
  · rw [if_pos near, if_pos near]
  · rw [if_neg near, if_neg near, sub]

theorem Act.wellFormed (act : Act cfg fsm event next calls) (delay : 0 ≤ cfg.attackDelayTime)
    (wellFormed : WellFormed cfg fsm) : WellFormed cfg next := by
  have noOldMove := wellFormed.noOldMove
  cases act with
  | idleWaits frame state _ =>
    exact .of_zero delay rfl (wellFormed.rests (Or.inl state)) wellFormed.chases noOldMove
  | idleFinds _ _ _ _ | damageEnds _ _ _ | killed _ _ _ | hurt _ _ _ | attackLeaves _ _ _ _ _ =>
    exact .of_zero delay rfl rfl (fun attacks => by cases attacks) noOldMove
  | patrols frame num state sub _ _ _ =>
    have same := samePatrol_tick cfg fsm.showState num frame
    refine .of_zero delay ?_ ?_ ?_ ?_
    · rw [same.anim, same.state]
      rfl
    · rw [same.currentTime]
      exact wellFormed.rests (Or.inr state)
    · intro attacks
      exact absurd (attacks.symm.trans (same.state.trans state)) (by decide)
    · rw [moveSubState_patrol]
      split
      · decide
      · exact noOldMove
  | chaseAttacks frame _ sub _ _ => exact .of_zero delay rfl rfl (fun _ => sub) noOldMove
  | chaseAbandons frame state _ _ _ _ =>
    refine .of_zero delay rfl (wellFormed.rests (Or.inr state)) (fun attacks => ?_) (by simp)
    exact absurd (attacks.symm.trans state) (by decide)
  | chases frame state _ _ _ _ =>
    exact .of_zero delay rfl (wellFormed.rests (Or.inr state)) wellFormed.chases noOldMove
  | oldMoves _ _ _ _ sub _ _ => exact absurd sub noOldMove
  | attackWaits frame state early =>
    refine wellFormed.runs frame ?_ (fun _ => early) (fun staggers => ?_)
    · rw [state]
      decide
    · exact absurd (staggers.symm.trans state) (by decide)
  | attackAgain frame _ _ _ _ => exact .of_zero delay rfl rfl wellFormed.chases noOldMove
  | damageWaits frame state early =>
    refine wellFormed.runs frame ?_ (fun attacks => ?_) (fun _ => early)
    · rw [state]
      decide
    · exact absurd (attacks.symm.trans state) (by decide)
  | dieSinks frame _ state _ _ =>
    refine wellFormed.runs frame ?_ (fun attacks => ?_) (fun staggers => ?_)
    · rw [state]
      decide
    · exact absurd (attacks.symm.trans state) (by decide)
    · exact absurd (staggers.symm.trans state) (by decide)
  | dieWaits _ _ _ =>
    exact ⟨rfl, wellFormed.nonneg, wellFormed.rests, wellFormed.attacks, wellFormed.staggers,
      wellFormed.chases, noOldMove⟩
  | notified _ _ _ _ | dieEnded =>
    exact ⟨wellFormed.anim, wellFormed.nonneg, wellFormed.rests, wellFormed.attacks,
      wellFormed.staggers, wellFormed.chases, noOldMove⟩

/-- The dead that are not destroyed have not sunk for more than a second. -/
theorem Act.sinks (act : Act cfg fsm event next calls) (stays : EnemyCall.destroy ∉ calls)
    (before : fsm.state = .die → fsm.currentTime ≤ 1) : next.state = .die → next.currentTime ≤ 1 := by
  cases act with
  | killed _ _ _ => exact fun _ => zero_le_one
  | dieSinks frame last _ _ shape =>
    intro _
    by_contra past
    have late : 1 < fsm.currentTime + frame.deltaSeconds := not_le.mp past
    refine stays (List.mem_cons_of_mem _ ?_)
    rw [shape, if_pos late]
    exact List.mem_singleton_self _
  | attackWaits _ state _ | damageWaits _ state _ =>
    exact fun dead => absurd (dead.symm.trans state) (by decide)
  | attackAgain _ state _ _ _ => exact fun dead => absurd (dead.symm.trans state) (by decide)
  | patrols frame num state _ _ _ _ =>
    have same := samePatrol_tick cfg fsm.showState num frame
    exact fun dead => absurd (dead.symm.trans (same.state.trans state)) (by decide)
  | idleFinds _ _ _ _ | chaseAttacks _ _ _ _ _ | attackLeaves _ _ _ _ _ | damageEnds _ _ _
    | hurt _ _ _ => exact fun dead => (by cases dead)
  | _ => exact before

/-- No event leads to IDLE. -/
theorem Act.idle (act : Act cfg fsm event next calls) (idle : next.state = .idle) :
    fsm.state = .idle := by
  cases act with
  | idleFinds _ _ _ _ | chaseAttacks _ _ _ _ _ | attackLeaves _ _ _ _ _ | damageEnds _ _ _
    | killed _ _ _ | hurt _ _ _ => cases idle
  | patrols frame num _ _ _ _ _ =>
    exact (samePatrol_tick cfg fsm.showState num frame).state.symm.trans idle
  | _ => exact idle

end WellFormed

/-! ### Whole runs -/

section Runs

/-- What holds of an enemy and the run it has behind it, after any event. -/
structure Represented (cfg : EnemyConfig) (ts : List Move) (fsm : EnemyFSM) : Prop where
  anim : fsm.anim.state = fsm.state
  currentTime_nonneg : 0 ≤ fsm.currentTime
  rests : fsm.state = .idle ∨ fsm.state = .move → fsm.currentTime = 0
  attacks : fsm.state = .attack → fsm.currentTime ≤ cfg.attackDelayTime
  staggers : fsm.state = .damage → fsm.currentTime ≤ 1
  sinks : fsm.state = .die → (∀ t ∈ ts, EnemyCall.destroy ∉ t.out) → fsm.currentTime ≤ 1
  chases : fsm.state = .attack → fsm.moveSubState = .chase
  noOldMove : fsm.moveSubState ≠ .oldMove
  idle : fsm.state = .idle → ∀ a ∈ visited (beginPlay cfg) ts, a.state = .idle

theorem sinks_run (run : Run (step cfg) (beginPlay cfg) ts fsm)
    (stays : ∀ t ∈ ts, EnemyCall.destroy ∉ t.out) : fsm.state = .die → fsm.currentTime ≤ 1 :=
  run.invariant (I := fun fsm => fsm.state = .die → fsm.currentTime ≤ 1)
    (fun dead => by cases dead) fun t member taken => (taken_act taken).sinks (stays t member)

/-- An enemy in IDLE has been nowhere else. -/
theorem idle_run (run : Run (step cfg) (beginPlay cfg) ts fsm) (idle : fsm.state = .idle) :
    ∀ a ∈ visited (beginPlay cfg) ts, a.state = .idle := by
  induction run with
  | nil =>
    intro a member
    rw [visited_nil, List.mem_singleton] at member
    rw [member]
    rfl
  | @snoc past t _ taken ih =>
    intro a member
    rw [visited_snoc, List.mem_append, List.mem_singleton] at member
    rcases member with earlier | rfl
    · exact ih ((taken_act taken).idle idle) a earlier
    · exact idle

/-- **The representation invariant** of an enemy, after every event of every run. -/
theorem represented_run (run : Run (step cfg) (beginPlay cfg) ts fsm)
    (delay : 0 ≤ cfg.attackDelayTime) : Represented cfg ts fsm := by
  have wellFormed : WellFormed cfg fsm := run.invariant (wellFormed_beginPlay cfg)
    fun _ _ taken => (taken_act taken).wellFormed delay
  exact
    { anim := wellFormed.anim
      currentTime_nonneg := wellFormed.nonneg
      rests := wellFormed.rests
      attacks := wellFormed.attacks
      staggers := wellFormed.staggers
      sinks := fun dead stays => sinks_run run stays dead
      chases := wellFormed.chases
      noOldMove := wellFormed.noOldMove
      idle := idle_run run }

/-- An enemy that has found the player, chased it and attacks. -/
theorem represented_run_attack :
    Represented {}
      (trace (step {}) (beginPlay {}) (List.replicate 4 (.tick { deltaSeconds := 2, distance := 100 })))
      (final (step {}) (beginPlay {})
        (List.replicate 4 (.tick { deltaSeconds := 2, distance := 100 }))) :=
  represented_run (run_trace (step {}) (beginPlay {}) _) (by decide)

end Runs

end EnemyFSM

end MyTPSGame
