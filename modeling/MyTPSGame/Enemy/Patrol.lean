/-
**The patrol of an enemy.**

`wayIndex` moves on when a tick of the patrol finds the enemy at its waypoint, or the path to it
failed, and no other handler touches it. So it counts these ticks modulo the number of waypoints
(`patrol_cyclic`), however often the patrol is interrupted.
-/

import MyTPSGame.Arith.Cycle
import MyTPSGame.Machine.Account
import MyTPSGame.Model.EnemyAct

namespace MyTPSGame

open Machine

namespace EnemyFSM

variable {cfg : EnemyConfig} {fsm next : EnemyFSM} {event : Event} {calls : List EnemyCall}
  {ts : List Move} {num : ℕ}

/-- The event is a tick of the patrol that is done with its waypoint. -/
def Arrives (fsm : EnemyFSM) : Event → Prop
  | .tick frame => (fsm.state = .move ∧ fsm.moveSubState = .patrol) ∧
      (frame.moveResult = .alreadyAtGoal ∨ frame.moveResult = .failed)
  | _ => False

instance (fsm : EnemyFSM) : DecidablePred fsm.Arrives
  | .tick frame => inferInstanceAs (Decidable ((fsm.state = .move ∧ fsm.moveSubState = .patrol) ∧
      (frame.moveResult = .alreadyAtGoal ∨ frame.moveResult = .failed)))
  | .onDamageProcess _ _ => instDecidableFalse
  | .animNotifyOnHit _ => instDecidableFalse
  | .enemyDieEnd => instDecidableFalse

/-- How many waypoints a run is done with. -/
def arrivals (ts : List Move) : ℕ :=
  total (fun t => if t.pre.Arrives t.event then 1 else 0) ts

theorem wayIndex_patrol (cfg : EnemyConfig) (fsm : EnemyFSM) (num : ℕ) (frame : Frame) :
    ((fsm.nextWayPoint num frame).detect cfg frame).wayIndex =
      if frame.moveResult = .alreadyAtGoal ∨ frame.moveResult = .failed then
        Cycle.succ num fsm.wayIndex
      else fsm.wayIndex := by
  have detected (fsm : EnemyFSM) : (fsm.detect cfg frame).wayIndex = fsm.wayIndex := by
    unfold detect
    split <;> rfl
  rw [detected, nextWayPoint]
  split <;> rfl

/-- Only the patrol moves the index, and only when it is done with a waypoint. -/
theorem Act.wayIndex (act : Act cfg fsm event next calls) (path : cfg.wayPoints = some num) :
    next.wayIndex = if fsm.Arrives event then Cycle.succ num fsm.wayIndex else fsm.wayIndex := by
  have still (elsewhere : ¬ fsm.Arrives event) (same : next.wayIndex = fsm.wayIndex) :
      next.wayIndex = if fsm.Arrives event then Cycle.succ num fsm.wayIndex else fsm.wayIndex := by
    rw [if_neg elsewhere, same]
  cases act with
  | patrols frame num' state sub path' _ _ =>
    obtain rfl : num' = num := Option.some.inj (path'.symm.trans path)
    rw [wayIndex_patrol]
    by_cases done : frame.moveResult = .alreadyAtGoal ∨ frame.moveResult = .failed
    · have arrives : fsm.Arrives (.tick frame) := ⟨⟨state, sub⟩, done⟩
      rw [if_pos done, if_pos arrives]
      rfl
    · have goes : ¬ fsm.Arrives (.tick frame) := fun arrives => done arrives.2
      rw [if_neg done, if_neg goes]
      rfl
  | chaseAttacks _ _ sub | chaseAbandons _ _ sub | chases _ _ sub | oldMoves _ _ _ _ sub =>
    refine still (fun arrives => ?_) rfl
    exact absurd (sub.symm.trans arrives.1.2) (by decide)
  | idleWaits _ state | idleFinds _ _ state | attackWaits _ state | attackLeaves _ state
    | attackAgain _ state | damageWaits _ state | damageEnds _ state | dieWaits _ state
    | dieSinks _ _ state =>
    refine still (fun arrives => ?_) rfl
    exact absurd (state.symm.trans arrives.1.1) (by decide)
  | killed _ _ _ | hurt _ _ _ | notified _ _ _ _ | dieEnded => exact still not_false rfl

theorem wayIndex_run (run : Run (step cfg) (beginPlay cfg) ts fsm) (path : cfg.wayPoints = some num)
    (some : 1 ≤ num) : fsm.wayIndex = (arrivals ts : ℤ) % num := by
  have positive : (0 : ℤ) < num := by omega
  induction run with
  | nil => exact (Int.zero_emod _).symm
  | @snoc past t _ taken ih =>
    have last : arrivals (past ++ [t]) = arrivals past + if t.pre.Arrives t.event then 1 else 0 :=
      total_snoc
    rw [(taken_act taken).wayIndex path, last, ih]
    by_cases arrives : t.pre.Arrives t.event
    · rw [if_pos arrives, if_pos arrives, Cycle.succ_emod positive, Nat.cast_add, Nat.cast_one]
    · rw [if_neg arrives, if_neg arrives, Nat.add_zero]

/-- **The patrol goes round its waypoints**: the index is in range after every run, it counts the
waypoints done with modulo their number, and an interrupted patrol keeps it. -/
theorem patrol_cyclic (run : Run (step cfg) (beginPlay cfg) ts fsm) (path : cfg.wayPoints = some num)
    (some : 1 ≤ num) :
    (0 ≤ fsm.wayIndex ∧ fsm.wayIndex < num) ∧ fsm.wayIndex = (arrivals ts : ℤ) % num ∧
      ∀ t ∈ ts, ¬ t.pre.Arrives t.event → t.post.wayIndex = t.pre.wayIndex := by
  have counts := wayIndex_run run path some
  refine ⟨?_, counts, ?_⟩
  · rw [counts]
    exact Cycle.emod_place (by omega) _
  · intro t member elsewhere
    rw [(taken_act (run.taken member)).wayIndex path, if_neg elsewhere]

/-- Three arrivals at two waypoints, with a stagger in between. -/
theorem patrol_cyclic_two :
    (final (step { wayPoints := some 2 }) (beginPlay { wayPoints := some 2 })
      [.tick { deltaSeconds := 1, distance := 900 },
        .tick { deltaSeconds := 1, distance := 900, moveResult := .alreadyAtGoal },
        .tick { deltaSeconds := 1, distance := 900, moveResult := .failed },
        .onDamageProcess 1 0, .tick { deltaSeconds := 2, distance := 900 },
        .tick { deltaSeconds := 1, distance := 900, moveResult := .alreadyAtGoal }]).wayIndex = 1 := by
  have run := run_trace (step { wayPoints := some 2 }) (beginPlay { wayPoints := some 2 })
    [.tick { deltaSeconds := 1, distance := 900 },
      .tick { deltaSeconds := 1, distance := 900, moveResult := .alreadyAtGoal },
      .tick { deltaSeconds := 1, distance := 900, moveResult := .failed },
      .onDamageProcess 1 0, .tick { deltaSeconds := 2, distance := 900 },
      .tick { deltaSeconds := 1, distance := 900, moveResult := .alreadyAtGoal }]
  rw [(patrol_cyclic run rfl (by decide)).2.1]
  decide +kernel

end EnemyFSM

end MyTPSGame
