/-
**Everything one event can do to an enemy.**

`Act cfg fsm event next calls` has one constructor for each way through the handlers of `EnemyFSM`:
its guards, the state it leaves and the calls it makes. `step_act` is the inversion of the step
function; invariants of an enemy are case analyses of `Act` and unfold no handler again.

What many of them need is drawn from it once:

* `Act.calls_cases`: an act is quiet towards player and game mode, or it is one `OnHit(1)`, or it
  ends in one `AddExp(1)`;
* `Act.count_onHit`, `Act.count_addExp`: the second when it `Strikes`, the third when it `Dies`.
-/

import MyTPSGame.Model.EnemyFSM

namespace MyTPSGame

open Machine

namespace EnemyFSM

section ShowState

variable (fsm : EnemyFSM)

@[simp] theorem showState_state : fsm.showState.state = fsm.state := rfl

@[simp] theorem showState_moveSubState : fsm.showState.moveSubState = fsm.moveSubState := rfl

@[simp] theorem showState_bEnemyDieEnd :
    fsm.showState.anim.bEnemyDieEnd = fsm.anim.bEnemyDieEnd := rfl

end ShowState

/-- The patrolling part of a tick writes the waypoint and the substate only. -/
structure SamePatrol (fsm next : EnemyFSM) : Prop where
  state : next.state = fsm.state
  target : next.target = fsm.target
  currentTime : next.currentTime = fsm.currentTime
  hp : next.hp = fsm.hp
  anim : next.anim = fsm.anim

theorem SamePatrol.trans {first second third : EnemyFSM} (early : SamePatrol first second)
    (late : SamePatrol second third) : SamePatrol first third :=
  ⟨late.state.trans early.state, late.target.trans early.target,
    late.currentTime.trans early.currentTime, late.hp.trans early.hp, late.anim.trans early.anim⟩

theorem samePatrol_nextWayPoint (fsm : EnemyFSM) (num : ℕ) (frame : Frame) :
    SamePatrol fsm (fsm.nextWayPoint num frame) := by
  unfold nextWayPoint
  by_cases arrived : frame.moveResult = .alreadyAtGoal ∨ frame.moveResult = .failed
  · rw [if_pos arrived]
    constructor <;> rfl
  · rw [if_neg arrived]
    constructor <;> rfl

theorem samePatrol_detect (cfg : EnemyConfig) (fsm : EnemyFSM) (frame : Frame) :
    SamePatrol fsm (fsm.detect cfg frame) := by
  unfold detect
  by_cases near : fsm.getDistanceTo frame ≤ cfg.detectDistance
  · rw [if_pos near]
    constructor <;> rfl
  · rw [if_neg near]
    constructor <;> rfl

theorem samePatrol_tick (cfg : EnemyConfig) (fsm : EnemyFSM) (num : ℕ) (frame : Frame) :
    SamePatrol fsm ((fsm.nextWayPoint num frame).detect cfg frame) :=
  (samePatrol_nextWayPoint fsm num frame).trans (samePatrol_detect cfg _ frame)

/-! ### The inversion of the step function -/

/-- Everything one event can do to an enemy. -/
inductive Act (cfg : EnemyConfig) (fsm : EnemyFSM) : Event → EnemyFSM → List EnemyCall → Prop
  | idleWaits (frame : Frame) : fsm.state = .idle → frame.playerPawn = none →
      Act cfg fsm (.tick frame) { fsm.showState with target := none } []
  | idleFinds (frame : Frame) (pawn : Pawn) : fsm.state = .idle → frame.playerPawn = some pawn →
      Act cfg fsm (.tick frame) ({ fsm.showState with target := some pawn }.setState .move) []
  | patrols (frame : Frame) (num : ℕ) : fsm.state = .move → fsm.moveSubState = .patrol →
      cfg.wayPoints = some num → 0 ≤ fsm.wayIndex → fsm.wayIndex < num →
      Act cfg fsm (.tick frame) ((fsm.showState.nextWayPoint num frame).detect cfg frame)
        [.moveToLocation (.wayPoint fsm.wayIndex)]
  | chaseAttacks (frame : Frame) : fsm.state = .move → fsm.moveSubState = .chase →
      fsm.target ≠ none → frame.distance ≤ cfg.attackRange →
      Act cfg fsm (.tick frame) (fsm.showState.setState .attack) [.moveToLocation .target]
  | chaseAbandons (frame : Frame) : fsm.state = .move → fsm.moveSubState = .chase →
      fsm.target ≠ none → cfg.attackRange < frame.distance →
      cfg.abandonDistance < frame.distance →
      Act cfg fsm (.tick frame) { fsm.showState with moveSubState := .patrol }
        [.moveToLocation .target]
  | chases (frame : Frame) : fsm.state = .move → fsm.moveSubState = .chase →
      fsm.target ≠ none → cfg.attackRange < frame.distance →
      frame.distance ≤ cfg.abandonDistance →
      Act cfg fsm (.tick frame) fsm.showState [.moveToLocation .target]
  | oldMoves (frame : Frame) (goal : MoveGoal) (redraw : List EnemyCall) : fsm.state = .move →
      fsm.moveSubState = .oldMove → fsm.target ≠ none →
      redraw = [] ∨ redraw = [.updateRandomLocation] →
      Act cfg fsm (.tick frame) fsm.showState (.moveToLocation goal :: redraw)
  | attackWaits (frame : Frame) : fsm.state = .attack →
      fsm.currentTime + frame.deltaSeconds ≤ cfg.attackDelayTime →
      Act cfg fsm (.tick frame) (fsm.showState.runClock frame) []
  | attackLeaves (frame : Frame) : fsm.state = .attack → fsm.target ≠ none →
      cfg.attackDelayTime < fsm.currentTime + frame.deltaSeconds →
      cfg.attackRange < frame.distance →
      Act cfg fsm (.tick frame) ((fsm.showState.runClock frame).setState .move) [.onHit 1]
  | attackAgain (frame : Frame) : fsm.state = .attack → fsm.target ≠ none →
      cfg.attackDelayTime < fsm.currentTime + frame.deltaSeconds →
      frame.distance ≤ cfg.attackRange →
      Act cfg fsm (.tick frame)
        { fsm.showState with
          currentTime := 0
          bAttackPlay := false
          anim := { fsm.showState.anim with bAttackPlay := true } } [.onHit 1]
  | damageWaits (frame : Frame) : fsm.state = .damage →
      fsm.currentTime + frame.deltaSeconds ≤ 1 →
      Act cfg fsm (.tick frame) (fsm.showState.runClock frame) []
  | damageEnds (frame : Frame) : fsm.state = .damage →
      1 < fsm.currentTime + frame.deltaSeconds →
      Act cfg fsm (.tick frame) ((fsm.showState.runClock frame).setState .move) []
  | dieWaits (frame : Frame) : fsm.state = .die → fsm.anim.bEnemyDieEnd = false →
      Act cfg fsm (.tick frame) fsm.showState []
  | dieSinks (frame : Frame) (last : List EnemyCall) : fsm.state = .die →
      fsm.anim.bEnemyDieEnd = true →
      last = (if 1 < fsm.currentTime + frame.deltaSeconds then [.destroy] else []) →
      Act cfg fsm (.tick frame) (fsm.showState.runClock frame)
        (.setActorLocation (200 * frame.deltaSeconds) :: last)
  | killed (damageAmount : ℤ) (index : Fin 2) : fsm.hp - damageAmount ≤ 0 →
      Act cfg fsm (.onDamageProcess damageAmount index)
        { fsm with
          state := .die
          currentTime := 0
          hp := fsm.hp - damageAmount
          anim := { fsm.anim with state := .die, bEnemyDieEnd := false } }
        (stopCalls cfg ++ [.onMyDamage "Die", .setCollisionEnabledNoCollision, .addExp 1])
  | hurt (damageAmount : ℤ) (index : Fin 2) : 0 < fsm.hp - damageAmount →
      Act cfg fsm (.onDamageProcess damageAmount index)
        ({ fsm with hp := fsm.hp - damageAmount }.setState .damage)
        (stopCalls cfg ++ [.onMyDamage ("Damage" ++ toString index.val)])
  | notified (distance : ℚ) (log : List EnemyCall) : fsm.target ≠ none →
      log = [] ∨ log = [.printLog "Enemyisattack"] →
      Act cfg fsm (.animNotifyOnHit distance)
        { fsm with anim := { fsm.anim with bAttackPlay := false } } log
  | dieEnded :
      Act cfg fsm .enemyDieEnd { fsm with anim := { fsm.anim with bEnemyDieEnd := true } } []

section Inversion

variable {cfg : EnemyConfig} {fsm next : EnemyFSM} {calls : List EnemyCall} {frame : Frame}

theorem tickIdle_act (state : fsm.state = .idle) :
    Act cfg fsm (.tick frame) (fsm.showState.tickIdle frame) [] := by
  unfold tickIdle
  cases found : frame.playerPawn with
  | none => exact .idleWaits frame state found
  | some pawn => exact .idleFinds frame pawn state found

theorem tickPatrol_act (state : fsm.state = .move) (sub : fsm.moveSubState = .patrol)
    (done : fsm.showState.tickPatrol cfg frame = some (next, calls)) :
    Act cfg fsm (.tick frame) next calls := by
  unfold tickPatrol at done
  cases path : cfg.wayPoints with
  | none =>
    rw [path] at done
    cases done
  | some num =>
    simp only [path] at done
    by_cases inside : 0 ≤ fsm.showState.wayIndex ∧ fsm.showState.wayIndex < num ∧ cfg.ai = true
    · rw [if_pos inside] at done
      cases done
      exact .patrols frame num state sub path inside.1 inside.2.1
    · rw [if_neg inside] at done
      cases done

theorem tickChase_act (state : fsm.state = .move) (sub : fsm.moveSubState = .chase)
    (done : fsm.showState.tickChase cfg frame = some (next, calls)) :
    Act cfg fsm (.tick frame) next calls := by
  unfold tickChase at done
  by_cases ready : fsm.showState.target.isSome ∧ cfg.ai = true
  · rw [if_pos ready] at done
    have target : fsm.target ≠ none := Option.isSome_iff_ne_none.mp ready.1
    by_cases near : frame.distance ≤ cfg.attackRange
    · rw [if_pos near] at done
      cases done
      exact .chaseAttacks frame state sub target near
    · rw [if_neg near] at done
      by_cases far : cfg.abandonDistance < frame.distance
      · rw [if_pos far] at done
        cases done
        exact .chaseAbandons frame state sub target (not_le.mp near) far
      · rw [if_neg far] at done
        cases done
        exact .chases frame state sub target (not_le.mp near) (not_lt.mp far)
  · rw [if_neg ready] at done
    cases done

theorem tickMoveOldMove_act (state : fsm.state = .move) (sub : fsm.moveSubState = .oldMove)
    (done : fsm.showState.tickMoveOldMove cfg frame = some (next, calls)) :
    Act cfg fsm (.tick frame) next calls := by
  unfold tickMoveOldMove at done
  by_cases ready : fsm.showState.target.isSome ∧ cfg.ai = true
  · rw [if_pos ready] at done
    have target : fsm.target ≠ none := Option.isSome_iff_ne_none.mp ready.1
    by_cases reachable : frame.pathResult = .success ∨ frame.pathResult = .fail
    · rw [if_pos reachable] at done
      cases done
      exact .oldMoves frame .target [] state sub target (Or.inl rfl)
    · rw [if_neg reachable] at done
      by_cases there : frame.moveResult = .alreadyAtGoal
      · rw [if_pos there] at done
        cases done
        exact .oldMoves frame .randomLocation _ state sub target (Or.inr rfl)
      · rw [if_neg there] at done
        cases done
        exact .oldMoves frame .randomLocation [] state sub target (Or.inl rfl)
  · rw [if_neg ready] at done
    cases done

theorem tickAttack_act (state : fsm.state = .attack)
    (done : fsm.showState.tickAttack cfg frame = some (next, calls)) :
    Act cfg fsm (.tick frame) next calls := by
  unfold tickAttack at done
  dsimp only at done
  by_cases late : cfg.attackDelayTime < (fsm.showState.runClock frame).currentTime
  · rw [if_pos late] at done
    by_cases ready : (fsm.showState.runClock frame).target.isSome
    · rw [if_pos ready] at done
      have target : fsm.target ≠ none := Option.isSome_iff_ne_none.mp ready
      by_cases far : cfg.attackRange < frame.distance
      · rw [if_pos far] at done
        cases done
        exact .attackLeaves frame state target late far
      · rw [if_neg far] at done
        cases done
        exact .attackAgain frame state target late (not_lt.mp far)
    · rw [if_neg ready] at done
      cases done
  · rw [if_neg late] at done
    cases done
    exact .attackWaits frame state (not_lt.mp late)

theorem tickDamage_act (state : fsm.state = .damage) :
    Act cfg fsm (.tick frame) (fsm.showState.tickDamage frame) [] := by
  unfold tickDamage
  by_cases late : 1 < fsm.currentTime + frame.deltaSeconds
  · rw [if_pos (show 1 < (fsm.showState.runClock frame).currentTime from late)]
    exact .damageEnds frame state late
  · rw [if_neg (show ¬ 1 < (fsm.showState.runClock frame).currentTime from late)]
    exact .damageWaits frame state (not_lt.mp late)

theorem tickDie_act (state : fsm.state = .die) :
    Act cfg fsm (.tick frame) (fsm.showState.tickDie frame).1 (fsm.showState.tickDie frame).2 := by
  unfold tickDie
  cases ended : fsm.anim.bEnemyDieEnd with
  | false =>
    simp only [showState_bEnemyDieEnd, ended, if_true]
    exact .dieWaits frame state ended
  | true =>
    simp only [showState_bEnemyDieEnd, ended, Bool.true_eq_false, if_false]
    exact .dieSinks frame _ state ended rfl

/-- **The step function does nothing but acts.** -/
theorem step_act {event : Event} (done : step cfg fsm event = some (next, calls)) :
    Act cfg fsm event next calls := by
  cases event with
  | tick frame =>
    change fsm.tickComponent cfg frame = _ at done
    unfold tickComponent at done
    cases state : fsm.state with
    | idle =>
      simp only [showState_state, state] at done
      cases done
      exact tickIdle_act state
    | move =>
      simp only [showState_state, state, tickMove, showState_moveSubState] at done
      cases sub : fsm.moveSubState with
      | patrol => exact tickPatrol_act state sub (by simpa only [sub] using done)
      | chase => exact tickChase_act state sub (by simpa only [sub] using done)
      | oldMove => exact tickMoveOldMove_act state sub (by simpa only [sub] using done)
    | attack =>
      simp only [showState_state, state] at done
      exact tickAttack_act state done
    | damage =>
      simp only [showState_state, state] at done
      cases done
      exact tickDamage_act state
    | die =>
      simp only [showState_state, state] at done
      have act : Act cfg fsm (.tick frame) (fsm.showState.tickDie frame).1
          (fsm.showState.tickDie frame).2 := tickDie_act state
      rwa [Option.some.inj done] at act
  | onDamageProcess damageAmount index =>
    change some (fsm.onDamageProcess cfg damageAmount index) = _ at done
    unfold onDamageProcess at done
    by_cases lethal : fsm.hp - damageAmount ≤ 0
    · simp only [lethal, if_true] at done
      cases done
      exact .killed damageAmount index lethal
    · simp only [lethal, if_false] at done
      cases done
      exact .hurt damageAmount index (not_le.mp lethal)
  | animNotifyOnHit distance =>
    change fsm.onHitEvent cfg distance = _ at done
    unfold onHitEvent at done
    by_cases ready : fsm.target.isSome
    · rw [if_pos ready] at done
      cases done
      refine .notified distance _ (Option.isSome_iff_ne_none.mp ready) ?_
      by_cases near : distance ≤ cfg.attackRange
      · exact Or.inr (if_pos near)
      · exact Or.inl (if_neg near)
    · rw [if_neg ready] at done
      cases done
  | enemyDieEnd =>
    cases done
    exact .dieEnded

/-- The act behind a transition of an enemy. -/
theorem taken_act {t : Transition EnemyFSM Event EnemyCall} (taken : t.Taken (step cfg)) :
    Act cfg t.pre t.event t.post t.out :=
  step_act taken

end Inversion

/-! ### Calls on the player and on the game mode -/

section Effects

/-- The event is a tick of an attack whose delay runs out on it. -/
def Strikes (cfg : EnemyConfig) (fsm : EnemyFSM) : Event → Prop
  | .tick frame =>
    fsm.state = .attack ∧ cfg.attackDelayTime < fsm.currentTime + frame.deltaSeconds
  | _ => False

/-- The event is damage that leaves no health. -/
def Dies (fsm : EnemyFSM) : Event → Prop
  | .onDamageProcess damageAmount _ => fsm.hp - damageAmount ≤ 0
  | _ => False

/-- The event is damage that leaves health. -/
def Survives (fsm : EnemyFSM) : Event → Prop
  | .onDamageProcess damageAmount _ => 0 < fsm.hp - damageAmount
  | _ => False

/-- What an event takes off the health. -/
def Event.damage : Event → ℤ
  | .onDamageProcess damageAmount _ => damageAmount
  | _ => 0

instance (cfg : EnemyConfig) (fsm : EnemyFSM) : DecidablePred (fsm.Strikes cfg)
  | .tick frame => inferInstanceAs (Decidable
      (fsm.state = .attack ∧ cfg.attackDelayTime < fsm.currentTime + frame.deltaSeconds))
  | .onDamageProcess _ _ => instDecidableFalse
  | .animNotifyOnHit _ => instDecidableFalse
  | .enemyDieEnd => instDecidableFalse

instance (fsm : EnemyFSM) : DecidablePred fsm.Dies
  | .tick _ => instDecidableFalse
  | .onDamageProcess damageAmount _ => inferInstanceAs (Decidable (fsm.hp - damageAmount ≤ 0))
  | .animNotifyOnHit _ => instDecidableFalse
  | .enemyDieEnd => instDecidableFalse

instance (fsm : EnemyFSM) : DecidablePred fsm.Survives
  | .tick _ => instDecidableFalse
  | .onDamageProcess damageAmount _ => inferInstanceAs (Decidable (0 < fsm.hp - damageAmount))
  | .animNotifyOnHit _ => instDecidableFalse
  | .enemyDieEnd => instDecidableFalse

/-- Calls that neither the player nor the game mode hears of. -/
def Quiet (calls : List EnemyCall) : Prop :=
  ∀ call ∈ calls, (∀ damage, call ≠ .onHit damage) ∧ ∀ amount, call ≠ .addExp amount

theorem Quiet.append {first second : List EnemyCall} (left : Quiet first) (right : Quiet second) :
    Quiet (first ++ second) := fun call member =>
  (List.mem_append.mp member).elim (left call) (right call)

theorem quiet_stopCalls (cfg : EnemyConfig) : Quiet (stopCalls cfg) := by
  unfold stopCalls
  split <;> simp [Quiet]

variable {cfg : EnemyConfig} {fsm next : EnemyFSM} {calls : List EnemyCall} {event : Event}

theorem Strikes.attacking (strikes : fsm.Strikes cfg event) : fsm.state = .attack := by
  cases event with
  | tick frame => exact strikes.1
  | _ => exact strikes.elim

theorem not_strikes {state : EnemyState} (here : fsm.state = state)
    (other : state ≠ .attack := by decide) : ¬ fsm.Strikes cfg event :=
  fun strikes => other (here.symm.trans strikes.attacking)

/-- An act is quiet, or one hit of the player, or it ends in one award. -/
theorem Act.calls_cases (act : Act cfg fsm event next calls) :
    (¬ fsm.Strikes cfg event ∧ ¬ fsm.Dies event ∧ Quiet calls) ∨
      (fsm.Strikes cfg event ∧ ¬ fsm.Dies event ∧ calls = [.onHit 1]) ∨
      (¬ fsm.Strikes cfg event ∧ fsm.Dies event ∧
        ∃ quiet, Quiet quiet ∧ calls = quiet ++ [.addExp 1]) := by
  cases act with
  | attackLeaves frame state _ late _ => exact Or.inr (Or.inl ⟨⟨state, late⟩, not_false, rfl⟩)
  | attackAgain frame state _ late _ => exact Or.inr (Or.inl ⟨⟨state, late⟩, not_false, rfl⟩)
  | killed damageAmount index lethal =>
    refine Or.inr (Or.inr ⟨not_false, lethal,
      stopCalls cfg ++ [.onMyDamage "Die", .setCollisionEnabledNoCollision], ?_, ?_⟩)
    · exact (quiet_stopCalls cfg).append (by simp [Quiet])
    · rw [List.append_assoc]
      rfl
  | hurt damageAmount index survived =>
    refine Or.inl ⟨not_false, not_le.mpr survived, ?_⟩
    exact (quiet_stopCalls cfg).append (by simp [Quiet])
  | attackWaits frame _ early =>
    exact Or.inl ⟨fun strikes => absurd strikes.2 (not_lt.mpr early), not_false, by simp [Quiet]⟩
  | oldMoves frame goal redraw state _ _ shape =>
    refine Or.inl ⟨not_strikes state, not_false, ?_⟩
    rcases shape with rfl | rfl <;> simp [Quiet]
  | dieSinks frame last state _ shape =>
    refine Or.inl ⟨not_strikes state, not_false, ?_⟩
    subst shape
    split <;> simp [Quiet]
  | notified distance log _ shape =>
    exact Or.inl ⟨not_false, not_false, by rcases shape with rfl | rfl <;> simp [Quiet]⟩
  | dieEnded => exact Or.inl ⟨not_false, not_false, by simp [Quiet]⟩
  | idleWaits _ state | idleFinds _ _ state | patrols _ _ state | chaseAttacks _ state
    | chaseAbandons _ state | chases _ state | damageWaits _ state | damageEnds _ state
    | dieWaits _ state =>
    exact Or.inl ⟨not_strikes state, not_false, by simp [Quiet]⟩

/-- A living enemy is dead after an event if and only if it dies of it. -/
theorem Act.die_iff (act : Act cfg fsm event next calls) (live : fsm.state ≠ .die) :
    next.state = .die ↔ fsm.Dies event := by
  cases act with
  | killed damageAmount index lethal => exact ⟨fun _ => lethal, fun _ => rfl⟩
  | hurt damageAmount index survived =>
    exact ⟨fun dead => (by cases dead), fun dies => absurd dies (not_le.mpr survived)⟩
  | patrols frame num _ _ _ _ _ =>
    rw [(samePatrol_tick cfg fsm.showState num frame).state]
    exact ⟨fun dead => absurd dead live, False.elim⟩
  | dieWaits _ state | dieSinks _ _ state => exact absurd state live
  | idleFinds _ _ _ | chaseAttacks _ _ | attackLeaves _ _ | damageEnds _ _ =>
    exact ⟨fun dead => (by cases dead), False.elim⟩
  | _ => exact ⟨fun dead => absurd dead live, False.elim⟩

/-- A dead enemy that is not hit stays dead. -/
theorem Act.die_stays (act : Act cfg fsm event next calls) (dead : fsm.state = .die)
    (unhurt : ∀ damageAmount index, event ≠ .onDamageProcess damageAmount index) :
    next.state = .die ∧ ¬ fsm.Dies event := by
  cases act with
  | killed damageAmount index _ | hurt damageAmount index _ =>
    exact absurd rfl (unhurt damageAmount index)
  | dieWaits _ _ _ | dieSinks _ _ _ _ _ | notified _ _ _ _ | dieEnded => exact ⟨dead, not_false⟩
  | idleWaits _ state | idleFinds _ _ state | patrols _ _ state | chaseAttacks _ state
    | chaseAbandons _ state | chases _ state | oldMoves _ _ _ state | attackWaits _ state
    | attackLeaves _ state | attackAgain _ state | damageWaits _ state | damageEnds _ state =>
    rw [dead] at state
    cases state

/-- Damage that is survived is a stagger, with the clock at zero. -/
theorem Act.staggers (act : Act cfg fsm event next calls) (survives : fsm.Survives event) :
    next = { fsm with hp := fsm.hp - event.damage }.setState .damage := by
  cases act with
  | hurt _ _ _ => rfl
  | killed _ _ lethal => exact absurd survives (not_lt.mpr lethal)
  | _ => exact survives.elim

theorem Quiet.count_onHit (quiet : Quiet calls) (damage : ℤ) : calls.count (.onHit damage) = 0 :=
  List.count_eq_zero.mpr fun member => (quiet _ member).1 damage rfl

theorem Quiet.count_addExp (quiet : Quiet calls) (amount : ℤ) : calls.count (.addExp amount) = 0 :=
  List.count_eq_zero.mpr fun member => (quiet _ member).2 amount rfl

/-- An enemy hits the player when it strikes, once. -/
theorem Act.count_onHit (act : Act cfg fsm event next calls) :
    calls.count (.onHit 1) = if fsm.Strikes cfg event then 1 else 0 := by
  rcases act.calls_cases with ⟨no, _, quiet⟩ | ⟨yes, _, rfl⟩ | ⟨no, _, quiet, silent, rfl⟩
  · rw [if_neg no, quiet.count_onHit]
  · rw [if_pos yes]
    rfl
  · rw [if_neg no, List.count_append, silent.count_onHit]
    rfl

/-- An enemy awards experience when it dies, once. -/
theorem Act.count_addExp (act : Act cfg fsm event next calls) :
    calls.count (.addExp 1) = if fsm.Dies event then 1 else 0 := by
  rcases act.calls_cases with ⟨_, no, quiet⟩ | ⟨_, no, rfl⟩ | ⟨_, yes, quiet, silent, rfl⟩
  · rw [if_neg no, quiet.count_addExp]
  · rw [if_neg no]
    rfl
  · rw [if_pos yes, List.count_append, silent.count_addExp]
    rfl

end Effects

end EnemyFSM

end MyTPSGame
