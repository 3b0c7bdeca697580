/-
**The attack animation of an enemy.**

A strike that goes on raises `enemyAnim->bAttackPlay`, and only the notification of the animation
lowers it again. `SetState` restarts the clock on every change of state and leaves the flag alone, so
an attack that is broken off takes a raised flag with it: `attackFlag_iff` says that this is the only
way to have one outside ATTACK.
-/

import MyTPSGame.Model.EnemyAct

namespace MyTPSGame

open Machine

namespace EnemyFSM

variable {cfg : EnemyConfig} {fsm next : EnemyFSM} {event : Event} {calls : List EnemyCall}
  {ts : List Move}

/-- The flag of the attack animation is up in ATTACK only. -/
def AttackFlag (fsm : EnemyFSM) : Prop :=
  fsm.anim.bAttackPlay = true → fsm.state = .attack

instance : DecidablePred AttackFlag := fun fsm =>
  inferInstanceAs (Decidable (fsm.anim.bAttackPlay = true → fsm.state = .attack))

/-- The event breaks off an attack: damage in ATTACK, or a strike at a player who has walked away. -/
def BreaksOff (cfg : EnemyConfig) (fsm : EnemyFSM) : Event → Prop
  | .tick frame => fsm.Strikes cfg (.tick frame) ∧ cfg.attackRange < frame.distance
  | .onDamageProcess _ _ => fsm.state = .attack
  | _ => False

/-- Outside ATTACK the flag is down. -/
theorem AttackFlag.lowered (flag : AttackFlag fsm) {state : EnemyState} (here : fsm.state = state)
    (other : state ≠ .attack := by decide) : fsm.anim.bAttackPlay ≠ true :=
  fun raised => other (here.symm.trans (flag raised))

/-- What breaks an attack off leaves ATTACK and leaves the flag as it is. -/
theorem Act.breaksOff (act : Act cfg fsm event next calls) (breaks : fsm.BreaksOff cfg event) :
    next.state ≠ .attack ∧ next.anim.bAttackPlay = fsm.anim.bAttackPlay := by
  cases act with
  | attackLeaves _ _ _ _ _ | killed _ _ _ | hurt _ _ _ => exact ⟨fun attacks => (by cases attacks), rfl⟩
  | attackAgain frame _ _ _ near => exact absurd near (not_le.mpr breaks.2)
  | attackWaits frame _ early => exact absurd breaks.1.2 (not_lt.mpr early)
  | notified _ _ _ _ | dieEnded => exact breaks.elim
  | idleWaits _ state | idleFinds _ _ state | patrols _ _ state | chaseAttacks _ state
    | chaseAbandons _ state | chases _ state | oldMoves _ _ _ state | damageWaits _ state
    | damageEnds _ state | dieWaits _ state | dieSinks _ _ state =>
    exact absurd breaks.1 (not_strikes state)

/-- What does not break an attack off keeps the flag to ATTACK. -/
theorem Act.attackFlag (act : Act cfg fsm event next calls) (goes : ¬ fsm.BreaksOff cfg event)
    (flag : AttackFlag fsm) : AttackFlag next := by
  cases act with
  | chaseAttacks _ _ _ _ _ => exact fun _ => rfl
  | attackAgain _ state _ _ _ => exact fun _ => state
  | attackLeaves frame state _ late far => exact absurd ⟨⟨state, late⟩, far⟩ goes
  | idleFinds _ _ state _ => exact fun raised => absurd raised (flag.lowered state)
  | damageEnds _ state _ => exact fun raised => absurd raised (flag.lowered state)
  | killed _ _ _ | hurt _ _ _ => exact fun raised => absurd (flag raised) goes
  | notified _ _ _ _ => exact fun raised => by cases raised
  | patrols frame num state _ _ _ _ =>
    have same := samePatrol_tick cfg fsm.showState num frame
    intro raised
    rw [same.anim] at raised
    exact absurd raised (flag.lowered state)
  | _ => exact flag

/-- **The flag of the attack animation is up in ATTACK only**, in every state of a run, if and only
if no attack of the run is broken off with the flag up. -/
theorem attackFlag_iff (run : Run (step cfg) (beginPlay cfg) ts fsm) :
    (∀ a ∈ visited (beginPlay cfg) ts, AttackFlag a) ↔
      ∀ t ∈ ts, t.pre.BreaksOff cfg t.event → t.pre.anim.bAttackPlay = false := by
  constructor
  · intro flags t member breaks
    obtain ⟨outside, same⟩ := (taken_act (run.taken member)).breaksOff breaks
    have flag := flags _ (post_visited member)
    rw [← same]
    exact Bool.eq_false_iff.mpr fun raised => outside (flag raised)
  · intro lowered
    have base : AttackFlag (beginPlay cfg) := fun raised => by cases raised
    -- with the flag down, what breaks an attack off leaves it down
    apply run.invariant_visited base
    intro t member taken flag
    by_cases breaks : t.pre.BreaksOff cfg t.event
    · have down := lowered t member breaks
      rw [← ((taken_act taken).breaksOff breaks).2] at down
      exact fun raised => absurd raised (Bool.eq_false_iff.mp down)
    · exact (taken_act taken).attackFlag breaks flag

/-- An attack whose animation has told that it hit, and that is then broken off. -/
theorem attackFlag_iff_notified :
    (∀ a ∈ visited (beginPlay {}) (trace (step {}) (beginPlay {})
        (List.replicate 4 (.tick { deltaSeconds := 4, distance := 100 }) ++
          [.animNotifyOnHit 100, .onDamageProcess 1 0])), AttackFlag a) ↔
      ∀ t ∈ trace (step {}) (beginPlay {})
        (List.replicate 4 (.tick { deltaSeconds := 4, distance := 100 }) ++
          [.animNotifyOnHit 100, .onDamageProcess 1 0]),
        t.pre.BreaksOff {} t.event → t.pre.anim.bAttackPlay = false :=
  attackFlag_iff (run_trace (step {}) (beginPlay {}) _)

/-- An enemy hurt while its attack animation plays staggers with the flag up, and two ticks later
comes to attack again with the flag still up. -/
theorem broken_attack_plays_on :
    Run (step {}) (beginPlay {})
        (trace (step {}) (beginPlay {})
          (List.replicate 4 (.tick { deltaSeconds := 4, distance := 100 }) ++ [.onDamageProcess 1 0]))
        (final (step {}) (beginPlay {})
          (List.replicate 4 (.tick { deltaSeconds := 4, distance := 100 }) ++
            [.onDamageProcess 1 0])) ∧
      ¬ AttackFlag (final (step {}) (beginPlay {})
        (List.replicate 4 (.tick { deltaSeconds := 4, distance := 100 }) ++
          [.onDamageProcess 1 0])) ∧
      let back := final (step {}) (beginPlay {})
        (List.replicate 4 (.tick { deltaSeconds := 4, distance := 100 }) ++ [.onDamageProcess 1 0] ++
          List.replicate 2 (.tick { deltaSeconds := 4, distance := 100 }))
      back.state = .attack ∧ back.currentTime = 0 ∧ back.anim.bAttackPlay = true :=
  ⟨run_trace _ _ _, by decide +kernel, by decide +kernel⟩

end EnemyFSM

end MyTPSGame
