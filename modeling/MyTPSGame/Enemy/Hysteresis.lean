/-
**The hysteresis of patrol and chase.**

`TickPatrol` turns to the chase within `detectDistance` and `TickChase` back to the patrol beyond
`abandonDistance`; ATTACK and DAMAGE leave `moveSubState` alone. With `detectDistance` at most
`abandonDistance`, as the header asks, the player has to cover the difference between any two turns,
so `hysteresis` bounds the turns of a run by how far the player comes and goes.
-/

import MyTPSGame.Arith.Variation
import MyTPSGame.Enemy.Representation

namespace MyTPSGame

open Machine Arith

namespace EnemyFSM

variable {cfg : EnemyConfig} {fsm next : EnemyFSM} {event : Event} {calls : List EnemyCall}
  {ts : List Move}

/-- The distance of enemy and target on a tick. -/
def Event.distance : Event → Option ℚ
  | .tick frame => some frame.distance
  | _ => none

/-- The transition turns the enemy from patrol to chase or back. -/
def Turns (t : Move) : Prop :=
  t.post.moveSubState ≠ t.pre.moveSubState

instance : DecidablePred Turns := fun t =>
  inferInstanceAs (Decidable (t.post.moveSubState ≠ t.pre.moveSubState))

/-- The distances of the ticks of a run. -/
def distances (ts : List Move) : List ℚ :=
  ts.filterMap fun t => t.event.distance

/-- The distance at which a transition turns the enemy, if it does. -/
def turnDistance (t : Move) : Option ℚ :=
  if Turns t then t.event.distance else none

theorem turnDistance_iff {t : Move} {d : ℚ} :
    turnDistance t = some d ↔ Turns t ∧ t.event.distance = some d := by
  unfold turnDistance
  by_cases turns : Turns t
  · rw [if_pos turns]
    exact (and_iff_right turns).symm
  · rw [if_neg turns]
    exact iff_of_false nofun fun both => turns both.1

/-- The distances of the turns are distances of ticks. -/
theorem turnDistances_sublist (ts : List Move) :
    (ts.filterMap turnDistance).Sublist (distances ts) := by
  have kept : turnDistance = fun t => if decide (Turns t) then t.event.distance else none := by
    funext t
    simp only [turnDistance, decide_eq_true_eq]
  rw [kept, ← List.filterMap_filter]
  exact List.filter_sublist.filterMap _

/-! ### One event -/

section Turn

/-- An event leaves `moveSubState` alone, or it is a tick that notices the player, or one that gives
the chase up. -/
theorem Act.moveSubState_cases (act : Act cfg fsm event next calls)
    (target : fsm.state = .move → fsm.target ≠ none) :
    next.moveSubState = fsm.moveSubState ∨
      ∃ d, event.distance = some d ∧
        (fsm.moveSubState = .patrol ∧ next.moveSubState = .chase ∧ d ≤ cfg.detectDistance ∨
          fsm.moveSubState = .chase ∧ next.moveSubState = .patrol ∧ cfg.abandonDistance < d) := by
  cases act with
  | patrols frame num state sub _ _ _ =>
    have there : fsm.showState.getDistanceTo frame = frame.distance :=
      if_pos (Option.isSome_iff_ne_none.mpr (target state))
    rw [moveSubState_patrol, there]
    by_cases near : frame.distance ≤ cfg.detectDistance
    · rw [if_pos near]
      exact Or.inr ⟨frame.distance, rfl, Or.inl ⟨sub, rfl, near⟩⟩
    · rw [if_neg near]
      exact Or.inl rfl
  | chaseAbandons frame _ sub _ _ far => exact Or.inr ⟨frame.distance, rfl, Or.inr ⟨sub, rfl, far⟩⟩
  | _ => exact Or.inl rfl

/-- ATTACK begins on a tick that finds the player within the attack range. -/
theorem Act.attack_near (act : Act cfg fsm event next calls) (attacks : next.state = .attack) :
    fsm.state = .attack ∨ ∃ d, event.distance = some d ∧ d ≤ cfg.attackRange := by
  cases act with
  | chaseAttacks frame _ _ _ near => exact Or.inr ⟨frame.distance, rfl, near⟩
  | idleFinds _ _ _ _ | attackLeaves _ _ _ _ _ | damageEnds _ _ _ | killed _ _ _ | hurt _ _ _ =>
    cases attacks
  | patrols frame num _ _ _ _ _ =>
    exact Or.inl ((samePatrol_tick cfg fsm.showState num frame).state.symm.trans attacks)
  | _ => exact Or.inl attacks

/-- A tick leaves ATTACK for MOVE only beyond the attack range. -/
theorem Act.leaves_far {d : ℚ} (act : Act cfg fsm event next calls) (ticks : event.distance = some d)
    (attacks : fsm.state = .attack) (leaves : next.state = .move) : cfg.attackRange < d := by
  cases act with
  | attackLeaves _ _ _ _ far => exact far.trans_eq (Option.some.inj ticks)
  | attackWaits _ _ _ | attackAgain _ _ _ _ _ =>
    exact absurd (attacks.symm.trans leaves) (by decide)
  | killed _ _ _ | hurt _ _ _ | notified _ _ _ _ | dieEnded => cases ticks
  | idleWaits _ state | idleFinds _ _ state | patrols _ _ state | chaseAttacks _ state
    | chaseAbandons _ state | chases _ state | oldMoves _ _ _ state | damageWaits _ state
    | damageEnds _ state | dieWaits _ state | dieSinks _ _ state =>
    exact absurd (attacks.symm.trans state) (by decide)

end Turn

/-! ### Whole runs -/

section Runs

/-- What two thresholds do to a run. -/
structure Hysteresis (cfg : EnemyConfig) (ts : List Move) : Prop where
  /-- Between two consecutive turns the player covers more than the difference. -/
  apart : ∀ before mid after t u, ts = before ++ t :: (mid ++ u :: after) → Turns t → Turns u →
    (∀ v ∈ mid, ¬ Turns v) → ∃ d e, t.event.distance = some d ∧ u.event.distance = some e ∧
      cfg.abandonDistance - cfg.detectDistance < |e - d|
  /-- Two turns or more have the player cover it once for each but the first. -/
  travels : 2 ≤ ts.countP (Turns ·) →
    ((ts.countP (Turns ·) : ℚ) - 1) * (cfg.abandonDistance - cfg.detectDistance) <
      variation (distances ts)
  /-- At a constant distance there is at most one turn, and no tick leaves ATTACK for MOVE. -/
  still : ∀ d, (∀ e ∈ distances ts, e = d) → ts.countP (Turns ·) ≤ 1 ∧
    ∀ t ∈ ts, t.event.distance ≠ none → t.pre.state = .attack → t.post.state ≠ .move

variable (run : Run (step cfg) (beginPlay cfg) ts fsm)
  (target : ∀ t ∈ ts, t.pre.state = .move → t.pre.target ≠ none)

include run target

theorem apart_run {before mid after : List Move} {t u : Move}
    (split : ts = before ++ t :: (mid ++ u :: after)) (first : Turns t) (second : Turns u)
    (none : ∀ v ∈ mid, ¬ Turns v) :
    ∃ d e, t.event.distance = some d ∧ u.event.distance = some e ∧
      cfg.abandonDistance - cfg.detectDistance < |e - d| := by
  subst split
  obtain ⟨takenT, between, takenU⟩ := run.between
  have same : u.pre.moveSubState = t.post.moveSubState :=
    between.invariant (I := fun fsm => fsm.moveSubState = t.post.moveSubState) rfl
      fun v member _ before => (not_not.mp (none v member)).trans before
  have turnT := (taken_act takenT).moveSubState_cases (target t (by simp))
  have turnU := (taken_act takenU).moveSubState_cases (target u (by simp))
  obtain ⟨d, ticksT, caseT⟩ := turnT.resolve_left first
  obtain ⟨e, ticksU, caseU⟩ := turnU.resolve_left second
  refine ⟨d, e, ticksT, ticksU, lt_abs.mpr ?_⟩
  rcases caseT with ⟨_, chase, near⟩ | ⟨_, patrol, far⟩
  · rcases caseU with ⟨patrol, _, _⟩ | ⟨_, _, far⟩
    · rw [same, chase] at patrol
      cases patrol
    · exact Or.inl (by linarith)
  · rcases caseU with ⟨_, _, near⟩ | ⟨chase, _, _⟩
    · exact Or.inr (by linarith)
    · rw [same, patrol] at chase
      cases chase

theorem turns_distance {t : Move} (member : t ∈ ts) (turns : Turns t) :
    ∃ d, t.event.distance = some d := by
  have cases := (taken_act (run.taken member)).moveSubState_cases (target t member)
  obtain ⟨d, ticks, _⟩ := cases.resolve_left turns
  exact ⟨d, ticks⟩

theorem turnDistance_isSome {t : Move} (member : t ∈ ts) : (turnDistance t).isSome ↔ Turns t := by
  rw [Option.isSome_iff_exists]
  constructor
  · rintro ⟨_, turned⟩
    exact (turnDistance_iff.mp turned).1
  · intro turns
    obtain ⟨d, ticks⟩ := turns_distance run target member turns
    exact ⟨d, turnDistance_iff.mpr ⟨turns, ticks⟩⟩

/-- The distances of the turns lie apart, each from the next. -/
theorem turnDistances_isChain : (ts.filterMap turnDistance).IsChain fun d e =>
    cfg.abandonDistance - cfg.detectDistance < |e - d| := by
  apply isChain_filterMap
  intro before mid after t u d e split first second unmarked
  have mids : ∀ v ∈ mid, ¬ Turns v := by
    intro v member turns
    have some := (turnDistance_isSome run target (t := v) (by simp [split, member])).mpr turns
    rw [unmarked v member] at some
    cases some
  obtain ⟨turnsT, readT⟩ := turnDistance_iff.mp first
  obtain ⟨turnsU, readU⟩ := turnDistance_iff.mp second
  obtain ⟨d', e', ticksT, ticksU, far⟩ := apart_run run target split turnsT turnsU mids
  obtain rfl : d' = d := Option.some.inj (ticksT.symm.trans readT)
  obtain rfl : e' = e := Option.some.inj (ticksU.symm.trans readU)
  exact far

theorem length_turnDistances : (ts.filterMap turnDistance).length = ts.countP (Turns ·) := by
  rw [List.length_filterMap_eq_countP]
  apply List.countP_congr
  intro t member
  rw [turnDistance_isSome run target member, decide_eq_true_iff]

theorem travels_run (turns : 2 ≤ ts.countP (Turns ·)) :
    ((ts.countP (Turns ·) : ℚ) - 1) * (cfg.abandonDistance - cfg.detectDistance) <
      variation (distances ts) := by
  have chain := turnDistances_isChain run target
  have length := length_turnDistances run target
  have way := variation_sublist (turnDistances_sublist ts)
  match marks : ts.filterMap turnDistance with
  | [] | [_] =>
    rw [marks] at length
    simp at length
    omega
  | d :: e :: rest =>
    rw [marks] at chain length way
    have far := (nsmul_lt_variation chain).trans_le way
    rw [nsmul_eq_mul] at far
    rw [← length]
    push_cast [List.length_cons] at far ⊢
    linarith

theorem still_run (thresholds : cfg.detectDistance ≤ cfg.abandonDistance) {d : ℚ}
    (still : ∀ e ∈ distances ts, e = d) : ts.countP (Turns ·) ≤ 1 := by
  by_contra more
  have travels := travels_run run target (by omega)
  rw [variation_eq_zero still] at travels
  have count : (2 : ℚ) ≤ ts.countP (Turns ·) := by exact_mod_cast (show 2 ≤ _ by omega)
  nlinarith

omit target in
/-- At a constant distance the player stays in the reach in which ATTACK began. -/
theorem attack_stays {d : ℚ} (still : ∀ e ∈ distances ts, e = d) {t : Move} (member : t ∈ ts)
    (ticks : t.event.distance ≠ none) (attacks : t.pre.state = .attack) : t.post.state ≠ .move := by
  have read : ∀ u ∈ ts, ∀ e, u.event.distance = some e → e = d := by
    intro u member e reading
    exact still e (List.mem_filterMap.mpr ⟨u, member, reading⟩)
  have near : t.pre.state = .attack → d ≤ cfg.attackRange := by
    refine run.invariant_pre (I := fun fsm => fsm.state = .attack → d ≤ cfg.attackRange) ?_ ?_ member
    · intro attacks
      cases attacks
    intro u member taken before attacks
    rcases (taken_act taken).attack_near attacks with early | ⟨e, reading, near⟩
    · exact before early
    · exact (read u member e reading).symm.trans_le near
  intro leaves
  obtain ⟨e, reading⟩ := Option.ne_none_iff_exists'.mp ticks
  have far := (taken_act (run.taken member)).leaves_far reading attacks leaves
  rw [read t member e reading] at far
  exact absurd (near attacks) (not_le.mpr far)

/-- **The hysteresis of patrol and chase**, of every run with a player to chase. -/
theorem hysteresis (thresholds : cfg.detectDistance ≤ cfg.abandonDistance) : Hysteresis cfg ts where
  apart _ _ _ _ _ split first second none := apart_run run target split first second none
  travels turns := travels_run run target turns
  still _ still :=
    ⟨still_run run target thresholds still,
      fun _ member ticks attacks => attack_stays run still member ticks attacks⟩

omit run target

/-- A player who is noticed, gets away and comes back. -/
theorem hysteresis_returns :
    Hysteresis {} (trace (step {}) (beginPlay {})
      [.tick { deltaSeconds := 1, distance := 400 }, .tick { deltaSeconds := 1, distance := 400 },
        .onDamageProcess 1 0, .tick { deltaSeconds := 2, distance := 900 },
        .tick { deltaSeconds := 1, distance := 900 }, .tick { deltaSeconds := 1, distance := 300 }]) :=
  hysteresis (run_trace (step {}) (beginPlay {}) _) (by decide +kernel) (by decide)

end Runs

end EnemyFSM

end MyTPSGame
