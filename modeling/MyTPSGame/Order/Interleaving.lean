/-
**The order in which enemies and weapon are served.**

The engine decides in which order the enemies tick, and where between their ticks an input of the player
is handled. An event touches the enemy it is for, the weapon, or both (a press of the fire button whose
trace hits an enemy); the timers of spawn manager and game mode touch everything. Events that touch
nothing in common commute, although enemies share the player they hit and the game mode they pay: hits
and awards add up the same in either order.

* `commutes_of_apart`: such events commute;
* `interleaving_irrelevant`: what a run leads to depends only on what each enemy and the weapon see.
-/

import MyTPSGame.Machine.Commute
import MyTPSGame.Model.WorldStep

namespace MyTPSGame

open Machine

namespace World

/-- What an event may touch: the player's weapon, or one enemy. -/
inductive Actor
  | weapon
  | enemy (i : ℕ)
  deriving DecidableEq

/-- Whether an event touches an actor. A press touches the enemy its trace hits, even if it turns out
to be a press on the rifle. -/
def Event.touches : Event → Actor → Bool
  | .makeEnemy _, _ => true
  | .levelUpTimer, _ => true
  | .enemy i _, .enemy j => i = j
  | .enemy _ _, .weapon => false
  | .fire _ _, .weapon => true
  | .fire (.onActionFirePressed shot) _, .enemy j => shot.trace.bind TraceHit.enemy = some j
  | .fire _ _, .enemy _ => false

variable {cfg : GameConfig} {w next : World} {i j : ℕ} {act act' : EnemyFSM.Event}
  {event : FireComponent.Event} {index : Fin 2}

/-! ### An event of an enemy, in one piece -/

section Enemy

/-- The enemy before and after its event, and its calls. -/
def enemyMove (cfg : GameConfig) (w : World) (i : ℕ) (act : EnemyFSM.Event) :
    Option (EnemyFSM.Move) :=
  w.enemies[i]?.bind fun fsm =>
    (fsm.step (cfg.enemy i) act).map fun (there, calls) => ⟨fsm, act, there, calls⟩

/-- The game after the move of enemy `i`, and what is seen of it. -/
def moved (cfg : GameConfig) (w : World) (i : ℕ) (move : EnemyFSM.Move) : World × List WorldCall :=
  (heard (cfg.enemy i) move.pre move.event { w with enemies := w.enemies.set i move.post },
    move.out.map (.enemy i) ++ w.heardCalls (cfg.enemy i) move.pre move.event)

theorem enemyStep_eq : w.enemyStep cfg i act = (w.enemyMove cfg i act).map (w.moved cfg i) := by
  unfold enemyStep enemyMove
  cases w.enemies[i]? with
  | none => rfl
  | some fsm =>
    cases done : fsm.step (cfg.enemy i) act with
    | none => simp [done]
    | some result =>
      obtain ⟨there, calls⟩ := result
      have acts := EnemyFSM.step_act done
      have state := hearAll_act i { w with enemies := w.enemies.set i there } acts
      have seen := hearAll_calls i { w with enemies := w.enemies.set i there } acts
      simp only [Option.bind_some, done, Option.map_some, moved, ← state]
      rw [← show heardCalls (cfg.enemy i) fsm act { w with enemies := w.enemies.set i there } =
        heardCalls (cfg.enemy i) fsm act w from rfl, ← seen]

/-- An enemy's move is a matter of that enemy alone. -/
theorem enemyMove_congr (same : next.enemies[i]? = w.enemies[i]?) :
    next.enemyMove cfg i act = w.enemyMove cfg i act := by
  unfold enemyMove
  rw [same]

theorem enemyMove_moved (apart : i ≠ j) (move : EnemyFSM.Move) :
    (w.moved cfg i move).1.enemyMove cfg j act = w.enemyMove cfg j act :=
  enemyMove_congr (List.getElem?_set_ne apart)

end Enemy

/-! ### An event of the weapon, in one piece -/

section Fire

variable {fire : FireComponent} {calls before after : List FireCall} {damageAmount : ℤ}

theorem hearFire_middle (quietBefore : FireComponent.Harmless before)
    (quietAfter : FireComponent.Harmless after) :
    hearFire cfg index w (before ++ .onDamageProcess i damageAmount :: after) =
      (w.enemyStep cfg i (.onDamageProcess damageAmount index)).map fun (hit, out) =>
        (hit, before.map .fire ++ .fire (.onDamageProcess i damageAmount) :: out ++
          after.map .fire) := by
  induction before with
  | nil =>
    simp only [List.nil_append, hearFire]
    cases w.enemyStep cfg i (.onDamageProcess damageAmount index) with
    | none => rfl
    | some result => simp [hearFire_harmless quietAfter]
  | cons call before ih =>
    have head := quietBefore call List.mem_cons_self
    have rest := ih fun other member => quietBefore other (List.mem_cons_of_mem _ member)
    cases call with
    | onDamageProcess j amount => exact absurd rfl (head j amount)
    | _ =>
      simp only [List.cons_append, hearFire, rest, Option.map_map]
      congr 1

/-- What an event of the weapon can be to the game: not possible, nothing to any enemy, or a shot at
the enemy its trace hits. -/
theorem fireStep_cases (cfg : GameConfig) (w : World) (event : FireComponent.Event) (index : Fin 2) :
    w.fire.step cfg.fire event = none ∨
      (∃ fire calls, w.fire.step cfg.fire event = some (fire, calls) ∧
        FireComponent.Harmless calls) ∨
      ∃ fire before after i, w.fire.step cfg.fire event =
          some (fire, before ++ .onDamageProcess i 1 :: after) ∧
        FireComponent.Harmless before ∧ FireComponent.Harmless after ∧
        Event.touches (.fire event index) (.enemy i) = true := by
  cases done : w.fire.step cfg.fire event with
  | none => exact Or.inl rfl
  | some result =>
    obtain ⟨fire, calls⟩ := result
    refine Or.inr ?_
    cases event with
    | onActionFirePressed shot =>
      have press := FireComponent.step_press done
      cases struck : w.fire.struck shot with
      | none => exact Or.inl ⟨fire, calls, rfl, press.missed struck⟩
      | some i =>
        obtain ⟨before, after, quietBefore, quietAfter, rfl⟩ := press.struck struck
        refine Or.inr ⟨fire, before, after, i, rfl, quietBefore, quietAfter, ?_⟩
        unfold FireComponent.struck at struck
        split at struck
        · exact decide_eq_true struck
        · cases struck
    | _ => exact Or.inl ⟨fire, calls, rfl, (FireComponent.step_handled done).harmless (by simp)⟩

theorem step_fire (cfg : GameConfig) (w : World) (event : FireComponent.Event) (index : Fin 2) :
    step cfg w (.fire event index) =
      (w.fire.step cfg.fire event).bind fun (fire, calls) =>
        hearFire cfg index { w with fire := fire } calls := by
  simp only [step]
  cases w.fire.step cfg.fire event with
  | none => rfl
  | some result => rfl

end Fire

/-! ### Events that touch nothing in common -/

section Commute

/-- Two calls of one function, each made or not, are seen in either order. -/
theorem calls_comm {α β : Type*} (f : α → α × List β) (a : α) (p q : Prop) [Decidable p]
    [Decidable q] :
    (if p then (f a).2 else []) ++ (if q then (f (if p then (f a).1 else a)).2 else []) =
      (if q then (f a).2 else []) ++ if p then (f (if q then (f a).1 else a)).2 else [] := by
  by_cases first : p <;> by_cases second : q <;> simp [first, second]

theorem exec_pair {e f : Event} :
    exec (step cfg) w [e, f] =
      (step cfg w e).bind fun (next, out) =>
        (step cfg next f).map fun (last, rest) => (last, out ++ rest) := by
  simp only [exec_cons, exec_nil]
  congr 1
  funext ⟨next, out⟩
  cases step cfg next f <;> simp

/-- The weapon is nothing to an enemy. -/
theorem moved_fire (fire : FireComponent) (move : EnemyFSM.Move) :
    { w with fire := fire }.moved cfg i move =
      ({ (w.moved cfg i move).1 with fire := fire }, (w.moved cfg i move).2) := rfl

/-- Two enemies that act in either order leave the same game. -/
theorem moved_comm (apart : i ≠ j) (move move' : EnemyFSM.Move) :
    ((w.moved cfg i move).1.moved cfg j move').1 = ((w.moved cfg j move').1.moved cfg i move).1 := by
  simp only [moved, heard]
  rw [List.set_comm _ _ apart]
  congr 1
  · by_cases dies : move.pre.Dies move.event <;> by_cases dies' : move'.pre.Dies move'.event <;>
      simp [dies, dies']
  · by_cases hits : move.pre.Strikes (cfg.enemy i) move.event <;>
      by_cases hits' : move'.pre.Strikes (cfg.enemy j) move'.event <;> simp [hits, hits']

/-- Their hits and awards are seen in either order. -/
theorem moved_perm (cfg : GameConfig) (w : World) (i j : ℕ) (move move' : EnemyFSM.Move) :
    ((w.moved cfg i move).2 ++ ((w.moved cfg i move).1.moved cfg j move').2).Perm
      ((w.moved cfg j move').2 ++ ((w.moved cfg j move').1.moved cfg i move).2) := by
  have player := calls_comm (fun player => ((player.onHit 1).1, (player.onHit 1).2.map WorldCall.player))
    w.player (move.pre.Strikes (cfg.enemy i) move.event)
    (move'.pre.Strikes (cfg.enemy j) move'.event)
  have mode := calls_comm (fun gm => ((gm.addExp 1).1, (gm.addExp 1).2.map WorldCall.gameMode))
    w.gameMode (move.pre.Dies move.event) (move'.pre.Dies move'.event)
  rw [List.perm_iff_count]
  intro call
  replace player := congrArg (List.count call) player
  replace mode := congrArg (List.count call) mode
  simp only [List.count_append] at player mode
  simp only [moved, heard, heardCalls, List.count_append]
  omega

/-- Two enemies may act in either order. -/
theorem commutes_enemies (apart : i ≠ j) :
    Commutes (step cfg) (.enemy i act) (.enemy j act') := by
  intro w
  rw [exec_pair, exec_pair]
  simp only [step, enemyStep_eq]
  cases first : w.enemyMove cfg i act with
  | none =>
    cases second : w.enemyMove cfg j act' with
    | none => exact .fail
    | some move' =>
      simp only [Option.map_none, Option.bind_none, Option.map_some, Option.bind_some,
        enemyMove_moved apart.symm, first]
      exact .fail
  | some move =>
    cases second : w.enemyMove cfg j act' with
    | none =>
      simp only [Option.map_none, Option.bind_none, Option.map_some, Option.bind_some,
        enemyMove_moved apart, second]
      exact .fail
    | some move' =>
      simp only [Option.map_some, Option.bind_some, enemyMove_moved apart,
        enemyMove_moved apart.symm, first, second]
      rw [moved_comm apart]
      exact .done _ (w.moved_perm cfg i j move move')

/-- What the weapon does not reach may come before or after it. -/
theorem commutes_fire (apart : Event.touches (.fire event index) (.enemy j) = false) :
    Commutes (step cfg) (.fire event index) (.enemy j act) := by
  intro w
  have same (fire : FireComponent) : { w with fire := fire }.enemyMove cfg j act =
      w.enemyMove cfg j act := enemyMove_congr rfl
  rw [exec_pair, exec_pair, step_fire]
  simp only [step, enemyStep_eq]
  rcases fireStep_cases cfg w event index with none | ⟨fire, calls, done, harmless⟩ |
    ⟨fire, before, after, i, done, quietBefore, quietAfter, reaches⟩
  · rw [none]
    cases w.enemyMove cfg j act with
    | none => exact .fail
    | some move =>
      simp only [Option.bind_none, Option.map_some, Option.bind_some]
      rw [show (w.moved cfg j move).1.fire = w.fire from rfl, none]
      exact .fail
  · rw [done]
    simp only [Option.bind_some, hearFire_harmless harmless, same]
    cases w.enemyMove cfg j act with
    | none => exact .fail
    | some move =>
      simp only [Option.map_some, Option.bind_some]
      rw [show (w.moved cfg j move).1.fire = w.fire from rfl, done]
      simp only [hearFire_harmless harmless, moved_fire]
      exact .done _ List.perm_append_comm
  · have other : i ≠ j := by
      rintro rfl
      rw [reaches] at apart
      cases apart
    have struck : { w with fire := fire }.enemyMove cfg i (.onDamageProcess 1 index) =
        w.enemyMove cfg i (.onDamageProcess 1 index) := enemyMove_congr rfl
    have later (move : EnemyFSM.Move) :
        { (w.moved cfg j move).1 with fire := fire }.enemyMove cfg i (.onDamageProcess 1 index) =
          w.enemyMove cfg i (.onDamageProcess 1 index) :=
      (enemyMove_congr rfl).trans (enemyMove_moved other.symm move)
    have after' (move' : EnemyFSM.Move) :
        { (w.moved cfg i move').1 with fire := fire }.enemyMove cfg j act =
          w.enemyMove cfg j act := (enemyMove_congr rfl).trans (enemyMove_moved other move')
    rw [done]
    simp only [Option.bind_some, hearFire_middle quietBefore quietAfter, enemyStep_eq, struck]
    cases hit : w.enemyMove cfg i (.onDamageProcess 1 index) with
    | none =>
      cases w.enemyMove cfg j act with
      | none => exact .fail
      | some move =>
        simp only [Option.map_none, Option.bind_none, Option.map_some, Option.bind_some]
        rw [show (w.moved cfg j move).1.fire = w.fire from rfl, done]
        simp only [hearFire_middle quietBefore quietAfter, enemyStep_eq, later, hit]
        exact .fail
    | some move' =>
      simp only [Option.map_some, Option.bind_some, moved_fire, after']
      cases w.enemyMove cfg j act with
      | none => exact .fail
      | some move =>
        simp only [Option.map_some, Option.bind_some]
        rw [show (w.moved cfg j move).1.fire = w.fire from rfl, done]
        simp only [hearFire_middle quietBefore quietAfter, enemyStep_eq, later, hit, Option.map_some,
          moved_fire, moved_comm other.symm]
        apply Agree.done
        rw [List.perm_iff_count]
        intro call
        have both := (w.moved_perm cfg i j move' move).count_eq call
        simp only [List.count_append, List.count_cons] at both ⊢
        omega

/-- Every event touches some actor. -/
theorem touches_somewhere (e : Event) : ∃ actor, e.touches actor = true := by
  cases e with
  | enemy i _ => exact ⟨.enemy i, decide_eq_true rfl⟩
  | makeEnemy _ | levelUpTimer | fire _ _ => exact ⟨.weapon, rfl⟩

/-- **Events that touch nothing in common commute.** -/
theorem commutes_of_apart {e f : Event}
    (apart : ∀ actor, e.touches actor = true → f.touches actor = false) :
    Commutes (step cfg) e f := by
  cases e with
  | makeEnemy _ | levelUpTimer =>
    obtain ⟨actor, here⟩ := touches_somewhere f
    cases (apart actor rfl).symm.trans here
  | enemy i act =>
    cases f with
    | makeEnemy draw | levelUpTimer => cases apart (.enemy i) (decide_eq_true rfl)
    | enemy j act' =>
      apply commutes_enemies
      rintro rfl
      cases (apart (.enemy i) (decide_eq_true rfl)).symm.trans (decide_eq_true rfl)
    | fire event index => exact (commutes_fire (apart (.enemy i) (decide_eq_true rfl))).symm
  | fire event index =>
    cases f with
    | makeEnemy draw | levelUpTimer | fire _ _ => cases apart .weapon rfl
    | enemy j act =>
      apply commutes_fire
      by_contra reaches
      have same := apart (.enemy j) (eq_true_of_ne_false reaches)
      cases same.symm.trans (decide_eq_true rfl)

end Commute

/-- **The interleaving is irrelevant**: a list of events that looks to every actor like those of a run
is that of a run, too, which leads to the same game and makes the same calls in some order. -/
theorem interleaving_irrelevant {start : World} {ts : List Move} {es : List Event}
    (run : Run (step cfg) start ts w)
    (same : ∀ actor, seen Event.touches actor (ts.map Transition.event) =
      seen Event.touches actor es) :
    ∃ us, Run (step cfg) start us w ∧ us.map Transition.event = es ∧
      (ts.flatMap Transition.out).Perm (us.flatMap Transition.out) := by
  have agree : Agree (exec (step cfg) start (ts.map Transition.event)) (exec (step cfg) start es) :=
    exec_interleave touches_somewhere (fun _ _ => commutes_of_apart) same
  rw [exec_eq_some_iff.mpr ⟨ts, run, rfl, rfl⟩] at agree
  generalize done : exec (step cfg) start es = outcome at agree
  cases agree with
  | done _ perm =>
    obtain ⟨us, run', events, rfl⟩ := exec_eq_some_iff.mp done
    exact ⟨us, run', events, perm⟩

/-- Two enemies that tick and a press of the fire button, in two orders. -/
theorem interleaving_irrelevant_ticks :
    ∃ us, Run (step {}) (beginPlay {} 2 1) us
        (final (step {}) (beginPlay {} 2 1)
          [.enemy 0 (.tick { deltaSeconds := 1, distance := 300 }),
            .enemy 1 (.tick { deltaSeconds := 1, distance := 900 }),
            .fire (.onActionFirePressed {}) 0]) ∧
      us.map Transition.event =
        [.fire (.onActionFirePressed {}) 0, .enemy 1 (.tick { deltaSeconds := 1, distance := 900 }),
          .enemy 0 (.tick { deltaSeconds := 1, distance := 300 })] ∧
      ((trace (step {}) (beginPlay {} 2 1)
          [.enemy 0 (.tick { deltaSeconds := 1, distance := 300 }),
            .enemy 1 (.tick { deltaSeconds := 1, distance := 900 }),
            .fire (.onActionFirePressed {}) 0]).flatMap Transition.out).Perm
        (us.flatMap Transition.out) := by
  apply interleaving_irrelevant (run_trace (step {}) (beginPlay {} 2 1) _)
  intro actor
  cases actor with
  | weapon => rfl
  | enemy i =>
    rcases i with _ | _ | i
    · rfl
    · rfl
    · rfl

end World

end MyTPSGame
