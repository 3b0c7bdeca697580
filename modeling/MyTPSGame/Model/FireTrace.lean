/-
**The fire component of a game.**

`fireTrace` is what a run of the game is to the fire component: its events, with the calls it made.
`fire_run`: that is a run of the component from its `BeginPlay`.
-/

import MyTPSGame.Machine.Simulation
import MyTPSGame.Model.WorldStep

namespace MyTPSGame

open Machine

/-- The call, if it is one of the fire component. -/
def WorldCall.ofFire : WorldCall → Option FireCall
  | .fire call => some call
  | _ => none

namespace World

/-- What a transition of the game is to the fire component. -/
def fireShare (t : Move) : List FireComponent.Move :=
  match t.event with
  | .fire event _ => [⟨t.pre.fire, event, t.post.fire, t.out.filterMap WorldCall.ofFire⟩]
  | _ => []

/-- What a run of the game is to the fire component. -/
def fireTrace (ts : List Move) : List FireComponent.Move :=
  ts.flatMap fireShare

variable {cfg : GameConfig} {w next : World} {out : List WorldCall} {index : Fin 2} {t : Move}
  {ts : List Move}

/-! ### The calls of the fire component -/

section Calls

theorem ofFire_map {α : Type*} (call : α → WorldCall) (other : ∀ a, (call a).ofFire = none)
    (l : List α) : (l.map call).filterMap WorldCall.ofFire = [] := by
  rw [List.filterMap_map, List.filterMap_eq_nil_iff]
  exact fun a _ => other a

theorem count_ofFire (call : FireCall) (out : List WorldCall) :
    (out.filterMap WorldCall.ofFire).count call = out.count (.fire call) := by
  induction out with
  | nil => rfl
  | cons first rest ih =>
    rw [List.count_cons, ← ih]
    cases first with
    | fire other => simp [WorldCall.ofFire, List.count_cons]
    | _ => simp [List.filterMap_cons, WorldCall.ofFire]

theorem ofFire_hear (i : ℕ) (w : World) (call : EnemyCall) :
    (w.hear i call).2.filterMap WorldCall.ofFire = [] := by
  cases call with
  | onHit damage => exact ofFire_map .player (fun _ => rfl) _
  | addExp amount => exact ofFire_map .gameMode (fun _ => rfl) _
  | _ => rfl

theorem ofFire_hearAll (i : ℕ) (w : World) (calls : List EnemyCall) :
    (w.hearAll i calls).2.filterMap WorldCall.ofFire = [] := by
  induction calls generalizing w with
  | nil => rfl
  | cons call calls ih => rw [hearAll, List.filterMap_append, ofFire_hear, ih, List.append_nil]

/-- An enemy's event is nothing to the fire component. -/
theorem enemyStep_fire {i : ℕ} {act : EnemyFSM.Event}
    (done : w.enemyStep cfg i act = some (next, out)) :
    next.fire = w.fire ∧ out.filterMap WorldCall.ofFire = [] := by
  obtain ⟨_, _, calls, _, _, rfl, rfl⟩ := enemyStep_cases done
  exact ⟨rfl, ofFire_hearAll i _ calls⟩

/-- Carrying out the calls of the fire component leaves it alone, and they are seen in order. -/
theorem hearFire_fire {calls : List FireCall} (done : hearFire cfg index w calls = some (next, out)) :
    next.fire = w.fire ∧ out.filterMap WorldCall.ofFire = calls := by
  induction calls generalizing w out with
  | nil =>
    cases done
    exact ⟨rfl, rfl⟩
  | cons call calls ih =>
    cases call with
    | onDamageProcess i damageAmount =>
      simp only [hearFire] at done
      cases struck : w.enemyStep cfg i (.onDamageProcess damageAmount index) with
      | none =>
        rw [struck] at done
        cases done
      | some result =>
        obtain ⟨hit, seen⟩ := result
        simp only [struck, Option.map_eq_some_iff] at done
        obtain ⟨⟨there, rest⟩, reach, same⟩ := done
        obtain ⟨rfl, rfl⟩ := Prod.mk.inj same
        obtain ⟨kept, silent⟩ := enemyStep_fire struck
        obtain ⟨fire, calls⟩ := ih reach
        refine ⟨fire.trans kept, ?_⟩
        rw [List.cons_append, List.filterMap_cons, List.filterMap_append, silent, calls]
        rfl
    | _ =>
      simp only [hearFire, Option.map_eq_some_iff] at done
      obtain ⟨⟨there, rest⟩, reach, same⟩ := done
      obtain ⟨rfl, rfl⟩ := Prod.mk.inj same
      obtain ⟨fire, calls⟩ := ih reach
      exact ⟨fire, congrArg (List.cons _) calls⟩

end Calls

/-! ### One transition -/

section Share

/-- An event of the fire component is one in the game, with the calls that are seen of it. -/
theorem taken_fire {event : FireComponent.Event} (taken : t.Taken (step cfg))
    (named : t.event = .fire event index) :
    FireComponent.step cfg.fire t.pre.fire event =
      some (t.post.fire, t.out.filterMap WorldCall.ofFire) := by
  obtain ⟨w, _, next, out⟩ := t
  obtain rfl : _ = Event.fire event index := named
  change step cfg w (.fire event index) = some (next, out) at taken
  simp only [step] at taken
  cases moved : w.fire.step cfg.fire event with
  | none =>
    rw [moved] at taken
    cases taken
  | some result =>
    obtain ⟨fire, calls⟩ := result
    simp only [moved] at taken
    obtain ⟨there, seen⟩ := hearFire_fire taken
    show some (fire, calls) = some (next.fire, out.filterMap WorldCall.ofFire)
    rw [there, seen]

/-- Any other event is nothing to the fire component. -/
theorem taken_other (taken : t.Taken (step cfg)) (other : ∀ event index, t.event ≠ .fire event index) :
    t.post.fire = t.pre.fire ∧ t.out.filterMap WorldCall.ofFire = [] := by
  obtain ⟨w, event, next, out⟩ := t
  cases event with
  | makeEnemy draw =>
    have change : Change cfg w (.makeEnemy draw) next out := taken_change taken
    cases change with
    | spawns _ _ calls _ _ => exact ⟨rfl, ofFire_map _ (fun _ => rfl) calls⟩
    | acts _ _ _ _ _ _ _ _ _ named _ _ => cases named
  | levelUpTimer =>
    have change : Change cfg w .levelUpTimer next out := taken_change taken
    cases change with
    | levels _ calls _ => exact ⟨rfl, ofFire_map _ (fun _ => rfl) calls⟩
    | acts _ _ _ _ _ _ _ _ _ named _ _ => cases named
  | enemy i act => exact enemyStep_fire taken
  | fire event index => exact absurd rfl (other event index)

end Share

/-- **The fire component of a game has gone through a run of its own.** -/
theorem fire_run {placed : ℕ} {randTime : ℚ}
    (run : Run (step cfg) (beginPlay cfg placed randTime) ts w) :
    Run (FireComponent.step cfg.fire) (.beginPlay cfg.fire) (fireTrace ts) w.fire := by
  refine (run.component (fun w => some w.fire) (.beginPlay cfg.fire) fireShare
    (fun _ same => (Option.some.inj same).symm) (fun _ _ _ none => by cases none) ?_).2 _ rfl
  intro t _ taken _ same
  obtain rfl := Option.some.inj same
  refine ⟨t.post.fire, rfl, ?_⟩
  unfold fireShare
  cases named : t.event with
  | fire event index => exact .one (taken_fire taken named)
  | makeEnemy _ | levelUpTimer | enemy _ _ =>
    have kept := (taken_other taken (by simp [named])).1
    exact run_nil_iff.mpr kept

/-- The calls seen of the fire component are those of its own run. -/
theorem emitted_fireTrace {start : World} (call : FireCall) (run : Run (step cfg) start ts w) :
    emitted call (fireTrace ts) = emitted (.fire call) ts := by
  unfold emitted fireTrace
  rw [total_flatMap]
  refine total_congr fun t member => ?_
  rw [← count_ofFire]
  unfold fireShare
  cases named : t.event with
  | fire event index => exact add_zero _
  | makeEnemy _ | levelUpTimer | enemy _ _ =>
    rw [(taken_other (run.taken member) (by simp [named])).2]
    rfl

end World

end MyTPSGame
