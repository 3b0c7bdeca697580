/-
**What becomes of the dead.**

Once the animation of its death has ended, each tick sinks an enemy by two hundred units a second, and
destroys it when its clock has passed a second.

* `Fallen`: dead, with the animation at its end; ticks keep it, and so does everything but a hit;
* `buried`: an enemy that is ticked in every frame sinks as long as time passes, is destroyed within a
  second and a frame, and is seen to sink by two hundred units at most.
-/

import MyTPSGame.Timed.Siege

namespace MyTPSGame

open Machine

namespace EnemyFSM

variable {cfg : EnemyConfig} {fsm next : EnemyFSM} {event : Event} {calls : List EnemyCall}
  {ts : List Move}

/-- How far down a call moves the enemy. -/
def down : EnemyCall → ℚ
  | .setActorLocation distance => distance
  | _ => 0

/-- How far down a run moves the enemy. -/
def sunk (ts : List Move) : ℚ :=
  total (fun t => (t.out.map down).sum) ts

/-- Dead, with the animation of the death at its end. -/
def Fallen (fsm : EnemyFSM) : Prop :=
  fsm.state = .die ∧ fsm.anim.bEnemyDieEnd = true

instance : DecidablePred Fallen := fun fsm =>
  inferInstanceAs (Decidable (fsm.state = .die ∧ fsm.anim.bEnemyDieEnd = true))

/-- The event is no damage. -/
def Event.Spares (event : Event) : Prop :=
  ∀ damageAmount index, event ≠ .onDamageProcess damageAmount index

/-! ### One event -/

/-- What an event other than a hit does to an enemy that has fallen. -/
structure Sinks (fsm : EnemyFSM) (event : Event) (next : EnemyFSM) (calls : List EnemyCall) :
    Prop where
  fallen : Fallen next
  currentTime : next.currentTime = fsm.currentTime + event.deltaSeconds
  down : (calls.map down).sum = 200 * event.deltaSeconds
  destroys : EnemyCall.destroy ∉ calls → next.currentTime ≤ 1 ∨ event.deltaSeconds = 0

theorem Act.sinksDown (act : Act cfg fsm event next calls) (fallen : Fallen fsm)
    (spares : event.Spares) : Sinks fsm event next calls := by
  obtain ⟨dead, ended⟩ := fallen
  have still : (200 : ℚ) * 0 = 0 := mul_zero 200
  cases act with
  | dieSinks frame last _ _ shape =>
    refine ⟨⟨dead, ended⟩, rfl, ?_, fun stays => Or.inl ?_⟩
    · rw [shape, List.map_cons, List.sum_cons]
      have none : ((if 1 < fsm.currentTime + frame.deltaSeconds then [EnemyCall.destroy]
          else []).map down).sum = 0 := by split <;> simp [down]
      rw [none, add_zero]
      rfl
    · by_contra past
      have late : 1 < fsm.currentTime + frame.deltaSeconds := not_le.mp past
      refine stays (List.mem_cons_of_mem _ ?_)
      rw [shape, if_pos late]
      exact List.mem_singleton_self _
  | notified distance log _ shape =>
    refine ⟨⟨dead, ended⟩, (add_zero _).symm, ?_, fun _ => Or.inr rfl⟩
    rcases shape with rfl | rfl <;> simp [down, Event.deltaSeconds]
  | dieEnded => exact ⟨⟨dead, rfl⟩, (add_zero _).symm, still.symm, fun _ => Or.inr rfl⟩
  | dieWaits _ _ waits => exact absurd (waits.symm.trans ended) Bool.false_ne_true
  | killed damageAmount index _ | hurt damageAmount index _ =>
    exact absurd rfl (spares damageAmount index)
  | idleWaits _ state | idleFinds _ _ state | patrols _ _ state | chaseAttacks _ state
    | chaseAbandons _ state | chases _ state | oldMoves _ _ _ state | attackWaits _ state
    | attackLeaves _ state | attackAgain _ state | damageWaits _ state | damageEnds _ state =>
    exact absurd (dead.symm.trans state) (by decide)

/-! ### A run -/

/-- A run without a hit goes on sinking. -/
theorem sinks_segment (run : Run (step cfg) fsm ts next) (fallen : Fallen fsm)
    (spares : ∀ t ∈ ts, t.event.Spares) :
    Fallen next ∧ next.currentTime = fsm.currentTime + elapsed ts ∧ sunk ts = 200 * elapsed ts := by
  induction run with
  | nil => exact ⟨fallen, (add_zero _).symm, (mul_zero 200).symm⟩
  | @snoc past t _ taken ih =>
    obtain ⟨there, clock, depth⟩ := ih fun u member => spares u (List.mem_append_left _ member)
    have sinks := (taken_act taken).sinksDown there (spares t List.mem_concat_self)
    refine ⟨sinks.fallen, ?_, ?_⟩
    · rw [sinks.currentTime, clock, elapsed, elapsed, total_snoc, add_assoc]
    · rw [sunk, elapsed, total_snoc, total_snoc, sinks.down, mul_add]
      exact congrArg (· + _) depth

/-- As long as it is not destroyed, its clock has not passed a second. -/
theorem clock_of_stays (run : Run (step cfg) fsm ts next) (fallen : Fallen fsm)
    (spares : ∀ t ∈ ts, t.event.Spares) (stays : ∀ t ∈ ts, EnemyCall.destroy ∉ t.out)
    (some : 0 < elapsed ts) : next.currentTime ≤ 1 := by
  induction run with
  | nil => exact absurd some (lt_irrefl 0)
  | @snoc past t reach taken ih =>
    have earlier : ∀ u ∈ past, u ∈ past ++ [t] := fun u member => List.mem_append_left _ member
    have there := (sinks_segment reach fallen fun u member => spares u (earlier u member)).1
    have sinks := (taken_act taken).sinksDown there (spares t List.mem_concat_self)
    rcases sinks.destroys (stays t List.mem_concat_self) with early | none
    · exact early
    · rw [elapsed, total_snoc, none, add_zero] at some
      rw [sinks.currentTime, none, add_zero]
      exact ih (fun u member => spares u (earlier u member))
        (fun u member => stays u (earlier u member)) some

end EnemyFSM

/-! ### A corpse of the game -/

namespace World

open EnemyFSM (Fallen sunk)

variable {cfg : GameConfig} {placed : ℕ} {randTime : ℚ} {m c : Clocked World ℕ Timer ℚ}
  {before after : List TimedMove} {ts : List Move} {i : ℕ} {fsm : EnemyFSM}

/-- The event hits enemy `i`. -/
def hits (i : ℕ) (w : World) (event : Event) : Bool :=
  match w.enemyEvent event with
  | some (j, .onDamageProcess _ _) => j = i
  | _ => false

/-- Enemy `i` is not hit. -/
abbrev Unhit (i : ℕ) (ts : List Move) : Prop :=
  ∀ t ∈ ts, t.pre.hits i t.event = false

/-- What happens to an enemy that is not hit is no hit. -/
theorem Unhit.spares (unhit : Unhit i ts) : ∀ u ∈ enemyTrace i ts, u.event.Spares := by
  intro u member damageAmount index hit
  obtain ⟨t, inside, named, _⟩ := mem_enemyTrace member
  have spared := unhit t inside
  unfold hits at spared
  rw [named, hit] at spared
  exact of_decide_eq_false spared rfl

/-- **The dead are buried.** An enemy has fallen, is not hit again, and no frame misses it. Then it sinks
by two hundred units for each second that passes; when more than one has passed it is destroyed, and
until it is destroyed it has not sunk by more than two hundred units. -/
theorem buried (first : Run (timedStep cfg) (start cfg placed randTime) before m)
    (second : Run (timedStep cfg) m after c) (found : m.machine.enemies[i]? = some fsm)
    (fallen : Fallen fsm) (unhit : Unhit i (game after)) (attends : Attends i after)
    (whole : c.owed i = 0) :
    sunk (enemyTrace i (game after)) = 200 * (m.owed i + total passed after) ∧
      (1 < total passed after → 1 ≤ emitted (.enemy i .destroy) (game after)) ∧
      (emitted (.enemy i .destroy) (game after) = 0 → sunk (enemyTrace i (game after)) ≤ 200) := by
  obtain ⟨next, _, run⟩ := enemy_segment second.untimed found
  have ticked := ticked_eq second attends
  rw [whole, zero_add] at ticked
  have spent : EnemyFSM.elapsed (enemyTrace i (game after)) = m.owed i + total passed after :=
    (elapsed_enemyTrace i second.untimed).trans ticked
  have unhurt := unhit.spares
  obtain ⟨_, clock, depth⟩ := EnemyFSM.sinks_segment run fallen unhurt
  have past := enemy_run (untimed_run first) found
  have nonneg : 0 ≤ fsm.currentTime := EnemyFSM.currentTime_nonneg past (le_refl 0)
  have owed : 0 ≤ m.owed i := owed_nonneg i (frame_nonneg first (le_refl 0))
  have stays (none : emitted (.enemy i .destroy) (game after) = 0)
      (some : 0 < EnemyFSM.elapsed (enemyTrace i (game after))) : next.currentTime ≤ 1 := by
    refine EnemyFSM.clock_of_stays run fallen unhurt (fun u member destroyed => ?_) some
    rw [← emitted_enemyTrace i .destroy second.untimed] at none
    have called := emitted_pos_iff.mpr ⟨u, member, destroyed⟩
    omega
  refine ⟨by rw [depth, spent], fun long => ?_, fun none => ?_⟩
  · by_contra none
    have early := stays (by omega) (by linarith)
    linarith
  · rw [depth]
    by_cases some : 0 < EnemyFSM.elapsed (enemyTrace i (game after))
    · linarith [stays none some]
    · linarith

/-- Dead of ten points of damage, with its animation at the end. -/
def slain (index : Fin 2) : List (Timed Event ℚ) :=
  [.event (.enemy 0 (.onDamageProcess 10 index)), .event (.enemy 0 .enemyDieEnd)]

/-- Two frames of a second bury it. -/
theorem buried_slain :
    1 ≤ emitted (.enemy 0 .destroy) (game (trace (timedStep {})
      (final (timedStep {}) (start {} 1 1) (slain 0))
      (attended 2 { deltaSeconds := 1, distance := 0 }))) := by
  have found : (final (timedStep {}) (start {} 1 1) (slain 0)).machine.enemies[0]? =
      some { state := .die, hp := 0, anim := { state := .die, bEnemyDieEnd := true } } := by
    decide +kernel
  have first := run_trace (timedStep {}) (start {} 1 1) (slain 0)
  have second := run_trace (timedStep {}) (final (timedStep {}) (start {} 1 1) (slain 0))
    (attended 2 { deltaSeconds := 1, distance := 0 })
  exact (buried first second found ⟨rfl, rfl⟩ (by decide +kernel) (by decide +kernel)
    (by decide +kernel)).2.1 (by decide +kernel)

end World

end MyTPSGame
