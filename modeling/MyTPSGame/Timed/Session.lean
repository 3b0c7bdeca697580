/-
**Playing against the clock.**

A `TimedSession` is the whole program: the keys, the movement component, and the game under the engine's
clock. A frame begins, or there is an event of a session, whose parts come when the clock allows them.

* `projects_session`, `clock_run`: it is a session, and its game is a game under the clock
  (`refines_both`), with the same calls and in the same time;
* `held_key`: the left mouse button held down shoots at the rate of the rifle.
-/

import MyTPSGame.Player.Controls
import MyTPSGame.Timed.Pace

namespace MyTPSGame

open Machine

universe u

/-- An event of the game, when the clock allows it. -/
def World.clockedStep (cfg : GameConfig) : Step (Clocked World ℕ World.Timer ℚ) World.Event WorldCall :=
  fun clock event => World.timedStep cfg clock (.event event)

/-- A session whose game is under the clock. -/
abbrev TimedSession (K : Type u) := Session K (Clocked World ℕ World.Timer ℚ)

namespace TimedSession

/-- The session without the clock. -/
def session {K : Type u} : TimedSession K → Session K World :=
  Session.onWorld Clocked.machine

variable {K : Type u} [CommRing K]

/-- After every `BeginPlay`, with no key down. -/
def beginPlay (cfg : GameConfig) (placed : ℕ) (randTime : ℚ) : TimedSession K where
  keys := ∅
  move := .beginPlay
  world := World.start cfg placed randTime

/-- A frame, or an event of the session. -/
def step (cfg : GameConfig) (normalize : FVector K → FVector K) :
    Step (TimedSession K) (Timed (Session.Event K) ℚ) (SessionCall K)
  | s, .frame time =>
    (World.timedStep cfg s.world (.frame time)).map fun (world, calls) =>
      ({ s with world := world }, calls.map .world)
  | s, .event event => Session.handle (World.clockedStep cfg) normalize s event

/-- The transitions of a session under the clock. -/
abbrev Move (K : Type u) [CommRing K] :=
  Transition (TimedSession K) (Timed (Session.Event K) ℚ) (SessionCall K)

/-- The time of a run. -/
def elapsed (ts : List (Move K)) : ℚ :=
  total (fun t => t.event.time) ts

/-- The calls of the game. -/
def worldCalls (ts : List (Move K)) : List WorldCall :=
  (ts.flatMap Transition.out).filterMap SessionCall.ofWorld

/-- The bullets that have been shot. -/
def bullets (ts : List (Move K)) : ℕ :=
  (worldCalls ts).count (.fire .spawnBullet)

/-- What an event is to the game under the clock. -/
def clockEvents (keys : Finset Key) : Timed (Session.Event K) ℚ → List (Timed World.Event ℚ)
  | .frame time => [.frame time]
  | .event event => (Session.worldEvents keys event).map .event

variable {cfg : GameConfig} {normalize : FVector K → FVector K} {placed : ℕ} {randTime : ℚ}
  {s next : TimedSession K} {ts before held : List (Move K)} {t press : Move K} {key : Key}
  {keys : Finset Key} {event : Session.Event K}

/-! ### One event -/

section Step

theorem step_frame {time : ℚ} {out : List (SessionCall K)}
    (done : step cfg normalize s (.frame time) = some (next, out)) :
    World.timedStep cfg s.world (.frame time) = some (next.world, []) ∧
      next = { s with world := s.world.begin time } ∧ out = [] := by
  obtain ⟨⟨clock, calls⟩, moved, same⟩ := Option.map_eq_some_iff.mp done
  obtain ⟨rfl, rfl⟩ := Prod.mk.inj same
  obtain ⟨_, begun⟩ := Option.ite_none_right_eq_some.mp moved
  obtain ⟨rfl, rfl⟩ := Prod.mk.inj (Option.some.inj begun)
  exact ⟨moved, rfl, rfl⟩

/-- What the game does when the clock allows it, it does without the clock. -/
theorem projects_clocked : Projects (World.clockedStep cfg) (World.step cfg) Clocked.machine some
    some where
  acts s event _ _ _ done meant := by
    obtain rfl := Option.some.inj meant
    have moved : World.timedStep cfg s (.event event) = _ := done
    exact projects_timed.acts moved rfl
  rests _ _ _ _ _ meant := by cases meant

/-- **A session under the clock is a session.** -/
theorem projects_session : Projects (step cfg normalize) (Session.step cfg normalize) session
    Timed.ofEvent some where
  acts s act next out event done meant := by
    cases act with
    | frame _ => cases meant
    | event _ =>
      obtain rfl := Option.some.inj meant
      exact (Session.projects_handle projects_clocked).acts done rfl
  rests s act next out done meant := by
    cases act with
    | frame time =>
      obtain ⟨_, rfl, rfl⟩ := step_frame done
      exact ⟨rfl, rfl⟩
    | event _ => cases meant

/-- What an event does to the keys. -/
theorem taken_keys (taken : t.Taken (step cfg normalize)) :
    t.post.keys = t.event.ofEvent.elim t.pre.keys (Session.keysAfter t.pre.keys) := by
  obtain ⟨s, act, next, out⟩ := t
  cases act with
  | frame time =>
    obtain ⟨_, same, _⟩ := step_frame taken
    exact congrArg (fun s => s.keys) same
  | event event => exact Session.handle_keys taken

/-- The game under the clock, frames apart, is a part of it. -/
theorem projects_frames : Projects (World.clockedStep cfg) (World.timedStep cfg) (fun clock => clock)
    (fun event => some (.event event)) some where
  acts _ _ _ _ _ done meant := by
    obtain rfl := Option.some.inj meant
    rw [List.filterMap_some]
    exact done
  rests _ _ _ _ _ meant := by cases meant

/-- What an event does to the game, it does under the clock. -/
theorem taken_clock (taken : t.Taken (step cfg normalize)) :
    ∃ us, Run (World.timedStep cfg) t.pre.world us t.post.world ∧
      us.map Transition.event = clockEvents t.pre.keys t.event ∧
      us.flatMap Transition.out = t.out.filterMap SessionCall.ofWorld := by
  obtain ⟨s, act, next, out⟩ := t
  cases act with
  | frame time =>
    obtain ⟨moved, _, rfl⟩ := step_frame taken
    exact ⟨_, .one moved, rfl, rfl⟩
  | event event =>
    obtain ⟨us, run, events, calls⟩ := Session.handle_world taken
    obtain ⟨vs, reach, timed, heard⟩ := projects_frames.run run
    rw [List.filterMap_some, calls] at heard
    rw [events, List.filterMap_eq_map'] at timed
    exact ⟨vs, reach, timed, heard⟩

end Step

/-! ### Whole sessions -/

section Runs

/-- **Its game is a game under the clock.** -/
theorem clock_run (run : Run (step cfg normalize) s ts next) :
    ∃ us, Run (World.timedStep cfg) s.world us next.world ∧
      us.map Transition.event = ts.flatMap (fun t => clockEvents t.pre.keys t.event) ∧
      us.flatMap Transition.out = worldCalls ts := by
  obtain ⟨us, _, reach, events, calls, rfl⟩ :=
    run.simulate_heard (R := fun s w => s.world = w) (fun t => clockEvents t.pre.keys t.event)
      (fun t => t.out.filterMap SessionCall.ofWorld) rfl fun t _ taken w here => by
        obtain ⟨us, reach, events, calls⟩ := taken_clock taken
        exact ⟨us, _, here ▸ reach, ⟨events, calls⟩, rfl⟩
  exact ⟨us, reach, events, calls.trans List.filterMap_flatMap.symm⟩

/-- An event takes the game the time that it takes. -/
theorem time_clockEvents (keys : Finset Key) (act : Timed (Session.Event K) ℚ) :
    ((clockEvents keys act).map Timed.time).sum = act.time := by
  cases act with
  | frame time => exact add_zero time
  | event event =>
    refine List.sum_eq_zero fun time member => ?_
    obtain ⟨_, there, rfl⟩ := List.mem_map.mp member
    obtain ⟨act, _, rfl⟩ := List.mem_map.mp there
    rfl

/-- The clock of the game shows the time of the session. -/
theorem passed_clock {us : List World.TimedMove}
    (events : us.map Transition.event = ts.flatMap fun t => clockEvents t.pre.keys t.event) :
    total passed us = elapsed ts := by
  have times : total passed us = ((us.map Transition.event).map Timed.time).sum := by
    rw [List.map_map]
    rfl
  rw [times, events]
  clear events
  induction ts with
  | nil => rfl
  | cons t ts ih =>
    rw [List.flatMap_cons, List.map_append, List.sum_append, ih, time_clockEvents]
    rfl

/-- The bullets of a session are those of its rifle. -/
theorem bullets_clock {c d : Clocked World ℕ World.Timer ℚ} {us : List World.TimedMove}
    (run : Run (World.timedStep cfg) c us d) (calls : us.flatMap Transition.out = worldCalls ts) :
    FireComponent.bullets (World.fireTrace (World.game us)) = bullets ts := by
  have seen := World.emitted_fireTrace .spawnBullet run.untimed
  have timed := total_out (fun out => out.count (.fire .spawnBullet)) rfl run
  rw [bullets, ← calls, List.count_flatMap]
  exact seen.trans timed.symm

/-- A session under the clock makes the calls of a session without it, event by event, and its game those
of a game under the clock that takes the same time. -/
theorem refines_both (run : Run (step cfg normalize) (beginPlay cfg placed randTime) ts s) :
    (∃ vs, Run (Session.step cfg normalize) (.beginPlay cfg placed randTime) vs (session s) ∧
      vs.map Transition.event = (ts.map Transition.event).filterMap Timed.ofEvent ∧
      vs.flatMap Transition.out = ts.flatMap Transition.out) ∧
    ∃ us, Run (World.timedStep cfg) (World.start cfg placed randTime) us s.world ∧
      us.flatMap Transition.out = worldCalls ts ∧ total passed us = elapsed ts := by
  constructor
  · obtain ⟨vs, reach, events, calls⟩ := projects_session.run run
    rw [List.filterMap_some] at calls
    exact ⟨vs, reach, events, calls⟩
  · obtain ⟨us, reach, events, calls⟩ := clock_run run
    exact ⟨us, reach, calls, passed_clock events⟩

/-- The mouse button goes down; in the second after that there are two bullets of the timer, and shift
goes down between them. -/
def strafing (draw : PressDraw) : List (Timed (Session.Event ℚ) ℚ) :=
  [.event (.keyDown .leftMouseButton draw), .frame (1 / 2), .event (.world (.fire .fireTimer draw.index)),
    .event (.keyDown .leftShift draw), .frame (1 / 2), .event (.world (.fire .fireTimer draw.index))]

end Runs

/-! ### The mouse button held down -/

section Held

/-- The event is that the key comes up. -/
def lifts (key : Key) : Timed (Session.Event K) ℚ → Bool
  | .event (.keyUp other _) => other = key
  | _ => false

/-- The key does not come up. -/
abbrev Holds (key : Key) (ts : List (Move K)) : Prop :=
  ∀ t ∈ ts, lifts key t.event = false

/-- A key that is down and does not come up stays down. -/
theorem held_down (run : Run (step cfg normalize) s ts next) (down : key ∈ s.keys)
    (holds : Holds key ts) (member : t ∈ ts) : key ∈ t.pre.keys := by
  refine run.invariant_pre (I := fun s => key ∈ s.keys) down ?_ member
  intro t inside taken down
  have held := holds t inside
  rw [taken_keys taken]
  cases act : t.event with
  | frame _ => exact down
  | event event =>
    rw [act] at held
    cases event with
    | keyDown other draw => exact Finset.mem_insert_of_mem down
    | keyUp other draw =>
      have same : other ≠ key := of_decide_eq_false held
      exact Finset.mem_erase.mpr ⟨same.symm, down⟩
    | axes _ | tick _ | world _ => exact down

/-- A key other than the left mouse button does not pull the trigger. -/
theorem actionParts_pulls (other : key ≠ .leftMouseButton) (keyEvent : InputEvent)
    (draw : PressDraw) :
    ∀ e ∈ ((playerInput (K := K)).actionParts key keyEvent draw).filterMap Part.ofWorld,
      e.pulls = false := by
  have calm : (((playerInput (K := K)).actionParts key keyEvent draw).filterMap Part.ofWorld).all
      (fun e => !e.pulls) = true := by
    rw [actionParts_eq]
    cases key with
    | leftMouseButton => exact absurd rfl other
    | _ => cases keyEvent <;> rfl
  intro e member
  simpa using List.all_eq_true.mp calm e member

/-- While the left mouse button stays down, nothing pulls the trigger. -/
theorem parts_pulls (possible : event.Possible keys) (down : .leftMouseButton ∈ keys)
    (held : lifts .leftMouseButton (.event event) = false) :
    ∀ e ∈ Session.worldEvents keys event, e.pulls = false := by
  cases event with
  | keyDown other draw =>
    refine actionParts_pulls ?_ .pressed draw
    rintro rfl
    exact possible down
  | keyUp other draw => exact actionParts_pulls (of_decide_eq_false held) .released draw
  | axes device =>
    rw [Session.worldEvents, Session.parts, axisParts_eq]
    exact fun e member => absurd member List.not_mem_nil
  | tick rotation => exact fun e member => absurd member List.not_mem_nil
  | world act =>
    intro e member
    obtain rfl := List.mem_singleton.mp member
    have calm : e.isInput = false := possible
    cases e with
    | fire act index =>
      cases act with
      | onActionFirePressed _ | onActionFireRelesed => cases calm
      | _ => rfl
    | _ => rfl

/-- So the game sees the trigger held. -/
theorem triggerHeld {us : List World.TimedMove} (run : Run (step cfg normalize) s ts next)
    (down : .leftMouseButton ∈ s.keys) (holds : Holds .leftMouseButton ts)
    (events : us.map Transition.event = ts.flatMap fun t => clockEvents t.pre.keys t.event) :
    World.TriggerHeld (World.game us) := by
  intro u member
  obtain ⟨v, inside, shown⟩ := List.mem_flatMap.mp member
  -- the event of the game is a part of one of the session
  have seen : Timed.event u.event ∈ us.map Transition.event := by
    refine List.mem_map.mpr ⟨v, inside, ?_⟩
    unfold untimed at shown
    split at shown
    · cases shown
    · next named =>
      rw [named, List.mem_singleton.mp shown]
  rw [events] at seen
  obtain ⟨t, there, part⟩ := List.mem_flatMap.mp seen
  have held := holds t there
  have pressed := held_down run down holds there
  have taken := run.taken there
  obtain ⟨a, act, b, out⟩ := t
  cases act with
  | frame _ => cases List.mem_singleton.mp part
  | event event =>
    obtain ⟨e, within, same⟩ := List.mem_map.mp part
    obtain rfl := Timed.event.inj same
    exact parts_pulls (Session.handle_parts taken).1 pressed held _ within

/-- The left mouse button that goes down is one press of the trigger. -/
theorem worldEvents_press (keys : Finset Key) (draw : PressDraw) :
    Session.worldEvents (K := K) keys (.keyDown .leftMouseButton draw) =
      [.fire (.onActionFirePressed draw.shot) draw.index] := by
  rw [Session.worldEvents, Session.parts, actionParts_eq]
  rfl

/-- **A mouse button held down shoots at the rate of the rifle.** From the time that it goes down on a
loaded rifle, as long as it does not come up, whatever other keys do and whatever happens, there is a
bullet for each `fireInterval` that has passed, and at a time when none is overdue there are no fewer. -/
theorem held_key {draw : PressDraw}
    (run : Run (step cfg normalize) (beginPlay cfg placed randTime) (before ++ press :: held) s)
    (down : press.event = .event (.keyDown .leftMouseButton draw))
    (rifle : press.pre.world.machine.fire.bChooseGrenadeGun = true)
    (loaded : 0 < press.pre.world.machine.fire.gunAmmo) (interval : 0 < cfg.fire.fireInterval)
    (holds : Holds .leftMouseButton held) :
    (bullets held : ℚ) * cfg.fire.fireInterval ≤ elapsed held ∧
      ((∀ due ∈ s.world.due .fireTimerHandle, s.world.now ≤ due) →
        elapsed held ≤ (bullets held + 1) * cfg.fire.fireInterval) := by
  obtain ⟨first, taken, rest⟩ := run.mid
  obtain ⟨us, reach, _, _⟩ := clock_run first
  obtain ⟨vs, onward, events, _⟩ := taken_clock taken
  obtain ⟨ws, since, later, calls⟩ := clock_run rest
  rw [down, clockEvents, worldEvents_press] at events
  have one : vs.map Transition.event = [.event (.fire (.onActionFirePressed draw.shot) draw.index)] :=
    events
  obtain ⟨v, rfl, named⟩ := List.map_eq_singleton_iff.mp one
  obtain ⟨same, pulled, after⟩ := run_cons_iff.mp onward
  have armed := World.press_arms pulled named (same ▸ rifle) (same ▸ loaded) interval
  rw [← run_nil_iff.mp after] at armed
  have pressed : .leftMouseButton ∈ press.post.keys := by
    rw [taken_keys taken, down]
    exact Finset.mem_insert_self _ _
  have paced := World.armed_fire (reach.append onward) since armed
    (triggerHeld rest pressed holds later)
  rwa [bullets_clock since calls, passed_clock later] at paced

/-- The two bullets of the timer have taken the second. -/
theorem held_key_strafing :
    bullets (trace (step {} id) (beginPlay {} 0 1) (strafing ⟨{}, 0⟩)).tail = 2 ∧
      (2 : ℚ) * (1 / 2) ≤ elapsed (trace (step {} id) (beginPlay {} 0 1) (strafing ⟨{}, 0⟩)).tail := by
  have two : bullets (trace (step {} id) (beginPlay {} 0 1) (strafing ⟨{}, 0⟩)).tail = 2 := by
    decide +kernel
  have holds : Holds .leftMouseButton
      (trace (step {} id) (beginPlay {} 0 1) (strafing ⟨{}, 0⟩)).tail := by decide +kernel
  have run := run_trace (step {} id) (beginPlay {} 0 1) (strafing ⟨{}, 0⟩)
  refine ⟨two, ?_⟩
  cases pressed : step (K := ℚ) {} id (beginPlay {} 0 1) (.event (.keyDown .leftMouseButton ⟨{}, 0⟩)) with
  | none =>
    have done : (step (K := ℚ) {} id (beginPlay {} 0 1)
      (.event (.keyDown .leftMouseButton ⟨{}, 0⟩))).isSome = true := by decide +kernel
    rw [pressed] at done
    cases done
  | some next =>
    have whole : trace (step {} id) (beginPlay {} 0 1) (strafing ⟨{}, 0⟩) =
        [] ++ ⟨beginPlay {} 0 1, .event (.keyDown .leftMouseButton ⟨{}, 0⟩), next.1, next.2⟩ ::
          trace (step {} id) next.1 (strafing ⟨{}, 0⟩).tail := by
      rw [strafing, trace, pressed]
      rfl
    rw [whole] at run two holds ⊢
    have paced := (held_key run rfl rfl (show (0 : ℤ) < 20 by decide)
      (show (0 : ℚ) < 1 / 2 by norm_num) holds).1
    exact (congrArg (fun n : ℕ => (n : ℚ) * (1 / 2)) two).symm.trans_le paced

end Held

end TimedSession

end MyTPSGame
