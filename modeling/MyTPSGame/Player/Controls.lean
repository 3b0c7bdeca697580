/-
**The keys are in control.**

What the components of the player keep in mind is what the keys are doing: in every session the player
runs while `LeftShift` is down and at no other time, crouches slowly while `LeftControl` is, aims only
while `RightMouseButton` is, and the timer of the rifle is active, and a bullet shot, only while
`LeftMouseButton` is.

* `projects_move`, `projects_world`: movement component and game as parts of a session, whatever the
  game does;
* `Button`: a value that one key holds, by the mappings and the bindings;
* `Button.run`: what such a value tracks in the components, the key tracks in every session;
* `obeys_run`: all of it together;
* `world_run`: the game goes through a run of its own, over the events that the keys come to.
-/

import MyTPSGame.Machine.Track
import MyTPSGame.Model.FireTrace
import MyTPSGame.Model.Input
import MyTPSGame.Player.AutoFire
import MyTPSGame.Player.Zoom

namespace MyTPSGame

open Machine

universe u

variable {K : Type u} [CommRing K]

/-! ### What the components keep in mind -/

namespace MoveComponent

/-- Running, after an event. -/
def running : Event K → Bool → Bool
  | .onActionRunPressed, _ => true
  | .onActionRunReleased, _ => false
  | _, down => down

/-- Crouching, after an event. -/
def crouching : Event K → Bool → Bool
  | .onActionCouchPressed, _ => true
  | .onActionCouchReleased, _ => false
  | _, down => down

variable {normalize : FVector K → FVector K}

theorem tracks_running : Tracks (step normalize)
    (fun down move => move.MaxWalkSpeed = if down then runSpeed else walkSpeed) running := by
  intro move event next calls down done speed
  cases event with
  | onActionRunPressed =>
    cases done
    rfl
  | onActionRunReleased =>
    cases done
    rfl
  | _ =>
    cases done
    exact speed

theorem tracks_crouching : Tracks (step normalize)
    (fun down move => down = true → move.MaxWalkSpeedCrouched = crouchSpeed) crouching := by
  intro move event next calls down done speed
  cases event with
  | onActionCouchPressed =>
    cases done
    exact fun _ => rfl
  | onActionCouchReleased =>
    cases done
    exact fun held => absurd held Bool.false_ne_true
  | _ =>
    cases done
    exact speed

end MoveComponent

namespace FireComponent

variable {cfg : FireConfig}

theorem tracks_pressed : Tracks (step cfg) (fun down fire => fire.fireTimer ≠ none → down = true)
    fun event down => pressed down event := by
  intro fire event next calls down done held active
  have taken : (⟨fire, event, next, calls⟩ : Move).Taken (step cfg) := done
  cases taken_triggered taken with
  | starts shot event =>
    obtain rfl : _ = Event.onActionFirePressed shot := event
    rfl
  | clears _ none => exact absurd none active
  | chooses rifle event timer =>
    obtain rfl : _ = (if rifle then Event.onActionGrenade else .onActionSniper) := event
    rw [held fun none => active (timer.trans none)]
    cases rifle <;> rfl
  | fires event pending =>
    obtain rfl : _ = Event.fireTimer := event
    exact held pending
  | keeps button _ timer =>
    rw [held fun none => active (timer.trans none)]
    exact button

theorem tracks_zooming : Tracks (step cfg) Sighted fun event down => zooming down event :=
  fun _ _ _ _ _ done sighted => (step_handled done).sighted sighted

end FireComponent

/-! ### The components of a session -/

/-- The event of the movement component. -/
def Part.ofMove : Part K → Option (MoveComponent.Event K)
  | .move event => some event
  | .world _ => none

/-- The event of the game. -/
def Part.ofWorld : Part K → Option World.Event
  | .world event => some event
  | .move _ => none

/-- The event of the fire component. -/
def World.Event.ofFire : World.Event → Option FireComponent.Event
  | .fire event _ => some event
  | _ => none

/-- The call, if it is one of the game. -/
def SessionCall.ofWorld : SessionCall K → Option WorldCall
  | .world call => some call
  | .move _ => none

/-- The call, if it is one of the movement component. -/
def SessionCall.ofMove : SessionCall K → Option (MoveCall K)
  | .move call => some call
  | .world _ => none

omit [CommRing K] in
theorem SessionCall.ofMove_map (calls : List (MoveCall K)) :
    (calls.map SessionCall.move).filterMap SessionCall.ofMove = calls := by
  simp [List.filterMap_map, Function.comp_def, SessionCall.ofMove]

omit [CommRing K] in
theorem SessionCall.ofWorld_map (calls : List WorldCall) :
    (calls.map (SessionCall.world (K := K))).filterMap SessionCall.ofWorld = calls := by
  simp [List.filterMap_map, Function.comp_def, SessionCall.ofWorld]

/-- What an event of a session is to its game. -/
def Session.worldEvents (keys : Finset Key) (event : Session.Event K) : List World.Event :=
  (Session.parts keys event).filterMap Part.ofWorld

section Components

variable {cfg : GameConfig} {normalize : FVector K → FVector K} {α : Type*}

/-- The update by an event of the movement component. -/
def onMove (update : MoveComponent.Event K → α → α) (part : Part K) (a : α) : α :=
  part.ofMove.elim a fun event => update event a

/-- The update by an event of the fire component. -/
def onFire (update : FireComponent.Event → α → α) (part : Part K) (a : α) : α :=
  part.ofWorld.elim a fun event => event.ofFire.elim a fun event => update event a

/-- The fire component is a part of the game. -/
theorem World.projects_fire : Projects (World.step cfg) (FireComponent.step cfg.fire) World.fire
    World.Event.ofFire WorldCall.ofFire where
  acts w event next out act done meant := by
    cases event with
    | fire event index =>
      obtain rfl := Option.some.inj meant
      have taken : (⟨w, .fire event index, next, out⟩ : World.Move).Taken (World.step cfg) := done
      exact World.taken_fire taken rfl
    | makeEnemy _ | levelUpTimer | enemy _ _ => cases meant
  rests w event next out done meant := by
    have taken : (⟨w, event, next, out⟩ : World.Move).Taken (World.step cfg) := done
    refine World.taken_other taken ?_
    rintro act index rfl
    cases meant

namespace Session

variable {ω ω' : Type} {game : Step ω World.Event WorldCall} {game' : Step ω' World.Event WorldCall}

theorem play_move {s next : Session K ω} {event : MoveComponent.Event K} {out : List (SessionCall K)}
    (done : play game normalize s (.move event) = some (next, out)) :
    ∃ move calls, MoveComponent.step normalize s.move event = some (move, calls) ∧
      next = { s with move := move } ∧ out = calls.map .move := by
  obtain ⟨⟨move, calls⟩, moved, same⟩ := Option.map_eq_some_iff.mp done
  obtain ⟨rfl, rfl⟩ := Prod.mk.inj same
  exact ⟨move, calls, moved, rfl, rfl⟩

theorem play_world {s next : Session K ω} {event : World.Event} {out : List (SessionCall K)}
    (done : play game normalize s (.world event) = some (next, out)) :
    ∃ world calls, game s.world event = some (world, calls) ∧
      next = { s with world := world } ∧ out = calls.map .world := by
  obtain ⟨⟨world, calls⟩, moved, same⟩ := Option.map_eq_some_iff.mp done
  obtain ⟨rfl, rfl⟩ := Prod.mk.inj same
  exact ⟨world, calls, moved, rfl, rfl⟩

/-- The movement component is a part of the session. -/
theorem projects_move : Projects (play game normalize) (MoveComponent.step normalize) Session.move
    Part.ofMove SessionCall.ofMove where
  acts s part next out event done meant := by
    cases part with
    | move _ =>
      obtain rfl := Option.some.inj meant
      obtain ⟨move, calls, moved, rfl, rfl⟩ := play_move done
      rw [SessionCall.ofMove_map]
      exact moved
    | world _ => cases meant
  rests s part next out done meant := by
    cases part with
    | move _ => cases meant
    | world _ =>
      obtain ⟨_, calls, _, rfl, rfl⟩ := play_world done
      exact ⟨rfl, by simp [SessionCall.ofMove]⟩

/-- The game is a part of the session. -/
theorem projects_world : Projects (play game normalize) game Session.world Part.ofWorld
    SessionCall.ofWorld where
  acts s part next out event done meant := by
    cases part with
    | move _ => cases meant
    | world _ =>
      obtain rfl := Option.some.inj meant
      obtain ⟨world, calls, moved, rfl, rfl⟩ := play_world done
      rw [SessionCall.ofWorld_map]
      exact moved
  rests s part next out done meant := by
    cases part with
    | move event =>
      obtain ⟨_, calls, _, rfl, rfl⟩ := play_move done
      exact ⟨rfl, by simp [SessionCall.ofWorld]⟩
    | world _ => cases meant

/-- A view of the game is a view of the session. -/
def onWorld (view : ω → ω') (s : Session K ω) : Session K ω' :=
  ⟨s.keys, s.move, view s.world⟩

/-- What one game does as another, the components do. -/
theorem projects_play {view : ω → ω'} (projects : Projects game game' view some some) :
    Projects (play (K := K) game normalize) (play game' normalize) (onWorld view) some some where
  acts s part next out same done meant := by
    obtain rfl := Option.some.inj meant
    rw [List.filterMap_some]
    cases part with
    | move event =>
      obtain ⟨move, calls, moved, rfl, rfl⟩ := play_move done
      exact Option.map_eq_some_iff.mpr ⟨(move, calls), moved, rfl⟩
    | world event =>
      obtain ⟨world, calls, moved, rfl, rfl⟩ := play_world done
      have stepped := projects.acts moved rfl
      rw [List.filterMap_some] at stepped
      exact Option.map_eq_some_iff.mpr ⟨(view world, calls), stepped, rfl⟩
  rests _ _ _ _ _ meant := by cases meant

theorem handle_parts {s next : Session K ω} {event : Event K} {out : List (SessionCall K)}
    (done : handle game normalize s event = some (next, out)) :
    event.Possible s.keys ∧
      exec (play game normalize) { s with keys := keysAfter s.keys event } (parts s.keys event) =
        some (next, out) :=
  Option.ite_none_right_eq_some.mp done

/-- And so does the session. -/
theorem projects_handle {view : ω → ω'} (projects : Projects game game' view some some) :
    Projects (handle (K := K) game normalize) (handle game' normalize) (onWorld view) some some where
  acts s event next out same done meant := by
    obtain rfl := Option.some.inj meant
    obtain ⟨possible, played⟩ := handle_parts done
    have alike := (projects_play projects).exec played
    rw [List.filterMap_some] at alike
    exact (if_pos possible).trans alike
  rests _ _ _ _ _ meant := by cases meant

/-- What an event does to the game, the game does over the events that it is. -/
theorem handle_world {s next : Session K ω} {event : Event K} {out : List (SessionCall K)}
    (done : handle game normalize s event = some (next, out)) :
    ∃ us, Run game s.world us next.world ∧
      us.map Transition.event = worldEvents s.keys event ∧
      us.flatMap Transition.out = out.filterMap SessionCall.ofWorld := by
  obtain ⟨_, played⟩ := handle_parts done
  obtain ⟨vs, run, events, rfl⟩ := exec_eq_some_iff.mp played
  obtain ⟨us, reach, heard, calls⟩ := projects_world.run run
  exact ⟨us, reach, heard.trans (congrArg _ events), calls⟩

/-- The components do not touch the keys. -/
theorem tracks_keys : Tracks (play (K := K) game normalize) (fun keys s => s.keys = keys)
    fun _ keys => keys := by
  intro s part next out keys done same
  cases part with
  | move event =>
    obtain ⟨_, _, _, rfl, _⟩ := play_move done
    exact same
  | world event =>
    obtain ⟨_, _, _, rfl, _⟩ := play_world done
    exact same

theorem handle_keys {s next : Session K ω} {event : Event K} {out : List (SessionCall K)}
    (done : handle game normalize s event = some (next, out)) :
    next.keys = keysAfter s.keys event := by
  have after := tracks_keys.exec (handle_parts done).2 rfl
  rwa [updated_idle fun _ _ => rfl] at after

theorem tracks_move {R : α → MoveComponent K → Prop} {update : MoveComponent.Event K → α → α}
    (tracks : Tracks (MoveComponent.step normalize) R update) :
    Tracks (play game normalize) (fun a s => R a s.move) (onMove update) :=
  tracks.lift projects_move

theorem tracks_fire {R : α → FireComponent → Prop} {update : FireComponent.Event → α → α}
    (tracks : Tracks (FireComponent.step cfg.fire) R update) :
    Tracks (play (World.step cfg) normalize) (fun a s => R a s.world.fire) (onFire update) :=
  (tracks.lift World.projects_fire).lift projects_world

end Session

end Components

/-! ### Buttons -/

namespace Session

variable {cfg : GameConfig} {normalize : FVector K → FVector K} {placed : ℕ} {randTime : ℚ}
  {s : Session K World} {ts : List (Move K)} {update : Part K → Bool → Bool} {key : Key} {keys : Finset Key}
  {event : Event K}

/-- The value is set by the key that goes down, reset by it when it comes up, and by nothing else. -/
structure Button (update : Part K → Bool → Bool) (key : Key) : Prop where
  down : ∀ other draw held, updated update held (playerInput.actionParts other .pressed draw) =
    (decide (key = other) || held)
  up : ∀ other draw held, updated update held (playerInput.actionParts other .released draw) =
    (decide (key ≠ other) && held)
  axes : ∀ keys device held, updated update held (playerInput.axisParts keys device) = held
  tick : ∀ rotation held, update (.move (.tick rotation)) held = held
  world : ∀ event held, event.isInput = false → update (.world event) held = held

theorem button_running : Button (K := K) (onMove MoveComponent.running) .leftShift where
  down other draw held := by
    rw [actionParts_eq]
    cases other <;> rfl
  up other draw held := by
    rw [actionParts_eq]
    cases other <;> rfl
  axes _ _ _ := rfl
  tick _ _ := rfl
  world _ _ _ := rfl

theorem button_crouching : Button (K := K) (onMove MoveComponent.crouching) .leftControl where
  down other draw held := by
    rw [actionParts_eq]
    cases other <;> rfl
  up other draw held := by
    rw [actionParts_eq]
    cases other <;> rfl
  axes _ _ _ := rfl
  tick _ _ := rfl
  world _ _ _ := rfl

/-- A button of the fire component, given what its events do. -/
theorem button_fire {update : FireComponent.Event → Bool → Bool}
    (down : ∀ other draw held, updated (onFire (K := K) update) held
      (other.action.elim [] (ActionName.parts draw .pressed)) = (decide (key = other) || held))
    (up : ∀ other draw held, updated (onFire (K := K) update) held
      (other.action.elim [] (ActionName.parts draw .released)) = (decide (key ≠ other) && held))
    (idle : ∀ event held, event.isInput = false → update event held = held) :
    Button (K := K) (onFire update) key where
  down other draw held := by rw [actionParts_eq, down]
  up other draw held := by rw [actionParts_eq, up]
  axes _ _ _ := rfl
  tick _ _ := rfl
  world event held other := by
    cases event with
    | fire event _ => exact idle event held other
    | makeEnemy _ | levelUpTimer | enemy _ _ => rfl

theorem button_pressed :
    Button (K := K) (onFire fun event down => FireComponent.pressed down event) .leftMouseButton :=
  button_fire (fun other _ _ => by cases other <;> rfl) (fun other _ _ => by cases other <;> rfl)
    fun event _ other => by cases event <;> first | rfl | cases other

theorem button_zooming :
    Button (K := K) (onFire fun event down => FireComponent.zooming down event) .rightMouseButton :=
  button_fire (fun other _ _ => by cases other <;> rfl) (fun other _ _ => by cases other <;> rfl)
    fun event _ other => by cases event <;> first | rfl | cases other

/-- The value and the key change together. -/
theorem Button.updated_parts (button : Button update key) (possible : event.Possible keys) :
    updated update (decide (key ∈ keys)) (parts keys event) =
      decide (key ∈ keysAfter keys event) := by
  cases event with
  | keyDown other draw =>
    rw [parts, button.down, keysAfter, ← Bool.decide_or]
    exact decide_eq_decide.mpr Finset.mem_insert.symm
  | keyUp other draw =>
    rw [parts, button.up, keysAfter, ← Bool.decide_and]
    exact decide_eq_decide.mpr Finset.mem_erase.symm
  | axes device => exact button.axes keys device _
  | tick rotation => exact button.tick rotation _
  | world event => exact button.world event _ possible

/-! ### One event of a session -/

theorem taken_parts {t : Move K} (taken : t.Taken (step cfg normalize)) :
    t.event.Possible t.pre.keys ∧
      exec (play (World.step cfg) normalize) { t.pre with keys := keysAfter t.pre.keys t.event }
        (parts t.pre.keys t.event) = some (t.post, t.out) :=
  handle_parts taken

theorem taken_keys {t : Move K} (taken : t.Taken (step cfg normalize)) :
    t.post.keys = keysAfter t.pre.keys t.event :=
  handle_keys taken

/-- **What tracks the button, the key tracks.** -/
theorem Button.run (button : Button update key) {R : Bool → MoveComponent K → World → Prop}
    (tracks : Tracks (play (World.step cfg) normalize) (fun held s => R held s.move s.world) update)
    (run : Run (step cfg normalize) (beginPlay cfg placed randTime) ts s)
    (begun : R false .beginPlay (.beginPlay cfg placed randTime)) :
    R (decide (key ∈ s.keys)) s.move s.world := by
  refine run.invariant (I := fun s => R (decide (key ∈ s.keys)) s.move s.world) ?_ ?_
  · have up : decide (key ∈ (∅ : Finset Key)) = false := decide_eq_false (Finset.notMem_empty key)
    show R (decide (key ∈ (∅ : Finset Key))) .beginPlay (.beginPlay cfg placed randTime)
    rwa [up]
  intro t _ taken before
  obtain ⟨possible, done⟩ := taken_parts taken
  have after := tracks.exec done before
  rw [button.updated_parts possible] at after
  rwa [taken_keys taken]

/-! ### Bullets -/

/-- The event of the fire component that a part is. -/
def shoots : Part K → Bool
  | .world (.fire (.onActionFirePressed _) _) => true
  | .world (.fire .fireTimer _) => true
  | _ => false

/-- A key that has a handler which may shoot is the left mouse button, going down. -/
theorem shoots_key {keyEvent : InputEvent} {draw : PressDraw} {part : Part K}
    (member : part ∈ playerInput.actionParts key keyEvent draw) (shot : shoots part = true) :
    key = .leftMouseButton ∧ keyEvent = .pressed := by
  rw [actionParts_eq] at member
  cases key with
  | leftMouseButton =>
    cases keyEvent with
    | pressed => exact ⟨rfl, rfl⟩
    | released =>
      obtain rfl := List.mem_singleton.mp member
      cases shot
  | _ =>
    cases keyEvent <;> first
      | cases List.not_mem_nil member
      | (obtain rfl := List.mem_singleton.mp member
         cases shot)

/-- A part that shoots a bullet: a press, or the timer while it is active. -/
theorem play_bullet {part : Part K} {next : Session K World} {out : List (SessionCall K)}
    (done : play (World.step cfg) normalize s part = some (next, out))
    (shot : .world (.fire .spawnBullet) ∈ out) :
    shoots part = true ∧
      ∀ event, part = .world event → event.isInput = false → s.world.fire.fireTimer ≠ none := by
  cases part with
  | move event =>
    obtain ⟨_, calls, _, _, rfl⟩ := play_move done
    simp at shot
  | world event =>
    obtain ⟨world, calls, moved, _, rfl⟩ := play_world done
    have seen : FireCall.spawnBullet ∈ calls.filterMap WorldCall.ofFire :=
      List.mem_filterMap.mpr ⟨_, by simpa using shot, rfl⟩
    have taken : (⟨s.world, event, world, calls⟩ : World.Move).Taken (World.step cfg) := moved
    cases event with
    | fire event index =>
      have fired := World.taken_fire taken rfl
      cases FireComponent.taken_triggered (t := ⟨_, _, _, _⟩) fired with
      | starts shot named =>
        obtain rfl : event = .onActionFirePressed shot := named
        exact ⟨rfl, fun _ same other => by cases same; cases other⟩
      | fires named pending =>
        obtain rfl : event = .fireTimer := named
        exact ⟨rfl, fun _ _ _ => pending⟩
      | clears _ _ quiet | chooses _ _ _ _ quiet | keeps _ _ _ _ quiet => exact absurd seen quiet
    | makeEnemy _ | levelUpTimer | enemy _ _ =>
      rw [(World.taken_other taken (by simp)).2] at seen
      cases seen

/-- A bullet is shot while the left mouse button is down. -/
theorem taken_bullet {t : Move K} (taken : t.Taken (step cfg normalize))
    (held : t.pre.world.fire.fireTimer ≠ none → .leftMouseButton ∈ t.pre.keys)
    (shot : .world (.fire .spawnBullet) ∈ t.out) : .leftMouseButton ∈ t.post.keys := by
  obtain ⟨possible, done⟩ := taken_parts taken
  rw [taken_keys taken]
  cases event : t.event with
  | keyDown key draw =>
    rw [event, parts] at done
    obtain ⟨part, member, _, _, _, played, emitted⟩ := exec_emits done shot
    obtain ⟨rfl, _⟩ := shoots_key member (play_bullet played emitted).1
    exact Finset.mem_insert_self _ _
  | keyUp key draw =>
    rw [event, parts] at done
    obtain ⟨part, member, _, _, _, played, emitted⟩ := exec_emits done shot
    exact absurd (shoots_key member (play_bullet played emitted).1).2 (by decide)
  | axes device =>
    rw [event] at done
    obtain ⟨part, member, _, _, _, played, emitted⟩ := exec_emits done shot
    have moves := (play_bullet played emitted).1
    rw [parts, axisParts_eq] at member
    simp only [List.mem_cons, List.not_mem_nil, or_false] at member
    rcases member with rfl | rfl | rfl | rfl <;> cases moves
  | tick rotation =>
    rw [event] at done
    exact absurd (play_bullet (exec_one.symm.trans done) shot).1 (by simp [shoots])
  | world act =>
    rw [event] at done possible
    exact held ((play_bullet (exec_one.symm.trans done) shot).2 act rfl possible)

/-! ### Whole sessions -/

/-- The components obey the keys. -/
structure Obeys (s : Session K World) : Prop where
  runs : s.move.MaxWalkSpeed =
    if .leftShift ∈ s.keys then MoveComponent.runSpeed else MoveComponent.walkSpeed
  crouches : .leftControl ∈ s.keys → s.move.MaxWalkSpeedCrouched = MoveComponent.crouchSpeed
  fires : s.world.fire.fireTimer ≠ none → .leftMouseButton ∈ s.keys
  aims : FireComponent.Zoomed s.world.fire →
    s.world.fire.bChooseGrenadeGun = false ∧ .rightMouseButton ∈ s.keys

theorem obeys (run : Run (step cfg normalize) (beginPlay cfg placed randTime) ts s) : Obeys s where
  runs := by
    have runs := button_running.run (R := fun held move _ => move.MaxWalkSpeed =
      if held then MoveComponent.runSpeed else MoveComponent.walkSpeed)
      (tracks_move MoveComponent.tracks_running) run rfl
    simpa using runs
  crouches := by
    have crouches := button_crouching.run (R := fun held move _ => held = true →
      move.MaxWalkSpeedCrouched = MoveComponent.crouchSpeed)
      (tracks_move MoveComponent.tracks_crouching) run (fun held => absurd held Bool.false_ne_true)
    simpa using crouches
  fires active := by
    have held := button_pressed.run (R := fun held _ world => world.fire.fireTimer ≠ none →
      held = true) (tracks_fire FireComponent.tracks_pressed) run
      (fun active => absurd (FireComponent.fireTimer_beginPlay cfg.fire) active) active
    exact of_decide_eq_true held
  aims zoomed := by
    have sighted := button_zooming.run (R := fun held _ world => FireComponent.Sighted held world.fire)
      (tracks_fire FireComponent.tracks_zooming) run (FireComponent.sighted_beginPlay cfg.fire)
    exact (sighted.zoomed zoomed).imp_right of_decide_eq_true

/-- **The keys are in control**: in every state of a session the components obey them, and a bullet is
shot while the left mouse button is down and at no other time. -/
theorem obeys_run (run : Run (step cfg normalize) (beginPlay cfg placed randTime) ts s) :
    (∀ a ∈ visited (beginPlay cfg placed randTime) ts, Obeys a) ∧
      ∀ t ∈ ts, .world (.fire .spawnBullet) ∈ t.out → .leftMouseButton ∈ t.post.keys := by
  constructor
  · intro a member
    obtain ⟨_, _, _, reach⟩ := run.visited_prefix member
    exact obeys reach
  · intro t member shot
    obtain ⟨_, _, _, reach, taken, _⟩ := run.mem member
    exact taken_bullet taken (obeys reach).fires shot

/-- Shift goes down, then the left mouse button. -/
def rushing (draw : PressDraw) : List (Event ℚ) :=
  [.keyDown .leftShift draw, .keyDown .leftMouseButton draw]

/-- Running and shooting at once. -/
theorem obeys_run_rushing :
    (final (step {} id) (beginPlay {} 1 1) (rushing ⟨{}, 0⟩)).world.fire.fireTimer ≠ none ∧
      .leftMouseButton ∈ (final (step {} id) (beginPlay {} 1 1) (rushing ⟨{}, 0⟩)).keys := by
  have run := run_trace (step {} id) (beginPlay {} 1 1) (rushing ⟨{}, 0⟩)
  have active : (final (step {} id) (beginPlay {} 1 1) (rushing ⟨{}, 0⟩)).world.fire.fireTimer ≠
    none := by decide +kernel
  exact ⟨active, ((obeys_run run).1 _ run.last_visited).fires active⟩

/-! ### A session is a game -/

/-- The fire button, as the game sees it: a press counts up and a release down. -/
def trigger : World.Event → ℤ
  | .fire (.onActionFirePressed _) _ => 1
  | .fire .onActionFireRelesed _ => -1
  | _ => 0

/-- The button as the keys have it. -/
def pulled (keys : Finset Key) : ℤ :=
  if .leftMouseButton ∈ keys then 1 else 0

/-- What an event does to the button, it does to the key. -/
theorem trigger_parts (possible : event.Possible keys) :
    (((parts keys event).filterMap Part.ofWorld).map trigger).sum =
      pulled (keysAfter keys event) - pulled keys := by
  cases event with
  | keyDown other draw =>
    have table : (((playerInput (K := K)).actionParts other .pressed draw).filterMap
        Part.ofWorld |>.map trigger).sum = if .leftMouseButton = other then 1 else 0 := by
      rw [actionParts_eq]
      cases other <;> rfl
    have up : other ∉ keys := possible
    rw [parts, table, keysAfter, pulled, pulled]
    by_cases same : .leftMouseButton = other
    · subst same
      simp [up]
    · simp [same]
  | keyUp other draw =>
    have table : (((playerInput (K := K)).actionParts other .released draw).filterMap
        Part.ofWorld |>.map trigger).sum = if .leftMouseButton = other then -1 else 0 := by
      rw [actionParts_eq]
      cases other <;> rfl
    have down : other ∈ keys := possible
    rw [parts, table, keysAfter, pulled, pulled]
    by_cases same : .leftMouseButton = other
    · subst same
      simp [down]
    · simp [same]
  | axes device =>
    rw [parts, axisParts_eq]
    exact (sub_self (pulled keys)).symm
  | tick rotation => exact (sub_self (pulled keys)).symm
  | world event =>
    have other : event.isInput = false := possible
    have silent : trigger event = 0 := by
      cases event with
      | fire event _ => cases event <;> first | rfl | cases other
      | makeEnemy _ | levelUpTimer | enemy _ _ => rfl
    calc ([event].map trigger).sum = 0 := by simp [silent]
      _ = pulled keys - pulled keys := (sub_self (pulled keys)).symm

/-- The game of a session, over the events that the keys come to. -/
theorem game_run (run : Run (step cfg normalize) (beginPlay cfg placed randTime) ts s) :
    ∃ us, Run (World.step cfg) (.beginPlay cfg placed randTime) us s.world ∧
      us.map Transition.event = ts.flatMap (fun t => worldEvents t.pre.keys t.event) ∧
      us.flatMap Transition.out = (ts.flatMap Transition.out).filterMap SessionCall.ofWorld := by
  obtain ⟨us, _, reach, events, calls, rfl⟩ :=
    run.simulate_heard (R := fun s w => s.world = w) (fun t => worldEvents t.pre.keys t.event)
      (fun t => t.out.filterMap SessionCall.ofWorld) rfl fun t _ taken w here => by
        obtain ⟨us, reach, events, calls⟩ := handle_world taken
        exact ⟨us, _, here ▸ reach, ⟨events, calls⟩, rfl⟩
  exact ⟨us, reach, events, calls.trans List.filterMap_flatMap.symm⟩

/-- In a session the fire button is down when its key is. -/
theorem trigger_run (run : Run (step cfg normalize) (beginPlay cfg placed randTime) ts s) :
    ((ts.flatMap fun t => worldEvents t.pre.keys t.event).map trigger).sum = pulled s.keys := by
  have moved := run.potential_eq (fun s => pulled s.keys)
    (fun t => ((worldEvents t.pre.keys t.event).map trigger).sum) fun t _ taken => by
      rw [worldEvents, trigger_parts (taken_parts taken).1, taken_keys taken]
      ring
  rw [moved, List.map_flatMap, List.flatMap_def, List.sum_flatten, List.map_map]
  exact (zero_add _).symm

/-- **A session is a game.** Whatever is done with the keys, and as far as one looks, the game goes
through a run of its own, over the events that the keys have come to and with the calls that the session
has made; in it the fire button is pressed and released in turn, and is down when its key is. -/
theorem world_run (run : Run (step cfg normalize) (beginPlay cfg placed randTime) ts s) :
    ∀ before after, ts = before ++ after →
      ∃ m us, Run (step cfg normalize) (beginPlay cfg placed randTime) before m ∧
        Run (step cfg normalize) m after s ∧
        Run (World.step cfg) (.beginPlay cfg placed randTime) us m.world ∧
        us.map Transition.event = before.flatMap (fun t => worldEvents t.pre.keys t.event) ∧
        us.flatMap Transition.out = (before.flatMap Transition.out).filterMap SessionCall.ofWorld ∧
        (us.map fun u => trigger u.event).sum = pulled m.keys := by
  rintro before after rfl
  obtain ⟨m, first, rest⟩ := run.split
  obtain ⟨us, reach, events, calls⟩ := game_run first
  refine ⟨m, us, first, rest, reach, events, calls, ?_⟩
  rw [← trigger_run first, ← events, List.map_map]
  rfl

/-- The game of someone who runs and shoots. -/
theorem world_run_rushing :
    ∃ us, Run (World.step {}) (.beginPlay {} 1 1) us
        (final (step {} id) (beginPlay {} 1 1) (rushing ⟨{}, 0⟩)).world ∧
      us.map Transition.event = [.fire (.onActionFirePressed {}) 0] ∧
      (us.map fun u => trigger u.event).sum = 1 := by
  have run := run_trace (step {} id) (beginPlay {} 1 1) (rushing ⟨{}, 0⟩)
  have events : (trace (step {} id) (beginPlay {} 1 1) (rushing ⟨{}, 0⟩)).flatMap
      (fun t => worldEvents t.pre.keys t.event) = [.fire (.onActionFirePressed {}) 0] := by
    rfl
  have button : pulled (final (step {} id) (beginPlay {} 1 1) (rushing ⟨{}, 0⟩)).keys = 1 := by
    decide +kernel
  obtain ⟨m, us, _, rest, reach, heard, _, balance⟩ := world_run run _ [] (List.append_nil _).symm
  obtain rfl := run_nil_iff.mp rest
  exact ⟨us, reach, heard.trans events, balance.trans button⟩

end Session

end MyTPSGame
