/-
**The timer of the spawn manager.**

`BeginPlay` and `MakeEnemy` draw the next delay between `minTime` and `maxTime` and keep its whole
part. `armed_iff_whole`: a spawn is always pending, after a delay between the two, if and only if no
time drawn loses the least delay with its fraction; `always_armed_iff`: a configuration rules that
out if and only if its `minTime` is a whole number.
-/

import MyTPSGame.Model.Spawner

namespace MyTPSGame

open Machine

namespace SpawnManager

variable {cfg : SpawnConfig} {sm next : SpawnManager} {event : Event} {calls : List SpawnCall}
  {randTime : ℚ} {ts : List Move}

/-- A spawn is pending, after a delay that the configuration allows. -/
def Armed (cfg : SpawnConfig) (sm : SpawnManager) : Prop :=
  ∃ delay ∈ sm.spawnEnemyTimer, cfg.minTime ≤ delay ∧ delay ≤ cfg.maxTime

/-- A whole number lies from `lo` to `x`. -/
def WholeBetween (lo x : ℚ) : Prop :=
  ∃ n : ℤ, lo ≤ n ∧ (n : ℚ) ≤ x

/-- The time that an event draws. -/
def Event.drawnTime : Event → Option ℚ
  | .makeEnemy _ draw => some draw.randTime
  | .levelUp _ => none

/-! ### One event -/

section Step

theorem wholeBetween_iff_floor {lo x : ℚ} : WholeBetween lo x ↔ lo ≤ ⌊x⌋ := by
  constructor
  · rintro ⟨n, low, high⟩
    have floor : n ≤ ⌊x⌋ := Int.le_floor.mpr high
    exact low.trans (Int.cast_le.mpr floor)
  · intro low
    exact ⟨⌊x⌋, low, Int.floor_le x⟩

theorem FRandRange.bounds {lo hi r : ℚ} (drawn : FRandRange lo hi r) (ordered : lo ≤ hi) :
    lo ≤ r ∧ r ≤ hi := by
  unfold FRandRange at drawn
  rwa [min_eq_left ordered, max_eq_right ordered] at drawn

/-- The timer is armed within the bounds if the whole part of the time drawn is. -/
theorem armed_armSpawnTimer_iff (positive : 0 < cfg.minTime) (ordered : cfg.minTime ≤ cfg.maxTime)
    (drawn : FRandRange cfg.minTime cfg.maxTime randTime) :
    Armed cfg (sm.armSpawnTimer randTime) ↔ WholeBetween cfg.minTime randTime := by
  obtain ⟨low, high⟩ := FRandRange.bounds drawn ordered
  have floor : truncToInt randTime = ⌊randTime⌋ := truncToInt_eq_floor (positive.le.trans low)
  rw [wholeBetween_iff_floor]
  unfold Armed armSpawnTimer setTimer
  rw [floor]
  constructor
  · rintro ⟨delay, pending, least, _⟩
    obtain ⟨_, same⟩ := Option.ite_none_right_eq_some.mp pending
    obtain rfl := Option.some.inj same
    exact least
  · intro least
    refine ⟨⌊randTime⌋, ?_, least, (Int.floor_le randTime).trans high⟩
    exact if_pos (positive.trans_le least)

/-- What draws no time leaves the timer as it is. -/
theorem Spawned.keeps (spawned : Spawned cfg sm event next calls) (none : event.drawnTime = none) :
    next.spawnEnemyTimer = sm.spawnEnemyTimer := by
  cases spawned with
  | fires _ _ _ _ _ _ => cases none
  | levels _ => rfl

/-- What draws a time arms the timer with it. -/
theorem Spawned.arms (spawned : Spawned cfg sm event next calls)
    (draws : event.drawnTime = some randTime) :
    FRandRange cfg.minTime cfg.maxTime randTime ∧ ∃ before, next = armSpawnTimer before randTime := by
  cases spawned with
  | fires _ draw _ _ possible made =>
    obtain rfl : draw.randTime = randTime := Option.some.inj draws
    refine ⟨possible.randTime, ?_⟩
    cases made with
    | full _ => exact ⟨sm, rfl⟩
    | attempt _ _ _ => exact ⟨_, rfl⟩
  | levels _ => cases draws

end Step

/-! ### Whole runs -/

section Runs

variable (positive : 0 < cfg.minTime) (ordered : cfg.minTime ≤ cfg.maxTime)

include positive ordered

/-- While every time drawn keeps the least delay, a spawn is pending. -/
theorem armed_run (run : Run (step cfg) (start randTime) ts sm)
    (drawn : FRandRange cfg.minTime cfg.maxTime randTime)
    (first : WholeBetween cfg.minTime randTime)
    (later : ∀ t ∈ ts, ∀ r, t.event.drawnTime = some r → WholeBetween cfg.minTime r) :
    ∀ a ∈ visited (start randTime) ts, Armed cfg a := by
  refine run.invariant_visited ?_ ?_
  · exact (armed_armSpawnTimer_iff positive ordered drawn).mpr first
  · intro t member taken before
    have spawned := step_spawned taken
    cases draws : t.event.drawnTime with
    | none =>
      unfold Armed
      rw [spawned.keeps draws]
      exact before
    | some r =>
      obtain ⟨possible, sm, armed⟩ := spawned.arms draws
      rw [armed]
      exact (armed_armSpawnTimer_iff positive ordered possible).mpr (later t member r draws)

/-- **A spawn is always pending**, after a delay between `minTime` and `maxTime`, if and only if a
whole number lies from `minTime` to every time drawn. -/
theorem armed_iff_whole (drawn : FRandRange cfg.minTime cfg.maxTime randTime)
    (run : Run (step cfg) (start randTime) ts sm) :
    (∀ a ∈ visited (start randTime) ts, Armed cfg a) ↔
      WholeBetween cfg.minTime randTime ∧
        ∀ t ∈ ts, ∀ r, t.event.drawnTime = some r → WholeBetween cfg.minTime r := by
  constructor
  · intro armed
    constructor
    · exact (armed_armSpawnTimer_iff positive ordered drawn).mp (armed _ List.mem_cons_self)
    · intro t member r draws
      obtain ⟨possible, sm, next⟩ := (step_spawned (run.taken member)).arms draws
      have now := armed t.post (post_visited member)
      rw [next] at now
      exact (armed_armSpawnTimer_iff positive ordered possible).mp now
  · rintro ⟨first, later⟩
    exact armed_run positive ordered run drawn first later

/-- A whole `minTime` lies from itself to every time drawn. -/
theorem armed_of_whole {n : ℤ} (whole : cfg.minTime = n)
    (drawn : FRandRange cfg.minTime cfg.maxTime randTime)
    (run : Run (step cfg) (start randTime) ts sm) :
    ∀ a ∈ visited (start randTime) ts, Armed cfg a := by
  apply armed_run positive ordered run drawn
  · exact ⟨n, whole.le, whole.symm.trans_le (FRandRange.bounds drawn ordered).1⟩
  · intro t member r draws
    obtain ⟨possible, _⟩ := (step_spawned (run.taken member)).arms draws
    exact ⟨n, whole.le, whole.symm.trans_le (FRandRange.bounds possible ordered).1⟩

/-- **A configuration keeps a spawn pending in every run** if and only if its `minTime` is a whole
number. -/
theorem always_armed_iff :
    (∀ randTime ts sm, FRandRange cfg.minTime cfg.maxTime randTime →
        Run (step cfg) (start randTime) ts sm → ∀ a ∈ visited (start randTime) ts, Armed cfg a) ↔
      ∃ n : ℤ, cfg.minTime = n := by
  constructor
  · intro always
    have least : FRandRange cfg.minTime cfg.maxTime cfg.minTime :=
      ⟨min_le_left _ _, le_max_left _ _⟩
    have armed := always cfg.minTime [] _ least .nil _ List.mem_cons_self
    obtain ⟨n, low, high⟩ := (armed_armSpawnTimer_iff positive ordered least).mp armed
    exact ⟨n, low.antisymm high⟩
  · rintro ⟨n, whole⟩ randTime ts sm drawn run
    exact armed_of_whole positive ordered whole drawn run

omit positive ordered

/-- A default spawn manager, with an attempt that makes nothing and a level up. -/
theorem armed_iff_whole_default :
    (∀ a ∈ visited (start 1) (trace (step {}) (start 1)
        [.makeEnemy 1 ⟨0, 50, 3 / 2, true⟩, .levelUp 2, .makeEnemy 2 ⟨0, 1, 2, true⟩]), Armed {} a) ↔
      WholeBetween 1 1 ∧ ∀ t ∈ trace (step {}) (start 1)
        [.makeEnemy 1 ⟨0, 50, 3 / 2, true⟩, .levelUp 2, .makeEnemy 2 ⟨0, 1, 2, true⟩],
        ∀ r, t.event.drawnTime = some r → WholeBetween 1 r :=
  armed_iff_whole (by decide) (by decide) (by decide) (run_trace (step {}) (start 1) _)

/-- Between half a second and nine tenths there is no whole number: the draw becomes zero, and no
enemy will ever be made. -/
theorem short_times_disarm :
    (0 : ℚ) < 1 / 2 ∧ (1 / 2 : ℚ) ≤ 9 / 10 ∧ FRandRange (1 / 2) (9 / 10) (3 / 4) ∧
      Run (step { minTime := 1 / 2, maxTime := 9 / 10 }) (start (3 / 4)) [] (start (3 / 4)) ∧
      (start (3 / 4)).spawnEnemyTimer = none ∧
      ¬ Armed { minTime := 1 / 2, maxTime := 9 / 10 } (start (3 / 4)) := by
  have cleared : (start (3 / 4)).spawnEnemyTimer = none := by decide +kernel
  refine ⟨by norm_num, by norm_num, by decide +kernel, .nil, cleared, ?_⟩
  rintro ⟨delay, pending, _⟩
  rw [cleared] at pending
  cases pending

/-- A game whose `minTime` is a whole number always has a spawn pending. -/
theorem armed_game {cfg : GameConfig} {placed : ℕ} {w : World} {ts : List World.Move} {n : ℤ}
    (whole : cfg.spawn.minTime = n) (positive : 0 < cfg.spawn.minTime)
    (ordered : cfg.spawn.minTime ≤ cfg.spawn.maxTime)
    (drawn : FRandRange cfg.spawn.minTime cfg.spawn.maxTime randTime)
    (run : Run (World.step cfg) (World.beginPlay cfg placed randTime) ts w) :
    Armed cfg.spawn w.gameMode.spawnManager := by
  obtain ⟨us, reach, _⟩ := World.spawnManager_run run
  exact armed_of_whole positive ordered whole drawn reach _ reach.last_visited

end Runs

end SpawnManager

end MyTPSGame
