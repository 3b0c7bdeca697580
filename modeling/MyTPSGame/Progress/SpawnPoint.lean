/-
**The choice of the spawn point.**

`MakeEnemy` remembers the last point it used in a float and moves a draw of the same point on by one,
round the list. `points_run`: with a list that a float can count, no firing indexes out of the list,
no two attempts in a row use the same point of two or more, and every other point can be used next.
Which point an attempt uses is read off its calls (`attempted`).
-/

import MyTPSGame.Arith.Cycle
import MyTPSGame.Model.Spawner

namespace MyTPSGame

open Machine Cycle

namespace SpawnManager

variable {cfg : SpawnConfig} {sm next : SpawnManager} {event : Event} {calls : List SpawnCall}
  {randTime : ℚ} {ts : List Move} {r p q : ℤ}

/-- The spawn point that a transition uses, if it is an attempt: the one that it looks up. -/
def attempted (t : Move) : Option ℤ :=
  t.out.head?.map SpawnCall.rIndex

/-- What the choice of the spawn point does over a run that ends in `sm`. -/
structure Points (cfg : SpawnConfig) (randTime : ℚ) (ts : List Move) (sm : SpawnManager) : Prop where
  /-- No firing indexes out of the list, whatever it draws. -/
  inside : ∀ a ∈ visited (start randTime) ts, ∀ level, ∀ draw : MakeEnemyDraw, draw.Possible cfg →
    ∃ next calls, a.makeEnemy cfg level draw = some (next, calls) ∧
      ∀ call ∈ calls, Place cfg.spawnNum call.rIndex
  /-- A firing is an attempt if the wave is not full. -/
  attempts : ∀ t ∈ ts, (attempted t).isSome ↔
    t.pre.makeCount < t.pre.makeTargetCount ∧ ∃ level draw, t.event = .makeEnemy level draw
  /-- An attempt uses one point, for the enemy as well. -/
  one : ∀ t ∈ ts, ∀ call ∈ t.out, attempted t = some call.rIndex
  /-- Two attempts with none between them use different points. -/
  fresh : 2 ≤ cfg.spawnNum → ∀ before mid after t u p q, ts = before ++ t :: (mid ++ u :: after) →
    attempted t = some p → attempted u = some q → (∀ v ∈ mid, attempted v = none) → p ≠ q
  /-- After an attempt, some draw makes the next one use any other point. -/
  reaches : ∀ before after t p, ts = before ++ t :: after → attempted t = some p →
    (∀ v ∈ after, attempted v = none) → ∀ q, Place cfg.spawnNum q → q ≠ p →
      ∃ draw : MakeEnemyDraw, draw.Possible cfg ∧ sm.nextIndex cfg draw.rIndex = q ∧
        ∀ level, sm.makeCount < sm.makeTargetCount →
          ∃ next calls, sm.makeEnemy cfg level draw = some (next, calls) ∧
            attempted ⟨sm, .makeEnemy level draw, next, calls⟩ = some q

/-! ### One draw -/

section Draw

/-- A possible draw is of a place in the list. -/
theorem drawn_place {draw : MakeEnemyDraw} (possible : draw.Possible cfg)
    (nonempty : 1 ≤ cfg.spawnNum) : Place cfg.spawnNum draw.rIndex := by
  have drawn := possible.rIndex
  unfold RandRange at drawn
  rw [if_pos (by omega)] at drawn
  exact ⟨drawn.1, by omega⟩

/-- Of a drawn place, the successor in the cycle is what the code computes. -/
theorem nextIndex_eq (place : Place cfg.spawnNum r) (small : cfg.spawnNum ≤ 2 ^ 24) :
    sm.nextIndex cfg r = if (r : ℚ) = sm.preIndex then succ cfg.spawnNum r else r := by
  have ⟨low, high⟩ := place
  rw [nextIndex, toFloat_exact (by omega), succ_eq_emod place,
    Int.tmod_eq_emod_of_nonneg (by omega)]

/-- The successor of a drawn place is in the list, whatever the float remembers. -/
theorem nextIndex_place (place : Place cfg.spawnNum r) :
    Place cfg.spawnNum (sm.nextIndex cfg r) := by
  have ⟨low, high⟩ := place
  unfold nextIndex
  split
  · exact ⟨Int.tmod_nonneg _ (by omega), Int.tmod_lt_of_pos _ (by omega)⟩
  · exact place

/-- The remembered point is not used again. -/
theorem nextIndex_ne (two : 2 ≤ cfg.spawnNum) (place : Place cfg.spawnNum r)
    (small : cfg.spawnNum ≤ 2 ^ 24) (remembered : sm.preIndex = p) : sm.nextIndex cfg r ≠ p := by
  rw [nextIndex_eq place small, remembered]
  by_cases same : r = p
  · rw [if_pos (congrArg Int.cast same), ← same]
    exact succ_ne (by omega) place
  · rw [if_neg fun equal => same (Int.cast_injective equal)]
    exact same

/-- Any other point is used when it is drawn. -/
theorem nextIndex_of_ne (place : Place cfg.spawnNum q) (small : cfg.spawnNum ≤ 2 ^ 24)
    (remembered : sm.preIndex = p) (other : q ≠ p) : sm.nextIndex cfg q = q := by
  rw [nextIndex_eq place small, remembered, if_neg fun equal => other (Int.cast_injective equal)]

/-- Every point can be drawn. -/
theorem exists_draw (place : Place cfg.spawnNum q) :
    ∃ draw : MakeEnemyDraw, draw.Possible cfg ∧ draw.rIndex = q := by
  have ⟨low, high⟩ := place
  have rIndex : RandRange 0 (cfg.spawnNum - 1) q := by
    unfold RandRange
    rw [if_pos (by omega)]
    exact ⟨low, by omega⟩
  have rate : RandRange 0 99 0 := by decide
  have randTime : FRandRange cfg.minTime cfg.maxTime cfg.minTime :=
    ⟨min_le_left _ _, le_max_left _ _⟩
  exact ⟨⟨q, 0, cfg.minTime, true⟩, ⟨rIndex, rate, randTime⟩, rfl⟩

end Draw

/-! ### One firing -/

section Firing

variable (sm) (level : ℤ) {draw : MakeEnemyDraw}

/-- A firing that finds room is an attempt at the index it moves its draw to. -/
theorem makeEnemy_attempt (possible : draw.Possible cfg) (nonempty : 1 ≤ cfg.spawnNum)
    (room : sm.makeCount < sm.makeTargetCount) :
    ∃ next, sm.makeEnemy cfg level draw =
      some (next, attemptCalls level draw.rate (sm.nextIndex cfg draw.rIndex)) := by
  have inside : 0 ≤ sm.nextIndex cfg draw.rIndex ∧ sm.nextIndex cfg draw.rIndex < cfg.spawnNum :=
    nextIndex_place (drawn_place possible nonempty)
  unfold makeEnemy
  rw [if_pos possible, if_pos room]
  dsimp only
  rw [if_pos inside]
  exact ⟨_, rfl⟩

/-- A firing never stops, and what it uses is in the list. -/
theorem makeEnemy_inside (possible : draw.Possible cfg) (nonempty : 1 ≤ cfg.spawnNum) :
    ∃ next calls, sm.makeEnemy cfg level draw = some (next, calls) ∧
      ∀ call ∈ calls, Place cfg.spawnNum call.rIndex := by
  by_cases room : sm.makeCount < sm.makeTargetCount
  · obtain ⟨next, fired⟩ := makeEnemy_attempt sm level possible nonempty room
    refine ⟨next, _, fired, fun call member => ?_⟩
    rw [rIndex_of_mem_attemptCalls member]
    exact nextIndex_place (drawn_place possible nonempty)
  · refine ⟨sm.armSpawnTimer draw.randTime, [], ?_, by simp⟩
    rw [makeEnemy, if_pos possible, if_neg room]

end Firing

/-! ### One event -/

section Step

variable {t : Move}

/-- What an event can be to the choice: nothing, or an attempt. The attempt uses the point that a
possible draw leads to, and remembers it. -/
inductive Uses (cfg : SpawnConfig) (t : Move) : Prop
  | idle : t.out = [] → t.post.preIndex = t.pre.preIndex →
      (t.pre.makeCount < t.pre.makeTargetCount → ∀ level draw, t.event ≠ .makeEnemy level draw) →
      Uses cfg t
  | attempt (level : ℤ) (draw : MakeEnemyDraw) : t.event = .makeEnemy level draw →
      t.pre.makeCount < t.pre.makeTargetCount → draw.Possible cfg →
      t.out = attemptCalls level draw.rate (t.pre.nextIndex cfg draw.rIndex) →
      t.post.preIndex = toFloat (t.pre.nextIndex cfg draw.rIndex) → Uses cfg t

theorem taken_uses (taken : t.Taken (step cfg)) : Uses cfg t := by
  obtain ⟨sm, event, next, calls⟩ := t
  have spawned : Spawned cfg sm event next calls := step_spawned taken
  cases spawned with
  | fires level draw _ _ possible made =>
    cases made with
    | full full => exact .idle rfl rfl fun room => absurd room (not_lt.mpr full)
    | attempt room _ _ => exact .attempt level draw rfl room possible rfl rfl
  | levels level => exact .idle rfl rfl fun _ _ _ => by simp

/-- An attempt uses the point that a possible draw leads to, and remembers it. -/
theorem attempted_some (taken : t.Taken (step cfg)) (attempt : attempted t = some p) :
    t.post.preIndex = toFloat p ∧
      ∃ draw : MakeEnemyDraw, draw.Possible cfg ∧ t.pre.nextIndex cfg draw.rIndex = p := by
  cases taken_uses taken with
  | idle silent _ _ =>
    rw [attempted, silent] at attempt
    cases attempt
  | attempt level draw _ _ possible calls remembered =>
    rw [attempted, calls] at attempt
    obtain rfl := Option.some.inj attempt
    exact ⟨remembered, draw, possible, rfl⟩

/-- Without an attempt the remembered point stays. -/
theorem attempted_none (taken : t.Taken (step cfg)) (idle : attempted t = none) :
    t.post.preIndex = t.pre.preIndex := by
  cases taken_uses taken with
  | idle _ same _ => exact same
  | attempt level draw _ _ _ calls _ =>
    rw [attempted, calls] at idle
    cases idle

theorem attempted_isSome_iff (taken : t.Taken (step cfg)) :
    (attempted t).isSome ↔
      t.pre.makeCount < t.pre.makeTargetCount ∧ ∃ level draw, t.event = .makeEnemy level draw := by
  unfold attempted
  cases taken_uses taken with
  | idle silent _ full =>
    rw [silent]
    exact ⟨fun some => absurd some Bool.false_ne_true,
      fun ⟨room, level, draw, fires⟩ => absurd fires (full room level draw)⟩
  | attempt level draw fires room _ calls _ =>
    rw [calls]
    exact ⟨fun _ => ⟨room, level, draw, fires⟩, fun _ => rfl⟩

/-- All calls of an attempt use its point. -/
theorem attempted_of_mem (taken : t.Taken (step cfg)) {call : SpawnCall} (member : call ∈ t.out) :
    attempted t = some call.rIndex := by
  cases taken_uses taken with
  | idle silent _ _ =>
    rw [silent] at member
    cases member
  | attempt level draw _ _ _ calls _ =>
    rw [calls] at member
    rw [attempted, calls, rIndex_of_mem_attemptCalls member]
    rfl

end Step

/-! ### Whole runs -/

section Runs

variable (nonempty : 1 ≤ cfg.spawnNum) (small : cfg.spawnNum ≤ 2 ^ 24)

include nonempty small

omit small in
theorem attempted_place {t : Move} (taken : t.Taken (step cfg)) (attempt : attempted t = some p) :
    Place cfg.spawnNum p := by
  obtain ⟨_, draw, possible, rfl⟩ := attempted_some taken attempt
  exact nextIndex_place (drawn_place possible nonempty)

/-- The point of the last attempt is remembered. -/
theorem remembered_run {t : Move} {mid : List Move} (taken : t.Taken (step cfg))
    (attempt : attempted t = some p) (run : Run (step cfg) t.post mid sm)
    (idle : ∀ v ∈ mid, attempted v = none) : sm.preIndex = p := by
  have ⟨low, high⟩ := attempted_place nonempty taken attempt
  have now : t.post.preIndex = p := by
    rw [(attempted_some taken attempt).1, toFloat_exact (by omega)]
  exact run.invariant (I := fun sm => sm.preIndex = (p : ℚ)) now fun v member taken before =>
    (attempted_none taken (idle v member)).trans before

/-- **The choice of the spawn point**, over every run of the spawn manager. -/
theorem points_run (run : Run (step cfg) (start randTime) ts sm) : Points cfg randTime ts sm where
  inside a _ level draw possible := makeEnemy_inside a level possible nonempty
  attempts t member := attempted_isSome_iff (run.taken member)
  one t member call used := attempted_of_mem (run.taken member) used
  fresh two before mid after t u p q split first second idle := by
    subst split
    obtain ⟨takenT, between, takenU⟩ := run.between
    have remembered := remembered_run nonempty small takenT first between idle
    obtain ⟨_, draw, possible, rfl⟩ := attempted_some takenU second
    exact (nextIndex_ne two (drawn_place possible nonempty) small remembered).symm
  reaches before after t p split attempt idle q place other := by
    subst split
    obtain ⟨_, taken, rest⟩ := run.mid
    have remembered := remembered_run nonempty small taken attempt rest idle
    obtain ⟨draw, possible, rfl⟩ := exists_draw place
    have next := nextIndex_of_ne place small remembered other
    refine ⟨draw, possible, next, fun level room => ?_⟩
    obtain ⟨after, fired⟩ := makeEnemy_attempt sm level possible nonempty room
    exact ⟨after, _, fired, congrArg some next⟩

omit nonempty small

/-- Three points, with a level up and an attempt that makes nothing in between. -/
theorem points_run_three :
    Points { spawnNum := 3 } 1
      (trace (step { spawnNum := 3 }) (start 1)
        [.makeEnemy 1 ⟨2, 50, 1, true⟩, .levelUp 2, .makeEnemy 2 ⟨2, 1, 1, true⟩, .makeEnemy 2 ⟨2, 1, 1, true⟩])
      (final (step { spawnNum := 3 }) (start 1)
        [.makeEnemy 1 ⟨2, 50, 1, true⟩, .levelUp 2, .makeEnemy 2 ⟨2, 1, 1, true⟩, .makeEnemy 2 ⟨2, 1, 1, true⟩]) :=
  points_run (by decide) (by decide) (run_trace (step { spawnNum := 3 }) (start 1) _)

end Runs

end SpawnManager

end MyTPSGame
