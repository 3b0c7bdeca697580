/-
**The game mode and its spawn manager.**

`GameMode` is `AMyTPSGameGameModeBase`: the level, the experience, and the `LevelUpProcess` timers
that `SetTimer` has armed and that have not fired yet. Each of them has a handle of its own (a local
variable of `LevelUpProcess`), so they are counted. `SpawnManager` is the `ASpawnManager` it holds a
pointer to, with the one pending spawn timer.

* `makeEnemy_made`: everything one firing of `MakeEnemy` can do (`Made`);
* `GameMode.step`: the game mode on its own, under `AddExp` and its timers.
-/

import MyTPSGame.Machine.Run
import MyTPSGame.Model.Engine

namespace MyTPSGame

open Machine

/-! ### The spawn manager -/

/-- The `EditAnywhere` fields of `ASpawnManager`, and how many `ASpawn` actors `BeginPlay` finds. -/
structure SpawnConfig where
  minTime : ℚ := 1
  maxTime : ℚ := 2
  spawnNum : ℕ := 1

/-- `ASpawnManager`. `spawnEnemyTimer` is the delay of the pending timer. -/
structure SpawnManager where
  preIndex : ℚ := -1
  makeCount : ℤ := 0
  makeTargetCount : ℤ := 0
  spawnEnemyTimer : Option ℚ := none
  deriving DecidableEq

/-- What one firing of `MakeEnemy` is answered: the draws `rIndex`, `rate` and `randTime`, and whether
`SpawnActor`, should it be called, answers with an actor. `MakeEnemy` does not look at the last. -/
structure MakeEnemyDraw where
  rIndex : ℤ
  rate : ℤ
  randTime : ℚ
  actor : Bool

/-- The draws `FMath::RandRange` can make. -/
structure MakeEnemyDraw.Possible (cfg : SpawnConfig) (draw : MakeEnemyDraw) : Prop where
  rIndex : RandRange 0 (cfg.spawnNum - 1) draw.rIndex
  rate : RandRange 0 99 draw.rate
  randTime : FRandRange cfg.minTime cfg.maxTime draw.randTime

instance (cfg : SpawnConfig) (draw : MakeEnemyDraw) : Decidable (draw.Possible cfg) :=
  decidable_of_iff
    (RandRange 0 (cfg.spawnNum - 1) draw.rIndex ∧ RandRange 0 99 draw.rate ∧
      FRandRange cfg.minTime cfg.maxTime draw.randTime)
    ⟨fun ⟨rIndex, rate, randTime⟩ => ⟨rIndex, rate, randTime⟩,
      fun ⟨rIndex, rate, randTime⟩ => ⟨rIndex, rate, randTime⟩⟩

/-- The calls of an attempt: location and rotation of `spawnList[rIndex]` are looked up, and
`SpawnActor<AEnemy>` is called with those of `spawnList[rIndex]`. -/
inductive SpawnCall
  | getActorLocation (rIndex : ℤ)
  | getActorRotation (rIndex : ℤ)
  | spawnActor (rIndex : ℤ)
  deriving DecidableEq

/-- The index into `spawnList` that a call uses. -/
def SpawnCall.rIndex : SpawnCall → ℤ
  | .getActorLocation rIndex | .getActorRotation rIndex | .spawnActor rIndex => rIndex

def SpawnCall.isSpawnActor : SpawnCall → Bool
  | .spawnActor _ => true
  | _ => false

/-- How many enemies the calls of a firing leave in the game: those that `SpawnActor` answers with. -/
def MakeEnemyDraw.actors (draw : MakeEnemyDraw) (calls : List SpawnCall) : ℕ :=
  if draw.actor then calls.countP SpawnCall.isSpawnActor else 0

theorem MakeEnemyDraw.actors_le (draw : MakeEnemyDraw) (calls : List SpawnCall) :
    draw.actors calls ≤ calls.countP SpawnCall.isSpawnActor := by
  unfold actors
  split
  · exact le_refl _
  · exact Nat.zero_le _

namespace SpawnManager

/-- The end of `BeginPlay` and of `MakeEnemy`: the next firing after a random whole time. -/
def armSpawnTimer (sm : SpawnManager) (randTime : ℚ) : SpawnManager :=
  { sm with spawnEnemyTimer := setTimer (truncToInt randTime) }

/-- `ASpawnManager::BeginPlay`. -/
def beginPlay (sm : SpawnManager) (randTime : ℚ) : SpawnManager :=
  sm.armSpawnTimer randTime

/-- The drawn index, moved on by one where it is the index of the attempt before. -/
def nextIndex (cfg : SpawnConfig) (sm : SpawnManager) (rIndex : ℤ) : ℤ :=
  if toFloat rIndex = sm.preIndex then (rIndex + 1).tmod cfg.spawnNum else rIndex

/-- The chance in percent that an attempt makes an enemy. -/
def levelTargetRate (level : ℤ) : ℤ :=
  if level < 5 then 50 else -1

/-- The calls of an attempt at an index, at the game mode's level. -/
def attemptCalls (level rate rIndex : ℤ) : List SpawnCall :=
  .getActorLocation rIndex :: .getActorRotation rIndex ::
    if rate < levelTargetRate level then [.spawnActor rIndex] else []

/-- `ASpawnManager::MakeEnemy` at the game mode's level. Indexing `spawnList` out of its range is
not possible. -/
def makeEnemy (cfg : SpawnConfig) (level : ℤ) (sm : SpawnManager) (draw : MakeEnemyDraw) :
    Option (SpawnManager × List SpawnCall) :=
  if draw.Possible cfg then
    if sm.makeCount < sm.makeTargetCount then
      let rIndex := sm.nextIndex cfg draw.rIndex
      if 0 ≤ rIndex ∧ rIndex < cfg.spawnNum then
        let made := { sm with makeCount := sm.makeCount + 1, preIndex := toFloat rIndex }
        some (made.armSpawnTimer draw.randTime, attemptCalls level draw.rate rIndex)
      else none
    else some (sm.armSpawnTimer draw.randTime, [])
  else none

/-- What one firing of `MakeEnemy` can do: nothing but arm the timer again when the wave is full,
and otherwise one attempt, which counts whether or not it makes an enemy. -/
inductive Made (cfg : SpawnConfig) (level : ℤ) (sm : SpawnManager) (draw : MakeEnemyDraw) :
    SpawnManager → List SpawnCall → Prop
  | full : sm.makeTargetCount ≤ sm.makeCount →
      Made cfg level sm draw (sm.armSpawnTimer draw.randTime) []
  | attempt : sm.makeCount < sm.makeTargetCount →
      0 ≤ sm.nextIndex cfg draw.rIndex → sm.nextIndex cfg draw.rIndex < cfg.spawnNum →
      Made cfg level sm draw
        ({ sm with
            makeCount := sm.makeCount + 1
            preIndex := toFloat (sm.nextIndex cfg draw.rIndex) }.armSpawnTimer draw.randTime)
        (attemptCalls level draw.rate (sm.nextIndex cfg draw.rIndex))

theorem makeEnemy_made {cfg : SpawnConfig} {level : ℤ} {sm next : SpawnManager}
    {draw : MakeEnemyDraw} {out : List SpawnCall}
    (fired : sm.makeEnemy cfg level draw = some (next, out)) :
    draw.Possible cfg ∧ Made cfg level sm draw next out := by
  unfold makeEnemy at fired
  by_cases possible : draw.Possible cfg
  · rw [if_pos possible] at fired
    refine ⟨possible, ?_⟩
    by_cases room : sm.makeCount < sm.makeTargetCount
    · rw [if_pos room] at fired
      by_cases inside : 0 ≤ sm.nextIndex cfg draw.rIndex ∧
          sm.nextIndex cfg draw.rIndex < cfg.spawnNum
      · simp only [inside, and_self, if_true, Option.some.injEq, Prod.mk.injEq] at fired
        obtain ⟨rfl, rfl⟩ := fired
        exact .attempt room inside.1 inside.2
      · simp only [inside, if_false, reduceCtorEq] at fired
    · rw [if_neg room] at fired
      cases fired
      exact .full (not_lt.mp room)
  · rw [if_neg possible] at fired
    cases fired

section Calls

variable {level rate rIndex : ℤ}

/-- An attempt looks its index up and uses no other. -/
theorem rIndex_of_mem_attemptCalls {call : SpawnCall} (member : call ∈ attemptCalls level rate rIndex) :
    call.rIndex = rIndex := by
  unfold attemptCalls at member
  rcases List.mem_cons.mp member with rfl | member
  · rfl
  · rcases List.mem_cons.mp member with rfl | member
    · rfl
    · split at member
      · rw [List.mem_singleton.mp member]
        rfl
      · cases member

/-- An attempt calls `SpawnActor` once, if its rate is low enough. -/
theorem countP_attemptCalls :
    (attemptCalls level rate rIndex).countP SpawnCall.isSpawnActor =
      if rate < levelTargetRate level then 1 else 0 := by
  unfold attemptCalls
  split <;> rfl

end Calls

end SpawnManager

/-! ### The game mode -/

/-- `AMyTPSGameGameModeBase`, with its pending `LevelUpProcess` timers. -/
structure GameMode where
  level : ℤ := 0
  exp : ℤ := 0
  needExp : ℤ := 1
  spawnManager : SpawnManager := {}
  levelUpTimers : ℕ := 0
  deriving DecidableEq

/-- What is seen of the game mode: `LevelUpProcess` runs, on this experience and this need, and
arms a timer for itself. -/
inductive GameModeCall
  | levelUpProcess (exp needExp : ℤ)
  | setLevelUpTimer
  deriving DecidableEq

namespace GameMode

/-- `AMyTPSGameGameModeBase::LevelUp`. -/
def levelUp (gm : GameMode) : GameMode :=
  { gm with
    level := gm.level + 1
    spawnManager :=
      { gm.spawnManager with makeTargetCount := gm.level + 1, makeCount := 0 }
    needExp := gm.level + 1 }

/-- `AMyTPSGameGameModeBase::BeginPlay`, once it has found the spawn manager. -/
def beginPlay : GameMode :=
  levelUp {}

/-- `AMyTPSGameGameModeBase::LevelUpProcess`. -/
def levelUpProcess (gm : GameMode) : GameMode × List GameModeCall :=
  let next := levelUp { gm with exp := gm.exp - gm.needExp }
  if next.needExp ≤ next.exp then
    ({ next with levelUpTimers := next.levelUpTimers + 1 },
      [.levelUpProcess gm.exp gm.needExp, .setLevelUpTimer])
  else (next, [.levelUpProcess gm.exp gm.needExp])

/-- `AMyTPSGameGameModeBase::AddExp`. -/
def addExp (gm : GameMode) (amount : ℤ) : GameMode × List GameModeCall :=
  let awarded := { gm with exp := gm.exp + amount }
  if awarded.needExp ≤ awarded.exp then awarded.levelUpProcess else (awarded, [])

/-- One of the pending timers fires `LevelUpProcess`. -/
def fireLevelUpTimer (gm : GameMode) : Option (GameMode × List GameModeCall) :=
  if 0 < gm.levelUpTimers then
    some (levelUpProcess { gm with levelUpTimers := gm.levelUpTimers - 1 })
  else none

/-- The game mode's own events. -/
inductive Event
  | addExp (amount : ℤ)
  | levelUpTimer

/-- The game mode on its own. -/
def step : Step GameMode Event GameModeCall
  | gm, .addExp amount => some (gm.addExp amount)
  | gm, .levelUpTimer => gm.fireLevelUpTimer

section Lemmas

variable (gm : GameMode)

@[simp] theorem levelUp_exp : gm.levelUp.exp = gm.exp := rfl

@[simp] theorem levelUp_needExp : gm.levelUp.needExp = gm.level + 1 := rfl

@[simp] theorem levelUp_levelUpTimers : gm.levelUp.levelUpTimers = gm.levelUpTimers := rfl

/-- Everything `LevelUpProcess` does to the counters: a level up paid for with the old need, and a
timer if the new need is met already. -/
theorem levelUpProcess_spec :
    gm.levelUpProcess.1 =
      { levelUp { gm with exp := gm.exp - gm.needExp } with
        levelUpTimers := gm.levelUpTimers +
          if gm.level + 1 ≤ gm.exp - gm.needExp then 1 else 0 } := by
  unfold levelUpProcess
  by_cases again : gm.level + 1 ≤ gm.exp - gm.needExp
  · simp [again]
  · simp [again, levelUp]

theorem levelUpProcess_calls :
    gm.levelUpProcess.2 = .levelUpProcess gm.exp gm.needExp ::
      if gm.level + 1 ≤ gm.exp - gm.needExp then [.setLevelUpTimer] else [] := by
  unfold levelUpProcess
  by_cases again : gm.level + 1 ≤ gm.exp - gm.needExp
  · simp [again]
  · simp [again]

theorem addExp_reached {amount : ℤ} (reached : gm.needExp ≤ gm.exp + amount) :
    gm.addExp amount = levelUpProcess { gm with exp := gm.exp + amount } :=
  if_pos reached

theorem addExp_short {amount : ℤ} (short : ¬ gm.needExp ≤ gm.exp + amount) :
    gm.addExp amount = ({ gm with exp := gm.exp + amount }, []) :=
  if_neg short

/-- The one experience that completes the need leaves none, and no timer. -/
theorem addExp_last (last : gm.exp + 1 = gm.needExp) (level : 0 ≤ gm.level) :
    (gm.addExp 1).1 = levelUp { gm with exp := 0 } := by
  have rest : gm.exp + 1 - gm.needExp = 0 := by omega
  rw [addExp_reached gm last.ge, levelUpProcess_spec]
  have again : ¬ gm.level + 1 ≤ gm.exp + 1 - gm.needExp := by omega
  rw [if_neg again, rest]
  rfl

/-- `AddExp` of one changes the experience or the level. -/
theorem addExp_one_moves :
    ¬ ((gm.addExp 1).1.exp = gm.exp ∧ (gm.addExp 1).1.level = gm.level) := by
  rintro ⟨exp, level⟩
  by_cases reached : gm.needExp ≤ gm.exp + 1
  · rw [addExp_reached gm reached, levelUpProcess_spec] at level
    change gm.level + 1 = gm.level at level
    omega
  · rw [addExp_short gm reached] at exp
    change gm.exp + 1 = gm.exp at exp
    omega

/-- `AddExp` arms a timer for each call of `SetTimer` it makes. -/
theorem addExp_timers (amount : ℤ) :
    (gm.addExp amount).1.levelUpTimers =
      gm.levelUpTimers + (gm.addExp amount).2.count .setLevelUpTimer := by
  by_cases reached : gm.needExp ≤ gm.exp + amount
  · rw [addExp_reached gm reached, levelUpProcess_spec, levelUpProcess_calls]
    split <;> rfl
  · rw [addExp_short gm reached]
    rfl

end Lemmas

end GameMode

end MyTPSGame
