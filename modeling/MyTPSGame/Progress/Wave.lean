/-
**Waves: what the closed game is for, without its classes.**

A wave of level `L` allows `L` attempts to make an enemy and asks for `L` kills. `Wave` carries what
keeps the counts together: kills and living enemies come from attempts (`earned`), and no wave has
more attempts than its level (`attempts_le`) or all of its kills (`kills_lt`).

* `last_kill`: a wave is left when every attempt of it has been made and its last enemy dies;
* `attempts_run`: all attempts of a run are those of the waves before and of the last one so far;
* `supplied_iff`: the enemies alive and to come are enough if and only if no attempt has failed;
* `supplied_run`: that is so as long as every attempt makes an enemy.
-/

import MyTPSGame.Arith.Staircase
import MyTPSGame.Machine.Account

namespace MyTPSGame

open Machine Staircase

/-- A wave under way. `attempts` counts the attempts to make an enemy. -/
structure Wave where
  level : ℕ
  attempts : ℕ
  kills : ℕ
  alive : ℕ
  kills_lt : kills < level
  earned : alive + kills ≤ attempts
  attempts_le : attempts ≤ level

namespace Wave

/-- The first wave. -/
def first : Wave where
  level := 1
  attempts := 0
  kills := 0
  alive := 0
  kills_lt := by decide
  earned := by decide
  attempts_le := by decide

/-- The events of a wave: an attempt that makes an enemy or fails, and a kill. -/
inductive Event
  | attempt (makes : Bool)
  | kill
  deriving DecidableEq

/-- What a wave can tell: it was the last kill. -/
inductive Call
  | levelUp
  deriving DecidableEq

variable (wave : Wave)

/-- An attempt that the wave has left. -/
def attempted (makes : Bool) (room : wave.attempts < wave.level) : Wave :=
  { wave with
    attempts := wave.attempts + 1
    alive := wave.alive + makes.toNat
    earned := by
      have earned := wave.earned
      have one := Bool.toNat_le makes
      omega
    attempts_le := room }

/-- An attempt, where the wave has one left. -/
def attempt (makes : Bool) : Option (Wave × List Call) :=
  if room : wave.attempts < wave.level then some (wave.attempted makes room, []) else none

/-- A kill that is not the last. -/
def killOne (more : wave.kills + 1 < wave.level) (live : 0 < wave.alive) : Wave :=
  { wave with
    kills := wave.kills + 1
    alive := wave.alive - 1
    kills_lt := more
    earned := by
      have earned := wave.earned
      omega }

/-- The wave after this one. -/
def next (live : 0 < wave.alive) (last : ¬ wave.kills + 1 < wave.level) : Wave where
  level := wave.level + 1
  attempts := 0
  kills := 0
  alive := wave.alive - 1
  kills_lt := Nat.succ_pos _
  earned := by
    have earned := wave.earned
    have room := wave.attempts_le
    omega
  attempts_le := Nat.zero_le _

/-- A kill, where there is an enemy. -/
def kill : Option (Wave × List Call) :=
  if live : 0 < wave.alive then
    if more : wave.kills + 1 < wave.level then some (wave.killOne more live, [])
    else some (wave.next live more, [.levelUp])
  else none

/-- One event of a wave. -/
def step : Step Wave Event Call
  | wave, .attempt makes => wave.attempt makes
  | wave, .kill => wave.kill

section Outcomes

variable {wave}

theorem step_attempt (makes : Bool) (room : wave.attempts < wave.level) :
    step wave (.attempt makes) = some (wave.attempted makes room, []) := dif_pos room

theorem step_killOne (more : wave.kills + 1 < wave.level) (live : 0 < wave.alive) :
    step wave .kill = some (wave.killOne more live, []) := by
  show wave.kill = _
  rw [kill, dif_pos live, dif_pos more]

theorem step_next (live : 0 < wave.alive) (last : ¬ wave.kills + 1 < wave.level) :
    step wave .kill = some (wave.next live last, [.levelUp]) := by
  show wave.kill = _
  rw [kill, dif_pos live, dif_neg last]

end Outcomes

/-! ### The end of a wave -/

/-- **The last kill of a wave** takes its last enemy, when every attempt has been made. -/
theorem last_kill (live : 0 < wave.alive) (last : ¬ wave.kills + 1 < wave.level) :
    wave.attempts = wave.level ∧ wave.alive = 1 := by
  have less := wave.kills_lt
  have earned := wave.earned
  have room := wave.attempts_le
  omega

theorem next_alive (live : 0 < wave.alive) (last : ¬ wave.kills + 1 < wave.level) :
    (wave.next live last).alive = 0 := by
  show wave.alive - 1 = 0
  rw [(wave.last_kill live last).2]

/-- The level rises with the last kill only. -/
theorem level_rises {t : Transition Wave Event Call} (taken : t.Taken step)
    (rises : t.post.level ≠ t.pre.level) :
    t.pre.attempts = t.pre.level ∧ t.post.alive = 0 := by
  obtain ⟨wave, event, after, out⟩ := t
  change step wave event = some (after, out) at taken
  cases event with
  | attempt makes =>
    change wave.attempt makes = _ at taken
    unfold attempt at taken
    split at taken
    · cases taken
      exact absurd rfl rises
    · cases taken
  | kill =>
    change wave.kill = _ at taken
    unfold kill at taken
    split at taken
    next live =>
      split at taken
      next more =>
        cases taken
        exact absurd rfl rises
      next last =>
        cases taken
        exact ⟨(wave.last_kill live last).1, wave.next_alive live last⟩
    next => cases taken

/-! ### Attempts -/

section Attempts

/-- How many attempts an event is. -/
def Event.attempts : Event → ℕ
  | .attempt _ => 1
  | .kill => 0

/-- An attempt is one more, and a wave is left with all of its attempts made. -/
theorem attempts_step {t : Transition Wave Event Call} (taken : t.Taken step) :
    triangle t.post.level + t.post.attempts =
      triangle t.pre.level + t.pre.attempts + t.event.attempts := by
  obtain ⟨wave, event, after, out⟩ := t
  change step wave event = some (after, out) at taken
  cases event with
  | attempt makes =>
    change wave.attempt makes = _ at taken
    unfold attempt at taken
    split at taken
    · cases taken
      show triangle wave.level + ((wave.attempts + 1 : ℕ) : ℤ) =
        triangle wave.level + wave.attempts + 1
      push_cast
      ring
    · cases taken
  | kill =>
    change wave.kill = _ at taken
    unfold kill at taken
    split at taken
    next live =>
      split at taken
      next more =>
        cases taken
        exact (add_zero _).symm
      next last =>
        cases taken
        have used := (wave.last_kill live last).1
        show triangle ((wave.level + 1 : ℕ) : ℤ) + (0 : ℕ) =
          triangle wave.level + wave.attempts + (0 : ℕ)
        rw [used, Nat.cast_succ, triangle_succ]
    next => cases taken

/-- **All attempts of a run** are those of the waves before and of the last one so far. -/
theorem attempts_run {wave : Wave} {ts : List (Transition Wave Event Call)}
    (run : Run step first ts wave) :
    ((((ts.map Transition.event).map Event.attempts).sum : ℕ) : ℤ) =
      triangle wave.level + wave.attempts := by
  have moved := run.potential_eq (fun wave => triangle wave.level + (wave.attempts : ℤ))
    (fun t => (t.event.attempts : ℤ)) fun _ _ taken => attempts_step taken
  rw [List.map_map]
  refine (total_natCast ℤ (fun t => t.event.attempts) ts).trans ?_
  rw [moved]
  exact (zero_add _).symm

end Attempts

/-! ### Supply -/

/-- The enemies alive and the attempts left are enough for the kills that are missing. -/
def Supplied : Prop :=
  wave.level - wave.kills ≤ wave.alive + (wave.level - wave.attempts)

/-- Supply is a matter of failed attempts. -/
theorem supplied_iff : wave.Supplied ↔ wave.alive + wave.kills = wave.attempts := by
  have less := wave.kills_lt
  have earned := wave.earned
  have room := wave.attempts_le
  unfold Supplied
  omega

variable {wave}

/-- A failed attempt leaves too few. -/
theorem attempt_false_short {t : Transition Wave Event Call} (taken : t.Taken step)
    (fails : t.event = .attempt false) : ¬ t.post.Supplied := by
  obtain ⟨wave, event, after, out⟩ := t
  obtain rfl : event = .attempt false := fails
  have earned := wave.earned
  rw [supplied_iff]
  change wave.attempt false = some (after, out) at taken
  unfold attempt at taken
  split at taken
  · cases taken
    show ¬ wave.alive + 0 + wave.kills = wave.attempts + 1
    omega
  · cases taken

/-- An attempt that makes an enemy keeps the supply, and a kill does. -/
theorem supplied_step {t : Transition Wave Event Call} (taken : t.Taken step)
    (makes : t.event ≠ .attempt false) (supplied : t.pre.Supplied) : t.post.Supplied := by
  obtain ⟨wave, event, after, out⟩ := t
  rw [supplied_iff] at supplied ⊢
  change wave.alive + wave.kills = wave.attempts at supplied
  change after.alive + after.kills = after.attempts
  change step wave event = some (after, out) at taken
  cases event with
  | attempt made =>
    cases made with
    | false => exact absurd rfl makes
    | true =>
      change wave.attempt true = _ at taken
      unfold attempt at taken
      split at taken
      · cases taken
        show wave.alive + 1 + wave.kills = wave.attempts + 1
        omega
      · cases taken
  | kill =>
    change wave.kill = _ at taken
    unfold kill at taken
    split at taken
    next live =>
      split at taken
      next more =>
        cases taken
        show wave.alive - 1 + (wave.kills + 1) = wave.attempts
        omega
      next last =>
        cases taken
        show wave.alive - 1 + 0 = 0
        have alone := (wave.last_kill live last).2
        omega
    next => cases taken

/-- **Supply over a run**: no attempt fails, so every wave can be finished. -/
theorem supplied_run {ts : List (Transition Wave Event Call)} (run : Run step first ts wave)
    (makes : Event.attempt false ∉ ts.map Transition.event) : wave.Supplied :=
  run.invariant (Nat.le_refl 1) fun t member taken =>
    supplied_step taken fun fails => makes (List.mem_map.mpr ⟨t, member, fails⟩)

end Wave

end MyTPSGame
