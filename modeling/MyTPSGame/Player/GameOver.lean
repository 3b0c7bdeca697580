/-
**The end of the game.**

`OnHit` asks whether there is health left, not whether there was any before. So every strike at a
player without health ends the game again, and the game ends once if and only if there is no such
strike (`game_over_once_iff`).
-/

import MyTPSGame.Model.Health

namespace MyTPSGame

open Machine

namespace World

variable {cfg : GameConfig} {w : World} {ts : List Move} {t : Move}

/-- The game-over event comes with the hit that takes the last health. -/
def EndsGame (t : Move) : Prop :=
  WorldCall.player .onMyGameOver ∈ t.out ↔ 0 < t.pre.player.HP ∧ t.post.player.HP ≤ 0

instance : DecidablePred EndsGame := fun t =>
  inferInstanceAs (Decidable
    (WorldCall.player .onMyGameOver ∈ t.out ↔ 0 < t.pre.player.HP ∧ t.post.player.HP ≤ 0))

/-- The game ends with the hit that takes the last health, and never again. -/
def GameOverOnce (ts : List Move) : Prop :=
  (∀ t ∈ ts, EndsGame t) ∧ emitted (.player .onMyGameOver) ts ≤ 1

/-- No enemy strikes a player without health. -/
def StrikesAlive (cfg : GameConfig) (ts : List Move) : Prop :=
  ∀ t ∈ ts, t.pre.strikes cfg t.event = true → 0 < t.pre.player.HP

theorem endsGame_iff (taken : t.Taken (step cfg)) :
    EndsGame t ↔ (t.pre.strikes cfg t.event = true → 0 < t.pre.player.HP) := by
  unfold EndsGame
  rw [← List.count_pos_iff]
  cases (taken_change taken).health with
  | spared calm same _ none =>
    rw [none, same, calm]
    constructor
    · exact fun _ strikes => absurd strikes Bool.false_ne_true
    · exact fun _ => ⟨fun call => absurd call (lt_irrefl 0), fun crosses => by omega⟩
  | struck strikes less _ count =>
    rw [count, less, strikes]
    constructor
    · intro ends _
      by_contra gone
      have called : 0 < if t.pre.player.HP - 1 ≤ 0 then 1 else 0 := by
        rw [if_pos (by omega)]
        exact Nat.one_pos
      exact gone (ends.mp called).1
    · intro alive
      have before := alive rfl
      split <;> omega

/-- How often the game can still end. -/
def endsLeft (w : World) : ℕ :=
  if 0 < w.player.HP then 1 else 0

theorem endsLeft_step (taken : t.Taken (step cfg))
    (alive : t.pre.strikes cfg t.event = true → 0 < t.pre.player.HP) :
    t.post.endsLeft + t.out.count (.player .onMyGameOver) = t.pre.endsLeft := by
  unfold endsLeft
  cases (taken_change taken).health with
  | spared _ same _ none => rw [same, none, add_zero]
  | struck strikes less _ count =>
    have before := alive strikes
    rw [count, less, if_pos before]
    by_cases last : t.pre.player.HP - 1 ≤ 0
    · rw [if_neg (not_lt.mpr last), if_pos last]
    · rw [if_pos (not_le.mp last), if_neg last]

/-- **The game ends once if and only if no enemy strikes a player without health.** -/
theorem game_over_once_iff {placed : ℕ} {randTime : ℚ}
    (run : Run (step cfg) (beginPlay cfg placed randTime) ts w) :
    GameOverOnce ts ↔ StrikesAlive cfg ts := by
  constructor
  · rintro ⟨ends, _⟩ t member
    exact (endsGame_iff (run.taken member)).mp (ends t member)
  · intro alive
    refine ⟨fun t member => (endsGame_iff (run.taken member)).mpr (alive t member), ?_⟩
    have one : (beginPlay cfg placed randTime).endsLeft ≤ 1 := by
      unfold endsLeft
      split <;> omega
    have paid : total (fun t => t.out.count (.player .onMyGameOver)) ts ≤ _ :=
      run.total_le endsLeft _ (Nat.zero_le _) fun t member taken =>
        (endsLeft_step taken (alive t member)).le
    exact paid.trans one

/-- One hit of two leaves the game going. -/
theorem game_over_once_iff_approach :
    GameOverOnce (trace (step {}) (beginPlay {} 1 1) (approach 0)) ↔
      StrikesAlive {} (trace (step {}) (beginPlay {} 1 1) (approach 0)) :=
  game_over_once_iff (run_trace (step {}) (beginPlay {} 1 1) (approach 0))

/-- An enemy that goes on striking ends the game four times. -/
theorem game_over_again :
    Run (step {}) (beginPlay {} 1 1)
        (trace (step {}) (beginPlay {} 1 1) (approach 0 ++ approach 0))
        (final (step {}) (beginPlay {} 1 1) (approach 0 ++ approach 0)) ∧
      emitted (.player .onMyGameOver)
        (trace (step {}) (beginPlay {} 1 1) (approach 0 ++ approach 0)) = 4 ∧
      ¬ GameOverOnce (trace (step {}) (beginPlay {} 1 1) (approach 0 ++ approach 0)) :=
  ⟨run_trace _ _ _, by decide +kernel, fun once => absurd once.2 (by decide +kernel)⟩

end World

end MyTPSGame
