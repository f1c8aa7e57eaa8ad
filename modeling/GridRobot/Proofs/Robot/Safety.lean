import GridRobot.Proofs.Robot.Step

/-!
# Where a robot can be, and when it has won

Nothing is assumed of the level: the start may lie off the board, inside a wall or on a goal. The
start cell is therefore the one cell that a robot can be on without having entered it, and a goal
there is only noticed by the first instruction.
-/

namespace GridRobot.Robot

variable {l : Level} {r : Robot}

/-- What holds of a robot from the start on. -/
structure Safe (l : Level) (r : Robot) : Prop where
  cell : r.position = l.start ∨ l.Inside r.position ∧ ¬l.Has .wall r.position
  not_both : ¬(r.crashed = true ∧ r.won = true)
  on_goal : r.won = true → l.Has .goal r.position
  nodup : r.coins.Nodup

/-- What holds of a robot once the goal check has run: it says what is on the robot's cell. -/
def Settled (l : Level) (r : Robot) : Prop :=
  r.crashed = false → (r.won = true ↔ l.Has .goal r.position)

theorem start_safe (l : Level) : (start l).Safe l :=
  ⟨.inl rfl, by simp [start], by simp [start], List.nodup_nil⟩

/-- Only a coin that the robot does not have yet is added to its coins. -/
theorem collect_nodup (h : r.coins.Nodup) : (r.collect l).coins.Nodup := by
  rcases collect_cases r l with ⟨c, -, hc, he⟩ | ⟨-, he⟩
  · rw [he]
    exact List.nodup_cons.mpr ⟨hc, h⟩
  · rw [he]
    exact h

/-- A crash moves nothing, and anything else ends where the robot was or on a free cell. -/
theorem step_safe (i : Instruction) (h : r.Safe l) : (step l r i).Safe l := by
  by_cases ht : r.terminal = true
  · rw [step_of_terminal ht]; exact h
  · have hrun : r.terminal = false := by simpa using ht
    obtain ⟨hc, hw⟩ := terminal_eq_false_iff.mp hrun
    rcases step_cases (l := l) i hrun with ⟨b, -, he⟩ | ⟨-, next, hl, he⟩
    · rw [he]
      exact ⟨h.cell, by simp [crash, hw], by simp [crash, hw], h.nodup⟩
    · rw [he]
      have hnc : next.crashed = false := by rw [hl.crashed, hc]
      have hnw : next.won = false := by rw [hl.won, hw]
      refine ⟨?_, by simp [hnc], ?_, ?_⟩
      · simp only [checkGoal_position, collect_position]
        rcases hl.position with hp | hfree
        · rw [hp]; exact h.cell
        · obtain ⟨hin, hwall⟩ := Level.obstacle?_eq_none_iff.mp hfree
          exact .inr ⟨hin, Level.entity?_eq_none_iff.mp hwall⟩
      · intro hwon
        rw [checkGoal_won_iff, collect_won, hnw] at hwon
        simpa using hwon
      · rw [checkGoal_coins]
        exact collect_nodup (by rw [hl.coins]; exact h.nodup)

/-- Every instruction that is performed ends with the goal check, turns included; a terminal robot
keeps what the check said when it last ran. -/
theorem step_settled (i : Instruction) (h : r.terminal = false ∨ r.Settled l) :
    (step l r i).Settled l := by
  by_cases ht : r.terminal = true
  · rw [step_of_terminal ht]
    exact h.resolve_left (by simp [ht])
  · have hrun : r.terminal = false := by simpa using ht
    rcases step_cases (l := l) i hrun with ⟨b, -, he⟩ | ⟨-, next, hl, he⟩
    · intro hc
      rw [he] at hc
      simp [crash] at hc
    · intro _
      have hnw : next.won = false := by rw [hl.won]; exact (terminal_eq_false_iff.mp hrun).2
      rw [he, checkGoal_won_iff, collect_won, hnw]
      simp

theorem run_safe_of_safe (t : List Instruction) (h : r.Safe l) : (run l r t).Safe l := by
  induction t generalizing r with
  | nil => exact h
  | cons i t ih => exact ih (step_safe i h)

theorem run_settled_of_settled (t : List Instruction) (h : r.Settled l) :
    (run l r t).Settled l := by
  induction t generalizing r with
  | nil => exact h
  | cons i t ih => exact ih (step_settled i (.inr h))

theorem run_settled {t : List Instruction} (ht : t ≠ []) (h : r.terminal = false) :
    (run l r t).Settled l := by
  cases t with
  | nil => exact absurd rfl ht
  | cons i t => exact run_settled_of_settled t (step_settled i (.inl h))

theorem start_running (l : Level) : (start l).terminal = false := rfl

/-- Wherever a run leads, the robot is on its start or on a free cell of the board, it has not both
crashed and won, it has won only on a goal, and once an instruction has been performed a robot that
has not crashed has won exactly if it is on a goal. -/
theorem run_start_safe (l : Level) (t : List Instruction) :
    let r := run l (start l) t
    (r.position = l.start ∨ l.Inside r.position ∧ ¬l.Has .wall r.position) ∧
    ¬(r.crashed = true ∧ r.won = true) ∧
    (r.won = true → l.Has .goal r.position ∧ l.goal? ≠ none) ∧
    (t ≠ [] → r.crashed = false → (r.won = true ↔ l.Has .goal r.position)) ∧
    (t ≠ [] → r.status = .running → ¬l.Has .goal r.position) := by
  intro r
  have hs : r.Safe l := run_safe_of_safe t (start_safe l)
  refine ⟨hs.cell, hs.not_both, ?_, ?_, ?_⟩
  · intro hw
    exact ⟨hs.on_goal hw, Level.goal?_ne_none (hs.on_goal hw)⟩
  · intro ht
    exact run_settled ht (start_running l)
  · intro ht hst hg
    have hc : r.crashed = false := by cases h : r.crashed <;> simp_all [status]
    have hw : r.won = true := (run_settled ht (start_running l) hc).mpr hg
    simp [status, hc, hw] at hst

end GridRobot.Robot
