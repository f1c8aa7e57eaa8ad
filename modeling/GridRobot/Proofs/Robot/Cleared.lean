import Mathlib.Logic.Function.Iterate
import GridRobot.Proofs.Robot.Step

/-!
# Cells with nothing left on them

Whatever a robot does it then looks at its cell, and if it is still running there is nothing left
for it there: no goal, and no coin that it does not have. As long as this holds, to look at the cell
once more changes nothing, so a robot can turn on the spot without a trace but in its log.
-/

namespace GridRobot.Robot

variable {l : Level} {r s : Robot} {i : Instruction}

/-- Nothing is left for the robot on its cell. -/
structure Cleared (l : Level) (r : Robot) : Prop where
  goal : ¬l.Has .goal r.position
  coin : ∀ c, l.entity? .coin r.position = some c → c.id ∈ r.coins

namespace Cleared

/-- A cell stays cleared for a robot with at least the same coins. -/
theorem of_position_eq (h : r.Cleared l) (hp : s.position = r.position) (hc : r.coins ⊆ s.coins) :
    s.Cleared l := by
  refine ⟨?_, ?_⟩
  · rw [hp]
    exact h.goal
  · intro c hfound
    rw [hp] at hfound
    exact hc (h.coin c hfound)

theorem collect_eq (h : r.Cleared l) : r.collect l = r := by
  rcases collect_cases r l with ⟨c, hfound, hnew, -⟩ | ⟨-, he⟩
  · exact absurd (h.coin c hfound) hnew
  · exact he

theorem checkGoal_eq (h : r.Cleared l) : r.checkGoal l = r := by
  rcases checkGoal_cases r l with ⟨hg, -⟩ | ⟨-, he⟩
  · exact absurd hg h.goal
  · exact he

end Cleared

/-- Behind an instruction that nothing stops, the robot looks at its cell. -/
theorem Lands.step_eq {next : Robot} (h : Lands l r i next) (hr : r.terminal = false) :
    step l r i = (next.collect l).checkGoal l := by
  have hc : next.crashed = false := by rw [h.crashed, (terminal_eq_false_iff.mp hr).1]
  simp only [step, hr, h.perform_eq, hc, Bool.false_eq_true, ↓reduceIte]

/-- On a cell that is cleared for it, a robot is as the instruction has left it. -/
theorem Lands.step_eq_of_cleared {next : Robot} (h : Lands l r i next) (hr : r.terminal = false)
    (hcleared : next.Cleared l) : step l r i = next := by
  rw [h.step_eq hr, hcleared.collect_eq, hcleared.checkGoal_eq]

/-- A robot is not stopped by what it finds: it has the coin then, and on a goal it would win. -/
theorem cleared_of_look (h : ((r.collect l).checkGoal l).won = false) :
    ((r.collect l).checkGoal l).Cleared l := by
  refine ⟨?_, ?_⟩
  · intro hg
    rw [checkGoal_position] at hg
    have hwon := (checkGoal_won_iff (r.collect l) l).mpr (.inr hg)
    rw [h] at hwon
    exact absurd hwon (by decide)
  · intro c hfound
    rw [checkGoal_position, collect_position] at hfound
    rw [checkGoal_coins]
    exact mem_coins_collect_iff.mpr (.inr ⟨c, hfound, rfl⟩)

/-- A robot that a step leaves running has cleared its cell. -/
theorem step_cleared (i : Instruction) (h : (step l r i).terminal = false) :
    (step l r i).Cleared l := by
  by_cases ht : r.terminal = true
  · rw [step_of_terminal ht, ht] at h
    exact absurd h (by decide)
  · rcases step_cases (l := l) i (by simpa using ht) with ⟨b, -, he⟩ | ⟨-, next, -, he⟩
    · rw [he, crash_terminal] at h
      exact absurd h (by decide)
    · rw [he] at h ⊢
      exact cleared_of_look (terminal_eq_false_iff.mp h).2

/-- On a cell that it has cleared, a robot can turn as often as it likes. -/
theorem run_turnRight (n : Nat) (hr : r.terminal = false) (h : r.Cleared l) :
    run l r (List.replicate n .turnRight) =
      { r with
        facing := Direction.turnRight^[n] r.facing
        log := List.replicate n .turnedRight ++ r.log } := by
  induction n generalizing r with
  | zero => rfl
  | succ n ih =>
    let turned : Robot := { r with facing := r.facing.turnRight }.note .turnedRight
    have hrun : turned.terminal = false := hr
    have hturned : turned.Cleared l := h.of_position_eq rfl (List.Subset.refl _)
    have hstep : step l r .turnRight = turned := Lands.turnRight.step_eq_of_cleared hr hturned
    rw [List.replicate_succ, run_cons, hstep, ih hrun hturned, List.replicate_succ',
      List.append_assoc]
    rfl

end GridRobot.Robot
