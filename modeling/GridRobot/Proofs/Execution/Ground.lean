import GridRobot.Campaign.Levels
import GridRobot.Proofs.Execution.Recorded
import GridRobot.Proofs.Level.Ground

/-!
# Executions on the same ground

An execution depends on a level only through its ground. The two runs go in step: as long as both
robots are the same, they look at the same cell, and `Safe` says that it is one on which the levels
agree.
-/

namespace GridRobot

namespace Robot

variable {l m : Level} {r : Robot}

theorem drive_of_sameGround (h : l.SameGround m) (r : Robot) (d : Direction)
    (line : Position → LogLine) : r.drive l d line = r.drive m d line := by
  have hiff := h.obstacle?_eq_none_iff (p := r.position.neighbor d)
  rcases drive_cases r l d line with ⟨o, ho, he⟩ | ⟨ho, he⟩ <;>
    rcases drive_cases r m d line with ⟨o', ho', he'⟩ | ⟨ho', he'⟩
  · rw [he, he']
  · rw [hiff.mpr ho'] at ho
    contradiction
  · rw [hiff.mp ho] at ho'
    contradiction
  · rw [he, he']

theorem perform_of_sameGround (h : l.SameGround m) (r : Robot) (i : Instruction) :
    r.perform l i = r.perform m i := by
  cases i with
  | move => exact drive_of_sameGround h r _ _
  | moveBack => exact drive_of_sameGround h r _ _
  | turnLeft => rfl
  | turnRight => rfl

/-- Of the coin that it takes, a robot keeps the id. -/
theorem collect_of_sameGround (h : l.SameGround m) (hr : l.Touchable r.position) :
    r.collect l = r.collect m := by
  have hcoin := h.coin r.position hr
  cases hl : l.entity? .coin r.position <;> cases hm : m.entity? .coin r.position <;>
    simp_all [collect]

theorem checkGoal_of_sameGround (h : l.SameGround m) (hr : l.Touchable r.position) :
    r.checkGoal l = r.checkGoal m := by
  have hgoal := h.goal r.position hr
  rcases checkGoal_cases r l with ⟨hg, he⟩ | ⟨hg, he⟩ <;>
    rcases checkGoal_cases r m with ⟨hg', he'⟩ | ⟨hg', he'⟩
  · rw [he, he']
  · exact absurd (hgoal.mp hg) hg'
  · exact absurd (hgoal.mpr hg') hg
  · rw [he, he']

theorem Safe.touchable (h : r.Safe l) : l.Touchable r.position :=
  h.cell.elim .inr fun hc => .inl hc.1

/-- A step ends on a cell that the robot can touch, and that is the only cell that it looks at. -/
theorem step_of_sameGround (h : l.SameGround m) (hr : r.Safe l) (i : Instruction) :
    step l r i = step m r i := by
  have hperform := perform_of_sameGround h r i
  by_cases ht : r.terminal = true
  · rw [step_of_terminal ht, step_of_terminal ht]
  · by_cases hc : (r.perform l i).crashed = true
    · simp only [step, ht, ← hperform, hc, ↓reduceIte]
    · have hnext := (step_safe i hr).touchable
      simp only [step, ht, ← hperform, hc, ↓reduceIte, Bool.false_eq_true] at hnext ⊢
      rw [checkGoal_position, collect_position] at hnext
      rw [← collect_of_sameGround h hnext, checkGoal_of_sameGround h (by rwa [collect_position])]

theorem run_of_sameGround (h : l.SameGround m) (hr : r.Safe l) (t : List Instruction) :
    run l r t = run m r t := by
  induction t generalizing r with
  | nil => rfl
  | cons i t ih => rw [run_cons, run_cons, ← step_of_sameGround h hr, ih (step_safe i hr)]

theorem start_of_sameGround (h : l.SameGround m) : start l = start m := by
  rw [start, start, h.start, h.heading]

end Robot

namespace Program

variable {l m : Level}

theorem robotAfter_of_sameGround (h : l.SameGround m) (program : Program) (k : Nat) :
    program.robotAfter l k = program.robotAfter m k := by
  rw [robotAfter, robotAfter, Robot.after, Robot.after,
    Robot.run_of_sameGround h (Robot.start_safe l), Robot.start_of_sameGround h]

theorem endsAfter_of_sameGround (h : l.SameGround m) {program : Program} {config : Config} {k : Nat}
    (hk : program.EndsAfter l config k) : program.EndsAfter m config k := by
  refine Ends.transfer rfl (fun j _ => ?_) hk
  exact congrArg Robot.terminal (robotAfter_of_sameGround h program j).symm

/-- For every program and configuration, an execution is the same on two levels of the same ground,
in all that it records and tells. So it is the same after any number of changes of a level that no
robot can tell, made or taken back: other names and limits, other ids of walls and goals, another
order of what does not share a kind and a cell, and more or fewer entities that are behind another
one or off the board. -/
theorem execute_of_sameGround (program : Program) (config : Config) :
    (∀ l m : Level, l.SameGround m → program.execute l config = program.execute m config) ∧
    ∀ l m : Level, Relation.EqvGen Level.Unfelt l m →
      program.execute l config = program.execute m config := by
  have hsame (l m : Level) (h : l.SameGround m) :
      program.execute l config = program.execute m config := by
    by_cases hne : program = []
    · rw [execute_of_empty l config hne, execute_of_empty m config hne]
    · obtain ⟨k, hend, hexec⟩ := execute_eq l config hne
      rw [hexec, execute_eq_executionAfter hne (endsAfter_of_sameGround h hend),
        executionAfter_congr fun j _ => robotAfter_of_sameGround h program j]
  exact ⟨hsame, fun l m h => hsame l m (Level.sameGround_of_eqvGen h)⟩

/-- The coins are declared the other way round, a third one lies behind the first, a wall and the
goal have other ids, and there is a wall beside the board. -/
theorem execute_of_sameGround_loopLogic :
    let l := Campaign.loopLogic
    let m : Level := { l with
      name := ""
      palette := []
      entities := [⟨"w9", .wall, ⟨5, 0⟩⟩, ⟨"c2", .coin, ⟨4, 0⟩⟩, ⟨"c1", .coin, ⟨2, 0⟩⟩,
        ⟨"c3", .coin, ⟨2, 0⟩⟩, ⟨"", .goal, ⟨5, 5⟩⟩, ⟨"w2", .wall, ⟨5, 1⟩⟩,
        ⟨"w3", .wall, ⟨5, 2⟩⟩, ⟨"w4", .wall, ⟨-1, 0⟩⟩] }
    l.SameGround m ∧ ∃ e, l.solution.execute l {} = .ok e ∧ l.solution.execute m {} = .ok e ∧
      e.stats.coinsCollected = 2 := by
  intro l m
  have hground : l.SameGround m := by
    refine ⟨rfl, rfl, rfl, ?_, ?_, ?_⟩
    · intro p hp
      have hoff : (⟨-1, 0⟩ : Position) ≠ p := by
        rintro rfl
        exact absurd hp (by decide)
      simp [Level.Has, l, m, Campaign.loopLogic, hoff]
    · intro p hp
      simp [Level.Has, l, m, Campaign.loopLogic]
    · intro p hp
      by_cases hfirst : (⟨2, 0⟩ : Position) = p
      · subst hfirst
        rfl
      · by_cases hsecond : (⟨4, 0⟩ : Position) = p
        · subst hsecond
          rfl
        · simp [Level.entity?, l, m, Campaign.loopLogic, hfirst, hsecond]
  have hsame := (execute_of_sameGround l.solution {}).1 l m hground
  obtain ⟨k, -, hexec⟩ := execute_eq l {} (show l.solution ≠ [] from List.cons_ne_nil _ _)
  have hcoins : (l.solution.execute l {}).map (·.stats.coinsCollected) = .ok 2 := by
    decide +kernel
  rw [hexec] at hcoins
  exact ⟨hground, _, hexec, hsame ▸ hexec, Except.ok.inj hcoins⟩

end Program

end GridRobot
