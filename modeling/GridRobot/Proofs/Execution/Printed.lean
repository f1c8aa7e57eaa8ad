import GridRobot.Proofs.Execution.Recorded

/-!
# What a run prints

A verbose run prints a line at each tick that performs a step, so its lines are those of the steps
that an execution records. Other runs print nothing.
-/

namespace GridRobot

/-- The line of a step: its number, its instruction, and what the robot says of it. -/
def RecordedStep.line (s : RecordedStep) : String :=
  let said := s.robot.lastLine?.getD ""
  s!"[step {s.index}] {s.instruction.text}  → {said}"

/-- What a run of a program has printed after `k` steps. -/
def Program.printed (program : Program) (level : Level) (config : Config) (k : Nat) :
    List String :=
  if config.verbose then (program.recorded level k).map RecordedStep.line else []

namespace Playback

variable {program : Program} {level : Level} {config : Config} {k : Nat}

/-- A tick that performs a step prints its line. -/
theorem printed_succ {q : Playback} (hgo : ¬program.StopsAt level config k)
    (htick : (before program level config k).tick = (q, some (program.robotAfter level (k + 1)))) :
    program.printed level config (k + 1) =
      program.printed level config k ++ (before program level config k).tickLines := by
  have hi := Array.getElem?_eq_getElem (lt_size_of_not_stopsAt hgo)
  have hnext : (before program level config k).next? = _ := hi
  rw [tickLines, htick, hnext]
  cases hv : config.verbose with
  | false => simp [Program.printed, before, hv]
  | true => simp [Program.printed, Program.recorded_succ hi, RecordedStep.line, before, hv]

theorem tickLines_of_none {p : Playback} (h : p.tick.2 = none) : p.tickLines = [] := by
  rw [tickLines, h]
  split <;> simp_all

theorem trail_of_running {p : Playback} (h : p.running = true) (passed : List Playback) :
    p.trail passed = p.tick.1.trail (p :: passed) := by
  rw [trail, dif_pos h]

theorem trail_of_not_running {p : Playback} (h : p.running = false) (passed : List Playback) :
    p.trail passed = passed.reverse := by
  rw [trail, dif_neg (by simp [h])]

/-- What has passed does not change what is still to come. -/
theorem trail_eq_append (p : Playback) (passed : List Playback) :
    p.trail passed = passed.reverse ++ p.trail [] := by
  by_cases h : p.running = true
  · rw [trail_of_running h, trail_of_running h, trail_eq_append p.tick.1 (p :: passed),
      trail_eq_append p.tick.1 [p]]
    simp
  · have hidle : p.running = false := by simpa using h
    rw [trail_of_not_running hidle, trail_of_not_running hidle, List.reverse_nil, List.append_nil]
termination_by p.remaining
decreasing_by all_goals exact remaining_tick_lt h

theorem trail_finished (passed : List Playback) :
    (finished program level config k).trail passed = passed.reverse :=
  trail_of_not_running rfl passed

/-- A run that has printed the lines of its first `k` steps ends with those of all its steps. -/
theorem trail_lines {k : Nat} (h : Ready program level config k) {passed : List Playback}
    (hpassed : passed.reverse.flatMap tickLines = program.printed level config k) :
    ∃ k', program.EndsAfter level config k' ∧
      ((before program level config k).trail passed).flatMap tickLines =
        program.printed level config k' := by
  have hpast (q : Playback) : (q :: passed).reverse.flatMap tickLines =
      program.printed level config k ++ q.tickLines := by
    rw [List.reverse_cons, List.flatMap_append, hpassed, List.flatMap_singleton]
  rw [trail_of_running rfl]
  rcases tick_cases h with ⟨hgo, hnext, htick⟩ | ⟨hgo, hend, htick⟩ | ⟨hend, htick⟩
  · have hlt := lt_size_of_not_stopsAt hgo
    rw [htick]
    exact trail_lines hnext ((hpast _).trans (printed_succ hgo htick).symm)
  · refine ⟨k + 1, hend, ?_⟩
    rw [htick, trail_finished, hpast, printed_succ hgo htick]
  · refine ⟨k, hend, ?_⟩
    rw [htick, trail_finished, hpast, tickLines_of_none (congrArg Prod.snd htick), List.append_nil]
termination_by program.compile.size - k

/-- From the start on, a run prints the lines of the steps up to its end. -/
theorem trail_lines_before_zero (hend : program.EndsAfter level config k) :
    ((before program level config 0).trail []).flatMap tickLines =
      program.printed level config k := by
  have hready : Ready program level config 0 := ready_zero
  have hnone : [].reverse.flatMap tickLines = program.printed level config 0 := by
    simp [Program.printed, Program.recorded]
  obtain ⟨k', hend', hlines⟩ := trail_lines hready hnone
  obtain rfl : k' = k := Ends.unique hend' hend
  exact hlines

end Playback

end GridRobot
