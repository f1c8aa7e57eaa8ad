import GridRobot.Proofs.Block.Substitution
import GridRobot.Proofs.Execution.Recorded
import GridRobot.Proofs.Level.Symmetry

/-!
# Executions on a board that is turned or mirrored

A symmetry carries a robot along with the board: where it is, where it faces, and what its log tells
of cells and turns. One step on the level that is carried along is the step carried along, so an
execution there is the execution carried along, step by step and with the same statistics. A program
stays as it is if right and left do, and is mirrored with them otherwise.
-/

namespace GridRobot

namespace Level.Symmetry

variable {l : Level} (σ : l.Symmetry)

/-- Of the lines of a log, those of moves name a cell, and those of turns name a side. -/
def line : LogLine → LogLine
  | .moved p => .moved (σ.cell p)
  | .reversed p => .reversed (σ.cell p)
  | .turnedLeft => if σ.mirrored then .turnedRight else .turnedLeft
  | .turnedRight => if σ.mirrored then .turnedLeft else .turnedRight
  | other => other

def robot (r : Robot) : Robot :=
  { r with
    position := σ.cell r.position
    facing := σ.heading r.facing
    log := r.log.map σ.line }

def recordedStep (s : RecordedStep) : RecordedStep :=
  { s with instruction := σ.instruction s.instruction, robot := σ.robot s.robot }

/-- The execution with every robot in it carried along. -/
def execution (e : Execution) : Execution :=
  { e with
    initial := σ.robot e.initial
    steps := e.steps.map σ.recordedStep
    final := σ.robot e.final }

@[simp] theorem terminal_robot (r : Robot) : (σ.robot r).terminal = r.terminal := rfl

theorem drive_robot (r : Robot) (d : Direction) {line : Position → LogLine}
    (hline : ∀ p, σ.line (line p) = line (σ.cell p)) :
    (σ.robot r).drive σ.level (σ.heading d) line = σ.robot (r.drive l d line) := by
  have htarget : (σ.robot r).position.neighbor (σ.heading d) = σ.cell (r.position.neighbor d) :=
    (σ.cell_neighbor r.position d).symm
  rw [Robot.drive, Robot.drive, htarget, σ.obstacle?_level]
  cases l.obstacle? (r.position.neighbor d) with
  | some o => rfl
  | none => simp only [Robot.note, robot, List.map_cons, hline]

theorem perform_robot (r : Robot) (i : Instruction) :
    (σ.robot r).perform σ.level (σ.instruction i) = σ.robot (r.perform l i) := by
  cases i with
  | move =>
    have hi : σ.instruction .move = .move := by rw [instruction]; split <;> rfl
    rw [hi]
    exact σ.drive_robot r r.facing fun _ => rfl
  | moveBack =>
    have hi : σ.instruction .moveBack = .moveBack := by rw [instruction]; split <;> rfl
    have hreverse : (σ.robot r).facing.reverse = σ.heading r.facing.reverse :=
      (σ.heading_reverse r.facing).symm
    rw [hi, Robot.perform, hreverse]
    exact σ.drive_robot r r.facing.reverse fun _ => rfl
  | turnLeft =>
    have hheading := σ.heading_turnLeft r.facing
    cases hm : σ.mirrored <;>
      simp_all [instruction, Instruction.mirror, Robot.perform, robot, line, Robot.note]
  | turnRight =>
    have hheading := σ.heading_turnRight r.facing
    cases hm : σ.mirrored <;>
      simp_all [instruction, Instruction.mirror, Robot.perform, robot, line, Robot.note]

theorem collect_robot (r : Robot) : (σ.robot r).collect σ.level = σ.robot (r.collect l) := by
  have hcoin : σ.level.entity? .coin (σ.robot r).position =
      (l.entity? .coin r.position).map σ.entity := σ.entity?_level .coin r.position
  rw [Robot.collect, Robot.collect, hcoin]
  cases l.entity? .coin r.position with
  | none => rfl
  | some c =>
    have hid : (σ.entity c).id = c.id := rfl
    have hcoins : (σ.robot r).coins = r.coins := rfl
    simp only [Option.map_some, hid, hcoins]
    split <;> rfl

theorem checkGoal_robot (r : Robot) : (σ.robot r).checkGoal σ.level = σ.robot (r.checkGoal l) := by
  have hgoal : σ.level.entity? .goal (σ.robot r).position =
      (l.entity? .goal r.position).map σ.entity := σ.entity?_level .goal r.position
  rw [Robot.checkGoal, Robot.checkGoal, hgoal]
  cases l.entity? .goal r.position <;> rfl

/-- A step of the robot that is carried along is the step carried along. -/
theorem step_robot (r : Robot) (i : Instruction) :
    Robot.step σ.level (σ.robot r) (σ.instruction i) = σ.robot (Robot.step l r i) := by
  have hcrashed (s : Robot) : (σ.robot s).crashed = s.crashed := rfl
  simp only [Robot.step, terminal_robot, perform_robot, hcrashed, collect_robot, checkGoal_robot]
  split
  · rfl
  · split <;> rfl

theorem run_robot (r : Robot) (t : List Instruction) :
    Robot.run σ.level (σ.robot r) (t.map σ.instruction) = σ.robot (Robot.run l r t) := by
  induction t generalizing r with
  | nil => rfl
  | cons i t ih => rw [List.map_cons, Robot.run_cons, Robot.run_cons, step_robot, ih]

theorem robotAfter_level (p : Program) (k : Nat) :
    (p.mapInstructions σ.instruction).robotAfter σ.level k = σ.robot (p.robotAfter l k) := by
  rw [Program.robotAfter, Program.robotAfter, Robot.after, Robot.after,
    Program.compile_mapInstructions, ← List.map_take]
  exact σ.run_robot (Robot.start l) _

theorem recorded_level (p : Program) (k : Nat) :
    (p.mapInstructions σ.instruction).recorded σ.level k =
      (p.recorded l k).map σ.recordedStep := by
  refine List.ext_getElem? fun n => ?_
  simp only [Program.recorded, Program.compile_mapInstructions, ← List.map_take,
    List.getElem?_mapIdx, List.getElem?_map, Option.map_map, robotAfter_level]
  rfl

theorem executionAfter_level (p : Program) (k : Nat) :
    (p.mapInstructions σ.instruction).executionAfter σ.level k =
      σ.execution (p.executionAfter l k) := by
  simp only [Program.executionAfter, execution, robotAfter_level, recorded_level,
    p.length_mapInstructions, p.size_compile_mapInstructions]
  rfl

theorem endsAfter_level {p : Program} {config : Config} {k : Nat}
    (h : p.EndsAfter l config k) :
    (p.mapInstructions σ.instruction).EndsAfter σ.level config k := by
  refine Ends.transfer ?_ (fun j _ => ?_) h
  · rw [Program.compile_mapInstructions, List.length_map]
  · have hterminal := congrArg Robot.terminal (σ.robotAfter_level p j)
    exact hterminal

theorem execute_level (p : Program) (config : Config) :
    (p.mapInstructions σ.instruction).execute σ.level config =
      (p.execute l config).map σ.execution := by
  by_cases hne : p = []
  · subst hne
    rw [Program.execute_of_empty l config rfl]
    exact Program.execute_of_empty σ.level config rfl
  · have hne' : p.mapInstructions σ.instruction ≠ [] := by
      rw [← List.length_pos_iff_ne_nil, p.length_mapInstructions, List.length_pos_iff_ne_nil]
      exact hne
    obtain ⟨k, hend, hexec⟩ := Program.execute_eq l config hne
    rw [hexec, Program.execute_eq_executionAfter hne' (σ.endsAfter_level hend),
      executionAfter_level]
    rfl

end Level.Symmetry

open Level.Symmetry

/-- On a level that is turned by a right angle, every program is executed as on the level itself,
with every robot turned; on a level that is mirrored, the program with its turns exchanged at every
depth is executed as the program itself, with every robot mirrored. That is to say that as many
steps are recorded, that the statistics with the outcome are the same, and that each robot has the
same coins and has crashed, won or neither in the same way. -/
theorem Program.execute_quarterTurn_reflection (p : Program) (l : Level) (config : Config) :
    p.execute (quarterTurn l).level config =
      (p.execute l config).map (quarterTurn l).execution ∧
    (p.mapInstructions Instruction.mirror).execute (reflection l).level config =
      (p.execute l config).map (reflection l).execution := by
  constructor
  · have hturned := (quarterTurn l).execute_level p config
    have hsame : (quarterTurn l).instruction = fun i => i := rfl
    rwa [hsame, show p.mapInstructions (fun i => i) = p from p.mapInstructions_id] at hturned
  · exact (reflection l).execute_level p config

end GridRobot
