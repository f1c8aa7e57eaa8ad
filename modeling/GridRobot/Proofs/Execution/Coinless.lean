import GridRobot.Campaign.Levels
import GridRobot.Proofs.Execution.Recorded

/-!
# Executions without coins

Coins are collected and never asked for: no instruction, no wall and no goal depends on what a robot
has. With the coins taken off the level, off the robot and out of its log, a step is the step
without coins. So levels that differ in nothing but their coins come to one and the same execution
once the coins are taken off, and side by side their executions differ in coins alone.
-/

namespace GridRobot

/-- The level with its coins taken off. -/
def Level.withoutCoins (l : Level) : Level :=
  { l with entities := l.entities.filter fun e => e.kind ≠ .coin }

/-- The robot that has never come upon a coin. -/
def Robot.withoutCoins (r : Robot) : Robot :=
  { r with coins := [], log := r.log.filter fun line => line ≠ .coin }

def RecordedStep.withoutCoins (s : RecordedStep) : RecordedStep :=
  { s with robot := s.robot.withoutCoins }

namespace Level

variable {l : Level} {k : EntityKind} {p : Position}

theorem entity?_withoutCoins (l : Level) (hk : k ≠ .coin) :
    l.withoutCoins.entity? k p = l.entity? k p := by
  rw [entity?, entity?, withoutCoins, List.find?_filter]
  congr 1
  funext e
  by_cases he : e.kind = k ∧ e.position = p
  · simp [he, hk]
  · simp [he]

theorem entity?_coin_withoutCoins (l : Level) : l.withoutCoins.entity? .coin p = none := by
  rw [entity?, withoutCoins, List.find?_filter, List.find?_eq_none]
  intro e _
  by_cases he : e.kind = .coin <;> simp [he]

theorem obstacle?_withoutCoins (l : Level) : l.withoutCoins.obstacle? p = l.obstacle? p := by
  rw [obstacle?, obstacle?, l.entity?_withoutCoins (by decide)]
  rfl

end Level

namespace Robot

variable {l : Level} {r s : Robot}

@[simp] theorem position_withoutCoins (r : Robot) : r.withoutCoins.position = r.position := rfl
@[simp] theorem crashed_withoutCoins (r : Robot) : r.withoutCoins.crashed = r.crashed := rfl
@[simp] theorem terminal_withoutCoins (r : Robot) : r.withoutCoins.terminal = r.terminal := rfl

theorem withoutCoins_note (r : Robot) {line : LogLine} (h : line ≠ .coin) :
    (r.note line).withoutCoins = r.withoutCoins.note line := by
  simp [withoutCoins, note, h]

theorem drive_withoutCoins (r : Robot) (l : Level) (d : Direction) {line : Position → LogLine}
    (hline : ∀ p, line p ≠ .coin) :
    r.withoutCoins.drive l.withoutCoins d line = (r.drive l d line).withoutCoins := by
  rw [drive, drive, position_withoutCoins, l.obstacle?_withoutCoins]
  cases l.obstacle? (r.position.neighbor d) with
  | some o => rfl
  | none =>
    let moved : Robot := { r with position := r.position.neighbor d }
    exact (moved.withoutCoins_note (hline (r.position.neighbor d))).symm

theorem perform_withoutCoins (r : Robot) (l : Level) (i : Instruction) :
    r.withoutCoins.perform l.withoutCoins i = (r.perform l i).withoutCoins := by
  cases i with
  | move => exact r.drive_withoutCoins l r.facing fun _ => LogLine.noConfusion
  | moveBack => exact r.drive_withoutCoins l r.facing.reverse fun _ => LogLine.noConfusion
  | turnLeft => rfl
  | turnRight => rfl

/-- To take a coin leaves no trace once the coins are taken off. -/
theorem withoutCoins_collect (r : Robot) (l : Level) :
    (r.collect l).withoutCoins = r.withoutCoins := by
  rcases collect_cases r l with ⟨c, -, -, he⟩ | ⟨-, he⟩
  · simp [he, withoutCoins, note]
  · rw [he]

theorem collect_withoutCoins (r : Robot) (l : Level) : r.collect l.withoutCoins = r := by
  rw [collect, l.entity?_coin_withoutCoins]

theorem checkGoal_withoutCoins (r : Robot) (l : Level) :
    r.withoutCoins.checkGoal l.withoutCoins = (r.checkGoal l).withoutCoins := by
  rw [checkGoal, checkGoal, position_withoutCoins, l.entity?_withoutCoins (by decide)]
  cases l.entity? .goal r.position with
  | some g => rfl
  | none => rfl

/-- A step without coins is the step, with the coins taken off. -/
theorem step_withoutCoins (l : Level) (r : Robot) (i : Instruction) :
    step l.withoutCoins r.withoutCoins i = (step l r i).withoutCoins := by
  simp only [step, terminal_withoutCoins, perform_withoutCoins, crashed_withoutCoins,
    collect_withoutCoins]
  split
  · rfl
  · split
    · rfl
    -- The one robot took a coin and the other found none; to take the coins off makes up for it.
    · rw [← checkGoal_withoutCoins, withoutCoins_collect]

theorem run_withoutCoins (l : Level) (r : Robot) (t : List Instruction) :
    run l.withoutCoins r.withoutCoins t = (run l r t).withoutCoins := by
  induction t generalizing r with
  | nil => rfl
  | cons i t ih => rw [run_cons, run_cons, step_withoutCoins, ih]

theorem start_withoutCoins (l : Level) : start l.withoutCoins = (start l).withoutCoins := rfl

/-- Two robots agree but for coins: the texts of their logs are the same when the lines about coins
are deleted. -/
structure AgreesButCoins (r s : Robot) : Prop where
  position : r.position = s.position
  facing : r.facing = s.facing
  crashed : r.crashed = s.crashed
  won : r.won = s.won
  lines : r.lines.filter (· ≠ "Coin Collected!") = s.lines.filter (· ≠ "Coin Collected!")

/-- To delete the lines about coins from the log is to delete their text from what it says. -/
theorem filter_lines_withoutCoins (r : Robot) :
    r.withoutCoins.lines.filter (· ≠ "Coin Collected!") =
      r.lines.filter (· ≠ "Coin Collected!") := by
  rw [lines, lines, List.filter_reverse, List.filter_reverse, List.filter_map, List.filter_map,
    withoutCoins, List.filter_filter]
  congr 2
  refine List.filter_congr fun line _ => ?_
  by_cases hline : line = .coin
  · simp [hline, LogLine.text]
  · simp [hline]

theorem agreesButCoins_of_withoutCoins_eq (h : r.withoutCoins = s.withoutCoins) :
    AgreesButCoins r s := by
  have hposition := congrArg position h
  have hfacing := congrArg facing h
  have hcrashed := congrArg crashed h
  have hwon := congrArg won h
  refine ⟨hposition, hfacing, hcrashed, hwon, ?_⟩
  rw [← filter_lines_withoutCoins r, h, filter_lines_withoutCoins]

end Robot

namespace Program

variable {l m : Level} {program : Program} {config : Config} {k : Nat}

theorem robotAfter_withoutCoins (program : Program) (l : Level) (k : Nat) :
    program.robotAfter l.withoutCoins k = (program.robotAfter l k).withoutCoins := by
  rw [robotAfter, robotAfter, Robot.after, Robot.after, Robot.start_withoutCoins,
    Robot.run_withoutCoins]

theorem recorded_withoutCoins (program : Program) (l : Level) (k : Nat) :
    program.recorded l.withoutCoins k = (program.recorded l k).map RecordedStep.withoutCoins := by
  refine List.ext_getElem? fun n => ?_
  simp only [recorded, List.getElem?_mapIdx, List.getElem?_map, Option.map_map,
    robotAfter_withoutCoins]
  rfl

/-- Both runs go through the same robots once the coins are taken off. -/
theorem robotAfter_of_withoutCoins_eq (h : l.withoutCoins = m.withoutCoins) (program : Program)
    (k : Nat) : (program.robotAfter l k).withoutCoins = (program.robotAfter m k).withoutCoins := by
  rw [← robotAfter_withoutCoins, h, robotAfter_withoutCoins]

theorem endsAfter_of_withoutCoins_eq (h : l.withoutCoins = m.withoutCoins)
    (hend : program.EndsAfter l config k) : program.EndsAfter m config k := by
  refine Ends.transfer rfl (fun j _ => ?_) hend
  have hterminal := congrArg Robot.terminal (robotAfter_of_withoutCoins_eq h program j)
  exact hterminal.symm

theorem forall₂_recorded (h : l.withoutCoins = m.withoutCoins) (program : Program) (k : Nat) :
    List.Forall₂ (fun s s' => s.index = s'.index ∧ s.instruction = s'.instruction ∧
      s.robot.AgreesButCoins s'.robot) (program.recorded l k) (program.recorded m k) := by
  have hmap : (program.recorded l k).map RecordedStep.withoutCoins =
      (program.recorded m k).map RecordedStep.withoutCoins := by
    rw [← recorded_withoutCoins, h, recorded_withoutCoins]
  rw [← List.forall₂_eq_eq_eq, List.forall₂_map_left_iff, List.forall₂_map_right_iff] at hmap
  refine hmap.imp fun s s' hs => ?_
  have hindex := congrArg RecordedStep.index hs
  have hinstruction := congrArg RecordedStep.instruction hs
  have hrobot := congrArg RecordedStep.robot hs
  exact ⟨hindex, hinstruction, Robot.agreesButCoins_of_withoutCoins_eq hrobot⟩

/-- Coins never influence a run. On two levels that are the same once their coins are taken off,
whatever coins lie where, every program is executed in the same steps with the same outcome, and
from the first robot to the last the two executions agree but for coins. -/
theorem execute_of_withoutCoins_eq (h : l.withoutCoins = m.withoutCoins) (program : Program)
    (config : Config) :
    (program = [] → program.execute l config = .error .emptyProgram ∧
      program.execute m config = .error .emptyProgram) ∧
    (program ≠ [] → ∃ e e', program.execute l config = .ok e ∧ program.execute m config = .ok e' ∧
      e.steps.length = e'.steps.length ∧
      List.Forall₂ (fun s s' => s.index = s'.index ∧ s.instruction = s'.instruction ∧
        s.robot.AgreesButCoins s'.robot) e.steps e'.steps ∧
      e.initial.AgreesButCoins e'.initial ∧
      e.final.AgreesButCoins e'.final ∧
      e.stats.outcome = e'.stats.outcome) := by
  constructor
  · intro he
    exact ⟨execute_of_empty l config he, execute_of_empty m config he⟩
  · intro hne
    obtain ⟨k, hend, hexec⟩ := execute_eq l config hne
    have hexec' := execute_eq_executionAfter hne (endsAfter_of_withoutCoins_eq h hend)
    have hsteps := forall₂_recorded h program k
    have hrobot := robotAfter_of_withoutCoins_eq h program
    have houtcome := congrArg (Outcome.of · k program.compile.size) (hrobot k)
    exact ⟨_, _, hexec, hexec', hsteps.length_eq, hsteps,
      Robot.agreesButCoins_of_withoutCoins_eq (hrobot 0),
      Robot.agreesButCoins_of_withoutCoins_eq (hrobot k), congrArg some houtcome⟩

/-- One coin lies on the start and one on the terminal, there are two of one id, and the coins on
the way of the robot are gone. -/
theorem execute_of_withoutCoins_eq_loopLogic :
    let l := Campaign.loopLogic
    let m : Level := { l with
      entities := [⟨"c1", .coin, ⟨5, 5⟩⟩, ⟨"e1", .goal, ⟨5, 5⟩⟩, ⟨"w1", .wall, ⟨5, 0⟩⟩,
        ⟨"c3", .coin, ⟨0, 0⟩⟩, ⟨"w2", .wall, ⟨5, 1⟩⟩, ⟨"w3", .wall, ⟨5, 2⟩⟩,
        ⟨"c1", .coin, ⟨4, 3⟩⟩] }
    l.withoutCoins = m.withoutCoins ∧
    ∃ e e', l.solution.execute l {} = .ok e ∧ l.solution.execute m {} = .ok e' ∧
      e.final.coins = ["c2", "c1"] ∧ e'.final.coins = ["c1"] ∧
      e.final.AgreesButCoins e'.final ∧ e.stats.outcome = e'.stats.outcome := by
  intro l m
  have hsame : l.withoutCoins = m.withoutCoins := rfl
  obtain ⟨e, e', hexec, hexec', -, -, -, hfinal, houtcome⟩ :=
    (execute_of_withoutCoins_eq hsame l.solution {}).2 (List.cons_ne_nil _ _)
  have hcoins : (l.solution.execute l {}).map (·.final.coins) = .ok ["c2", "c1"] := by
    decide +kernel
  have hcoins' : (l.solution.execute m {}).map (·.final.coins) = .ok ["c1"] := by
    decide +kernel
  rw [hexec] at hcoins
  rw [hexec'] at hcoins'
  exact ⟨hsame, e, e', hexec, hexec', Except.ok.inj hcoins, Except.ok.inj hcoins', hfinal,
    houtcome⟩

end Program

end GridRobot
