import GridRobot.Event
import GridRobot.Text.Column

/-!
# Executions

An execution is a run from start to end with every step recorded, and its statistics.
-/

namespace GridRobot

structure RunStats where
  blockCount : Int := 0
  traceLength : Int := 0
  steps : Int := 0
  coinsCollected : Int := 0
  outcome : Option Outcome := none
  deriving DecidableEq, Repr

/-- The statistics as lines: labels to the left of sixteen places, values to the right of six. -/
def RunStats.report (s : RunStats) : List String :=
  let row (label value : String) := "  " ++ Text.padRight 16 label ++ " " ++ Text.padLeft 6 value
  ["═══ Run Statistics ═══",
    row "Blocks" (toString s.blockCount),
    row "Trace length" (toString s.traceLength),
    row "Steps executed" (toString s.steps),
    row "Coins collected" (toString s.coinsCollected),
    row "Outcome" ((s.outcome.map Outcome.name).getD "-")]

/-- An instruction that was run, with its index and the robot after it. -/
structure RecordedStep where
  index : Nat
  instruction : Instruction
  robot : Robot
  deriving DecidableEq, Repr

structure Execution where
  initial : Robot
  steps : List RecordedStep
  final : Robot
  stats : RunStats
  deriving DecidableEq, Repr

/-- Ticks as long as there is a next instruction and it runs, and records each one, the latest
first; `count` steps have been recorded before. -/
def Playback.record (p : Playback) (count : Nat) (steps : List RecordedStep) :
    Playback × List RecordedStep :=
  match _h : p.next?, p.tick.2 with
  | some i, some r => p.tick.1.record (count + 1) (⟨count, i, r⟩ :: steps)
  | _, _ => (p.tick.1, steps)
termination_by p.remaining
decreasing_by
  refine remaining_tick_lt ?_
  unfold next? at _h
  unfold running
  split at _h <;> simp_all

/-- Runs a program to its end without pauses. -/
def Program.execute (program : Program) (level : Level) (config : Config) :
    Except RunError Execution := do
  let p ← (Playback.new program level config).start
  let (ended, steps) := p.record 0 []
  return {
    initial := p.robot
    steps := steps.reverse
    final := ended.robot
    stats := {
      blockCount := program.blockCount
      traceLength := p.trace.size
      steps := steps.length
      coinsCollected := ended.robot.coins.length
      outcome := ended.outcome? } }

/-- What an execution prints when told to: a line for each step, a blank line, and the statistics.
-/
def Program.executionLines (program : Program) (level : Level) (config : Config) : List String :=
  match config.verbose, program.execute level config with
  | true, .ok e => (Playback.new program level config).runLines ++ [""] ++ e.stats.report
  | _, _ => []

end GridRobot
