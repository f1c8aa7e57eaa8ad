import GridRobot.Number.Double
import GridRobot.Robot.Step
import GridRobot.Trace.Basic

/-!
# Playback

A playback runs a program on a level one tick at a time. It is idle, active before some step of the
trace, or ended after some number of steps; starting and stopping put the robot back on the start. A
run ends with a crash, a win, the end of the trace or the step limit, whichever is first, and in
this order where several come together.

As with a step, `tick` takes the coordinates that are logged to be short enough and `tick?` looks.
-/

namespace GridRobot

/-- How a run ended. -/
inductive Outcome where
  | won
  | crashed
  | exhausted
  | stepLimit
  deriving DecidableEq, Repr

namespace Outcome

def all : List Outcome := [won, crashed, exhausted, stepLimit]

def name : Outcome → String
  | won => "won"
  | crashed => "crashed"
  | exhausted => "exhausted"
  | stepLimit => "step_limit"

def ofName? (s : String) : Option Outcome := all.find? fun o => o.name = s

end Outcome

structure Config where
  /-- A limit of zero or less lets nothing run. -/
  maxSteps : Int := 1000
  /-- The seconds between two ticks, half a second unless told otherwise. -/
  delay : Double := .finite false (Nat.pow 2 52) (-53)
  verbose : Bool := false

/-- The only reason not to run: a program without blocks. -/
inductive RunError where
  | emptyProgram
  deriving DecidableEq, Repr

def RunError.message : RunError → String
  | emptyProgram => "Add at least one block before running"

inductive Phase where
  | idle
  /-- Running, with this index of the trace next. -/
  | active (next : Nat)
  | ended (steps : Nat) (outcome : Outcome)
  deriving DecidableEq, Repr

structure Playback where
  program : Program
  level : Level
  config : Config
  /-- Empty until the first start; stopping keeps it. -/
  trace : Array Instruction
  phase : Phase
  robot : Robot

namespace Playback

def new (program : Program) (level : Level) (config : Config) : Playback :=
  { program, level, config, trace := #[], phase := .idle, robot := .start level }

def running (p : Playback) : Bool :=
  match p.phase with
  | .active _ => true
  | _ => false

def outcome? (p : Playback) : Option Outcome :=
  match p.phase with
  | .ended _ o => some o
  | _ => none

/-- The index of the next step, or the number of steps run; `-1` before a start and after a stop. -/
def stepIndex (p : Playback) : Int :=
  match p.phase with
  | .idle => -1
  | .active k => k
  | .ended k _ => k

/-- The instruction at the index of a running playback. -/
def next? (p : Playback) : Option Instruction :=
  match p.phase with
  | .active k => p.trace[k]?
  | _ => none

/-- Compiles the program and puts the robot on the start. -/
def start (p : Playback) : Except RunError Playback :=
  if p.program.isEmpty then .error .emptyProgram
  else .ok { p with trace := p.program.compile, phase := .active 0, robot := .start p.level }

/-- Gives up the run and puts the robot on the start. -/
def stop (p : Playback) : Playback := { p with phase := .idle, robot := .start p.level }

/-- Where a run stands after `k` steps that led to `r`. -/
def phaseAfter (p : Playback) (r : Robot) (k : Nat) : Phase :=
  if r.crashed then .ended k .crashed
  else if r.won then .ended k .won
  else if p.trace.size ≤ k then .ended k .exhausted
  else if p.config.maxSteps ≤ k then .ended k .stepLimit
  else .active k

/-- Runs one instruction, and gives the robot if one has run. -/
def tick (p : Playback) : Playback × Option Robot :=
  match p.phase with
  | .active k =>
    match p.trace[k]? with
    | none => ({ p with phase := .ended k .exhausted }, none)
    | some i =>
      if p.config.maxSteps ≤ k then ({ p with phase := .ended k .stepLimit }, none)
      else
        let r := p.robot.step p.level i
        ({ p with phase := p.phaseAfter r (k + 1), robot := r }, some r)
  | _ => (p, none)

/-- The line that the next tick would add to the log, if it cannot be written. -/
def unwritten? (p : Playback) : Option LogLine :=
  match p.phase with
  | .active k =>
    if p.config.maxSteps ≤ k then none else p.trace[k]?.bind (p.robot.unwritten? p.level)
  | _ => none

/-- Ticks unless the line of the instruction cannot be written. -/
def tick? (p : Playback) : Except LogLine (Playback × Option Robot) :=
  match p.unwritten? with
  | some line => .error line
  | none => .ok p.tick

/-- More than the number of ticks until the run has ended. -/
def remaining (p : Playback) : Nat :=
  match p.phase with
  | .active k => p.trace.size - k + 1
  | _ => 0

theorem remaining_tick_lt {p : Playback} (h : p.running = true) :
    p.tick.1.remaining < p.remaining := by
  unfold running at h
  unfold tick
  split
  · rename_i k hk
    cases hi : p.trace[k]? with
    | none => simp [remaining, hk]
    | some i =>
      have hlt : k < p.trace.size := (Array.getElem?_eq_some_iff.1 hi).1
      simp only
      split
      · simp [remaining, hk]
      · simp only [remaining, hk]
        split
        · rename_i n hn
          simp only [phaseAfter] at hn
          (repeat' split at hn) <;> simp at hn
          omega
        · omega
  · rename_i hne
    split at h
    · rename_i k hk; exact absurd hk (hne k)
    · simp at h

/-- Ticks until the run has ended, and counts the pauses between ticks. -/
def drain (p : Playback) (pauses : Nat) : Playback × Nat :=
  if _h : p.running = true then
    let next := p.tick.1
    next.drain (if next.running && p.config.delay.isPositive then pauses + 1 else pauses)
  else (p, pauses)
termination_by p.remaining
decreasing_by exact remaining_tick_lt _h

/-- Goes on with a running playback and starts any other. -/
def resume (p : Playback) : Except RunError Playback := if p.running then .ok p else p.start

/-- Resumes a playback and ticks until the run has ended. -/
def runToEnd (p : Playback) : Except RunError (Playback × Nat) := p.resume.map (·.drain 0)

end Playback

end GridRobot
