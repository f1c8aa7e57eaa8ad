import GridRobot.Playback.Basic
import GridRobot.Score

/-!
# Events

What the parts of the library report while they work, for a log. An event is information, or a
detail of single steps.
-/

namespace GridRobot

inductive Severity where
  | debug
  | info
  deriving DecidableEq, Repr

inductive Event where
  | compiling (blocks : Nat)
  | compiled (blocks instructions : Nat) (level : Int)
  | blocked (target : Position) (obstacle : Obstacle) (size : Nat)
  | stepped (index : Nat) (i : Instruction) (target : Position) (facing : Direction)
  | ended (level : Int) (outcome : Outcome) (steps : Nat)
  | completed (level : Int) (rating : Rating)
  deriving DecidableEq, Repr

namespace Event

def severity : Event → Severity
  | blocked .. | stepped .. => .debug
  | _ => .info

/-- The log that an event belongs to. -/
def channel : Event → String
  | compiling _ => "botcommander.api"
  | compiled .. | stepped .. | ended .. => "botcommander.run"
  | blocked .. => "botcommander.executor"
  | completed .. => "botcommander.campaign"

def message : Event → String
  | compiling n => s!"Compiling program of {n} top-level blocks"
  | compiled n m l => s!"Compiled {n} blocks into {m} instructions for level {l}"
  | blocked p .edge n => s!"Move to ({p.x}, {p.y}) leaves the {n}x{n} grid"
  | blocked p (.wall id) _ => s!"Move to ({p.x}, {p.y}) hits wall {id}"
  | stepped k i p d => s!"step {k}: {i.text} -> ({p.x}, {p.y}) {d.name}"
  | ended l o k => s!"Run on level {l} ended: {o.name} after {k} steps"
  | completed l r => s!"Level {l} completed ({r.name})"

/-- The line of a log that names the channel. -/
def line (e : Event) : String := s!"{e.channel}: {e.message}"

/-- The numbers in the message. -/
def numbers : Event → List Int
  | compiling n => [n]
  | compiled n m l => [n, m, l]
  | blocked p .edge n => [p.x, p.y, n]
  | blocked p (.wall _) _ => [p.x, p.y]
  | stepped k _ p _ => [k, p.x, p.y]
  | ended l _ k => [l, k]
  | completed l _ => [l]

/-- Whether the numbers in the message can be written. -/
def Writable (e : Event) : Prop := ∀ n ∈ e.numbers, Text.Writable n

instance (e : Event) : Decidable e.Writable := inferInstanceAs (Decidable (∀ _ ∈ _, _))

end Event

/-- What is reported of an instruction before it is performed: the obstacle it will run into. -/
def Robot.events (l : Level) (r : Robot) (i : Instruction) : List Event :=
  match r.blockage? l i with
  | some (p, o) => [.blocked p o l.size]
  | none => []

namespace Playback

/-- What a start reports, if there is a program to start. -/
def startEvents (p : Playback) : List Event :=
  match p.start with
  | .ok q => [.compiled p.program.blockCount q.trace.size p.level.id]
  | .error _ => []

def tickEvents (p : Playback) : List Event :=
  let (q, ran) := p.tick
  let performed := match p.phase, p.next?, ran with
    | .active k, some i, some r => p.robot.events p.level i ++ [.stepped k i r.position r.facing]
    | _, _, _ => []
  let ended := match p.running, q.phase with
    | true, .ended k o => [.ended p.level.id o k]
    | _, _ => []
  performed ++ ended

/-- What a tick prints when told to: the instruction and what became of it. -/
def tickLines (p : Playback) : List String :=
  match p.config.verbose, p.phase, p.next?, p.tick.2 with
  | true, .active k, some i, some r =>
    let said := r.lastLine?.getD ""
    [s!"[step {k}] {i.text}  → {said}"]
  | _, _, _, _ => []

/-- The playback before each tick until the run has ended, after those already `passed`. -/
def trail (p : Playback) (passed : List Playback) : List Playback :=
  if _h : p.running = true then p.tick.1.trail (p :: passed) else passed.reverse
termination_by p.remaining
decreasing_by exact remaining_tick_lt _h

/-- What a playback reports when it is resumed. -/
def resumeEvents (p : Playback) : List Event := if p.running then [] else p.startEvents

/-- The playback before each tick when it runs to its end. -/
def runTrail (p : Playback) : List Playback :=
  match p.resume with
  | .ok q => q.trail []
  | .error _ => []

/-- What is reported when the playback runs to its end. -/
def runEvents (p : Playback) : List Event := p.resumeEvents ++ p.runTrail.flatMap tickEvents

/-- What is printed when the playback runs to its end. -/
def runLines (p : Playback) : List String := p.runTrail.flatMap tickLines

end Playback

end GridRobot
