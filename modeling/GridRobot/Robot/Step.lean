import GridRobot.Block.Text
import GridRobot.Robot.Basic

/-!
# One step

A step performs one instruction. A robot that has crashed or won no longer changes. A blocked move
crashes and does nothing else; after any other instruction, turns included, the robot takes the coin
on its cell if it does not have it yet, and wins if a goal is there.

A move writes the coordinates of the cell that it enters into the log, and cannot be performed where
they have too many digits. `step` takes them to be short enough and `step?` looks; the two agree on
every board that has only coordinates that can be written.
-/

namespace GridRobot.Robot

/-- Adds a line to the log. -/
def note (r : Robot) (line : LogLine) : Robot := { r with log := line :: r.log }

/-- Moves one cell towards `heading` and notes where to, or crashes on an obstacle. -/
def drive (r : Robot) (l : Level) (heading : Direction) (line : Position → LogLine) : Robot :=
  let target := r.position.neighbor heading
  match l.obstacle? target with
  | some _ => { r with crashed := true }.note .collision
  | none => { r with position := target }.note (line target)

/-- The instruction itself. Backing up keeps the facing. -/
def perform (r : Robot) (l : Level) : Instruction → Robot
  | .move => r.drive l r.facing .moved
  | .moveBack => r.drive l r.facing.reverse .reversed
  | .turnLeft => { r with facing := r.facing.turnLeft }.note .turnedLeft
  | .turnRight => { r with facing := r.facing.turnRight }.note .turnedRight

/-- Takes the first coin on the robot's cell, unless a coin of that id has been taken. -/
def collect (r : Robot) (l : Level) : Robot :=
  match l.entity? .coin r.position with
  | some c => if c.id ∈ r.coins then r else { r with coins := c.id :: r.coins }.note .coin
  | none => r

/-- Wins if there is a goal on the robot's cell. -/
def checkGoal (r : Robot) (l : Level) : Robot :=
  match l.entity? .goal r.position with
  | some _ => { r with won := true }.note .target
  | none => r

/-- Performs one instruction and looks at the cell where it ends. -/
def step (l : Level) (r : Robot) (i : Instruction) : Robot :=
  if r.terminal then r
  else
    let next := r.perform l i
    if next.crashed then next else (next.collect l).checkGoal l

/-- The latest line of the log, if it cannot be written. -/
def unwritable? (r : Robot) : Option LogLine := r.log.head?.filter fun line => ¬line.Writable

/-- The line that an instruction would add to the log, if it cannot be written. -/
def unwritten? (l : Level) (r : Robot) (i : Instruction) : Option LogLine :=
  if r.terminal then none else (r.perform l i).unwritable?

/-- Performs one instruction, unless its line cannot be written. -/
def step? (l : Level) (r : Robot) (i : Instruction) : Except LogLine Robot :=
  match unwritten? l r i with
  | some line => .error line
  | none => .ok (step l r i)

/-- Performs instructions one after the other. -/
def run (l : Level) (r : Robot) (trace : List Instruction) : Robot := trace.foldl (step l) r

/-- The cell that an instruction would enter, and what is in the way there. -/
def blockage? (l : Level) (r : Robot) (i : Instruction) : Option (Position × Obstacle) :=
  let ahead (heading : Direction) :=
    (l.obstacle? (r.position.neighbor heading)).map fun o => (r.position.neighbor heading, o)
  if r.terminal then none
  else match i with
    | .move => ahead r.facing
    | .moveBack => ahead r.facing.reverse
    | .turnLeft | .turnRight => none

@[simp] theorem run_nil (l : Level) (r : Robot) : run l r [] = r := rfl

@[simp] theorem run_cons (l : Level) (r : Robot) (i : Instruction) (t : List Instruction) :
    run l r (i :: t) = run l (step l r i) t := rfl

theorem run_append (l : Level) (r : Robot) (s t : List Instruction) :
    run l r (s ++ t) = run l (run l r s) t := by simp [run]

theorem step_of_terminal {l : Level} {r : Robot} {i : Instruction} (h : r.terminal = true) :
    step l r i = r := by simp [step, h]

theorem run_of_terminal {l : Level} {r : Robot} (h : r.terminal = true) (t : List Instruction) :
    run l r t = r := by
  induction t with
  | nil => rfl
  | cons i t ih => rw [run_cons, step_of_terminal h, ih]

/-- A running robot can perform instructions only: a loop is refused, with its text. -/
structure NotAtomic where
  block : Block

def NotAtomic.message (e : NotAtomic) : String :=
  s!"'{e.block.text}' is not an atomic instruction; compile the program first"

/-- Why a block is not performed. -/
inductive StepFault where
  | notAtomic (e : NotAtomic)
  | unwritable (line : LogLine)

/-- A step on a block that has not been compiled. -/
def stepBlock (l : Level) (r : Robot) (b : Block) : Except StepFault Robot :=
  if r.terminal then .ok r
  else match b with
    | .basic i => (step? l r i).mapError .unwritable
    | .loop _ _ => .error (.notAtomic ⟨b⟩)

end GridRobot.Robot
