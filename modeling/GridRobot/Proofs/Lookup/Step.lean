import GridRobot.Proofs.Lookup.Table
import GridRobot.Proofs.Robot.Step

/-!
# A step by lookups

An instruction is performed by the handler that a table has for its type. There is none for a loop,
so a step of a running robot on a loop is a misuse, and this is the only one. A move into a cell
with coordinates that are too long cannot write its line. The main statement says that a step by
lookups is the step of the robot, whatever the block.
-/

namespace GridRobot.Lookup

/-- What goes wrong inside a run: something is looked up that is not there, or a line of the log
cannot be written. -/
inductive Mishap where
  | misuse (u : Misuse)
  | unwritable (line : LogLine)
  deriving DecidableEq

def Mishap.ofStepFault : Robot.StepFault → Mishap
  | .notAtomic e => .misuse (.notAtomic e.block)
  | .unwritable line => .unwritable line

/-- The numbers of a line are put into its text before anything changes. -/
def write (r : Robot) (line : LogLine) : Except Mishap Robot :=
  if line.Writable then .ok (r.note line) else .error (.unwritable line)

/-- Moves one cell by the table of directions, or crashes on an obstacle. -/
def drive (r : Robot) (l : Level) (heading : Direction) (line : Position → LogLine) :
    Except Mishap Robot := do
  let (dx, dy) ← (entry deltas heading).mapError .misuse
  let target : Position := ⟨r.position.x + dx, r.position.y + dy⟩
  if ¬l.Inside target then return { r with crashed := true }.note .collision
  match l.entity? .wall target with
  | some _ => return { r with crashed := true }.note .collision
  | none => write { r with position := target } (line target)

abbrev Handler := Robot → Level → Except Mishap Robot

def moveHandler : Handler := fun r l => drive r l r.facing .moved

def moveBackHandler : Handler := fun r l => do
  let heading ← (turned r.facing 2).mapError .misuse
  drive r l heading .reversed

def turnHandler (quarters : Int) (line : LogLine) : Handler := fun r _ => do
  let facing ← (turned r.facing quarters).mapError .misuse
  return { r with facing }.note line

def handlers : List (BlockType × Handler) :=
  [(.basic .move, moveHandler), (.basic .moveBack, moveBackHandler),
    (.basic .turnLeft, turnHandler 3 .turnedLeft), (.basic .turnRight, turnHandler 1 .turnedRight)]

/-- Performs a block by the handler for its type and looks at the cell where it ends. -/
def step (l : Level) (r : Robot) (b : Block) : Except Mishap Robot :=
  if r.terminal then .ok r
  else do
    let t ← (typeNamed b.type.name).mapError .misuse
    match handlers.lookup t with
    | none => .error (.misuse (.notAtomic b))
    | some handler =>
      let next ← handler r l
      return if next.crashed then next else (next.collect l).checkGoal l

/-- The robot, unless the latest line of its log cannot be written. -/
def written (r : Robot) : Except Mishap Robot :=
  match r.unwritable? with
  | some line => .error (.unwritable line)
  | none => .ok r

theorem written_note (r : Robot) (line : LogLine) : written (r.note line) = write r line := by
  by_cases h : line.Writable <;> simp [written, write, h]

theorem write_of_no_numbers (r : Robot) {line : LogLine} (h : line.numbers = []) :
    write r line = .ok (r.note line) := if_pos (by simp [LogLine.Writable, h])

theorem drive_eq (r : Robot) (l : Level) (d : Direction) (line : Position → LogLine) :
    drive r l d line = written (r.drive l d line) := by
  have hdelta : (entry deltas d).mapError Mishap.misuse = .ok (d.dx, d.dy) := by
    rw [entry_deltas]
    rfl
  have hcrash (s : Robot) : write s .collision = .ok (s.note .collision) :=
    write_of_no_numbers s rfl
  by_cases hin : l.Inside (r.position.neighbor d)
  · cases hwall : l.entity? .wall (r.position.neighbor d) <;>
      simp_all [drive, Robot.drive, Level.obstacle?, Position.neighbor, bind, Except.bind, pure,
        Except.pure, written_note]
  · simp_all [drive, Robot.drive, Level.obstacle?, Position.neighbor, bind, Except.bind, pure,
      Except.pure, written_note]

/-- There is a handler for every instruction, and it performs it if the line can be written. -/
theorem lookup_handlers_basic (i : Instruction) :
    ∃ handler, handlers.lookup (.basic i) = some handler ∧
      ∀ r l, handler r l = written (r.perform l i) := by
  cases i with
  | move => exact ⟨moveHandler, rfl, fun r l => drive_eq r l r.facing .moved⟩
  | moveBack =>
    refine ⟨moveBackHandler, rfl, fun r l => ?_⟩
    rw [moveBackHandler, turned_two]
    exact drive_eq r l r.facing.reverse .reversed
  | turnLeft =>
    refine ⟨turnHandler 3 .turnedLeft, rfl, fun r l => ?_⟩
    rw [turnHandler, turned_three, Robot.perform, written_note, write_of_no_numbers _ rfl]
    rfl
  | turnRight =>
    refine ⟨turnHandler 1 .turnedRight, rfl, fun r l => ?_⟩
    rw [turnHandler, turned_one, Robot.perform, written_note, write_of_no_numbers _ rfl]
    rfl

theorem lookup_handlers_loop : handlers.lookup .loop = none := rfl

/-- A step by lookups is a step of the robot, which refuses a loop, and a line that is too long, and
nothing else. -/
theorem step_eq (l : Level) (r : Robot) (b : Block) :
    step l r b = (r.stepBlock l b).mapError .ofStepFault := by
  have hname (t : BlockType) : (typeNamed t.name).mapError Mishap.misuse = .ok t := by
    rw [typeNamed_name]
    rfl
  by_cases ht : r.terminal = true
  · simp only [step, Robot.stepBlock, ht, ↓reduceIte]
    rfl
  · cases b with
    | basic i =>
      obtain ⟨handler, hlookup, hhandler⟩ := lookup_handlers_basic i
      have htype : (Block.basic i).type = .basic i := rfl
      have hline : r.unwritten? l i = (r.perform l i).unwritable? := if_neg ht
      simp only [step, Robot.stepBlock, Robot.step?, Robot.step, ht, htype, hname, hlookup,
        hhandler, hline, written, bind, Except.bind, pure, Except.pure, Bool.false_eq_true,
        ↓reduceIte]
      cases (r.perform l i).unwritable? <;> rfl
    | loop n body =>
      have htype : (Block.loop n body).type = .loop := rfl
      simp only [step, Robot.stepBlock, ht, htype, hname, lookup_handlers_loop, bind, Except.bind,
        Bool.false_eq_true, ↓reduceIte]
      rfl

/-- A step on an instruction fails only at its line. -/
theorem step_basic (l : Level) (r : Robot) (i : Instruction) :
    step l r (.basic i) = (r.step? l i).mapError .unwritable := by
  rw [step_eq, Robot.stepBlock]
  by_cases ht : r.terminal = true
  · simp only [ht, Robot.step?, Robot.unwritten?, Robot.step_of_terminal, ↓reduceIte]
    rfl
  · rw [if_neg ht]
    cases r.step? l i <;> rfl

end GridRobot.Lookup
