import GridRobot.Proofs.Robot.Step

/-!
# Symmetries of the board

A symmetry of a level carries its cells to cells and its directions to directions, such that what is
next to each other stays next to each other, and what is on the board stays on the board. It may
exchange right and left. The whole plane is carried along, with the start and the entities that are
beside the board. A quarter turn and a reflection are symmetries of every level.
-/

namespace GridRobot

/-- The direction that a mirror with a vertical axis shows. -/
def Direction.mirror : Direction → Direction
  | north => north
  | east => west
  | south => south
  | west => east

/-- The instruction that a mirror shows. -/
def Instruction.mirror : Instruction → Instruction
  | move => move
  | moveBack => moveBack
  | turnLeft => turnRight
  | turnRight => turnLeft

namespace Level

structure Symmetry (l : Level) where
  cell : Position → Position
  heading : Direction → Direction
  /-- Whether right and left are exchanged. -/
  mirrored : Bool
  cell_inj : ∀ {p q}, cell p = cell q → p = q
  inside_cell : ∀ p, l.Inside (cell p) ↔ l.Inside p
  cell_neighbor : ∀ p d, cell (p.neighbor d) = (cell p).neighbor (heading d)
  heading_turnRight : ∀ d,
    heading d.turnRight = if mirrored then (heading d).turnLeft else (heading d).turnRight

namespace Symmetry

/-- The board is turned clockwise by a right angle. -/
def quarterTurn (l : Level) : l.Symmetry where
  cell p := ⟨l.size - 1 - p.y, p.x⟩
  heading := Direction.turnRight
  mirrored := false
  cell_inj {p q} h := by
    cases p
    cases q
    simp only [Position.mk.injEq] at h ⊢
    omega
  inside_cell p := by
    simp only [Inside]
    omega
  cell_neighbor p d := by
    cases d <;>
      simp only [Position.neighbor, Direction.turnRight, Direction.dx, Direction.dy,
        Position.mk.injEq, and_true] <;>
      omega
  heading_turnRight _ := rfl

/-- East and west of the board change places. -/
def reflection (l : Level) : l.Symmetry where
  cell p := ⟨l.size - 1 - p.x, p.y⟩
  heading := Direction.mirror
  mirrored := true
  cell_inj {p q} h := by
    cases p
    cases q
    simp only [Position.mk.injEq] at h ⊢
    omega
  inside_cell p := by
    simp only [Inside]
    omega
  cell_neighbor p d := by
    cases d <;>
      simp only [Position.neighbor, Direction.mirror, Direction.dx, Direction.dy,
        Position.mk.injEq, and_true] <;>
      omega
  heading_turnRight d := by cases d <;> rfl

variable {l : Level} (σ : l.Symmetry)

/-- Among the instructions, only the turns know right from left. -/
def instruction : Instruction → Instruction := if σ.mirrored then Instruction.mirror else fun i => i

def entity (e : Entity) : Entity := { e with position := σ.cell e.position }

/-- The level with its start and its entities carried along. -/
def level : Level :=
  { l with
    start := σ.cell l.start
    heading := σ.heading l.heading
    entities := l.entities.map σ.entity }

theorem heading_turnLeft (d : Direction) :
    σ.heading d.turnLeft =
      if σ.mirrored then (σ.heading d).turnRight else (σ.heading d).turnLeft := by
  have h := σ.heading_turnRight d.turnLeft
  rw [Direction.turnRight_turnLeft] at h
  rw [h]
  split
  · rw [Direction.turnRight_turnLeft]
  · rw [Direction.turnLeft_turnRight]

/-- To turn around is the same in a mirror. -/
theorem heading_reverse (d : Direction) : σ.heading d.reverse = (σ.heading d).reverse := by
  rw [← Direction.turnRight_turnRight, σ.heading_turnRight, σ.heading_turnRight]
  cases σ.mirrored
  · exact Direction.turnRight_turnRight _
  · generalize σ.heading d = d'
    cases d' <;> rfl

/-- What is found on a cell is found where the cell has been carried. -/
theorem entity?_level (k : EntityKind) (p : Position) :
    σ.level.entity? k (σ.cell p) = (l.entity? k p).map σ.entity := by
  rw [entity?, entity?, level, List.find?_map]
  congr 2
  funext e
  -- No other cell is carried to where `p` is, so nothing else can be found there.
  have hcell : σ.cell e.position = σ.cell p ↔ e.position = p :=
    ⟨σ.cell_inj, congrArg σ.cell⟩
  simp only [Function.comp, entity, hcell]

theorem obstacle?_level (p : Position) : σ.level.obstacle? (σ.cell p) = l.obstacle? p := by
  have hinside : σ.level.Inside (σ.cell p) ↔ l.Inside p := σ.inside_cell p
  rw [obstacle?, obstacle?, entity?_level, Option.map_map]
  simp only [hinside]
  rfl

end Symmetry

end Level

end GridRobot
