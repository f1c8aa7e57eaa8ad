/-!
# Directions and positions

The board has its origin in the north-west corner: `x` grows eastwards and `y` grows southwards.
A direction is one of four headings, a quarter turn apart.
-/

namespace GridRobot

inductive Direction where
  | north
  | east
  | south
  | west
  deriving DecidableEq, Repr

namespace Direction

def turnRight : Direction → Direction
  | north => east
  | east => south
  | south => west
  | west => north

def turnLeft : Direction → Direction
  | north => west
  | east => north
  | south => east
  | west => south

def reverse : Direction → Direction
  | north => south
  | east => west
  | south => north
  | west => east

@[simp] theorem turnLeft_turnRight (d : Direction) : d.turnRight.turnLeft = d := by cases d <;> rfl
@[simp] theorem turnRight_turnLeft (d : Direction) : d.turnLeft.turnRight = d := by cases d <;> rfl
@[simp] theorem reverse_reverse (d : Direction) : d.reverse.reverse = d := by cases d <;> rfl

theorem turnRight_turnRight (d : Direction) : d.turnRight.turnRight = d.reverse := by
  cases d <;> rfl

/-- How far one step in this direction leads east. -/
def dx : Direction → Int
  | east => 1
  | west => -1
  | _ => 0

/-- How far one step in this direction leads south. -/
def dy : Direction → Int
  | south => 1
  | north => -1
  | _ => 0

/-- The number of right turns that lead here from north. -/
def quarters : Direction → Nat
  | north => 0
  | east => 1
  | south => 2
  | west => 3

/-- The direction with that number of right turns from north, for the numbers below four. -/
def ofQuarters? : Int → Option Direction
  | 0 => some north
  | 1 => some east
  | 2 => some south
  | 3 => some west
  | _ => none

@[simp] theorem ofQuarters?_quarters (d : Direction) : ofQuarters? d.quarters = some d := by
  cases d <;> rfl

def name : Direction → String
  | north => "NORTH"
  | east => "EAST"
  | south => "SOUTH"
  | west => "WEST"

end Direction

/-- A cell of the plane, on the board or off it. -/
structure Position where
  x : Int
  y : Int
  deriving DecidableEq, Repr

/-- The next cell in direction `d`. -/
def Position.neighbor (p : Position) (d : Direction) : Position :=
  ⟨p.x + d.dx, p.y + d.dy⟩

@[simp] theorem Position.neighbor_reverse_neighbor (p : Position) (d : Direction) :
    (p.neighbor d).neighbor d.reverse = p := by
  cases p
  cases d <;>
    simp only [Position.neighbor, Direction.reverse, Direction.dx, Direction.dy,
      Position.mk.injEq] <;>
    omega

end GridRobot
