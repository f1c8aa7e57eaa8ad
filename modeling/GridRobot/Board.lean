import GridRobot.Robot.Basic
import GridRobot.Text.Column

/-!
# The board as text

One row of cells for each line of the board, separated by blanks. The picture is painted: first the
entities, of which the first on a cell stays and collected coins are left out, then the robot over
them.

A board of a size that no row can have is refused before anything is painted. Memory does not count,
here no more than for the trace of a program: a board that is not refused is painted.
-/

namespace GridRobot

def EntityKind.glyph : EntityKind → Char
  | wall => '#'
  | coin => 'o'
  | goal => 'G'

def Direction.glyph : Direction → Char
  | north => '^'
  | east => '>'
  | south => 'v'
  | west => '<'

def Robot.glyph (r : Robot) : Char := if r.crashed then 'X' else r.facing.glyph

/-- Whether an entity is no longer on the board: a coin that the robot has. -/
def Entity.taken (e : Entity) (r : Option Robot) : Bool :=
  e.kind = .coin && (r.map fun r => decide (e.id ∈ r.coins)).getD false

/-- The cells of a square board, row by row. -/
abbrev Board := Array (Array Char)

namespace Board

def emptyCell : Char := '.'

def blank (size : Nat) : Board := Array.replicate size (Array.replicate size emptyCell)

/-- Changes one cell of the board of a level; positions off the board change nothing. -/
def paint (b : Board) (l : Level) (p : Position) (f : Char → Char) : Board :=
  if l.Inside p then b.modify p.y.toNat fun row => row.modify p.x.toNat f else b

/-- Draws an entity where the cell is still empty. -/
def paintEntity (l : Level) (r : Option Robot) (b : Board) (e : Entity) : Board :=
  if e.taken r then b
  else b.paint l e.position fun c => if c = emptyCell then e.kind.glyph else c

/-- The picture of a level, with the robot if one is given. -/
def draw (l : Level) (r : Option Robot) : Board :=
  let board := l.entities.foldl (paintEntity l r) (blank l.size)
  match r with
  | some r => board.paint l r.position fun _ => r.glyph
  | none => board

def rows (b : Board) : List String :=
  b.toList.map fun row => " ".intercalate (row.toList.map fun c => String.ofList [c])

/-- Why there can be no row for a board. -/
inductive Fault where
  /-- A signed word of 64 bits does not hold the number of its cells. -/
  | uncountable
  /-- Such a word does not hold the number of its bytes, of which a cell takes eight. -/
  | unaddressable
  deriving DecidableEq, Repr

/-- What keeps a board of a size from being begun. -/
def fault? (size : Nat) : Option Fault :=
  if Nat.pow 2 63 ≤ size then some .uncountable
  else if Nat.pow 2 63 ≤ 8 * size then some .unaddressable
  else none

/-- Draws a board if there can be a row for it. -/
def draw? (l : Level) (r : Option Robot) : Except Fault Board :=
  match fault? l.size with
  | some f => .error f
  | none => .ok (draw l r)

theorem fault?_eq_none_iff {size : Nat} : fault? size = none ↔ 8 * size < Nat.pow 2 63 := by
  rw [fault?]
  split
  · exact iff_of_false nofun (by omega)
  · split
    · exact iff_of_false nofun (by omega)
    · exact iff_of_true rfl (by omega)

theorem draw?_eq_ok {l : Level} {r : Option Robot} (h : 8 * l.size < Nat.pow 2 63) :
    draw? l r = .ok (draw l r) := by
  simp only [draw?, fault?_eq_none_iff.mpr h]

end Board

/-- What a cell of the picture shows: the robot, else the first entity that has not been taken. -/
def Level.glyphAt (l : Level) (r : Option Robot) (p : Position) : Char :=
  match r.filter fun r => r.position = p with
  | some r => r.glyph
  | none =>
    match l.entities.find? fun e => e.position = p ∧ e.taken r = false with
    | some e => e.kind.glyph
    | none => Board.emptyCell

end GridRobot
