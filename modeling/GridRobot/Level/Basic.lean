import GridRobot.Direction
import GridRobot.Block.Basic
import GridRobot.Text.Numeral

/-!
# Levels

A level is a square board, a start pose, and entities on it or beside it. Nothing ties the start or
the entities to the board, several entities may share a cell, and a level need not have a goal.
-/

namespace GridRobot

inductive EntityKind where
  | wall
  | coin
  | goal
  deriving DecidableEq, Repr

namespace EntityKind

def all : List EntityKind := [wall, coin, goal]

def name : EntityKind → String
  | wall => "wall"
  | coin => "coin"
  | goal => "end"

def ofName? (s : String) : Option EntityKind := all.find? fun k => k.name = s

@[simp] theorem ofName?_name (k : EntityKind) : ofName? k.name = some k := by
  cases k <;> decide

end EntityKind

structure Entity where
  id : String
  kind : EntityKind
  position : Position
  deriving DecidableEq, Repr

structure Level where
  id : Int
  name : String
  description : String
  size : Nat
  start : Position
  heading : Direction
  /-- In the order of declaration, which decides who is found where several share a cell. -/
  entities : List Entity
  /-- The block count that a perfect run must not exceed. -/
  optimalBlocks : Int
  maxBlocks : Option Int
  palette : List BlockType
  solution : Program
  size_pos : 0 < size := by decide

namespace Level

/-- A position is inside when both coordinates are at least zero and below the size. -/
def Inside (l : Level) (p : Position) : Prop :=
  0 ≤ p.x ∧ p.x < l.size ∧ 0 ≤ p.y ∧ p.y < l.size

instance (l : Level) (p : Position) : Decidable (l.Inside p) :=
  inferInstanceAs (Decidable (_ ∧ _))

/-- Whether all coordinates on the board can be written. -/
def Writable (l : Level) : Prop := l.size ≤ Nat.pow 10 Text.digitLimit

instance (l : Level) : Decidable l.Writable := inferInstanceAs (Decidable (_ ≤ _))

theorem Writable.coordinates {l : Level} {p : Position} (h : l.Writable) (hin : l.Inside p) :
    Text.Writable p.x ∧ Text.Writable p.y := by
  obtain ⟨hx, hxl, hy, hyl⟩ := hin
  rw [Writable] at h
  constructor <;> rw [Text.Writable] <;> omega

/-- The first entity of a kind on a cell. -/
def entity? (l : Level) (k : EntityKind) (p : Position) : Option Entity :=
  l.entities.find? fun e => e.kind = k ∧ e.position = p

def entitiesOf (l : Level) (k : EntityKind) : List Entity :=
  l.entities.filter fun e => e.kind = k

/-- The first goal. -/
def goal? (l : Level) : Option Entity := (l.entitiesOf .goal).head?

def coins (l : Level) : List Entity := l.entitiesOf .coin

def walls (l : Level) : List Entity := l.entitiesOf .wall

theorem entity?_eq_some {l : Level} {k : EntityKind} {p : Position} {e : Entity}
    (h : l.entity? k p = some e) : e ∈ l.entities ∧ e.kind = k ∧ e.position = p := by
  have hk := List.find?_some h
  simp only [decide_eq_true_eq] at hk
  exact ⟨List.mem_of_find?_eq_some h, hk⟩

end Level

/-- What stands in the way of a move. -/
inductive Obstacle where
  | edge
  | wall (id : String)
  deriving DecidableEq, Repr

/-- What keeps the robot from entering a cell: the edge of the board, or else the first wall there.
-/
def Level.obstacle? (l : Level) (p : Position) : Option Obstacle :=
  if l.Inside p then (l.entity? .wall p).map fun w => .wall w.id else some .edge

theorem Level.obstacle?_eq_none_iff {l : Level} {p : Position} :
    l.obstacle? p = none ↔ l.Inside p ∧ l.entity? .wall p = none := by
  simp only [obstacle?]
  split <;> simp_all

end GridRobot
