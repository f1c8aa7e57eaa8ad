import GridRobot.Board
import GridRobot.Robot.Step

/-!
# Lookups that can fail

The definitions of this library are total: a direction turns by one case for each heading, and an
index that may lie behind the end of a trace is asked for with an answer for that case. The same
work can be done by lookups: of a direction by its number, of a type by its name, of an entry in a
table, of an item in a list. Such a lookup finds nothing outside its domain, and that is a misuse
of it. The lemmas here say what each lookup finds inside its domain.
-/

namespace GridRobot

/-- A lookup of what is not there. -/
inductive Misuse where
  | direction (number : Int)
  | typeName (name : String)
  | entry
  | item (index : Int) (length : Nat)
  | notAtomic (block : Block)
  deriving DecidableEq

namespace Lookup

variable {α κ : Type}

/-- Where an index points to. A negative index counts from the end of the list. -/
def place? (xs : List α) (i : Int) : Option Nat :=
  (if i < 0 then i + xs.length else i).toNat?.filter (· < xs.length)

/-- The item of a list at an index. -/
def item (xs : List α) (i : Int) : Except Misuse α :=
  match (place? xs i).bind (xs[·]?) with
  | some a => .ok a
  | none => .error (.item i xs.length)

/-- The list with another item at an index. -/
def replace (xs : List α) (i : Int) (a : α) : Except Misuse (List α) :=
  match place? xs i with
  | some k => .ok (xs.set k a)
  | none => .error (.item i xs.length)

/-- The top of a stack, and what is below it. -/
def top : List α → Except Misuse (α × List α)
  | [] => .error (.item (-1) 0)
  | a :: below => .ok (a, below)

/-- The entry of a table for a key. -/
def entry [DecidableEq κ] (table : List (κ × α)) (k : κ) : Except Misuse α :=
  match table.lookup k with
  | some a => .ok a
  | none => .error .entry

theorem place?_of_nonneg {xs : List α} {i : Int} (hi : 0 ≤ i) (h : i.toNat < xs.length) :
    place? xs i = some i.toNat := by
  obtain ⟨k, rfl⟩ := Int.eq_ofNat_of_zero_le hi
  have hk : ¬(k : Int) < 0 := by omega
  have hlt : k < xs.length := h
  simp [place?, hk, Int.toNat?, hlt]

theorem item_of_nonneg {xs : List α} {i : Int} {a : α} (hi : 0 ≤ i)
    (h : xs[i.toNat]? = some a) : item xs i = .ok a := by
  have hlt : i.toNat < xs.length := (List.getElem?_eq_some_iff.mp h).1
  simp [item, place?_of_nonneg hi hlt, h]

theorem replace_of_nonneg {xs : List α} {i : Int} (hi : 0 ≤ i) (h : i.toNat < xs.length) (a : α) :
    replace xs i a = .ok (xs.set i.toNat a) := by
  simp [replace, place?_of_nonneg hi h]

/-- The index in front of the first points to the last item, if there is one. -/
theorem item_neg_one {xs : List α} {a : α} (h : xs.getLast? = some a) : item xs (-1) = .ok a := by
  rw [List.getLast?_eq_getElem?] at h
  have hlen : xs.length - 1 < xs.length := (List.getElem?_eq_some_iff.mp h).1
  have hplace : place? xs (-1) = some (xs.length - 1) := by
    have hback : -1 + (xs.length : Int) = (xs.length - 1 : Nat) := by omega
    simp [place?, hback, Int.toNat?, hlen]
  simp [item, hplace, h]

/-- The direction with a number. -/
def direction (n : Int) : Except Misuse Direction :=
  match Direction.ofQuarters? n with
  | some d => .ok d
  | none => .error (.direction n)

/-- The direction some right turns further. -/
def turned (d : Direction) (quarters : Int) : Except Misuse Direction :=
  direction ((d.quarters + quarters) % 4)

theorem turned_one (d : Direction) : turned d 1 = .ok d.turnRight := by cases d <;> rfl
theorem turned_two (d : Direction) : turned d 2 = .ok d.reverse := by cases d <;> rfl
theorem turned_three (d : Direction) : turned d 3 = .ok d.turnLeft := by cases d <;> rfl

/-- How far one step in each direction leads east and south. -/
def deltas : List (Direction × Int × Int) :=
  [(.north, 0, -1), (.east, 1, 0), (.south, 0, 1), (.west, -1, 0)]

theorem entry_deltas (d : Direction) : entry deltas d = .ok (d.dx, d.dy) := by cases d <;> rfl

/-- The type of block with a name. -/
def typeNamed (name : String) : Except Misuse BlockType :=
  match BlockType.ofName? name with
  | some t => .ok t
  | none => .error (.typeName name)

theorem typeNamed_name (t : BlockType) : typeNamed t.name = .ok t := by simp [typeNamed]

def robotGlyphs : List (Direction × Char) :=
  [(.north, '^'), (.east, '>'), (.south, 'v'), (.west, '<')]

def entityGlyphs : List (EntityKind × Char) := [(.wall, '#'), (.coin, 'o'), (.goal, 'G')]

theorem entry_robotGlyphs (d : Direction) : entry robotGlyphs d = .ok d.glyph := by
  cases d <;> rfl

theorem entry_entityGlyphs (k : EntityKind) : entry entityGlyphs k = .ok k.glyph := by
  cases k <;> rfl

end Lookup

end GridRobot
