import GridRobot.Direction
import GridRobot.Json.Display
import GridRobot.Playback.Basic
import GridRobot.Score

/-!
# Choices by value

A member of a closed list, looked up by the value that stands for it.
-/

namespace GridRobot

/-- The closed lists that values are looked up in. -/
inductive Choice where
  | direction
  | outcome
  | rating
  | blockType
  deriving DecidableEq, Repr

/-- The list as a message names it. -/
def Choice.title : Choice → String
  | direction => "Direction"
  | outcome => "RunOutcome"
  | rating => "Rating"
  | blockType => "BlockType"

/-- A value that stands for no member of a list. -/
structure NoSuchChoice where
  list : Choice
  value : Json

def NoSuchChoice.message (e : NoSuchChoice) : String :=
  s!"{String.ofList (e.value.display [])} is not a valid {e.list.title}"

/-- The text that a value is. -/
def Json.text? : Json → Option String
  | string s => some s
  | _ => none

/-- Looks a value up in a list. -/
def Choice.find {α : Type} (c : Choice) (find? : Json → Option α) (v : Json) :
    Except NoSuchChoice α :=
  match find? v with
  | some a => .ok a
  | none => .error ⟨c, v⟩

/-- The integer that a value equals; truth values count as one and zero. -/
def Json.number? : Json → Option Int
  | integer n => some n
  | bool b => some (if b then 1 else 0)
  | number d => d.toInt?
  | _ => none

/-- Directions are looked up by their number of right turns from north. -/
def Direction.ofValue : Json → Except NoSuchChoice Direction :=
  Choice.direction.find fun v => v.number?.bind ofQuarters?

def Outcome.ofValue : Json → Except NoSuchChoice Outcome :=
  Choice.outcome.find fun v => v.text?.bind ofName?

def Rating.ofValue : Json → Except NoSuchChoice Rating :=
  Choice.rating.find fun v => v.text?.bind ofName?

def BlockType.ofValue : Json → Except NoSuchChoice BlockType :=
  Choice.blockType.find fun v => v.text?.bind ofName?

end GridRobot
