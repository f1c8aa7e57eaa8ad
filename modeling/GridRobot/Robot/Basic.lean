import GridRobot.Level.Basic

/-!
# The robot

Where the robot stands, what became of it, and the log of what it did. The log and the coins are
kept newest first, so that the states of a run share them.
-/

namespace GridRobot

/-- A line of the robot's log. -/
inductive LogLine where
  | online
  | turnedLeft
  | turnedRight
  | moved (target : Position)
  | reversed (target : Position)
  | collision
  | coin
  | target
  /-- A line that was there before the run. -/
  | remark (text : String)
  deriving DecidableEq, Repr

def LogLine.text : LogLine → String
  | online => "System Online. Awaiting command."
  | turnedLeft => "Turned Left"
  | turnedRight => "Turned Right"
  | moved p => s!"Moved to ({p.x}, {p.y})"
  | reversed p => s!"Reversed to ({p.x}, {p.y})"
  | collision => "CRITICAL FAILURE: Collision detected."
  | coin => "Coin Collected!"
  | target => "TARGET REACHED. SEQUENCE COMPLETE."
  | remark text => text

/-- The numbers in a line. Those of a remark have been written already. -/
def LogLine.numbers : LogLine → List Int
  | moved p | reversed p => [p.x, p.y]
  | _ => []

/-- Whether the numbers in a line can be written. -/
def LogLine.Writable (line : LogLine) : Prop := ∀ n ∈ line.numbers, Text.Writable n

instance (line : LogLine) : Decidable line.Writable := inferInstanceAs (Decidable (∀ _ ∈ _, _))

inductive Status where
  | running
  | crashed
  | won
  deriving DecidableEq, Repr

def Status.name : Status → String
  | running => "running"
  | crashed => "crashed"
  | won => "won"

structure Robot where
  position : Position
  facing : Direction
  crashed : Bool := false
  won : Bool := false
  /-- The ids of the coins collected, each once, the latest first. -/
  coins : List String := []
  /-- The latest line first. -/
  log : List LogLine := []
  deriving DecidableEq, Repr

namespace Robot

/-- The robot at the start of a level. -/
def start (l : Level) : Robot := { position := l.start, facing := l.heading, log := [.online] }

/-- A crash hides a win. -/
def status (r : Robot) : Status :=
  if r.crashed then .crashed else if r.won then .won else .running

def terminal (r : Robot) : Bool := r.crashed || r.won

/-- The lines of the log, the oldest first. -/
def lines (r : Robot) : List String := (r.log.map LogLine.text).reverse

/-- The lines that a later state has beyond an earlier one. -/
def linesSince (r earlier : Robot) : List String :=
  ((r.log.take (r.log.length - earlier.log.length)).map LogLine.text).reverse

def lastLine? (r : Robot) : Option String := r.log.head?.map LogLine.text

/-- The coins in the order of their ids, compared character by character. -/
def sortedCoins (r : Robot) : List String := r.coins.mergeSort fun a b => decide (a ≤ b)

end Robot

end GridRobot
