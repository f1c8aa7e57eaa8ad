import GridRobot.Execution

/-!
# Campaigns

A campaign is a sequence of levels with the progress made on it. The first level is open, and any
other once the level before it has been completed. Where levels share an id, the first of them
counts.
-/

namespace GridRobot

structure UnknownLevel where
  id : Int
  deriving DecidableEq, Repr

def UnknownLevel.message (e : UnknownLevel) : String := s!"No level with id {e.id}"

structure Campaign where
  levels : List Level
  /-- The ids of the completed levels, each once. -/
  completed : List Int := []
  /-- The best rating of each completed level. -/
  best : List (Int × Rating) := []

namespace Campaign

def index (c : Campaign) (id : Int) : Except UnknownLevel Nat :=
  match c.levels.findIdx? fun l => l.id = id with
  | some n => .ok n
  | none => .error ⟨id⟩

def unlocked (c : Campaign) (id : Int) : Except UnknownLevel Bool := do
  match ← c.index id with
  | 0 => return true
  | n + 1 => return (c.levels[n]?.map fun l => decide (l.id ∈ c.completed)).getD false

def rating? (c : Campaign) (id : Int) : Option Rating := c.best.lookup id

/-- The better of a new rating and the one held so far. -/
def improve (new : Rating) : Option Rating → Rating
  | none => new
  | some old => if old = .complete ∧ new = .perfect then new else old

/-- Records a finished run. Only a win completes a level, and a rating never gets worse. -/
def record (c : Campaign) (id : Int) (r : Rating) : Except UnknownLevel Campaign := do
  let _ ← c.index id
  if r = .failed then return c
  return { c with
    completed := if id ∈ c.completed then c.completed else id :: c.completed
    best := (id, improve r (c.rating? id)) :: c.best.filter fun b => b.1 ≠ id }

/-- What recording a run reports. -/
def recordEvents (c : Campaign) (id : Int) (r : Rating) : List Event :=
  match c.index id with
  | .ok _ => if r = .failed then [] else [.completed id r]
  | .error _ => []

/-- The id of the next level; the first level follows the last. -/
def next (c : Campaign) (id : Int) : Except UnknownLevel Int := do
  let n ← c.index id
  return (c.levels[(n + 1) % c.levels.length]?.map Level.id).getD id

/-- How many levels have been completed, and how many there are. -/
def progress (c : Campaign) : Nat × Nat := (c.completed.length, c.levels.length)

end Campaign

end GridRobot
