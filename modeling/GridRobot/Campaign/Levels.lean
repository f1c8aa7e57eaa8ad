import GridRobot.Campaign.Basic

/-!
# The built-in levels
-/

namespace GridRobot.Campaign

private def step : Block := .basic .move
private def right : Block := .basic .turnRight
private def left : Block := .basic .turnLeft

def initiation : Level where
  id := 1
  name := "Initiation"
  description := "Program the robot to reach the Data Terminal."
  size := 5
  start := ⟨0, 2⟩
  heading := .east
  entities := [⟨"e1", .goal, ⟨4, 2⟩⟩, ⟨"w1", .wall, ⟨2, 0⟩⟩, ⟨"w2", .wall, ⟨2, 4⟩⟩]
  optimalBlocks := 4
  maxBlocks := some 5
  palette := [.basic .move, .basic .moveBack]
  solution := [step, step, step, step]

def corner : Level where
  id := 2
  name := "The Corner"
  description := "Use Turn commands to navigate around the firewall."
  size := 5
  start := ⟨1, 4⟩
  heading := .north
  entities := [⟨"e1", .goal, ⟨3, 1⟩⟩, ⟨"w1", .wall, ⟨1, 2⟩⟩, ⟨"w2", .wall, ⟨2, 2⟩⟩,
    ⟨"w3", .wall, ⟨3, 2⟩⟩]
  optimalBlocks := 10
  maxBlocks := some 12
  palette := [.basic .move, .basic .turnRight, .basic .turnLeft, .basic .moveBack]
  solution := [step, right, step, step, step, left, step, step, left, step]

/-- Three turns to the right make one to the left, which this level does not offer. -/
def loopLogic : Level where
  id := 3
  name := "Loop Logic"
  description := "Use the Repeat block to traverse long distances efficiently."
  size := 6
  start := ⟨0, 0⟩
  heading := .east
  entities := [⟨"c1", .coin, ⟨2, 0⟩⟩, ⟨"c2", .coin, ⟨4, 0⟩⟩, ⟨"e1", .goal, ⟨5, 5⟩⟩,
    ⟨"w1", .wall, ⟨5, 0⟩⟩, ⟨"w2", .wall, ⟨5, 1⟩⟩, ⟨"w3", .wall, ⟨5, 2⟩⟩]
  optimalBlocks := 5
  maxBlocks := some 6
  palette := [.basic .move, .basic .turnRight, .loop]
  solution := [.loop 4 [step], right, .loop 5 [step], .loop 3 [right], step]

def builtin : List Level := [initiation, corner, loopLogic]

/-- The built-in level of an id. -/
def level (id : Int) : Except UnknownLevel Level :=
  match builtin.find? fun l => l.id = id with
  | some l => .ok l
  | none => .error ⟨id⟩

end GridRobot.Campaign
