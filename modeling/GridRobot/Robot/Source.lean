import GridRobot.Json.Basic
import GridRobot.Robot.Basic

/-!
# The robot as JSON
-/

namespace GridRobot.Robot

/-- The fields of a robot, in the order in which they are written. -/
def fields (r : Robot) : List (String × Json) :=
  [("x", .integer r.position.x),
    ("y", .integer r.position.y),
    ("facing", .string r.facing.name),
    ("crashed", .bool r.crashed),
    ("won", .bool r.won),
    ("collected_coins", .array (r.sortedCoins.map .string)),
    ("logs", .array (r.lines.map .string))]

end GridRobot.Robot
