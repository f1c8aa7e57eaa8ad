/-!
# Columns of text

Padding with blanks to a least width; longer texts are left as they are.
-/

namespace GridRobot.Text

def padLeft (width : Nat) (s : String) : String :=
  String.ofList (List.replicate (width - s.length) ' ' ++ s.toList)

def padRight (width : Nat) (s : String) : String :=
  String.ofList (s.toList ++ List.replicate (width - s.length) ' ')

/-- Lines joined by line feeds, without one at the end. -/
def joinLines (lines : List String) : String := "\n".intercalate lines

/-- Lines that each end in a line feed. -/
def endLines (lines : List String) : String := String.join (lines.map (· ++ "\n"))

end GridRobot.Text
