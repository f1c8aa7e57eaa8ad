import GridRobot.Json.Reader
import GridRobot.Validation.Checked

/-!
# Rejections

A text is rejected because it is no JSON, or because of faults in its value. A summary counts them.
-/

namespace GridRobot

/-- What a text was to be. -/
inductive Subject where
  | program
  | level
  | loop
  deriving DecidableEq, Repr

/-- The subject as a summary names it. -/
def Subject.title : Subject → String
  | program => "list[tagged-union[Move,MoveBack,TurnLeft,TurnRight,Repeat]]"
  | level => "LevelDef"
  | loop => "Repeat"

inductive Reason where
  | notJson
  | faults (all : List Fault)
  deriving DecidableEq, Repr

structure Rejection where
  subject : Subject
  reason : Reason
  deriving DecidableEq, Repr

namespace Rejection

def count (r : Rejection) : Nat :=
  match r.reason with
  | .notJson => 1
  | .faults all => all.length

def summary (r : Rejection) : String :=
  s!"{r.count} validation error" ++ (if r.count = 1 then "" else "s") ++ s!" for {r.subject.title}"

end Rejection

/-- The checked value of a subject. -/
def Checked.accept {α : Type} (s : Subject) : Checked α → Except Rejection α
  | valid a => .ok a
  | invalid fs => .error ⟨s, .faults fs⟩

/-- Reads a text and checks its value. -/
def Json.accept {α : Type} (s : Subject) (check : Json → Checked α) (text : String) :
    Except Rejection α :=
  match Json.parse? Json.nestingLimit text with
  | some v => (check v).accept s
  | none => .error ⟨s, .notJson⟩

end GridRobot
