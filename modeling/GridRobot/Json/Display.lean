import GridRobot.Json.Basic
import GridRobot.Number.Shortest
import GridRobot.Text.Quoted

/-!
# Values in messages

How a message shows a value: on one line, with texts between quotes and the constants capitalised.
-/

namespace GridRobot.Json

/-- What stands between a key and its value. -/
def keySeparator : List Char := [':', ' ']

def itemSeparator : List Char := [',', ' ']

/-- The display of a constant or of a scalar. -/
def scalarDisplay : Json → String
  | bool true => "True"
  | bool false => "False"
  | integer n => toString n
  | number d => d.text
  | string s => Text.quoted s
  | _ => "None"

mutual

/-- The display of a value, followed by `rest`. -/
def display (v : Json) (rest : List Char) : List Char :=
  match v with
  | array [] => '[' :: ']' :: rest
  | array (v :: vs) => '[' :: display v (displayItems vs rest)
  | object [] => '\x7b' :: '\x7d' :: rest
  | object ((k, v) :: ms) =>
    '\x7b' :: (Text.quoted k).toList ++ keySeparator ++ display v (displayMembers ms rest)
  | v => v.scalarDisplay.toList ++ rest

/-- The items after the first, and the end of the array. -/
def displayItems (vs : List Json) (rest : List Char) : List Char :=
  match vs with
  | [] => ']' :: rest
  | v :: vs => itemSeparator ++ display v (displayItems vs rest)

def displayMembers (ms : List (String × Json)) (rest : List Char) : List Char :=
  match ms with
  | [] => '\x7d' :: rest
  | (k, v) :: ms =>
    itemSeparator ++ (Text.quoted k).toList ++ keySeparator ++ display v (displayMembers ms rest)

end

/-- The text that a message inserts for a value: a string as it is, any other value as displayed. -/
def shown : Json → String
  | string s => s
  | v => String.ofList (v.display [])

end GridRobot.Json
