import GridRobot.Json.Token

/-!
# Reading JSON

The reader goes through the tokens once and keeps the arrays and objects that are still open in a
list, innermost first. It lets no more than a given number of them hold something at a time; an
empty one may stand at any depth. Of several members with one key the last value counts, in the
place of the first.
-/

namespace GridRobot.Json

/-- An array or object part way through: its items, latest first, or its members and the key whose
value is being read. -/
inductive Open where
  | array (items : List Json)
  | object (members : List (String × Json)) (key : String)

/-- What the reader expects, with the containers around it. -/
inductive Reader where
  | value (around : List Open)
  /-- The first item of an array, or its end. -/
  | item (around : List Open)
  /-- The first member of an object, or its end. -/
  | member (around : List Open)
  | key (members : List (String × Json)) (around : List Open)
  | colon (members : List (String × Json)) (key : String) (around : List Open)
  /-- A value is complete: a comma or the end of what is around it. -/
  | done (v : Json) (around : List Open)

namespace Reader

/-- Reads the first token of a value. -/
def start (around : List Open) : Token → Option Reader
  | .scalar v => some (done v around)
  | .openArray => some (item around)
  | .openObject => some (member around)
  | _ => none

def step (limit : Nat) : Reader → Token → Option Reader
  | value around, t => start around t
  | item around, .closeArray => some (done (.array []) around)
  | item around, t => if around.length < limit then start (.array [] :: around) t else none
  | member around, .closeObject => some (done (.object []) around)
  | member around, .scalar (.string k) =>
    if around.length < limit then some (colon [] k around) else none
  | key members around, .scalar (.string k) => some (colon members k around)
  | colon members k around, .colon => some (value (.object members k :: around))
  | done v (.array items :: around), .comma => some (value (.array (v :: items) :: around))
  | done v (.array items :: around), .closeArray => some (done (.array (v :: items).reverse) around)
  | done v (.object members k :: around), .comma => some (key (insert k v members) around)
  | done v (.object members k :: around), .closeObject =>
    some (done (.object (insert k v members)) around)
  | _, _ => none

end Reader

/-- The value that tokens spell, if no more than `limit` containers hold something at a time. -/
def ofTokens? (limit : Nat) (tokens : List Token) : Option Json := do
  match ← tokens.foldlM (Reader.step limit) (.value []) with
  | .done v [] => return v
  | _ => none

/-- How many containers of a source may hold something at a time. -/
def nestingLimit : Nat := 200

def parse? (limit : Nat) (text : String) : Option Json := do
  ofTokens? limit (← tokens? text.toList)

end GridRobot.Json
