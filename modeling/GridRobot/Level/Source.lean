import GridRobot.Block.Source
import GridRobot.Level.Basic

/-!
# Level sources

A level is a JSON object. Fields are checked in the order of the declaration, and fields that are
not declared do not count.
-/

namespace GridRobot

/-- A member of `v`, or the fault that `v` is no object. -/
def Json.checkRecord {α : Type} (check : List (String × Json) → Checked α) : Json → Checked α
  | .object members => check members
  | _ => .fault .notRecord

def Position.ofMembers (members : List (String × Json)) : Checked Position :=
  Position.mk <$> Json.required members "x" Json.checkInt
    <*> Json.required members "y" Json.checkInt

def Position.ofJson : Json → Checked Position := Json.checkRecord ofMembers

/-- The number of a direction, in any spelling of an integer. -/
def Direction.ofJson (v : Json) : Checked Direction :=
  match v.choiceNumber with
  | .error e => .fault (.notInteger e)
  | .ok n =>
    match n.bind ofQuarters? with
    | some d => .valid d
    | none => .fault (.notChoice (["0", "1", "2", "3"]))

def EntityKind.ofJson (v : Json) : Checked EntityKind :=
  v.checkName ofName? (all.map name)

def Entity.ofJson : Json → Checked Entity := Json.checkRecord fun members =>
  Entity.mk <$> Json.required members "id" Json.checkText
    <*> Json.required members "type" EntityKind.ofJson
    <*> Position.ofMembers members

namespace Level

/-- The size of a board: an integer above zero. -/
def checkSize (v : Json) : Checked { n : Nat // 0 < n } :=
  match v.toInt with
  | .error e => .fault (.notInteger e)
  | .ok n => if h : 0 < n then .valid ⟨n.toNat, Int.pos_iff_toNat_pos.mp h⟩ else .fault .notPositive

/-- An integer, or null for none. -/
def checkLimit : Json → Checked (Option Int)
  | .null => .valid none
  | v => some <$> v.checkInt

def checkType (v : Json) : Checked BlockType :=
  v.checkName BlockType.ofName? (BlockType.all.map BlockType.name)

def ofJson : Json → Checked Level := Json.checkRecord fun members =>
  (fun id name description size start heading entities optimal limit palette solution =>
    ⟨id, name, description, size.val, start, heading, entities, optimal, limit, palette, solution,
      size.property⟩)
    <$> Json.optional members "id" 0 Json.checkInt
    <*> Json.optional members "name" "" Json.checkText
    <*> Json.optional members "description" "" Json.checkText
    <*> Json.required members "grid_size" checkSize
    <*> Json.required members "start_pos" Position.ofJson
    <*> Json.optional members "start_dir" .east Direction.ofJson
    <*> Json.optional members "entities" [] (Json.checkArray Entity.ofJson)
    <*> Json.optional members "optimal_blocks" 0 Json.checkInt
    <*> Json.optional members "max_blocks" none checkLimit
    <*> Json.optional members "available_blocks" BlockType.all (Json.checkArray checkType)
    <*> Json.optional members "solution" [] Block.listOfJson

/-- Reads the source of a level. -/
def parse (source : String) : Except Rejection Level := Json.accept .level ofJson source

end Level

end GridRobot
