import GridRobot.Json.Printer
import GridRobot.Json.Display
import GridRobot.Validation.Rejection

/-!
# Program sources

A source is a JSON array of blocks. A block is an object whose `type` names it; a loop may have a
`count` and a `body` besides, and nothing else is allowed.
-/

namespace GridRobot

theorem count_lt {n : Int} (h : ¬10 < n) : n.toNat < 11 := by omega

/-- The count of a loop: an integer from zero to ten. -/
def Json.checkCount (v : Json) : Checked (Fin 11) :=
  match v.toInt with
  | .error e => .fault (.notInteger e)
  | .ok n =>
    if n < 0 then .fault (.tooSmall 0)
    else if high : 10 < n then .fault (.tooLarge 10)
    else .valid ⟨n.toNat, count_lt high⟩

namespace Block

mutual

def ofJson : Json → Checked Block
  | .object members =>
    match Json.member? "type" members with
    | none => .fault .noTag
    | some tag =>
      match tag with
      | .string name =>
        match BlockType.ofName? name with
        | none => .fault (.unknownTag name)
        | some (.basic i) =>
          ((fun _ => .basic i) <$> Json.noOthers members ["type"]).under (.field name)
        | some .loop =>
          let count := Json.optional members "count" defaultCount Json.checkCount
          let body := match _h : Json.member? "body" members with
            | none => .valid []
            | some (.array vs) => (ofItems 0 vs).under (.field "body")
            | some _ => .under (.field "body") (.fault .notArray)
          ((fun n bs _ => .loop n bs) <$> count <*> body <*>
            Json.noOthers members ["type", "count", "body"]).under (.field name)
      | tag => .fault (.unknownTag tag.shown)
  | _ => .fault .notBlock
termination_by v => sizeOf v
decreasing_by
  have := Json.sizeOf_member?_lt _h
  simp only [Json.array.sizeOf_spec, Json.object.sizeOf_spec] at this ⊢
  omega

/-- The blocks of an array, of which `n` have come before. -/
def ofItems (n : Nat) : List Json → Checked (List Block)
  | [] => .valid []
  | v :: vs => List.cons <$> (ofJson v).under (.item n) <*> ofItems (n + 1) vs
termination_by vs => sizeOf vs

end

mutual

def toJson : Block → Json
  | basic i => .object [("type", .string i.name)]
  | loop n body =>
    .object [("type", .string BlockType.loop.name), ("count", .integer n.val),
      ("body", .array (toItems body))]

def toItems : List Block → List Json
  | [] => []
  | b :: bs => toJson b :: toItems bs

end

/-- An array of blocks. -/
def listOfJson : Json → Checked (List Block)
  | .array vs => ofItems 0 vs
  | _ => .fault .notArray

end Block

namespace Program

def ofJson : Json → Checked Program
  | .array vs => Block.ofItems 0 vs
  | _ => .fault .notProgram

def toJson (p : Program) : Json := .array (Block.toItems p)

/-- Reads a source. -/
def parse (source : String) : Except Rejection Program := Json.accept .program ofJson source

/-- The source of a program. -/
def source (p : Program) : String := p.toJson.text

end Program

end GridRobot
