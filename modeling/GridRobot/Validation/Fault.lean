import GridRobot.Block.Basic
import GridRobot.Json.Integer

/-!
# Faults

What is wrong with a value, and where. A place is a field of an object or an item of an array; a
path leads from the whole value to the part at fault.
-/

namespace GridRobot

inductive Place where
  | field (name : String)
  | item (index : Nat)
  deriving DecidableEq, Repr

inductive Cause where
  /-- The whole of a program is no array. -/
  | notProgram
  | notArray
  /-- A block is no object. -/
  | notBlock
  /-- A level, position or entity is no object. -/
  | notRecord
  | noTag
  | unknownTag (shown : String)
  | missing
  | extra
  | notString
  | notInteger (fault : Json.IntegerFault)
  | tooSmall (least : Int)
  | tooLarge (most : Int)
  | notPositive
  /-- The value is none of a closed list of choices. -/
  | notChoice (choices : List String)
  deriving DecidableEq, Repr

namespace Cause

/-- The names in a text, each between single quotes. -/
def quoteAll (names : List String) : List String := names.map fun name => "'" ++ name ++ "'"

/-- Choices in a sentence: separated by commas, with `or` before the last. -/
def orList : List String → String
  | [] => ""
  | [c] => c
  | [c, d] => c ++ " or " ++ d
  | c :: cs => c ++ ", " ++ orList cs

def message : Cause → String
  | notProgram | notArray => "Input should be a valid array"
  | notBlock | notRecord => "Input should be an object"
  | noTag => "Unable to extract tag using discriminator 'type'"
  | unknownTag shown =>
    "Input tag '" ++ shown ++ "' found using 'type' does not match any of the expected tags: " ++
      ", ".intercalate (quoteAll (BlockType.all.map BlockType.name))
  | missing => "Field required"
  | extra => "Extra inputs are not permitted"
  | notString => "Input should be a valid string"
  | notInteger fault => fault.message
  | tooSmall n => s!"Input should be greater than or equal to {n}"
  | tooLarge n => s!"Input should be less than or equal to {n}"
  | notPositive => "Input should be greater than 0"
  | notChoice choices => "Input should be " ++ orList choices

end Cause

structure Fault where
  path : List Place
  cause : Cause
  deriving DecidableEq, Repr

/-- The fault as seen from outside the place. -/
def Fault.under (p : Place) (f : Fault) : Fault := { f with path := p :: f.path }

end GridRobot
