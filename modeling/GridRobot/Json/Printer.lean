import GridRobot.Json.Basic
import GridRobot.Number.Shortest
import GridRobot.Text.Hex

/-!
# Printing JSON

Each item and member has a line of its own, indented by two blanks for each container around it;
empty containers are written without a line break. Only the visible characters of ASCII stand for
themselves, the others are written as code units. Like those for blocks, the writers put a text in
front of what follows it.
-/

namespace GridRobot.Json

/-- A code unit, as an escape. -/
def writeUnit (n : Nat) : List Char := '\\' :: 'u' :: Text.hex 4 n

/-- The written form of a character of a string. -/
def writeChar (c : Char) : List Char :=
  match c with
  | '"' => ['\\', '"']
  | '\\' => ['\\', '\\']
  | '\n' => ['\\', 'n']
  | '\r' => ['\\', 'r']
  | '\t' => ['\\', 't']
  | '\x08' => ['\\', 'b']
  | '\x0c' => ['\\', 'f']
  | c =>
    if c < ' ' then writeUnit c.toNat
    else if c.toNat < 0x7f then [c]
    else if c.toNat < 0x10000 then writeUnit c.toNat
    else
      let n := c.toNat - 0x10000
      writeUnit (0xD800 + n / 0x400) ++ writeUnit (0xDC00 + n % 0x400)

def writeString (s : String) (rest : List Char) : List Char :=
  '"' :: s.toList.flatMap writeChar ++ '"' :: rest

def writeNumber : Double → List Char
  | .nan => ['N', 'a', 'N']
  | .infinite false => ['I', 'n', 'f', 'i', 'n', 'i', 't', 'y']
  | .infinite true => ['-', 'I', 'n', 'f', 'i', 'n', 'i', 't', 'y']
  | d => d.text.toList

/-- A line break, and the indentation of the next line. -/
def newline (indent : Nat) (rest : List Char) : List Char :=
  '\n' :: List.replicate (2 * indent) ' ' ++ rest

def nullChars : List Char := ['n', 'u', 'l', 'l']
def trueChars : List Char := ['t', 'r', 'u', 'e']
def falseChars : List Char := ['f', 'a', 'l', 's', 'e']

mutual

/-- The text of a value inside `indent` containers, followed by `rest`. -/
def write (indent : Nat) : Json → List Char → List Char
  | null, rest => nullChars ++ rest
  | bool b, rest => (if b then trueChars else falseChars) ++ rest
  | integer n, rest => (toString n).toList ++ rest
  | number d, rest => writeNumber d ++ rest
  | string s, rest => writeString s rest
  | array [], rest => '[' :: ']' :: rest
  | array (v :: vs), rest =>
    '[' :: newline (indent + 1) (write (indent + 1) v
      (writeItems (indent + 1) vs (newline indent (']' :: rest))))
  | object [], rest => '\x7b' :: '\x7d' :: rest
  | object ((k, v) :: ms), rest =>
    '\x7b' :: newline (indent + 1) (writeString k (':' :: ' ' :: write (indent + 1) v
      (writeMembers (indent + 1) ms (newline indent ('\x7d' :: rest)))))

/-- The items after the first, each behind a comma. -/
def writeItems (indent : Nat) : List Json → List Char → List Char
  | [], rest => rest
  | v :: vs, rest => ',' :: newline indent (write indent v (writeItems indent vs rest))

def writeMembers (indent : Nat) : List (String × Json) → List Char → List Char
  | [], rest => rest
  | (k, v) :: ms, rest =>
    ',' :: newline indent (writeString k (':' :: ' ' :: write indent v
      (writeMembers indent ms rest)))

end

def text (v : Json) : String := String.ofList (v.write 0 [])

end GridRobot.Json
