/-!
# Numerals

Sequences of decimal digits, which may be grouped by single underscores. An integer is neither read
from nor written with more than a certain number of digits.
-/

namespace GridRobot.Text

def asciiDigit? (c : Char) : Option Nat :=
  if c.isDigit then some (c.toNat - '0'.toNat) else none

/-- The digits of a numeral, with single underscores between them. -/
def grouped? (digit? : Char → Option Nat) : List Char → Option (List Nat)
  | [] => none
  | [c] => (digit? c).map ([·])
  | c :: '_' :: cs => do return (← digit? c) :: (← grouped? digit? cs)
  | c :: cs => do return (← digit? c) :: (← grouped? digit? cs)

/-- The number that digits spell. -/
def ofDigits (digits : List Nat) : Nat := digits.foldl (fun n d => 10 * n + d) 0

/-- The most digits that an integer is read from or written with. -/
def digitLimit : Nat := 4300

/-- Whether an integer can be written. A sign does not count. -/
def Writable (n : Int) : Prop := n.natAbs < Nat.pow 10 digitLimit

instance (n : Int) : Decidable (Writable n) := inferInstanceAs (Decidable (_ < _))

/-- A sign in front of a numeral, if there is one: whether it is a minus, and what follows. -/
def takeSign : List Char → Bool × List Char
  | '-' :: cs => (true, cs)
  | '+' :: cs => (false, cs)
  | cs => (false, cs)

end GridRobot.Text
