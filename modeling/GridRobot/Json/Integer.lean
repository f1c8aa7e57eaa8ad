import GridRobot.Json.Token
import GridRobot.Text.Blank

/-!
# Integers in JSON

Where an integer is expected, a value may spell one in other ways: as a truth value, as a number
without a fraction, or as a text with decimal digits. Such a text is trimmed and may have a sign in
front and a point with zeros behind. Zeros in front of the other digits do not count, nor does any
number of underscores among them; a minus may follow these zeros if no sign is in front of them.
-/

namespace GridRobot.Json

/-- Why a value is no integer. -/
inductive IntegerFault where
  /-- The value is null, an array or an object. -/
  | notNumber
  | fraction
  /-- A number with a point or an exponent, or a text, is too large for an integer; or an integer is
  too large for a choice. -/
  | tooLarge
  | notFinite
  /-- The value is a text that spells no integer. -/
  | notNumeral
  deriving DecidableEq, Repr

def IntegerFault.message : IntegerFault → String
  | notNumber => "Input should be a valid integer"
  | fraction => "Input should be a valid integer, got a number with a fractional part"
  | tooLarge => "Unable to parse input string as an integer, exceeded maximum size"
  | notFinite => "Input should be a finite number"
  | notNumeral => "Input should be a valid integer, unable to parse string as an integer"

/-- A number below `2 ^ 63` that has no fraction. -/
def integerOfDouble (d : Double) : Except IntegerFault Int :=
  match d with
  | .finite .. =>
    match d.toInt? with
    | none => .error .fraction
    | some n => if n.natAbs < Nat.pow 2 63 then .ok n else .error .tooLarge
  | _ => .error .notFinite

/-- Whether a text is a point and at least one zero. -/
def isZeroFraction (cs : List Char) : Bool :=
  cs.head? = some '.' && 1 < cs.length && cs.tail.all (· = '0')

/-- Grouped digits without a needless zero in front, up to the limit. -/
def numeral? (negative : Bool) (cs : List Char) : Option Int := do
  let digits ← Text.grouped? Text.asciiDigit? cs
  if (digits.head? = some 0 && digits.length ≠ 1) || Text.digitLimit < digits.length then none
  else return Double.sign negative (Text.ofDigits digits)

/-- The integer in front of the point. A single underscore may stand behind a minus that follows
zeros. -/
def whole? (negative : Bool) : List Char → Option Int
  | '0' :: cs =>
    match cs.dropWhile fun c => c = '0' || c = '_' with
    | [] => if cs.getLast? = some '_' then none else some 0
    | '-' :: cs =>
      if negative then none else numeral? true (if cs.head? = some '_' then cs.tail else cs)
    | cs => numeral? negative cs
  | cs => numeral? negative cs

/-- The integer that a text spells. -/
def integerOfText? (text : String) : Option Int :=
  let (negative, cs) := Text.takeSign (Text.trim text.toList)
  let fraction := cs.dropWhile (· ≠ '.')
  if fraction.isEmpty || isZeroFraction fraction then whole? negative (cs.takeWhile (· ≠ '.'))
  else none

/-- Whether a text starts with an integer of more digits than the limit. -/
def startsTooLong (cs : List Char) : Bool :=
  let digits := (if cs.head? = some '-' then cs.tail else cs).takeWhile Char.isDigit
  digits.head? ≠ some '0' && Text.digitLimit < digits.length

/-- The integer that a value spells. -/
def toInt : Json → Except IntegerFault Int
  | integer n => .ok n
  | bool b => .ok (if b then 1 else 0)
  | number d => integerOfDouble d
  | string s =>
    if startsTooLong s.toList then .error .tooLarge
    else match integerOfText? s with
      | some n => .ok n
      | none => .error .notNumeral
  | _ => .error .notNumber

/-- The integer that stands for a choice, if it fits 64 bits. A value that spells no integer stands
for none. -/
def choiceNumber (v : Json) : Except IntegerFault (Option Int) :=
  match v.toInt with
  | .error _ => .ok none
  | .ok n => if -Nat.pow 2 63 ≤ n ∧ n < Nat.pow 2 63 then .ok (some n) else .error .tooLarge

end GridRobot.Json
