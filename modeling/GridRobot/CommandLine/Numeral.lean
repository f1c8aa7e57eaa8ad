import GridRobot.Number.Double
import GridRobot.Text.Blank
import GridRobot.Text.DecimalDigit
import GridRobot.Text.Numeral

/-!
# Numbers on the command line

Numbers may have blanks around them, a sign, digits of any script, and single underscores between
digits.
-/

namespace GridRobot.CommandLine

def integer? (text : String) : Option Int := do
  let (negative, cs) := Text.takeSign (Text.trim text.toList)
  let digits ← Text.grouped? Text.digit? cs
  if Text.digitLimit < digits.length then none
  return Double.sign negative (Text.ofDigits digits)

/-- The text before the first character of a class, and the text after it if there is one. -/
def cut (stop : Char → Bool) (cs : List Char) : List Char × Option (List Char) :=
  match cs.span fun c => !stop c with
  | (before, []) => (before, none)
  | (before, _ :: after) => (before, some after)

/-- The digits on one side of the point, where there may be none. -/
def side? (cs : List Char) : Option (List Nat) :=
  if cs.isEmpty then some [] else Text.grouped? Text.digit? cs

/-- Digits with a point among them or beside them, and an optional exponent. -/
def decimal? (negative : Bool) (cs : List Char) : Option Decimal := do
  let (mantissa, power) := cut (fun c => c = 'e' ∨ c = 'E') cs
  let (whole, fraction) := cut (· = '.') mantissa
  let whole ← side? whole
  let fraction ← side? (fraction.getD [])
  if (whole ++ fraction).isEmpty then none
  let exponent : Int ← match power with
    | none => some 0
    | some p =>
      let (down, p) := Text.takeSign p
      (Text.grouped? Text.digit? p).map fun digits => Double.sign down (Text.ofDigits digits)
  return ⟨negative, Text.ofDigits (whole ++ fraction), exponent - fraction.length⟩

/-- A decimal, or a name of infinity or NaN in any case. -/
def double? (text : String) : Option Double :=
  let (negative, cs) := Text.takeSign (Text.trim text.toList)
  match String.ofList (cs.map Char.toLower) with
  | "inf" | "infinity" => some (.infinite negative)
  | "nan" => some .nan
  | _ => (decimal? negative cs).map .ofDecimal

/-- Whether a word is a negative number and therefore no option. A line feed at its end does not
count. -/
def looksNegative (cs : List Char) : Bool :=
  let cs := if cs.getLast? = some '\n' then cs.dropLast else cs
  let digits (cs : List Char) := cs.all fun c => (Text.digit? c).isSome
  match cs with
  | '-' :: number =>
    match cut (· = '.') number with
    | (whole, none) => !whole.isEmpty && digits whole
    | (whole, some fraction) => digits whole && !fraction.isEmpty && digits fraction
  | _ => false

end GridRobot.CommandLine
