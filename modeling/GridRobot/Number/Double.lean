/-!
# Double precision numbers

A finite number is `±mantissa * 2 ^ exponent`. A decimal is rounded once, to the nearest number that
a double can hold, and to the even mantissa of two that are equally near.
-/

namespace GridRobot

inductive Double where
  | finite (negative : Bool) (mantissa : Nat) (exponent : Int)
  | infinite (negative : Bool)
  | nan
  deriving DecidableEq, Repr

/-- The number `±digits * 10 ^ exponent`. -/
structure Decimal where
  negative : Bool
  digits : Nat
  exponent : Int
  deriving DecidableEq, Repr

/-- The integer nearest to `num / den`, the even one of two that are equally near. -/
def roundToEven (num den : Nat) : Nat :=
  let low := num / den
  if 2 * (num % den) < den then low
  else if den < 2 * (num % den) then low + 1
  else if low % 2 = 0 then low else low + 1

/-- The integer nearest to `num / (den * 2 ^ exponent)`. -/
def roundScaled (num den : Nat) (exponent : Int) : Nat :=
  roundToEven (num * Nat.pow 2 (-exponent).toNat) (den * Nat.pow 2 exponent.toNat)

namespace Double

def zero : Double := finite false 0 (-1074)

/-- The double nearest to `num / den`, which is not zero. The exponent is the one that leaves the
mantissa 53 bits, unless it falls below that of the least numbers. -/
def nearest (negative : Bool) (num den : Nat) : Double :=
  let estimate : Int := num.log2 - den.log2 - 52
  let wide :=
    Nat.pow 2 52 * (den * Nat.pow 2 estimate.toNat) ≤ num * Nat.pow 2 (-estimate).toNat
  let exponent := max (if wide then estimate else estimate - 1) (-1074)
  let mantissa := roundScaled num den exponent
  let (mantissa, exponent) :=
    if mantissa = Nat.pow 2 53 then (Nat.pow 2 52, exponent + 1) else (mantissa, exponent)
  if 971 < exponent then infinite negative else finite negative mantissa exponent

/-- The double nearest to a decimal. The magnitude alone decides where it lies far outside the
range. -/
def ofDecimal (d : Decimal) : Double :=
  if d.digits = 0 then finite d.negative 0 (-1074)
  else
    let magnitude : Int := (Nat.toDigits 10 d.digits).length + d.exponent
    if 310 < magnitude then infinite d.negative
    else if magnitude < -330 then finite d.negative 0 (-1074)
    else
      nearest d.negative (d.digits * Nat.pow 10 d.exponent.toNat) (Nat.pow 10 (-d.exponent).toNat)

def ofInt (n : Int) : Double := ofDecimal ⟨n < 0, n.natAbs, 0⟩

/-- The double nearest to the product with a natural number that is not zero. -/
def times (n : Nat) : Double → Double
  | finite negative mantissa exponent =>
    if mantissa = 0 then finite negative 0 exponent
    else nearest negative (n * mantissa * Nat.pow 2 exponent.toNat) (Nat.pow 2 (-exponent).toNat)
  | d => d

/-- Whether the number is greater than zero; NaN is not. -/
def isPositive : Double → Bool
  | finite negative mantissa _ => !negative && mantissa != 0
  | infinite negative => !negative
  | nan => false

def sign (negative : Bool) (n : Nat) : Int := if negative then -n else n

/-- The integer that a finite number is, if it is one. -/
def toInt? : Double → Option Int
  | finite negative mantissa exponent =>
    let unit := Nat.pow 2 (-exponent).toNat
    if mantissa % unit = 0 then some (sign negative (mantissa / unit * Nat.pow 2 exponent.toNat))
    else none
  | _ => none

end Double

end GridRobot
