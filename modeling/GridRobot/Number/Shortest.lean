import GridRobot.Number.Double

/-!
# The shortest text of a double

The text has the fewest digits that read back to the number, and of two such texts it is the nearer
one. It is positional from `0.0001` to below `10 ^ 16` and has an exponent of at least two digits
otherwise.
-/

namespace GridRobot.Double

/-- Compares `a * 10 ^ i` with `n * 2 ^ j`. -/
def compareScaled (a : Nat) (i : Int) (n : Nat) (j : Int) : Ordering :=
  compare (a * Nat.pow 10 i.toNat * Nat.pow 2 (-j).toNat)
    (n * Nat.pow 2 j.toNat * Nat.pow 10 (-i).toNat)

/-- Whether `digits * 10 ^ scale` is among the reals that round to `mantissa * 2 ^ exponent`. They
end half way to the neighbors, and the ends belong to an even mantissa; the neighbor below a power
of two is only half as far away. -/
def readsBack (mantissa : Nat) (exponent : Int) (digits : Nat) (scale : Int) : Bool :=
  let narrow := mantissa = Nat.pow 2 52 ∧ -1074 < exponent
  let low := if narrow then 4 * mantissa - 1 else 4 * mantissa - 2
  let fromLow := compareScaled digits scale low (exponent - 2)
  let fromHigh := compareScaled digits scale (4 * mantissa + 2) (exponent - 2)
  let inclusive := mantissa % 2 = 0
  (fromLow = .gt ∨ inclusive ∧ fromLow = .eq) ∧ (fromHigh = .lt ∨ inclusive ∧ fromHigh = .eq)

/-- The point of the grid `10 ^ scale` that reads back to the number and is nearest to it; of two
that are equally near, the even one. Only the two points around the number come into question. -/
def onGrid? (mantissa : Nat) (exponent scale : Int) : Option Nat :=
  let low := mantissa * Nat.pow 2 exponent.toNat * Nat.pow 10 (-scale).toNat /
    (Nat.pow 2 (-exponent).toNat * Nat.pow 10 scale.toNat)
  let even := if low % 2 = 0 then low else low + 1
  match readsBack mantissa exponent low scale, readsBack mantissa exponent (low + 1) scale with
  | true, false => some low
  | false, true => some (low + 1)
  | false, false => none
  | true, true =>
    match compareScaled (2 * low + 1) scale (2 * mantissa) exponent with
    | .gt => some low
    | .lt => some (low + 1)
    | .eq => some even

/-- The number of digits before the point: the least `k` for which the number is below `10 ^ k`. The
binary logarithm gives it up to two steps. -/
def magnitude (mantissa : Nat) (exponent : Int) : Int :=
  let estimate := ((mantissa.log2 + exponent) * 30103).fdiv 100000
  let above (k : Int) : Bool := compareScaled 1 k mantissa exponent = .gt
  if above estimate then estimate else if above (estimate + 1) then estimate + 1 else estimate + 2

/-- The shortest decimal that reads back, for a number that is not zero: the first grid, from the
coarsest, with a point that does. Seventeen digits always do; the exact decimal stands in for more.
-/
def shortest (negative : Bool) (mantissa : Nat) (exponent : Int) : Decimal :=
  let k := magnitude mantissa exponent
  let found := (List.range 17).findSome? fun (n : Nat) =>
    (onGrid? mantissa exponent (k - (n + 1))).map fun digits => ⟨negative, digits, k - (n + 1)⟩
  let exact := mantissa * Nat.pow 2 exponent.toNat * Nat.pow 5 (-exponent).toNat
  found.getD ⟨negative, exact, min exponent 0⟩

/-- The digits without the zeros at the end, and where the point lies, counted from the first digit.
-/
def layout (d : Decimal) : List Char × Int :=
  let digits := Nat.toDigits 10 d.digits
  ((digits.reverse.dropWhile (· = '0')).reverse, digits.length + d.exponent)

def positional (digits : List Char) (point : Int) : List Char :=
  if point ≤ 0 then '0' :: '.' :: List.replicate (-point).toNat '0' ++ digits
  else
    let padded := digits ++ List.replicate (point.toNat - digits.length) '0'
    let fraction := padded.drop point.toNat
    padded.take point.toNat ++ '.' :: (if fraction.isEmpty then ['0'] else fraction)

def scientific (digits : List Char) (point : Int) : List Char :=
  let power := point - 1
  let places := Nat.toDigits 10 power.natAbs
  digits.take 1 ++ (if digits.length = 1 then [] else '.' :: digits.drop 1) ++
    ['e', if power < 0 then '-' else '+'] ++ List.replicate (2 - places.length) '0' ++ places

def text : Double → String
  | nan => "nan"
  | infinite negative => if negative then "-inf" else "inf"
  | finite negative mantissa exponent =>
    let sign := if negative then ['-'] else []
    if mantissa = 0 then String.ofList (sign ++ ['0', '.', '0'])
    else
      let (digits, point) := layout (shortest negative mantissa exponent)
      String.ofList <| sign ++
        if -4 < point ∧ point ≤ 16 then positional digits point else scientific digits point

end GridRobot.Double
