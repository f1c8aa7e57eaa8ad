import GridRobot.Json.Basic
import GridRobot.Text.Hex
import GridRobot.Text.Numeral

/-!
# Tokens of a JSON text

A text is read character by character. Outside strings a token is a bracket, a comma, a colon, or a
word: the characters up to the next such mark, quote or blank. A word must be a literal or a number;
the literals `NaN`, `Infinity` and `-Infinity` are numbers too. The digits of a number in front of
its point and exponent are limited.
-/

namespace GridRobot.Json

inductive Token where
  | openArray
  | closeArray
  | openObject
  | closeObject
  | comma
  | colon
  | scalar (v : Json)

def Token.mark? : Char → Option Token
  | '[' => some openArray
  | ']' => some closeArray
  | '\x7b' => some openObject
  | '\x7d' => some closeObject
  | ',' => some comma
  | ':' => some colon
  | _ => none

def isBlank (c : Char) : Bool := c = ' ' || c = '\t' || c = '\n' || c = '\r'

/-- The value of a string of decimal digits. -/
def digitsValue (digits : List Char) : Nat :=
  Text.ofDigits (digits.filterMap Text.asciiDigit?)

/-- The exponent that ends a number: a letter, an optional sign, and digits. -/
def exponent? : List Char → Option Int
  | c :: '-' :: ds => if digits c ds then some (-digitsValue ds) else none
  | c :: '+' :: ds => if digits c ds then some (digitsValue ds) else none
  | c :: ds => if digits c ds then some (digitsValue ds) else none
  | [] => none
where
  digits (c : Char) (ds : List Char) : Bool :=
    (c = 'e' || c = 'E') && !ds.isEmpty && ds.all Char.isDigit

/-- A number without its sign: digits without needless zeros in front, a fraction, an exponent. Only
a number with neither of the latter is an integer. -/
def unsigned? (negative : Bool) (cs : List Char) : Option Json :=
  let whole := cs.takeWhile Char.isDigit
  if whole.isEmpty || (whole.head? = some '0' && whole.length ≠ 1) ||
    Text.digitLimit < whole.length then none
  else match cs.dropWhile Char.isDigit with
    | [] => some (.integer (Double.sign negative (digitsValue whole)))
    | '.' :: rest =>
      let fraction := rest.takeWhile Char.isDigit
      let decimal (e : Int) := Json.number <| .ofDecimal
        ⟨negative, digitsValue (whole ++ fraction), e - fraction.length⟩
      if fraction.isEmpty then none
      else match rest.dropWhile Char.isDigit with
        | [] => some (decimal 0)
        | rest => (exponent? rest).map decimal
    | rest => (exponent? rest).map fun e => .number (.ofDecimal ⟨negative, digitsValue whole, e⟩)

def word? : List Char → Option Json
  | ['n', 'u', 'l', 'l'] => some .null
  | ['t', 'r', 'u', 'e'] => some (.bool true)
  | ['f', 'a', 'l', 's', 'e'] => some (.bool false)
  | ['N', 'a', 'N'] => some (.number .nan)
  | ['I', 'n', 'f', 'i', 'n', 'i', 't', 'y'] => some (.number (.infinite false))
  | ['-', 'I', 'n', 'f', 'i', 'n', 'i', 't', 'y'] => some (.number (.infinite true))
  | '-' :: cs => unsigned? true cs
  | cs => unsigned? false cs

/-- The character that a letter after a backslash stands for. -/
def escaped? : Char → Option Char
  | '"' => some '"'
  | '\\' => some '\\'
  | '/' => some '/'
  | 'b' => some '\x08'
  | 'f' => some '\x0c'
  | 'n' => some '\n'
  | 'r' => some '\r'
  | 't' => some '\t'
  | _ => none

/-- Where the reader of characters stands. What has been read of a word or string comes latest
first. -/
inductive Mode where
  | between
  | word (read : List Char)
  | quoted (read : List Char)
  | escape (read : List Char)
  /-- In the four hexadecimal digits of a code unit, after the first half of a pair if there is one.
  -/
  | code (read : List Char) (half : Option Nat) (digits value : Nat)
  /-- After the first half of a pair: the second half must follow. -/
  | half (read : List Char) (first : Nat)
  | halfEscape (read : List Char) (first : Nat)

namespace Mode

/-- What a finished code unit does. The units from D800 to DBFF and from DC00 to DFFF are the halves
of characters beyond FFFF, and occur in pairs only. -/
def ofCode? (read : List Char) (half : Option Nat) (unit : Nat) : Option Mode :=
  match half with
  | none =>
    if 0xD800 ≤ unit ∧ unit < 0xDC00 then some (.half read unit)
    else if 0xDC00 ≤ unit ∧ unit < 0xE000 then none
    else some (.quoted (Char.ofNat unit :: read))
  | some first =>
    if 0xDC00 ≤ unit ∧ unit < 0xE000 then
      some (.quoted (Char.ofNat (0x10000 + (first - 0xD800) * 0x400 + (unit - 0xDC00)) :: read))
    else none

/-- Reads a character between tokens; the tokens so far come latest first. -/
def start (tokens : List Token) (c : Char) : Mode × List Token :=
  if c = '"' then (quoted [], tokens)
  else if isBlank c then (between, tokens)
  else match Token.mark? c with
    | some t => (between, t :: tokens)
    | none => (word [c], tokens)

/-- Whether a character ends a word. -/
def endsWord (c : Char) : Bool := c = '"' || isBlank c || (Token.mark? c).isSome

def step : Mode × List Token → Char → Option (Mode × List Token)
  | (between, tokens), c => some (start tokens c)
  | (word read, tokens), c =>
    if endsWord c then (word? read.reverse).map fun v => start (.scalar v :: tokens) c
    else some (word (c :: read), tokens)
  | (quoted read, tokens), c =>
    if c = '"' then some (between, .scalar (.string (String.ofList read.reverse)) :: tokens)
    else if c = '\\' then some (escape read, tokens)
    else if c < ' ' then none
    else some (quoted (c :: read), tokens)
  | (escape read, tokens), c =>
    if c = 'u' then some (code read none 0 0, tokens)
    else (escaped? c).map fun e => (quoted (e :: read), tokens)
  | (code read first digits value, tokens), c => do
    let value := 16 * value + (← Text.hexDigit? c)
    if digits < 3 then return (code read first (digits + 1) value, tokens)
    return (← ofCode? read first value, tokens)
  | (half read first, tokens), c => if c = '\\' then some (halfEscape read first, tokens) else none
  | (halfEscape read first, tokens), c =>
    if c = 'u' then some (code read (some first) 0 0, tokens) else none

end Mode

/-- The tokens of a text. -/
def tokens? (text : List Char) : Option (List Token) := do
  match ← text.foldlM Mode.step (.between, []) with
  | (.between, tokens) => return tokens.reverse
  | (.word read, tokens) => return (.scalar (← word? read.reverse) :: tokens).reverse
  | _ => none

end GridRobot.Json
