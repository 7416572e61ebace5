import EntityWorld.Toml.Text

/-!
# Numbers

Whole numbers fit in 64 bits with a sign. Of other numbers only the form is read, and that a number
above zero is not too large.
-/
namespace EntityWorld.Toml

open Reader

/-- Digits with single underscores between them. -/
def digits (p : Char → Bool) : Reader (List Char) := do
  let first ← one p
  let more ← many (one p <|> (do char '_'; one p))
  return first :: more

/-- Whether there is a minus sign. -/
def sign : Reader Bool :=
  (do char '-'; return true) <|> (do char '+'; return false) <|> pure false

/-- Decimal digits without a leading zero. -/
def wholeDigits : Reader (List Char) :=
  (do char '0'; return ['0']) <|> digits Char.isDigit

/-- One above the largest whole number. -/
def integerBound : Int := 9223372036854775808

def signed (negative : Bool) (n : Nat) : Int := if negative then -n else n

def decimalInteger : Reader Int := do
  let negative ← sign
  let n := signed negative (numeral 10 (← wholeDigits))
  accept (-integerBound ≤ n && n < integerBound)
  return n

/-- A whole number in a base that is named before it. -/
def basedInteger (mark : String) (base : Nat) (p : Char → Bool) : Reader Int := do
  exactly mark
  let n : Int := numeral base (← digits p)
  accept (n < integerBound)
  return n

def integer : Reader Int :=
  basedInteger "0x" 16 isHexDigit <|>
  basedInteger "0o" 8 (fun c => '0' ≤ c && c ≤ '7') <|>
  basedInteger "0b" 2 (fun c => c == '0' || c == '1') <|>
  decimalInteger

/-- Half a step above the largest floating-point number: from here on a number is too large. -/
def floatBound : Nat := Nat.pow 2 1024 - Nat.pow 2 970

/-- The decimal digits, times a power of ten, are too large. A number with a digit before the point
and the power `e` is at least ten to the `e`, so only one power takes a closer look. -/
def isTooLarge (number : List Char) (power : Int) : Bool :=
  let number := number.dropWhile (· == '0')
  let places := number.length + power
  !number.isEmpty && (309 < places ||
    places == 309 &&
      floatBound * Nat.pow 10 number.length ≤ numeral 10 number * Nat.pow 10 309)

def exponent : Reader Int := do
  char 'e' <|> char 'E'
  let negative ← sign
  return signed negative (numeral 10 (← digits Char.isDigit))

/-- A number with a fraction or an exponent, for its extent. -/
def decimal : Reader Unit := do
  let negative ← sign
  let whole ← wholeDigits
  let (fraction, power) ←
    (do let power ← exponent; return ([], power)) <|>
    (do
      char '.'
      let fraction ← digits Char.isDigit
      let power ← exponent <|> pure 0
      return (fraction, power))
  accept (negative || !isTooLarge (whole ++ fraction) (power - fraction.length))

/-- An infinite number, or none. -/
def special : Reader Unit := do
  discard sign
  exactly "inf" <|> exactly "nan"

end EntityWorld.Toml
