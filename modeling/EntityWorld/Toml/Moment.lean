import EntityWorld.Toml.Number

/-!
# Dates and times

A day, a time of day, or both, then also with the distance to universal time.
-/
namespace EntityWorld.Toml

open Reader

/-- A number of exactly this many digits within bounds. -/
def numberWithin (width low high : Nat) : Reader Nat := do
  let n := numeral 10 (← times width (one Char.isDigit))
  accept (low ≤ n && n ≤ high)
  return n

def isLeap (year : Nat) : Bool := year % 4 == 0 && (year % 100 != 0 || year % 400 == 0)

def daysIn (year month : Nat) : Nat :=
  if month == 2 then if isLeap year then 29 else 28
  else if month == 4 || month == 6 || month == 9 || month == 11 then 30
  else 31

def day : Reader Unit := do
  let year ← numberWithin 4 0 9999
  char '-'
  let month ← numberWithin 2 1 12
  char '-'
  discard (numberWithin 2 1 (daysIn year month))

/-- A minute may have one second more. -/
def timeOfDay : Reader Unit := do
  discard (numberWithin 2 0 23)
  char ':'
  discard (numberWithin 2 0 59)
  char ':'
  discard (numberWithin 2 0 60)
  maybe do
    char '.'
    let fraction ← takeWhile Char.isDigit
    accept !fraction.isEmpty

def offset : Reader Unit :=
  char 'Z' <|> char 'z' <|> do
    char '+' <|> char '-'
    discard (numberWithin 2 0 23)
    char ':'
    discard (numberWithin 2 0 59)

def moment : Reader Unit :=
  (do
    day
    maybe do
      char 'T' <|> char 't' <|> char ' '
      timeOfDay
      maybe offset) <|>
  timeOfDay

end EntityWorld.Toml
