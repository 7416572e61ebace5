import EntityWorld.Text.Hex
import EntityWorld.Toml.Line

/-!
# Texts and keys

A text stands in double quotes, with escapes, or in single quotes, without. Three quotes open a text
over several lines; it ends at three quotes, before which up to two more belong to the text.
-/
namespace EntityWorld.Toml

open Reader

def isHexDigit (c : Char) : Bool := c.isDigit || ('a' ≤ c.toLower && c.toLower ≤ 'f')

/-- The number that digits stand for. -/
def numeral (base : Nat) (digits : List Char) : Nat :=
  digits.foldl (fun n c => n * base + Text.hexValue c.toLower) 0

def codePoint (digits : Nat) : Reader Char := do
  let code := numeral 16 (← times digits (one isHexDigit))
  accept (decide code.isValidChar)
  return .ofNat code

def escape : Reader Char := do
  char '\\'
  match ← one fun _ => true with
  | 'b' => return '\x08'
  | 't' => return '\t'
  | 'n' => return '\n'
  | 'f' => return '\x0c'
  | 'r' => return '\r'
  | '"' => return '"'
  | '\\' => return '\\'
  | 'u' => codePoint 4
  | 'U' => codePoint 8
  | _ => failure

def isBasic (c : Char) : Bool := isPlain c && c != '"' && c != '\\'

def isLiteral (c : Char) : Bool := isPlain c && c != '\''

def basicText : Reader String := do
  char '"'
  let content ← many (one isBasic <|> escape)
  char '"'
  return String.ofList content

def literalText : Reader String := do
  char '\''
  let content ← takeWhile isLiteral
  char '\''
  return String.ofList content

/-- One quote or two, and no more. -/
def fewQuotes (quote : Char) : Reader Unit := do
  let quotes ← takeWhile (· == quote)
  accept (quotes.length == 1 || quotes.length == 2)

/-- A line end that does not belong to the text, with the blanks around it. -/
def joinedLines : Reader Unit := do
  char '\\'
  blanks
  lineEnd
  discard (many (discard (one isBlank) <|> lineEnd))

/-- A text over several lines. -/
def longText (quote : Char) (piece : Reader Unit) : Reader Unit := do
  let bounds := times 3 (char quote)
  discard bounds
  discard (many (piece <|> lineEnd <|> fewQuotes quote))
  discard bounds
  maybe (char quote)
  maybe (char quote)

/-- A text of any form, for its extent. -/
def text : Reader Unit :=
  longText '"' (discard (one isBasic) <|> joinedLines <|> discard escape) <|>
  longText '\'' (discard (one isLiteral)) <|>
  discard (basicText <|> literalText)

def isBare (c : Char) : Bool := c.isAlphanum || c == '_' || c == '-'

def bareKey : Reader String := do
  let content ← takeWhile isBare
  accept !content.isEmpty
  return String.ofList content

/-- A key inside tables that are named before it. -/
structure DottedKey where
  tables : List String
  name : String
  deriving DecidableEq, Repr

/-- A key may have fewer parts than this. -/
def keyLimit : Nat := 80

def dottedKey : Reader DottedKey := do
  let parts ← separated '.' do
    blanks
    let name ← basicText <|> literalText <|> bareKey
    blanks
    return name
  accept (parts.length < keyLimit)
  return ⟨parts.dropLast, parts.getLast?.getD ""⟩

end EntityWorld.Toml
