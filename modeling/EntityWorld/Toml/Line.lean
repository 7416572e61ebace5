import EntityWorld.Toml.Reader

/-!
# Lines

What stands between the parts of a document: blanks, line ends and comments.
-/
namespace EntityWorld.Toml

open Reader

def isBlank (c : Char) : Bool := c == ' ' || c == '\t'

/-- A character that may stand in a comment or a text: no control character but the tab. -/
def isPlain (c : Char) : Bool := c == '\t' || (' ' ≤ c && c != '\x7f')

def blanks : Reader Unit := discard (takeWhile isBlank)

/-- A line feed, or a carriage return before one. -/
def lineEnd : Reader Unit := char '\n' <|> exactly "\r\n"

def comment : Reader Unit := do
  char '#'
  discard (takeWhile isPlain)

/-- Anything that carries no meaning, over several lines. -/
def gap : Reader Unit := do
  discard (many (discard (one isBlank) <|> lineEnd <|> comment))

/-- Nothing but a comment up to the end of the line. -/
def restOfLine : Reader Unit := do
  blanks
  maybe comment
  lineEnd <|> atEnd

end EntityWorld.Toml
