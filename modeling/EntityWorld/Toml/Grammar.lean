import EntityWorld.Toml.Document
import EntityWorld.Toml.Moment

/-!
# Grammar

Values and statements, and the document that a text stands for.
-/
namespace EntityWorld.Toml

open Reader

/-- A value that holds no others. -/
def simpleValue : Reader Value :=
  (do text <|> moment <|> decimal <|> special; return .other) <|>
  (do return .integer (← integer)) <|>
  (do exactly "true"; return .boolean true) <|>
  (do exactly "false"; return .boolean false)

/-- A list over several lines; a comma may follow the last value. -/
def listOf (value : Reader Value) : Reader Unit := do
  char '['
  maybe do
    discard <| separated ',' do
      gap
      discard value
      gap
    maybe (char ',')
  gap
  char ']'

def assignment (value : Reader Value) : Reader Statement := do
  let key ← dottedKey
  char '='
  blanks
  return .assign key (← value)

/-- A table in braces, within the rules of a document of its own. -/
def tableOf (value : Reader Value) : Reader Unit := do
  char '\x7b'
  let content ← separated ',' (do let s ← assignment value; blanks; return s) <|> pure []
  blanks
  char '\x7d'
  accept (Document.ofStatements content).isSome

/-- How deep lists and tables may stand in each other. -/
def depthLimit : Nat := 79

def valueWithin : Nat → Reader Value
  | 0 => simpleValue
  | depth + 1 =>
    simpleValue <|> do
      listOf (valueWithin depth) <|> tableOf (valueWithin depth)
      return .other

def value : Reader Value := valueWithin depthLimit

def heading : Reader Statement :=
  (do
    exactly "[["
    let key ← dottedKey
    exactly "]]"
    return .item key) <|>
  (do
    char '['
    let key ← dottedKey
    char ']'
    return .table key)

/-- A line with a statement, or none. -/
def line : Reader (Option Statement) :=
  (do
    let s ← heading <|> assignment value
    restOfLine
    return some s) <|>
  (do
    maybe comment
    lineEnd
    return none) <|>
  (do
    comment
    return none)

def statements : Reader (List Statement) := do
  maybe (char '\uFEFF')
  blanks
  let lines ← many do
    let s ← line
    blanks
    return s
  return lines.filterMap id

def Document.ofText? (source : String) : Option Document := do
  Document.ofStatements (← readAll statements source)

end EntityWorld.Toml
