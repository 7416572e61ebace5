import EntityWorld.Toml.Text

/-!
# Documents

A document is a tree of tables, kept as a list of what stands at which place. Statements extend it,
each within the rules on what may be said twice: a value never, a table only as far as it was there
for the sake of tables inside it, and a list of tables by one more table.
-/
namespace EntityWorld.Toml

/-- Of most values only that they are there. -/
inductive Value where
  | integer (n : Int)
  | boolean (b : Bool)
  -- A text, another number, a moment, a list or a table in braces.
  | other
  deriving DecidableEq, Repr

inductive Step where
  | key (name : String)
  -- A table of a list.
  | item (index : Nat)
  deriving DecidableEq, Repr

/-- Steps from the top of the document, last step first. -/
abbrev Place := List Step

/-- How a table came to be there. -/
inductive Origin where
  -- It has a heading of its own, or is the top.
  | stated
  -- A heading names a table inside it.
  | implied
  -- A dotted key leads through it.
  | dotted
  deriving DecidableEq, Repr

inductive Node where
  | value (v : Value)
  | table (origin : Origin)
  -- A list of tables, with the index of its last one.
  | tables (last : Nat)
  deriving DecidableEq, Repr

structure Document where
  nodes : List (Place × Node)
  deriving DecidableEq, Repr

inductive Statement where
  | table (key : DottedKey)
  -- The heading of one more table of a list.
  | item (key : DottedKey)
  | assign (key : DottedKey) (value : Value)
  deriving DecidableEq, Repr

namespace Document

def empty : Document := ⟨[([], .table .stated)]⟩

def node? (d : Document) (place : Place) : Option Node := d.nodes.lookup place

def top? (d : Document) (name : String) : Option Node := d.node? [.key name]

def put (d : Document) (place : Place) (node : Node) : Document := ⟨(place, node) :: d.nodes⟩

@[simp] theorem node?_put (d : Document) (place : Place) (node : Node) :
    (d.put place node).node? place = some node := by simp [node?, put]

theorem node?_put_of_ne (d : Document) (node : Node) {place other : Place}
    (distinct : other ≠ place) : (d.put place node).node? other = d.node? other := by
  have differs : (other == place) = false := by simpa using distinct
  simp [node?, put, List.lookup_cons, differs]

/-- Follows names down from a table. A table that is not there is made; of a list of tables the last
one is meant. A dotted key does not lead into a table with a heading. -/
def descend (made : Origin) : List String → Place → Document → Option (Place × Document)
  | [], here, d => some (here, d)
  | name :: rest, here, d =>
    let there := .key name :: here
    match d.node? there with
    | none => descend made rest there (d.put there (.table made))
    | some (.value _) => none
    | some (.tables last) => descend made rest (.item last :: there) d
    | some (.table .stated) => if made = .dotted then none else descend made rest there d
    | some (.table _) => descend made rest there d

/-- Gives a value to a key that has none. The table of a dotted key is one that dotted keys made. -/
def assign (here : Place) (key : DottedKey) (value : Value) (d : Document) : Option Document := do
  let (table, d) ← descend .dotted key.tables here d
  if key.tables ≠ [] ∧ d.node? table ≠ some (.table .dotted) then none
  let there := .key key.name :: table
  if (d.node? there).isSome then none
  return d.put there (.value value)

/-- Opens a table; the answer tells its place too. -/
def openTable (key : DottedKey) (d : Document) : Option (Place × Document) := do
  let (table, d) ← descend .implied key.tables [] d
  let there := .key key.name :: table
  match d.node? there with
  | none | some (.table .implied) => return (there, d.put there (.table .stated))
  | some _ => none

/-- Opens one more table of a list; the answer tells its place too. -/
def openItem (key : DottedKey) (d : Document) : Option (Place × Document) := do
  let (table, d) ← descend .implied key.tables [] d
  let there := .key key.name :: table
  let index ← match d.node? there with
    | none => some 0
    | some (.tables last) => some (last + 1)
    | some _ => none
  let item := .item index :: there
  return (item, (d.put there (.tables index)).put item (.table .stated))

/-- Takes a statement in, below the heading that is at a place. -/
def apply (here : Place) (d : Document) : Statement → Option (Place × Document)
  | .table key => d.openTable key
  | .item key => d.openItem key
  | .assign key value => (d.assign here key value).map ((here, ·))

def applyAll (here : Place) (d : Document) : List Statement → Option Document
  | [] => some d
  | s :: rest => do
    let (here, d) ← d.apply here s
    d.applyAll here rest

def ofStatements (statements : List Statement) : Option Document := empty.applyAll [] statements

end Document

end EntityWorld.Toml
