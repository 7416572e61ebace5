import EntityWorld.Component.Type
import EntityWorld.Fault

/-!
# Columns

A dense array of rows of one component type. Row `i` of every column of an archetype belongs to the
entity at place `i` of its id list, so structural changes are made to all of them in lockstep.
-/
namespace EntityWorld

/-- Removes a row by moving the last one into its place. A row that does not exist is not removed. -/
def swapRemove {α : Type} (rows : Array α) (row : Nat) : Array α :=
  if row < rows.size then
    match rows.back? with
    | some last => (rows.setIfInBounds row last).pop
    | none => rows
  else rows

structure Column where
  type : StoredType
  rows : Array Row
  deriving DecidableEq, Repr

namespace Column

def ofType (type : StoredType) : Column := ⟨type, #[]⟩

def size (c : Column) : Nat := c.rows.size

def isEmpty (c : Column) : Bool := c.rows.isEmpty

def get? (c : Column) (row : Nat) : Option Row := c.rows[row]?

def push (c : Column) (value : Row) : Column := { c with rows := c.rows.push value }

/-- Appends the row that a fresh entity gets. -/
def pushDefault (c : Column) : Column := c.push c.type.defaultRow

def set (c : Column) (row : Nat) (value : Row) : Except Fault Column :=
  if row < c.size then .ok { c with rows := c.rows.setIfInBounds row value }
  else .error .outOfRange

def swapRemove (c : Column) (row : Nat) : Except Fault Column :=
  if row < c.size then .ok { c with rows := EntityWorld.swapRemove c.rows row }
  else .error .outOfRange

/-- Appends a copy of a row of another column of the same type. -/
def pushFrom (c source : Column) (row : Nat) : Except CollectionError Column :=
  if c.type.id = source.type.id then
    match source.get? row with
    | some value => .ok (c.push value)
    | none => .error .columnCopy
  else .error .columnCopy

def clear (c : Column) : Column := { c with rows := #[] }

def bytes (c : Column) : List UInt8 := c.rows.toList.flatten

end Column

end EntityWorld
