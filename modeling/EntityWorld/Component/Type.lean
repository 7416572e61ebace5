import EntityWorld.Component.Definition

/-!
# Component types

A component value is plain bytes. A concrete type says which bytes a fresh row holds; an abstract
type has no values, so it never gets a kind or a column.
-/
namespace EntityWorld

/-- The bytes of one component value, in memory order. -/
abbrev Row := List UInt8

/-- A type that columns can store. -/
structure StoredType where
  id : TypeId
  name : String
  defaultRow : Row
  deriving DecidableEq, Repr

/-- A component type as described to the registry. -/
structure ComponentType where
  id : TypeId
  name : String
  -- The row of a fresh entity; none for an abstract type.
  defaultRow? : Option Row
  deriving DecidableEq, Repr

namespace ComponentType

def concrete (t : StoredType) : ComponentType := ⟨t.id, t.name, some t.defaultRow⟩

def isAbstract (t : ComponentType) : Bool := t.defaultRow?.isNone

def stored? (t : ComponentType) : Option StoredType :=
  t.defaultRow?.map fun row => ⟨t.id, t.name, row⟩

end ComponentType

end EntityWorld
