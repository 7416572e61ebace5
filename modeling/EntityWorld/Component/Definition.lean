import EntityWorld.Text.Inspect

/-!
# Component types and entity definitions, by name

A component type is known by its key. A definition is an asset: a named list of component types
that entities can be created from, once the asset layer reports it as loaded.
-/
namespace EntityWorld

/-- Identity of a component type within the process. -/
structure TypeId where
  key : Nat
  deriving DecidableEq, Repr

/-- Identity of an entity definition. -/
structure DefinitionId where
  key : Nat
  deriving DecidableEq, Repr

namespace DefinitionId

def text (d : DefinitionId) : String := "def:" ++ toString d.key

def inspect (d : DefinitionId) : String := Text.inspectTagged "DefinitionId" (toString d.key)

end DefinitionId

/-- Load state reported by the asset layer. -/
inductive LoadState where
  | unloaded
  | loading
  | loaded
  | failed
  deriving DecidableEq, Repr

namespace LoadState

def text : LoadState → String
  | .unloaded => "Unloaded"
  | .loading => "Loading"
  | .loaded => "Loaded"
  | .failed => "Failed"

def ofText? (s : String) : Option LoadState :=
  [unloaded, loading, loaded, failed].find? fun state => state.text == s

end LoadState

/-- Component list an entity can be created from. -/
structure EntityDefinition where
  id : DefinitionId
  name : String
  -- Component types in authoring order.
  components : List TypeId
  -- A definition that nobody has loaded cannot be created from.
  state : LoadState := .unloaded
  deriving DecidableEq, Repr

end EntityWorld
