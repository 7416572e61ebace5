import EntityWorld.Component.Column
import Std.Data.TreeMap

/-!
# Component registry

Numbers the concrete component types in the order they are first described. The numbers never
change afterwards.
-/
namespace EntityWorld

/-- Largest number of kinds a registry can have. -/
abbrev maxKinds : Nat := 65535

structure Registry where
  -- The type of kind `k` is at place `k - 1`.
  types : Array StoredType
  byType : Std.TreeMap Nat Kind

namespace Registry

def empty : Registry := ⟨#[], ∅⟩

instance : Inhabited Registry := ⟨empty⟩

def kindCount (r : Registry) : Nat := r.types.size

def kindOf? (r : Registry) (type : TypeId) : Option Kind := r.byType[type.key]?

def add (r : Registry) (type : StoredType) : Registry :=
  ⟨r.types.push type, r.byType.insert type.id.key ⟨r.types.size + 1⟩⟩

/-- Number of distinct types with a concrete description. -/
def distinctConcrete (types : List ComponentType) : Nat :=
  (types.foldl (fun seen type =>
    if type.isAbstract then seen else seen.insert type.id.key ()) (∅ : Std.TreeMap Nat Unit)).size

/-- Describes types to a registry in turn. Abstract and already registered types are passed over;
`none` means that there is no number left. -/
def describe (limit : Nat) (r : Registry) : List ComponentType → Option Registry
  | [] => some r
  | type :: rest =>
    match type.stored? with
    | none => describe limit r rest
    | some stored =>
      if (r.kindOf? stored.id).isSome then describe limit r rest
      else if r.kindCount = limit then none
      else describe limit (r.add stored) rest

/-- A type listed twice keeps its first number. -/
def build (types : List ComponentType) : Except RegistryError Registry :=
  match describe maxKinds empty types with
  | some r => .ok r
  | none => .error (.tooManyKinds (distinctConcrete types) maxKinds)

def type? (r : Registry) (kind : Kind) : Option StoredType :=
  if kind.isInvalid then none else r.types[kind.index - 1]?

def contains (r : Registry) (kind : Kind) : Bool :=
  !kind.isInvalid && kind.index ≤ r.kindCount

/-- The kinds of some types, or the first type that is not registered. -/
def kindsOf (r : Registry) : List TypeId → Except RegistryError (List Kind)
  | [] => .ok []
  | type :: rest =>
    match r.kindOf? type with
    | none => .error (.unknownType type)
    | some kind => (r.kindsOf rest).map (kind :: ·)

def sequenceOf (r : Registry) (types : List TypeId) : Except RegistryError Sequence :=
  (r.kindsOf types).map Sequence.ofList

def createColumn (r : Registry) (kind : Kind) : Except RegistryError Column :=
  match r.type? kind with
  | some type => .ok (.ofType type)
  | none => .error (.unknownKind kind)

/-- Number of slots of the lock table: one per kind, and the one nobody uses. -/
def lockSlots (r : Registry) : Nat := r.kindCount + 1

end Registry

end EntityWorld
