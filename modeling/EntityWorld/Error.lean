import EntityWorld.Archetype.Id
import EntityWorld.Component.Definition
import EntityWorld.Component.Sequence
import EntityWorld.Entity.Id
import EntityWorld.Fence.Id

/-!
# Errors

One inductive per layer, folded into `WorldError` where the layers meet. Each has the message that
people read and the inspected form that names the cause and its data.
-/
namespace EntityWorld

namespace IllegalTransition

def message (e : IllegalTransition) : String :=
  "illegal life-state transition: " ++ e.source.text ++ " -> " ++ e.target.text

def inspect (e : IllegalTransition) : String :=
  Text.inspectRecord "IllegalTransition" [("from", e.source.text), ("to", e.target.text)]

end IllegalTransition

/-- Every raw id is in use. -/
structure CapacityError where
  -- Number of raw ids that can be handed out.
  limit : Nat
  deriving DecidableEq, Repr

namespace CapacityError

def message (e : CapacityError) : String :=
  "entity id space exhausted: " ++ toString e.limit ++ " raw ids in use"

def inspect (e : CapacityError) : String :=
  Text.inspectRecord "CapacityError" [("limit", toString e.limit)]

end CapacityError

/-- Building or querying the component registry. -/
inductive RegistryError where
  | tooManyKinds (count limit : Nat)
  | unknownType (type : TypeId)
  | unknownKind (kind : Kind)
  deriving DecidableEq, Repr

namespace RegistryError

def message : RegistryError → String
  | .tooManyKinds count limit =>
    "too many component kinds: " ++ toString count ++ " exceeds limit of " ++ toString limit
  | .unknownType type => "component type " ++ toString type.key ++ " is not registered"
  | .unknownKind kind => "component id " ++ kind.text ++ " is not a registered kind"

def inspect : RegistryError → String
  | .tooManyKinds count limit =>
    Text.inspectRecord "TooManyKinds" [("count", toString count), ("limit", toString limit)]
  | .unknownType type => Text.inspectTagged "UnknownType" (toString type.key)
  | .unknownKind kind => Text.inspectTagged "UnknownKind" kind.inspect

end RegistryError

/-- Using an entity collection. -/
inductive CollectionError where
  | emptySequence
  -- The collection is bound to another sequence.
  | sequenceMismatch (expected found : Sequence)
  | notFound (id : EntityId)
  | unknownArchetype (archetype : ArchetypeId)
  -- An update tried to change a raw id.
  | rawIdMismatch (source target : EntityId)
  | illegalTransition (cause : IllegalTransition)
  | unknownKind (kind : Kind)
  | missingKind (kind : Kind)
  -- The column of this kind holds another type than the one named.
  | columnType (kind : Kind) (requested : String)
  -- A row was copied between columns of different types, or from no row at all.
  | columnCopy
  deriving DecidableEq, Repr

namespace CollectionError

def message : CollectionError → String
  | .emptySequence => "archetype sequence must not be empty"
  | .sequenceMismatch expected found =>
    "archetype sequence mismatch: collection holds " ++ expected.inspect ++ ", got " ++ found.inspect
  | .notFound id => "entity " ++ id.text ++ " not found in collection"
  | .unknownArchetype archetype => "archetype " ++ archetype.text ++ " does not exist"
  | .rawIdMismatch source target =>
    "raw id mismatch: cannot update " ++ source.text ++ " to " ++ target.text
  | .illegalTransition cause => cause.message
  | .unknownKind kind => "component kind " ++ kind.text ++ " has no column factory"
  | .missingKind kind => "component kind " ++ kind.text ++ " is not stored in this collection"
  | .columnType kind requested =>
    "column for component kind " ++ kind.text ++ " does not hold `" ++ requested ++ "`"
  | .columnCopy => "column copy between mismatched component types"

def inspect : CollectionError → String
  | .emptySequence => "EmptySequence"
  | .sequenceMismatch expected found =>
    Text.inspectRecord "SequenceMismatch" [("expected", expected.inspect), ("found", found.inspect)]
  | .notFound id => Text.inspectTagged "NotFound" id.inspect
  | .unknownArchetype archetype =>
    Text.inspectTagged "UnknownArchetype" (Text.inspectTagged "ArchetypeId" (toString archetype.index))
  | .rawIdMismatch source target =>
    Text.inspectRecord "RawIdMismatch" [("from", source.inspect), ("to", target.inspect)]
  | .illegalTransition cause => Text.inspectTagged "IllegalTransition" cause.inspect
  | .unknownKind kind => Text.inspectTagged "UnknownKind" kind.inspect
  | .missingKind kind => Text.inspectTagged "MissingKind" kind.inspect
  | .columnType kind requested =>
    Text.inspectRecord "ColumnType" [("kind", kind.inspect), ("requested", Text.quoted requested)]
  | .columnCopy => "ColumnCopy"

end CollectionError

inductive FenceError where
  | wrongPhase (operation : String) (phase : Phase)
  | duplicateFence (fence : FenceId)
  | selfTarget (fence : FenceId)
  -- Nothing comes before the first built-in fence.
  | beforeRegister (fence : FenceId)
  -- Nothing comes after the last built-in fence.
  | afterUnregister (fence : FenceId)
  -- Requests whose target never got placed: a cycle or a missing target.
  | unresolvedFences (fences : List FenceId)
  -- A placed fence ended up on the wrong side of its target.
  | orderingConflict (fence target : FenceId)
  | fenceNotFound (fence : FenceId)
  | duplicateUpdate (update : String)
  | updateNotFound (update : String)
  | duplicateAccess (update : String) (kind : Kind)
  | accessOverlap (update : String) (kind : Kind)
  | unknownComponent (update : String) (kind : Kind)
  deriving DecidableEq, Repr

namespace FenceError

private def fenceList (fences : List FenceId) : String :=
  Text.inspectList (fences.map FenceId.name)

private def accessRecord (name update : String) (kind : Kind) : String :=
  Text.inspectRecord name [("update", Text.quoted update), ("kind", kind.inspect)]

def message : FenceError → String
  | .wrongPhase operation phase =>
    "`" ++ operation ++ "` is not allowed while the scheduler is " ++ phase.text
  | .duplicateFence fence => "fence `" ++ fence.name ++ "` already exists"
  | .selfTarget fence => "fence `" ++ fence.name ++ "` cannot be placed relative to itself"
  | .beforeRegister fence => "fence `" ++ fence.name ++ "` cannot be placed before Register"
  | .afterUnregister fence => "fence `" ++ fence.name ++ "` cannot be placed after Unregister"
  | .unresolvedFences fences =>
    "unresolved fence requests (cycle or missing target): " ++ fenceList fences
  | .orderingConflict fence target =>
    "fence `" ++ fence.name ++ "` is not on the requested side of `" ++ target.name ++ "`"
  | .fenceNotFound fence => "fence `" ++ fence.name ++ "` not found"
  | .duplicateUpdate update => "constant update `" ++ update ++ "` already exists"
  | .updateNotFound update => "constant update `" ++ update ++ "` not found"
  | .duplicateAccess update kind =>
    "update `" ++ update ++ "` declares component kind " ++ kind.text ++ " twice"
  | .accessOverlap update kind =>
    "update `" ++ update ++ "` both reads and writes component kind " ++ kind.text
  | .unknownComponent update kind =>
    "update `" ++ update ++ "` declares unknown component kind " ++ kind.text

def inspect : FenceError → String
  | .wrongPhase operation phase =>
    Text.inspectRecord "WrongPhase" [("operation", Text.quoted operation), ("phase", phase.text)]
  | .duplicateFence fence => Text.inspectTagged "DuplicateFence" fence.name
  | .selfTarget fence => Text.inspectTagged "SelfTarget" fence.name
  | .beforeRegister fence => Text.inspectTagged "BeforeRegister" fence.name
  | .afterUnregister fence => Text.inspectTagged "AfterUnregister" fence.name
  | .unresolvedFences fences => Text.inspectTagged "UnresolvedFences" (fenceList fences)
  | .orderingConflict fence target =>
    Text.inspectRecord "OrderingConflict" [("fence", fence.name), ("target", target.name)]
  | .fenceNotFound fence => Text.inspectTagged "FenceNotFound" fence.name
  | .duplicateUpdate update => Text.inspectTagged "DuplicateUpdate" (Text.quoted update)
  | .updateNotFound update => Text.inspectTagged "UpdateNotFound" (Text.quoted update)
  | .duplicateAccess update kind => accessRecord "DuplicateAccess" update kind
  | .accessOverlap update kind => accessRecord "AccessOverlap" update kind
  | .unknownComponent update kind => accessRecord "UnknownComponent" update kind

end FenceError

inductive WorldError where
  | registry (cause : RegistryError)
  | collection (cause : CollectionError)
  | fence (cause : FenceError)
  | capacity (cause : CapacityError)
  | illegalTransition (cause : IllegalTransition)
  | invalidConfig (reason : String)
  | unknownDefinition (definition : DefinitionId)
  -- A definition that cannot be created from in its present state.
  | definitionNotLoaded (definition : DefinitionId) (state : LoadState)
  | unknownEntity (id : EntityId)
  | systemInit (system : String) (source : WorldError)
  deriving DecidableEq, Repr

namespace WorldError

def message : WorldError → String
  | .registry cause => cause.message
  | .collection cause => cause.message
  | .fence cause => cause.message
  | .capacity cause => cause.message
  | .illegalTransition cause => cause.message
  | .invalidConfig reason => "invalid configuration: " ++ reason
  | .unknownDefinition definition => "entity definition " ++ definition.text ++ " is not registered"
  | .definitionNotLoaded definition state =>
    "entity definition " ++ definition.text ++ " is " ++ state.text ++ ", not Loaded"
  | .unknownEntity id => "entity " ++ id.text ++ " not found"
  | .systemInit system source =>
    "system `" ++ system ++ "` failed to initialize: " ++ source.message

def inspect : WorldError → String
  | .registry cause => Text.inspectTagged "Registry" cause.inspect
  | .collection cause => Text.inspectTagged "Collection" cause.inspect
  | .fence cause => Text.inspectTagged "Fence" cause.inspect
  | .capacity cause => Text.inspectTagged "Capacity" cause.inspect
  | .illegalTransition cause => Text.inspectTagged "IllegalTransition" cause.inspect
  | .invalidConfig reason => Text.inspectTagged "InvalidConfig" (Text.quoted reason)
  | .unknownDefinition definition => Text.inspectTagged "UnknownDefinition" definition.inspect
  | .definitionNotLoaded definition state =>
    Text.inspectRecord "DefinitionNotLoaded"
      [("definition", definition.inspect), ("state", state.text)]
  | .unknownEntity id => Text.inspectTagged "UnknownEntity" id.inspect
  | .systemInit system source =>
    Text.inspectRecord "SystemInit" [("system", Text.quoted system), ("source", source.inspect)]

/-- The name of the cause, with the layer it comes from. -/
def name (e : WorldError) : String :=
  let own (inspected : String) : String := String.ofList (inspected.toList.takeWhile Char.isAlpha)
  match e with
  | .registry cause => "Registry." ++ own cause.inspect
  | .collection cause => "Collection." ++ own cause.inspect
  | .fence cause => "Fence." ++ own cause.inspect
  | _ => own e.inspect

instance : Inhabited WorldError := ⟨.invalidConfig ""⟩

/-- The errors behind this one, nearest first. A layer's error is shown in place of the wrapper
around it, so only a failed system has a cause of its own. -/
def causes : WorldError → List WorldError
  | .systemInit _ source => source :: source.causes
  | _ => []

end WorldError

end EntityWorld
