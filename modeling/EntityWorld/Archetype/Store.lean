import EntityWorld.Archetype.Collection
import EntityWorld.Archetype.Index

/-!
# Archetype store

Owns every collection. A collection is made when its sequence is first needed and is never removed,
so handles stay good. Collections are found through a map from sequence to archetype, and entities
through one from raw id to archetype. The index of kinds is a cache: it goes stale when a collection
or a definition is added, and `refreshIndex` rebuilds it only then.
-/
namespace EntityWorld

structure DefinitionSlot where
  archetype : ArchetypeId
  state : LoadState
  deriving DecidableEq, Repr

structure Store where
  -- In discovery order.
  collections : Array Collection
  -- The archetype of each sequence that has a collection.
  bySequence : Std.TreeMap Sequence ArchetypeId
  definitions : Std.TreeMap Nat DefinitionSlot
  -- Raw id to archetype, for current and pending entities.
  locations : Std.TreeMap Nat ArchetypeId
  index : ArchetypeIndex
  -- Whether the index is stale.
  dirty : Bool

namespace Store

def empty : Store := ⟨#[], ∅, ∅, ∅, .empty, false⟩

instance : Inhabited Store := ⟨empty⟩

def span : Span := ⟨"archetype_store", .debug, "cadence_core::ecs::store"⟩

private def note (message : String) (fields : List (String × FieldValue)) : Logged Unit :=
  (Logged.emit { level := .debug, target := "cadence_core::ecs::store", message, fields }).within span

def archetypeOf? (s : Store) (sequence : Sequence) : Option ArchetypeId := s.bySequence[sequence]?

def collection? (s : Store) (a : ArchetypeId) : Option Collection := s.collections[a.index]?

/-- Adds a collection after the others, under the sequence it was asked for. -/
def push (s : Store) (sequence : Sequence) (collection : Collection) : Store :=
  { s with
    collections := s.collections.push collection
    bySequence := s.bySequence.insert sequence ⟨s.collections.size⟩
    dirty := true }

def modifyCollection (s : Store) (a : ArchetypeId) (change : Collection → Collection) : Store :=
  { s with collections := s.collections.modify a.index change }

/-- The collection for a sequence, made if there is none. -/
def getOrCreate (s : Store) (registry : Registry) (sequence : Sequence) :
    Logged (Except CollectionError ArchetypeId × Store) :=
  match s.archetypeOf? sequence with
  | some a => return (.ok a, s)
  | none =>
    match Collection.unbound.bind registry sequence with
    | .error cause => return (.error cause, s)
    | .ok collection => do
      let a : ArchetypeId := ⟨s.collections.size⟩
      note "archetype created"
        [("id", .printed a.text), ("kinds", .printed (toString sequence.size))]
      return (.ok a, s.push sequence collection)

/-- Binds a definition to the collection of its component list. -/
def registerDefinition (s : Store) (registry : Registry) (definition : EntityDefinition) :
    Logged (Except WorldError ArchetypeId × Store) :=
  match registry.sequenceOf definition.components with
  | .error cause => return (.error (.registry cause), s)
  | .ok sequence => do
    match ← s.getOrCreate registry sequence with
    | (.error cause, s) => return (.error (.collection cause), s)
    | (.ok a, s) =>
      match s.collection? a with
      -- The map names collections that are there.
      | none => return (.error (.collection (.unknownArchetype a)), s)
      | some collection =>
        match ← collection.setUp registry (some definition.id) sequence with
        | (.error cause, collection) =>
          return (.error (.collection cause), s.modifyCollection a fun _ => collection)
        | (.ok (), collection) =>
          note "definition registered"
            [("definition", .printed definition.id.text), ("name", .printed definition.name),
             ("archetype", .printed a.text)]
          return (.ok a,
            { s.modifyCollection a fun _ => collection with
              definitions := s.definitions.insert definition.id.key ⟨a, definition.state⟩
              dirty := true })

def definition? (s : Store) (d : DefinitionId) : Option DefinitionSlot := s.definitions[d.key]?

def setLoadState (s : Store) (d : DefinitionId) (state : LoadState) :
    Except WorldError Unit × Store :=
  match s.definition? d with
  | none => (.error (.unknownDefinition d), s)
  | some slot => (.ok (), { s with definitions := s.definitions.insert d.key { slot with state } })

/-- Appends an entity to the pending generation of an archetype. -/
def create (s : Store) (a : ArchetypeId) (id : EntityId) : Except WorldError Unit × Store :=
  match s.collection? a with
  | none => (.error (.collection (.unknownArchetype a)), s)
  | some _ =>
    (.ok (), { s.modifyCollection a (·.create id) with locations := s.locations.insert id.raw a })

def locate? (s : Store) (raw : Nat) : Option ArchetypeId := s.locations[raw]?

def entity? (s : Store) (raw : Nat) : Option EntityId :=
  (s.locate? raw).bind fun a => (s.collection? a).bind fun c => c.entity? raw

/-- Overwrites the flags of a stored entity. -/
def update (s : Store) (id next : EntityId) : Except CollectionError Unit × Store :=
  match s.locate? id.raw with
  | none => (.error (.notFound id), s)
  | some a =>
    match s.collection? a with
    | none => (.error (.notFound id), s)
    | some collection =>
      let (result, collection) := collection.update id next
      (result, s.modifyCollection a fun _ => collection)

/-- Commits the collections from `position` on, one after another, up to the first that fails. The
raw ids of removed entities are no longer located anywhere. -/
def commitFrom : Nat → Nat → Store → CommitReport →
    Except (Failure CollectionError) CommitReport × Store
  | 0, _, s, report => (.ok report, s)
  | rest + 1, position, s, report =>
    match s.collections[position]? with
    | none => (.ok report, s)
    | some collection =>
      match collection.commit with
      | (.error failure, collection) =>
        (.error failure, s.modifyCollection ⟨position⟩ fun _ => collection)
      | (.ok each, collection) =>
        let locations := each.removed.foldl (fun map id => map.erase id.raw) s.locations
        commitFrom rest (position + 1)
          { s.modifyCollection ⟨position⟩ fun _ => collection with locations }
          (report.append each)

def commit (s : Store) : Logged (Except (Failure CollectionError) CommitReport × Store) :=
  match commitFrom s.collections.size 0 s .empty with
  | (.error failure, s) => return (.error failure, s)
  | (.ok report, s) => do
    if !report.isEmpty then
      note "store committed"
        [("migrated", .printed (toString report.migrated.size)),
         ("removed", .printed (toString report.removed.size))]
    return (.ok report, s)

/-- Every collection with its handle, in discovery order. -/
def archetypes (s : Store) : List (ArchetypeId × Collection) :=
  s.collections.toList.zipIdx.map fun (c, i) => (⟨i⟩, c)

/-- Rebuilds a stale index; says whether it did. -/
def refreshIndex (s : Store) (kindCount : Nat) : Logged (Bool × Store) :=
  if s.dirty then do
    note "archetype index rebuilt" [("archetypes", .printed (toString s.collections.size))]
    let index := ArchetypeIndex.build kindCount (s.archetypes.map fun (a, c) => (a, c.sequence))
    return (true, { s with index, dirty := false })
  else return (false, s)

/-- Archetypes with every wanted kind and no unwanted kind, as of the last refresh. -/
def find (s : Store) (wanted unwanted : List Kind) : List ArchetypeId := s.index.find wanted unwanted

/-- The same query by type. Nothing contains a type that is not registered. -/
def findTypes (s : Store) (registry : Registry) (wanted unwanted : List TypeId) : List ArchetypeId :=
  match registry.kindsOf wanted with
  | .error _ => []
  | .ok kinds => s.find kinds (unwanted.filterMap registry.kindOf?)

def size (s : Store) : Nat := s.collections.size

end Store

end EntityWorld
