import EntityWorld.Archetype.Store
import EntityWorld.Entity.Allocator
import EntityWorld.Fence.LockTable
import EntityWorld.Program

/-!
# Access to the world from inside an update

An update never changes the structure of the world in place. What it creates lands in a pending
generation, or waits for the next commit while no collection has its sequence; what it destroys is
queued until the end of the fence. Component values are changed in place, one column at a time.
-/
namespace EntityWorld

/-- An entity that waits for its collection to be made. -/
structure Deferred where
  id : EntityId
  sequence : Sequence
  deriving DecidableEq, Repr

/-- What the frame thread shares with the updates it runs. The memory is whatever systems and
updates keep for themselves. -/
structure Shared (σ : Type) where
  registry : Registry
  locks : LockTable
  store : Store
  allocator : IdAllocator
  -- Destroy requests, oldest first.
  destroys : List EntityId
  -- Entities without a collection, oldest first.
  deferred : List Deferred
  memory : σ

namespace Shared

variable {σ : Type}

def ofRegistry (registry : Registry) (memory : σ) : Shared σ :=
  { registry
    locks := .ofSize registry.lockSlots
    store := .empty
    allocator := .full
    destroys := []
    deferred := []
    memory }

def deferred? (s : Shared σ) (raw : Nat) : Option Deferred :=
  s.deferred.find? fun entry => entry.id.raw = raw

/-- Changes the id of the waiting entity with this raw id. -/
def modifyDeferred (s : Shared σ) (raw : Nat) (change : EntityId → EntityId) : Shared σ :=
  match s.deferred.findIdx? fun entry => entry.id.raw = raw with
  | none => s
  | some place =>
    { s with deferred := s.deferred.modify place fun entry => { entry with id := change entry.id } }

/-- The entity with this raw id, stored or waiting. -/
def entity? (s : Shared σ) (raw : Nat) : Option EntityId :=
  (s.store.entity? raw).or ((s.deferred? raw).map Deferred.id)

/-- A fresh id goes into an archetype, or back to the allocator if there is no such archetype. -/
def place (s : Shared σ) (a : ArchetypeId) : Except WorldError EntityId × Shared σ :=
  match s.allocator.allocate with
  | (.error cause, allocator) => (.error (.capacity cause), { s with allocator })
  | (.ok id, allocator) =>
    match s.store.create a id with
    | (.ok (), store) => (.ok id, { s with allocator, store })
    | (.error cause, store) =>
      (.error cause, { s with store, allocator := (allocator.release .strict id).value.2 })

/-- A fresh id waits for the collection of a sequence. -/
def defer (s : Shared σ) (sequence : Sequence) : Except WorldError EntityId × Shared σ :=
  match s.allocator.allocate with
  | (.error cause, allocator) => (.error (.capacity cause), { s with allocator })
  | (.ok id, allocator) => (.ok id, { s with allocator, deferred := s.deferred ++ [⟨id, sequence⟩] })

def create (s : Shared σ) (d : DefinitionId) : Except WorldError EntityId × Shared σ :=
  match s.store.definition? d with
  | none => (.error (.unknownDefinition d), s)
  | some slot =>
    if slot.state = .loaded then s.place slot.archetype
    else (.error (.definitionNotLoaded d slot.state), s)

/-- Creates an entity with exactly these component types. -/
def createWith (s : Shared σ) (types : List TypeId) : Except WorldError EntityId × Shared σ :=
  match s.registry.sequenceOf types with
  | .error cause => (.error (.registry cause), s)
  | .ok sequence =>
    if sequence.isEmpty then (.error (.collection .emptySequence), s)
    else
      match s.store.archetypeOf? sequence with
      | some a => s.place a
      | none => s.defer sequence

/-- Changes the current rows of one kind. The change is told the number of rows, which is also the
answer. -/
def edit (s : Shared σ) (a : ArchetypeId) (kind : Kind) (type : StoredType)
    (change : Nat → Nat → Row → Row) : Except CollectionError Nat × Shared σ :=
  match s.store.collection? a with
  | none => (.error (.unknownArchetype a), s)
  | some collection =>
    let edited := do
      let rows ← collection.read kind type
      return (rows.size, ← collection.edit kind type (change rows.size))
    match edited with
    | .error cause => (.error cause, s)
    | .ok (size, edited) =>
      (.ok size, { s with store := s.store.modifyCollection a fun _ => edited })

def inspect (s : Shared σ) : String :=
  Text.inspectOpenRecord "WorldAccess"
    [("kinds", toString s.registry.kindCount), ("archetypes", toString s.store.size)]

end Shared

namespace Access

inductive Request (σ : Type) where
  | kindOf (type : TypeId)
  | find (wanted unwanted : List TypeId)
  | findKinds (wanted unwanted : List Kind)
  | collection (archetype : ArchetypeId)
  -- The current entities of a collection, in row order.
  | entities (archetype : ArchetypeId)
  | entity (raw : Nat)
  | create (definition : DefinitionId)
  | createWith (types : List TypeId)
  | destroy (id : EntityId)
  | read (archetype : ArchetypeId) (kind : Kind) (type : StoredType)
  | edit (archetype : ArchetypeId) (kind : Kind) (type : StoredType) (change : Nat → Nat → Row → Row)
  | lock (call : LockTable.Call)
  | lockTable
  | inspect
  -- Changes the memory; the answer is what it was before.
  | exchange (change : σ → σ)
  | log (event : Event)

def Answer {σ : Type} : Request σ → Type
  | .kindOf _ => Option Kind
  | .find .. | .findKinds .. => List ArchetypeId
  | .collection _ => Option Collection
  | .entities _ => Array EntityId
  | .entity _ => Option EntityId
  | .create _ | .createWith _ => Except WorldError EntityId
  | .destroy _ | .log _ => Unit
  | .read .. => Except CollectionError (Array Row)
  | .edit .. => Except CollectionError Nat
  | .lock _ => Except Misuse Bool
  | .lockTable => LockTable
  | .inspect => String
  | .exchange _ => σ

abbrev interface (σ : Type) : Interface := ⟨Request σ, Answer⟩

variable {σ : Type}

def ask (request : Request σ) : Program (interface σ) (Answer request) := .call request .done

def kindOf (type : TypeId) : Program (interface σ) (Option Kind) := ask (.kindOf type)

def find (wanted unwanted : List TypeId) : Program (interface σ) (List ArchetypeId) :=
  ask (.find wanted unwanted)

def findKinds (wanted unwanted : List Kind) : Program (interface σ) (List ArchetypeId) :=
  ask (.findKinds wanted unwanted)

def collection (a : ArchetypeId) : Program (interface σ) (Option Collection) := ask (.collection a)

def entities (a : ArchetypeId) : Program (interface σ) (Array EntityId) := ask (.entities a)

def entity (raw : Nat) : Program (interface σ) (Option EntityId) := ask (.entity raw)

def create (d : DefinitionId) : Program (interface σ) (Except WorldError EntityId) :=
  ask (.create d)

def createWith (types : List TypeId) : Program (interface σ) (Except WorldError EntityId) :=
  ask (.createWith types)

def destroy (id : EntityId) : Program (interface σ) Unit := ask (.destroy id)

def read (a : ArchetypeId) (kind : Kind) (type : StoredType) :
    Program (interface σ) (Except CollectionError (Array Row)) :=
  ask (.read a kind type)

def edit (a : ArchetypeId) (kind : Kind) (type : StoredType) (change : Nat → Nat → Row → Row) :
    Program (interface σ) (Except CollectionError Nat) :=
  ask (.edit a kind type change)

def lock (call : LockTable.Call) : Program (interface σ) (Except Misuse Bool) := ask (.lock call)

def lockTable : Program (interface σ) LockTable := ask .lockTable

def inspect : Program (interface σ) String := ask .inspect

def exchange (change : σ → σ) : Program (interface σ) σ := ask (.exchange change)

def log (event : Event) : Program (interface σ) Unit := ask (.log event)

def perform : Handler (interface σ) (Shared σ)
  | .kindOf type, s => return (s.registry.kindOf? type, s)
  | .find wanted unwanted, s => return (s.store.findTypes s.registry wanted unwanted, s)
  | .findKinds wanted unwanted, s => return (s.store.find wanted unwanted, s)
  | .collection a, s => return (s.store.collection? a, s)
  | .entities a, s => return (((s.store.collection? a).map fun c => c.current.ids).getD #[], s)
  | .entity raw, s => return (s.entity? raw, s)
  | .create definition, s => return s.create definition
  | .createWith types, s => return s.createWith types
  | .destroy id, s => return ((), { s with destroys := s.destroys ++ [id] })
  | .read a kind type, s =>
    let rows : Except CollectionError (Array Row) :=
      match s.store.collection? a with
      | none => .error (.unknownArchetype a)
      | some collection => collection.read kind type
    return (rows, s)
  | .edit a kind type change, s => return s.edit a kind type change
  | .lock call, s => do
    let (result, locks) ← s.locks.perform .strict call
    return (result, { s with locks })
  | .lockTable, s => return (s.locks, s)
  | .inspect, s => return (s.inspect, s)
  | .exchange change, s => return (s.memory, { s with memory := change s.memory })
  | .log event, s => do
    Logged.emit event
    return ((), s)

end Access

end EntityWorld
