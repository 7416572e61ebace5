import EntityWorld.World.System

/-!
# The world

Entities, fences and systems in one value. Beside what updates share, the world keeps which entities
are owed a life-state change: those that become alive after the first fence, those that are
destroyed after the last, and those on their way out since the last commit, which are not yet owed
anything.
-/
namespace EntityWorld

structure World (σ : Type) where
  config : WorldConfig
  shared : Shared σ
  scheduler : Scheduler σ
  systems : List (System σ)
  -- Raw ids to promote after the next Register fence.
  registering : List Nat
  -- Raw ids to destroy after the next Unregister fence.
  unregistering : List Nat
  -- Raw ids that went on their way out since the last commit.
  nextUnregistering : List Nat

namespace World

variable {σ : Type}

def span : Span := ⟨"world", .info, "cadence_core::ecs::world"⟩

def note (level : Level) (message : String) (fields : List (String × FieldValue)) : Logged Unit :=
  Logged.emit { level, target := "cadence_core::ecs::world", message, fields }

/-! ### Queries -/

def entity? (w : World σ) (raw : Nat) : Option EntityId := w.shared.entity? raw

def locate? (w : World σ) (raw : Nat) : Option ArchetypeId := w.shared.store.locate? raw

def collection? (w : World σ) (a : ArchetypeId) : Option Collection := w.shared.store.collection? a

def find (w : World σ) (wanted unwanted : List TypeId) : List ArchetypeId :=
  w.shared.store.findTypes w.shared.registry wanted unwanted

def kindOf? (w : World σ) (type : TypeId) : Option Kind := w.shared.registry.kindOf? type

def liveEntities (w : World σ) : Nat := w.shared.allocator.live

def frame (w : World σ) : Nat := w.scheduler.frame

def phase (w : World σ) : Phase := w.scheduler.phase

def fenceOrder (w : World σ) : List FenceId := w.scheduler.order

/-! ### Changes between frames -/

/-- Creates an entity from a loaded definition. The next commit makes it visible. -/
def create (w : World σ) (d : DefinitionId) : Except WorldError EntityId × World σ :=
  let (result, shared) := w.shared.create d
  (result, { w with shared })

/-- Creates an entity with exactly these component types. -/
def createWith (w : World σ) (types : List TypeId) : Except WorldError EntityId × World σ :=
  let (result, shared) := w.shared.createWith types
  (result, { w with shared })

/-- Updates the load state of a registered definition. -/
def setDefinitionState (w : World σ) (d : DefinitionId) (state : LoadState) :
    Except WorldError Unit × World σ :=
  let (result, store) := w.shared.store.setLoadState d state
  (result, { w with shared.store := store })

/-- Changes the priority of an entity, stored or waiting; answers its new id. -/
def setPriority (w : World σ) (id : EntityId) (p : Priority) : Except WorldError EntityId × World σ :=
  match w.shared.store.entity? id.raw with
  | some current =>
    let next := current.withPriority p
    match w.shared.store.update current next with
    | (.ok (), store) => (.ok next, { w with shared.store := store })
    | (.error cause, store) => (.error (.collection cause), { w with shared.store := store })
  | none =>
    match w.shared.deferred? id.raw with
    | none => (.error (.unknownEntity id), w)
    | some entry =>
      (.ok (entry.id.withPriority p),
        { w with shared := w.shared.modifyDeferred id.raw fun id => id.withPriority p })

/-- Runs a program with the access an update has. -/
def access {α : Type} (w : World σ) (program : Program (Access.interface σ) α) :
    Logged (α × World σ) := do
  let (answer, shared) ← program.run Access.perform w.shared
  return (answer, { w with shared })

/-! ### What systems ask for -/

def performSetup : Handler (Setup.interface σ) (World σ)
  | .fence request, w =>
    let (result, scheduler) := w.scheduler.request request
    return (result.mapError .fence, { w with scheduler })
  | .define definition, w => do
    let (result, store) ← w.shared.store.registerDefinition w.shared.registry definition
    return (result, { w with shared.store := store })
  | .kindOf type, w => return (w.kindOf? type, w)
  | .kindCount, w => return (w.shared.registry.kindCount, w)
  | .exchange change, w =>
    return (w.shared.memory, { w with shared.memory := change w.shared.memory })

def performQuery : Handler (Query.interface σ) (World σ)
  | .kindOf type, w => return (w.kindOf? type, w)
  | .find wanted unwanted, w => return (w.find wanted unwanted, w)
  | .findKinds wanted unwanted, w => return (w.shared.store.find wanted unwanted, w)
  | .collection a, w => return (w.collection? a, w)
  | .exchange change, w =>
    return (w.shared.memory, { w with shared.memory := change w.shared.memory })

def performDeclaration : Handler (Declaration.interface σ) (World σ)
  | .schedule update, w => do
    let (result, scheduler) ← w.scheduler.schedule update
    return (result.mapError .fence, { w with scheduler })
  | .start update, w => do
    let (result, scheduler) ← w.scheduler.startConstant update
    return (result.mapError .fence, { w with scheduler })
  | .stop name, w => do
    let (result, scheduler) ← w.scheduler.stopConstant name
    return (result.mapError .fence, { w with scheduler })
  | .has name, w => return (w.scheduler.hasConstant name, w)
  | .kindOf type, w => return (w.kindOf? type, w)
  | .frame, w => return (w.frame + 1, w)
  | .exchange change, w =>
    return (w.shared.memory, { w with shared.memory := change w.shared.memory })

/-- Tells systems about the archetypes there are now. -/
def rebind : List (System σ) → World σ → Logged (World σ)
  | [], w => return w
  | system :: rest, w => do
    let ((), w) ← system.rebind.run performQuery w
    rebind rest w

def inspect (w : World σ) : String :=
  Text.inspectOpenRecord "World"
    [("config", w.config.inspect), ("scheduler", w.scheduler.inspect),
     ("archetypes", toString w.shared.store.size),
     ("systems", Text.inspectList (w.systems.map fun s => Text.quoted s.name))]

/-! ### Construction -/

/-- Lets systems ask for what they need, in order, up to the first that fails. -/
def setUp : List (System σ) → World σ → Logged (Except WorldError Unit × World σ)
  | [], w => return (.ok (), w)
  | system :: rest, w => do
    match ← system.setUp.run performSetup w with
    | (.error source, w) => return (.error (.systemInit system.name source), w)
    | (.ok (), w) => setUp rest w

/-- A world before its systems have asked for anything. -/
def unstarted (config : WorldConfig) (registry : Registry) (systems : List (System σ)) (memory : σ) :
    World σ :=
  { config
    shared := .ofRegistry registry memory
    scheduler := (Scheduler.new config registry.kindCount).beginRegistration.2
    systems
    registering := []
    unregistering := []
    nextUnregistering := [] }

/-- Freezes the fence order and shows systems the archetypes for the first time. -/
def freeze (w : World σ) : Logged (Except WorldError Unit × World σ) := do
  match ← w.scheduler.finalize with
  | (.error cause, scheduler) => return (.error (.fence cause), { w with scheduler })
  | (.ok (), scheduler) =>
    let (_, store) ← w.shared.store.refreshIndex w.shared.registry.kindCount
    let w ← rebind w.systems { w with scheduler, shared.store := store }
    note .info "world started"
      [("kinds", .printed (toString w.shared.registry.kindCount)),
       ("archetypes", .printed (toString w.shared.store.size)),
       ("systems", .printed (toString w.systems.length)),
       ("fences", .printed (Text.inspectList (w.fenceOrder.map FenceId.name)))]
    return (.ok (), w)

/-- Builds a world. An error hands the memory back. -/
def new (config : WorldConfig) (types : List ComponentType) (systems : List (System σ))
    (memory : σ) : Logged (Except (WorldError × σ) (World σ)) :=
  match config.validate, Registry.build types with
  | .error cause, _ => return .error (cause, memory)
  | .ok (), .error cause => return .error (.registry cause, memory)
  | .ok (), .ok registry => Logged.within span do
    match ← setUp systems (unstarted config registry systems memory) with
    | (.error cause, w) => return .error (cause, w.shared.memory)
    | (.ok (), w) =>
      match ← w.freeze with
      | (.error cause, w) => return .error (cause, w.shared.memory)
      | (.ok (), w) => return .ok w

end World

end EntityWorld
