import EntityWorld.Proofs.Alike
import EntityWorld.Proofs.Archetype.Relabelled

/-!
# Mirrors

Two runs may differ in bits of ids that nothing depends on, in the order of destroy requests, and in
what callbacks remember of either. `Mirror` says how they may differ; `Shared.Mirrored` says so of what
updates share, and updates that do alike keep it. Main statement: `keptBy_perform`.
-/
namespace EntityWorld

variable {σ : Type}

/-- How one run may differ from another. -/
structure Mirror (σ : Type) where
  -- The id that an entity has in the second run.
  relabel : EntityId → EntityId
  raw_relabel : ∀ x, (relabel x).raw = x.raw
  life_relabel : ∀ x, (relabel x).life = x.life
  relabel_withLife : ∀ x life, relabel (x.withLife life) = (relabel x).withLife life
  relabel_ofRaw : ∀ raw, relabel (.ofRaw raw) = .ofRaw raw
  -- Ids that callers may name an entity by in the two runs.
  Named : EntityId → EntityId → Prop
  raw_of_named : ∀ {x y}, Named x y → y.raw = x.raw
  -- What callbacks remember, and how they may change it.
  Memory : σ → σ → Prop
  Change : (σ → σ) → (σ → σ) → Prop
  memory_of_change : ∀ {change change' m m'}, Change change change' → Memory m m' →
    Memory (change m) (change' m')
  -- What they may log.
  Event : Event → Event → Prop

namespace Mirror

variable (mirror : Mirror σ)

/-- Every request but for those that name an entity, change the memory or log. -/
def plain : Access.Request σ → Bool
  | .destroy _ | .exchange _ | .log _ => false
  | .kindOf _ | .find .. | .findKinds .. | .collection _ | .entities _ | .entity _ | .create _
  | .createWith _ | .read .. | .edit .. | .lock _ | .lockTable | .inspect => true

inductive Requested : Access.Request σ → Access.Request σ → Prop
  | same {request : Access.Request σ} (plain : plain request = true) : Requested request request
  | destroy {id id' : EntityId} (named : mirror.Named id id') : Requested (.destroy id) (.destroy id')
  | exchange {change change' : σ → σ} (changes : mirror.Change change change') :
      Requested (.exchange change) (.exchange change')
  | log {event event' : EntityWorld.Event} (events : mirror.Event event event') :
      Requested (.log event) (.log event')

/-- Only answers that show ids or the memory may differ. -/
def Answered : {request request' : Access.Request σ} →
    Access.Answer request → Access.Answer request' → Prop
  | .collection _, .collection _, c, c' => c' = c.map (Collection.relabel mirror.relabel)
  | .entities _, .entities _, ids, ids' => ids' = ids.map mirror.relabel
  | .entity _, .entity _, id, id' => id' = id.map mirror.relabel
  | .exchange _, .exchange _, m, m' => mirror.Memory m m'
  | _, _, answer, answer' => HEq answer' answer

/-- What updates ask. -/
def access : Correspondence (Access.interface σ) := ⟨mirror.Requested, mirror.Answered⟩

end Mirror

namespace Shared

variable {mirror : Mirror σ} {s t : Shared σ}

/-- The second is what the first would be under other ids, with the requests in another order. -/
structure Mirrored (mirror : Mirror σ) (s t : Shared σ) : Prop where
  registry : t.registry = s.registry
  locks : t.locks = s.locks
  store : t.store = s.store.relabel mirror.relabel
  allocator : t.allocator = s.allocator
  deferred : t.deferred = s.deferred.map fun d => { d with id := mirror.relabel d.id }
  destroys : ∀ raw, raw ∈ t.destroys.map EntityId.raw ↔ raw ∈ s.destroys.map EntityId.raw
  memory : mirror.Memory s.memory t.memory

namespace Mirrored

theorem entity? (mirrored : Mirrored mirror s t) (raw : Nat) :
    t.entity? raw = (s.entity? raw).map mirror.relabel := by
  rw [← entity?_relabel mirror.raw_relabel]
  unfold Shared.entity? Shared.deferred?
  rw [mirrored.store, mirrored.deferred]
  rfl

/-- Ids are handed out without any bits that may differ. -/
private theorem relabel_of_allocate {a allocator : IdAllocator} {id : EntityId}
    (allocated : a.allocate = (.ok id, allocator)) : mirror.relabel id = id := by
  unfold IdAllocator.allocate at allocated
  split at allocated
  · cases allocated
    exact mirror.relabel_ofRaw _
  · split at allocated
    · cases allocated
      exact mirror.relabel_ofRaw _
    · cases allocated

theorem place (mirrored : Mirrored mirror s t) (a : ArchetypeId) :
    (t.place a).1 = (s.place a).1 ∧ Mirrored mirror (s.place a).2 (t.place a).2 := by
  unfold Shared.place
  rw [mirrored.allocator]
  rcases allocated : s.allocator.allocate with ⟨cause | id, allocator⟩
  · exact ⟨rfl, { mirrored with allocator := rfl }⟩
  · have created := Store.create_relabel (s := s.store) mirror.raw_relabel a id
    rw [relabel_of_allocate allocated] at created
    simp only [mirrored.store, created]
    rcases s.store.create a id with ⟨cause | ok, store⟩
    · exact ⟨rfl, { mirrored with allocator := rfl, store := rfl }⟩
    · exact ⟨rfl, { mirrored with allocator := rfl, store := rfl }⟩

theorem defer (mirrored : Mirrored mirror s t) (sequence : Sequence) :
    (t.defer sequence).1 = (s.defer sequence).1 ∧
      Mirrored mirror (s.defer sequence).2 (t.defer sequence).2 := by
  unfold Shared.defer
  rw [mirrored.allocator]
  rcases allocated : s.allocator.allocate with ⟨cause | id, allocator⟩
  · exact ⟨rfl, { mirrored with allocator := rfl }⟩
  · refine ⟨rfl, { mirrored with allocator := rfl, deferred := ?_ }⟩
    simp only [mirrored.deferred, List.map_append, List.map_cons, List.map_nil,
      relabel_of_allocate allocated]

theorem create (mirrored : Mirrored mirror s t) (d : DefinitionId) :
    (t.create d).1 = (s.create d).1 ∧ Mirrored mirror (s.create d).2 (t.create d).2 := by
  have known : t.store.definition? d = s.store.definition? d := by
    rw [mirrored.store]
    rfl
  unfold Shared.create
  rw [known]
  split
  · exact ⟨rfl, mirrored⟩
  · split
    · exact mirrored.place _
    · exact ⟨rfl, mirrored⟩

theorem createWith (mirrored : Mirrored mirror s t) (types : List TypeId) :
    (t.createWith types).1 = (s.createWith types).1 ∧
      Mirrored mirror (s.createWith types).2 (t.createWith types).2 := by
  have known (sequence : Sequence) : t.store.archetypeOf? sequence = s.store.archetypeOf? sequence := by
    rw [mirrored.store, Store.archetypeOf?_relabel]
  unfold Shared.createWith
  rw [mirrored.registry]
  split
  · exact ⟨rfl, mirrored⟩
  · split
    · exact ⟨rfl, mirrored⟩
    · rw [known]
      split
      · exact mirrored.place _
      · exact mirrored.defer _

theorem edit (mirrored : Mirrored mirror s t) (a : ArchetypeId) (kind : Kind) (type : StoredType)
    (change : Nat → Nat → Row → Row) :
    (t.edit a kind type change).1 = (s.edit a kind type change).1 ∧
      Mirrored mirror (s.edit a kind type change).2 (t.edit a kind type change).2 := by
  unfold Shared.edit
  rw [mirrored.store, Store.collection?_relabel]
  cases here : s.store.collection? a with
  | none => exact ⟨rfl, mirrored⟩
  | some c =>
    simp only [Option.map_some, Collection.read_relabel, Collection.edit_relabel, bind, Except.bind, pure,
      Except.pure]
    cases c.read kind type with
    | error cause => exact ⟨rfl, mirrored⟩
    | ok rows =>
      simp only
      rcases c.edit kind type (change rows.size) with cause | edited
      · exact ⟨rfl, mirrored⟩
      · exact ⟨rfl, { mirrored with store := Store.modifyCollection_relabel fun _ _ => rfl }⟩

end Mirrored

/-- Whatever updates ask, they can be told apart by ids and the memory only. -/
theorem keptBy_perform (mirror : Mirror σ) :
    mirror.access.KeptBy Access.perform (Mirrored mirror) := by
  intro request request' s t requested mirrored
  cases requested with
  | destroy named =>
    refine ⟨HEq.rfl, { mirrored with destroys := fun raw => ?_ }⟩
    simp only [Access.perform, Logged.value_pure, List.map_append, List.map_cons, List.map_nil,
      List.mem_append, mirrored.destroys, mirror.raw_of_named named]
  | exchange changes =>
    exact ⟨mirrored.memory, { mirrored with memory := mirror.memory_of_change changes mirrored.memory }⟩
  | log events => exact ⟨HEq.rfl, mirrored⟩
  | same plain =>
    cases request with
    | destroy | exchange | log => cases plain
    | kindOf type => exact ⟨heq_of_eq (congrArg (Registry.kindOf? · type) mirrored.registry), mirrored⟩
    | find wanted unwanted =>
      refine ⟨heq_of_eq ?_, mirrored⟩
      simp only [Access.perform, Logged.value_pure, mirrored.registry, mirrored.store]
      rfl
    | findKinds wanted unwanted =>
      refine ⟨heq_of_eq ?_, mirrored⟩
      simp only [Access.perform, Logged.value_pure, mirrored.store]
      rfl
    | collection a =>
      refine ⟨?_, mirrored⟩
      have known := Store.collection?_relabel mirror.relabel s.store a
      rwa [← mirrored.store] at known
    | entities a =>
      refine ⟨?_, mirrored⟩
      have known := Store.collection?_relabel mirror.relabel s.store a
      rw [← mirrored.store] at known
      simp only [Mirror.access, Mirror.Answered, Access.perform, Logged.value_pure, known]
      cases s.store.collection? a with
      | none => exact Array.map_empty.symm
      | some c => rfl
    | entity raw => exact ⟨mirrored.entity? raw, mirrored⟩
    | create d =>
      obtain ⟨same, after⟩ := mirrored.create d
      exact ⟨heq_of_eq same, after⟩
    | createWith types =>
      obtain ⟨same, after⟩ := mirrored.createWith types
      exact ⟨heq_of_eq same, after⟩
    | read a kind type =>
      refine ⟨heq_of_eq ?_, mirrored⟩
      simp only [Access.perform, Logged.value_pure, mirrored.store, Store.collection?_relabel]
      cases s.store.collection? a <;> rfl
    | edit a kind type change =>
      obtain ⟨same, after⟩ := mirrored.edit a kind type change
      exact ⟨heq_of_eq same, after⟩
    | lock call =>
      simp only [Access.perform, Logged.value_bind, Logged.value_pure, mirrored.locks]
      exact ⟨HEq.rfl, { mirrored with locks := rfl }⟩
    | lockTable => exact ⟨heq_of_eq mirrored.locks, mirrored⟩
    | inspect =>
      refine ⟨heq_of_eq ?_, mirrored⟩
      simp only [Access.perform, Logged.value_pure, inspect, mirrored.registry, mirrored.store,
        Store.size_relabel]
      rfl

end Shared

end EntityWorld
