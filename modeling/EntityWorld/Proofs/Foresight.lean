import EntityWorld.Proofs.Archetype.Stock
import EntityWorld.Proofs.Shared

/-!
# Foresight

What updates share may have collections that are made early: for sequences that others discover when
an update first asks for an entity of them. Whoever does not ask for archetypes cannot tell.
-/
namespace EntityWorld

variable {σ : Type}

namespace Shared

/-- The sequences that there are collections for or will be with the next commit, in order. -/
def discovered (s : Shared σ) : List Sequence := discover s.store.sequences s.deferred

/-- The second has collections early that the first makes late, for definitions `ids` that only it
has; for the rest they share the same. -/
structure Ahead (ids : List DefinitionId) (names : List Sequence) (s t : Shared σ) : Prop where
  sound : s.Sound
  sound' : t.Sound
  registry : t.registry = s.registry
  locks : t.locks = s.locks
  allocator : t.allocator = s.allocator
  destroys : t.destroys = s.destroys
  memory : t.memory = s.memory
  stocked : Store.Stocked s.registry s.deferred s.store t.store
  names : t.store.sequences = names
  waiting : t.deferred = []
  -- Entities wait only while there is no collection for them.
  apart : ∀ d ∈ s.deferred, d.sequence ∉ s.store.sequences
  definitions : ∀ d, d ∉ ids → t.store.definition? d = s.store.definition? d
  placed : ∀ d slot, s.store.definition? d = some slot →
    slot.archetype.index < s.store.sequences.length

namespace Ahead

variable {ids : List DefinitionId} {names : List Sequence} {s t : Shared σ} {a : ArchetypeId}
  {c : Collection} {raw : Nat} {x : EntityId}

/-- Nobody waits for a collection that is there. -/
theorem waitingFor_eq_nil (ahead : Ahead ids names s t) (here : s.store.collection? a = some c) :
    waitingFor s.deferred c.sequence = [] := by
  rw [waitingFor, List.map_eq_nil_iff, List.filter_eq_nil_iff]
  intro d member same
  exact ahead.apart d member (of_decide_eq_true same ▸ Store.mem_sequences here)

/-- A collection that is there is the same in both. -/
theorem collection? (ahead : Ahead ids names s t) (here : s.store.collection? a = some c) :
    ∃ c', t.store.collection? a = some c' ∧ c.Stocked [] c' := by
  obtain ⟨c', there, filled⟩ := ahead.stocked.known a c here
  rw [ahead.waitingFor_eq_nil here] at filled
  exact ⟨c', there, filled⟩

/-- An entity that waits is in a collection of the other that the first does not have. -/
theorem collection_of_waiting (ahead : Ahead ids names s t) {d : Deferred} (member : d ∈ s.deferred) :
    ∃ a c c', s.store.collection? a = none ∧ t.store.collection? a = some c' ∧
      c'.sequence = d.sequence ∧ Collection.unbound.bind s.registry c'.sequence = .ok c ∧
      c.Stocked (waitingFor s.deferred c'.sequence) c' := by
  have met : d.sequence ∈ t.store.sequences :=
    ahead.stocked.order.subset (mem_discover.mpr (.inr ⟨d, member, rfl⟩))
  obtain ⟨i, here⟩ := List.mem_iff_getElem?.mp met
  obtain ⟨c', found, sequence⟩ := Store.exists_collection (a := ⟨i⟩) here
  have absent := ahead.stocked.absent found (sequence ▸ ahead.apart d member)
  obtain ⟨c, bound, filled⟩ := ahead.stocked.new _ c' absent found
  exact ⟨⟨i⟩, c, c', absent, found, sequence, bound, filled⟩

/-! ### The same entities -/

theorem mem_ids_iff (ahead : Ahead ids names s t) : x ∈ t.store.ids ↔ x ∈ s.ids := by
  rw [mem_ids, Store.mem_ids_iff, Store.mem_ids_iff]
  constructor
  · rintro ⟨a, c', there, inside⟩
    cases here : s.store.collection? a with
    | some c =>
      obtain ⟨c'', found, filled⟩ := ahead.collection? here
      obtain rfl := Option.some.inj (there.symm.trans found)
      rw [filled.mem_ids] at inside
      exact .inl ⟨a, c, here, inside.resolve_right List.not_mem_nil⟩
    | none =>
      obtain ⟨c, bound, filled⟩ := ahead.stocked.new a c' here there
      rw [filled.mem_ids, (Collection.bind_unbound bound).2.1] at inside
      obtain ⟨d, member, -, same⟩ := mem_waitingFor.mp (inside.resolve_left List.not_mem_nil)
      exact .inr ⟨d, member, same⟩
  · rintro (⟨a, c, here, inside⟩ | ⟨d, member, rfl⟩)
    · obtain ⟨c', there, filled⟩ := ahead.collection? here
      exact ⟨a, c', there, filled.mem_ids.mpr (.inl inside)⟩
    · obtain ⟨a, c, c', -, there, sequence, -, filled⟩ := ahead.collection_of_waiting member
      exact ⟨a, c', there, filled.mem_ids.mpr
        (.inr (mem_waitingFor.mpr ⟨d, member, sequence.symm, rfl⟩))⟩

theorem store_entity? (ahead : Ahead ids names s t) (raw : Nat) :
    t.store.entity? raw = s.entity? raw := by
  refine Option.ext fun x => ?_
  rw [ahead.sound'.store.entity?_eq_some_iff, ahead.sound.entity?_eq_some_iff, ahead.mem_ids_iff]

theorem entity? (ahead : Ahead ids names s t) (raw : Nat) : t.entity? raw = s.entity? raw := by
  rw [Shared.entity?, Shared.deferred?, ahead.waiting, ahead.store_entity?]
  exact Option.or_none

theorem archetypeOf? (ahead : Ahead ids names s t) {sequence : Sequence}
    (member : sequence ∈ names) : ∃ a, t.store.archetypeOf? sequence = some a := by
  cases found : t.store.archetypeOf? sequence with
  | some a => exact ⟨a, rfl⟩
  | none =>
    rw [← ahead.names] at member
    exact absurd member (ahead.sound'.store.keyed.archetypeOf?_eq_none_iff.mp found)

/-! ### What updates ask for -/

/-- Stores may change alike, with the allocator. -/
theorem of_store (ahead : Ahead ids names s t) {store store' : Store}
    {allocator allocator' : IdAllocator} (same : allocator' = allocator)
    (sound : ({ s with store, allocator } : Shared σ).Sound)
    (sound' : ({ t with store := store', allocator := allocator' } : Shared σ).Sound)
    (stocked : Store.Stocked s.registry s.deferred store store')
    (sequences : store.sequences = s.store.sequences)
    (sequences' : store'.sequences = t.store.sequences)
    (definitions : store.definitions = s.store.definitions)
    (definitions' : store'.definitions = t.store.definitions) :
    Ahead ids names { s with store, allocator }
      { t with store := store', allocator := allocator' } :=
  { ahead with
    sound, sound', stocked
    allocator := same
    names := sequences'.trans ahead.names
    apart := sequences ▸ ahead.apart
    definitions := by
      simp only [Store.definition?, definitions, definitions']
      exact ahead.definitions
    placed := by
      simp only [Store.definition?, definitions, sequences]
      exact ahead.placed }

theorem place (ahead : Ahead ids names s t) (inside : a.index < s.store.sequences.length) :
    (t.place a).1 = (s.place a).1 ∧ Ahead ids names (s.place a).2 (t.place a).2 := by
  have sound := (grows_place ahead.sound a).sound
  have sound' := (grows_place ahead.sound' a).sound
  obtain ⟨c, here, -⟩ := Store.exists_collection (List.getElem?_eq_getElem inside)
  obtain ⟨c', there, -⟩ := ahead.collection? here
  unfold Shared.place at sound sound' ⊢
  rw [ahead.allocator] at sound' ⊢
  match handed : s.allocator.allocate with
  | (.error cause, allocator) =>
    rw [handed] at sound sound'
    exact ⟨rfl, { ahead with sound, sound', allocator := rfl }⟩
  | (.ok id, allocator) =>
    simp only [handed, Store.create, here, there] at sound sound' ⊢
    have stocked := ahead.stocked.modify (·.create id) (·.create id) here rfl
      fun d filled => by
        rw [ahead.waitingFor_eq_nil here] at filled ⊢
        refine ⟨filled.sequence, filled.current, ?_⟩
        change d.pending.append id = (c.pending.append id).stow []
        rw [filled.pending]
        rfl
    apply And.intro trivial
    apply ahead.of_store rfl sound sound'
      ⟨stocked.order, stocked.keyed.of_same rfl rfl, stocked.known, stocked.new⟩ ?_ ?_ rfl rfl
    · exact Store.sequences_modifyCollection_of_eq (·.create id) here rfl
    · exact Store.sequences_modifyCollection_of_eq (·.create id) there rfl

theorem create (ahead : Ahead ids names s t) {d : DefinitionId} (other : d ∉ ids) :
    (t.create d).1 = (s.create d).1 ∧ Ahead ids names (s.create d).2 (t.create d).2 := by
  unfold Shared.create
  rw [ahead.definitions d other]
  split
  · exact ⟨rfl, ahead⟩
  next slot found =>
    split
    · exact ahead.place (ahead.placed d slot found)
    · exact ⟨rfl, ahead⟩

/-- The first defers the entity, and the other has a collection for it. -/
theorem defer (ahead : Ahead ids names s t) {sequence : Sequence}
    (bindable : ∃ c, Collection.unbound.bind s.registry sequence = .ok c)
    (unknown : s.store.archetypeOf? sequence = none) (found : t.store.archetypeOf? sequence = some a)
    (order : (s.defer sequence).2.discovered <+: names) :
    (t.place a).1 = (s.defer sequence).1 ∧ Ahead ids names (s.defer sequence).2 (t.place a).2 := by
  have sound := (grows_defer ahead.sound bindable).sound
  have sound' := (grows_place ahead.sound' a).sound
  obtain ⟨c', there, own⟩ := Store.exists_collection
    ((ahead.sound'.store.keyed.known sequence a).mp found)
  have fresh := ahead.sound.store.keyed.archetypeOf?_eq_none_iff.mp unknown
  have absent := ahead.stocked.absent there (own ▸ fresh)
  unfold Shared.defer at sound order ⊢
  unfold Shared.place at sound' ⊢
  rw [ahead.allocator] at sound' ⊢
  match handed : s.allocator.allocate with
  | (.error cause, allocator) =>
    rw [handed] at sound sound'
    exact ⟨rfl, { ahead with sound, sound', allocator := rfl }⟩
  | (.ok id, allocator) =>
    simp only [handed, Store.create, there] at sound sound' order ⊢
    have stocked := ahead.stocked.arrive (d := ⟨id, sequence⟩) (ahead.names ▸ order) absent there own
    have sequences' := Store.sequences_modifyCollection_of_eq (·.create id) there rfl
    refine ⟨trivial, { ahead with
      sound, sound', allocator := rfl
      stocked := ⟨stocked.order, stocked.keyed.of_same rfl rfl, stocked.known, stocked.new⟩
      names := sequences'.trans ahead.names
      apart := fun d member => ?_ }⟩
    rcases List.mem_append.mp member with old | new
    · exact ahead.apart d old
    · rw [List.mem_singleton.mp new]
      exact fresh

theorem createWith (ahead : Ahead ids names s t) {types : List TypeId}
    (order : (s.createWith types).2.discovered <+: names) :
    (t.createWith types).1 = (s.createWith types).1 ∧
      Ahead ids names (s.createWith types).2 (t.createWith types).2 := by
  unfold Shared.createWith at order ⊢
  rw [ahead.registry]
  split
  · exact ⟨rfl, ahead⟩
  next sequence described =>
    rw [described] at order
    simp only at order ⊢
    split
    · exact ⟨rfl, ahead⟩
    next nonempty =>
      rw [if_neg nonempty] at order
      match known : s.store.archetypeOf? sequence with
      | some a =>
        have listed := (ahead.sound.store.keyed.known sequence a).mp known
        obtain ⟨inside, -⟩ := List.getElem?_eq_some_iff.mp listed
        simp only [ahead.stocked.archetypeOf? ahead.sound.store.keyed known]
        exact ahead.place inside
      | none =>
        rw [known] at order
        have bindable := ahead.sound.registry.bindable described (by simpa using nonempty)
        match found : t.store.archetypeOf? sequence with
        | some a => exact ahead.defer bindable known found order
        | none =>
          -- The other has a collection for it if the first can make an entity at all.
          have sound := (grows_defer ahead.sound bindable).sound
          have bindable' := bindable
          rw [← ahead.registry] at bindable'
          have sound' := (grows_defer ahead.sound' bindable').sound
          simp only at order ⊢
          unfold Shared.defer at sound sound' order ⊢
          rw [ahead.allocator] at sound' ⊢
          match handed : s.allocator.allocate with
          | (.error cause, allocator) =>
            rw [handed] at sound sound'
            exact ⟨rfl, { ahead with sound, sound', allocator := rfl }⟩
          | (.ok id, allocator) =>
            rw [handed] at order
            have member : sequence ∈ names :=
              order.subset (mem_discover.mpr (.inr ⟨⟨id, sequence⟩, by simp, rfl⟩))
            obtain ⟨a, there⟩ := ahead.archetypeOf? member
            rw [found] at there
            cases there

theorem edit_of_collection {kind : Kind} {type : StoredType} {change : Nat → Nat → Row → Row}
    (here : s.store.collection? a = some c) :
    s.edit a kind type change =
      match c.read kind type with
      | .error cause => (.error cause, s)
      | .ok rows =>
        match c.edit kind type (change rows.size) with
        | .error cause => (.error cause, s)
        | .ok after =>
          (.ok rows.size, { s with store := s.store.modifyCollection a fun _ => after }) := by
  unfold Shared.edit
  simp only [here]
  match c.read kind type with
  | .error cause => rfl
  | .ok rows =>
    simp only [bind, Except.bind]
    match c.edit kind type (change rows.size) with
    | .error cause => rfl
    | .ok after => rfl

/-- What both have is edited alike. -/
theorem edit (ahead : Ahead ids names s t) {kind : Kind} {type : StoredType}
    {change : Nat → Nat → Row → Row}
    (known : (s.edit a kind type change).1 ≠ .error (.unknownArchetype a)) :
    (t.edit a kind type change).1 = (s.edit a kind type change).1 ∧
      Ahead ids names (s.edit a kind type change).2 (t.edit a kind type change).2 := by
  have sound := (grows_edit ahead.sound a kind type change).sound
  have sound' := (grows_edit ahead.sound' a kind type change).sound
  obtain ⟨c, here⟩ : ∃ c, s.store.collection? a = some c := by
    cases here : s.store.collection? a with
    | some c => exact ⟨c, rfl⟩
    | none => exact absurd (by rw [Shared.edit, here]) known
  obtain ⟨c', there, filled⟩ := ahead.collection? here
  -- The collections differ in their definitions only.
  have whole := filled.eq
  generalize c'.definitions = definitions at whole
  subst whole
  rw [edit_of_collection here] at sound ⊢
  rw [edit_of_collection there] at sound' ⊢
  have same : ({ c with definitions } : Collection).read kind type = c.read kind type := rfl
  simp only [Collection.edit_definitions, same] at sound' ⊢
  match read : c.read kind type with
  | .error cause => exact ⟨rfl, ahead⟩
  | .ok rows =>
    rw [read] at sound sound'
    match edited : c.edit kind type (change rows.size) with
    | .error cause =>
      simp only [edited, Except.map]
      exact ⟨trivial, ahead⟩
    | .ok after =>
      simp only [edited, Except.map] at sound sound' ⊢
      obtain ⟨-, sequence, -, pending⟩ := Collection.edit_spec (ahead.sound.store.collections a c here)
        edited
      have stocked := ahead.stocked.modify (fun _ => after)
        (fun _ => { after with definitions }) here sequence fun d other => by
          rw [ahead.waitingFor_eq_nil here]
          exact ⟨rfl, rfl, rfl⟩
      apply And.intro trivial
      apply ahead.of_store ahead.allocator sound sound' stocked ?_ ?_ rfl rfl
      · exact Store.sequences_modifyCollection_of_eq _ here sequence
      · exact Store.sequences_modifyCollection_of_eq _ there sequence

/-! ### Overwriting entities -/

theorem update_of_stored (ahead : Ahead ids names s t) (next : EntityId) (held : x ∈ s.store.ids)
    (same : next.raw = x.raw) (allowed : x.life.Reaches next.life) :
    ∃ store store', s.store.update x next = (.ok (), store) ∧
      t.store.update x next = (.ok (), store') ∧
      Ahead ids names { s with store } { t with store := store' } := by
  obtain ⟨store, updated, rewritten⟩ := rewritten_of_update next ahead.sound held same allowed
  obtain ⟨store', updated', rewritten'⟩ := rewritten_of_update next ahead.sound'
    (ahead.mem_ids_iff.mpr (mem_ids.mpr (.inl held))) same allowed
  refine ⟨store, store', updated, updated', ?_⟩
  obtain ⟨a, c, here, inside⟩ := Store.mem_ids_iff.mp held
  obtain ⟨c', there, filled⟩ := ahead.collection? here
  have inside' : x ∈ c'.ids := filled.mem_ids.mpr (.inl inside)
  have whole := filled.eq
  generalize c'.definitions = definitions at whole
  subst whole
  simp only [Store.update, ahead.sound.store.locate?_of_mem here inside, here] at updated
  simp only [Store.update, ahead.sound'.store.locate?_of_mem there inside', there,
    Collection.update_definitions] at updated'
  obtain rfl := (Prod.mk.inj updated).2
  obtain rfl := (Prod.mk.inj updated').2
  have stocked := ahead.stocked.modify (fun _ => (c.update x next).2)
    (fun _ => { (c.update x next).2 with definitions }) here (c.sequence_update x next) fun d other => by
      rw [ahead.waitingFor_eq_nil here]
      exact ⟨rfl, rfl, rfl⟩
  apply ahead.of_store ahead.allocator rewritten.sound rewritten'.sound stocked ?_ ?_ rfl rfl
  · exact Store.sequences_modifyCollection_of_eq _ here (c.sequence_update x next)
  · exact Store.sequences_modifyCollection_of_eq _ there (c.sequence_update x next)

/-- What waits in the first queue is overwritten in a pending row of the other. -/
theorem update_of_waiting (ahead : Ahead ids names s t) {d : Deferred} (change : EntityId → EntityId)
    (found : s.deferred? raw = some d) (same : (change d.id).raw = d.id.raw)
    (allowed : d.id.life.Reaches (change d.id).life) :
    ∃ store, t.store.update d.id (change d.id) = (.ok (), store) ∧
      Ahead ids names (s.modifyDeferred raw change) { t with store } := by
  obtain ⟨member, -⟩ := ahead.sound.deferred?_eq_some_iff.mp found
  have rewritten := rewritten_modifyDeferred change ahead.sound found same
  obtain ⟨place, waits, changed⟩ := modifyDeferred_eq change ahead.sound found
  obtain ⟨store, updated, rewritten'⟩ := rewritten_of_update (change d.id) ahead.sound'
    (ahead.mem_ids_iff.mpr (mem_ids.mpr (.inr ⟨d, member, rfl⟩))) same allowed
  refine ⟨store, updated, ?_⟩
  rw [changed] at rewritten ⊢
  obtain ⟨a, c, c', absent, there, own, bound, filled⟩ := ahead.collection_of_waiting member
  have wf := ahead.sound'.store.collections a c' there
  have inside : d.id ∈ c'.pending.ids := by
    rw [filled.pending, Generation.ids_stow]
    simp only [Array.mem_append, List.mem_toArray]
    exact .inr (mem_waitingFor.mpr ⟨d, member, own.symm, rfl⟩)
  -- It has no current row, since its collection has none.
  have notCurrent : d.id ∉ c'.current.ids := by
    obtain ⟨columns, -, empty, -⟩ := Collection.columns_of_bound bound
    rw [filled.current, empty]
    exact Array.not_mem_empty d.id
  obtain ⟨row, here, after⟩ := Collection.update_of_pending wf inside notCurrent same allowed
  simp only [Store.update, ahead.sound'.store.locate?_of_mem there
    (Collection.mem_ids.mpr (.inr inside)), there] at updated
  obtain rfl := (Prod.mk.inj updated).2
  rw [after] at rewritten' ⊢
  have distinct : (s.deferred.map Deferred.id).Nodup := by
    refine List.Nodup.of_map EntityId.raw ?_
    rw [List.map_map]
    exact ahead.sound.waiting_nodup
  have stocked := ahead.stocked.rewrite distinct waits same absent there own here
  have sequences' : (t.store.modifyCollection a fun _ =>
      { c' with pending.ids := c'.pending.ids.setIfInBounds row (change d.id) }).sequences =
      t.store.sequences :=
    Store.sequences_modifyCollection_of_eq _ there rfl
  refine { ahead with
    sound := rewritten.sound
    sound' := rewritten'.sound
    stocked
    names := sequences'.trans ahead.names
    apart := fun e listed => ?_ }
  rcases List.mem_or_eq_of_mem_set listed with old | rfl
  · exact ahead.apart e old
  · exact ahead.apart d member

/-! ### Changes that concern no entity -/

theorem of_locks (ahead : Ahead ids names s t) (locks : LockTable) :
    Ahead ids names { s with locks } { t with locks } :=
  { ahead with
    sound := (Grows.of_keeps (t := { s with locks }) ahead.sound
      (.refl ahead.sound.store) rfl rfl rfl).sound
    sound' := (Grows.of_keeps (t := { t with locks }) ahead.sound'
      (.refl ahead.sound'.store) rfl rfl rfl).sound
    locks := rfl }

theorem of_destroys (ahead : Ahead ids names s t) (requests : List EntityId) :
    Ahead ids names { s with destroys := requests } { t with destroys := requests } :=
  { ahead with
    sound := (Grows.of_keeps (t := { s with destroys := requests }) ahead.sound
      (.refl ahead.sound.store) rfl rfl rfl).sound
    sound' := (Grows.of_keeps (t := { t with destroys := requests }) ahead.sound'
      (.refl ahead.sound'.store) rfl rfl rfl).sound
    destroys := rfl }

theorem of_memory (ahead : Ahead ids names s t) (memory : σ) :
    Ahead ids names { s with memory } { t with memory } :=
  { ahead with
    sound := (Grows.of_keeps (t := { s with memory }) ahead.sound
      (.refl ahead.sound.store) rfl rfl rfl).sound
    sound' := (Grows.of_keeps (t := { t with memory }) ahead.sound'
      (.refl ahead.sound'.store) rfl rfl rfl).sound
    memory := rfl }

end Ahead

end Shared

/-- The program does not ask which archetypes there are, and leaves these definitions alone. -/
def Heard.Blind (ids : List DefinitionId) : Heard (Access.interface σ) → Prop
  | ⟨.find .., _⟩ | ⟨.findKinds .., _⟩ | ⟨.collection _, _⟩ | ⟨.inspect, _⟩ => False
  -- Reading and editing are for archetypes that are there.
  | ⟨.read a _ _, answer⟩ => answer ≠ .error (.unknownArchetype a)
  | ⟨.edit a _ _ _, answer⟩ => answer ≠ .error (.unknownArchetype a)
  | ⟨.create d, _⟩ => d ∉ ids
  | ⟨.kindOf _, _⟩ | ⟨.entities _, _⟩ | ⟨.entity _, _⟩ | ⟨.createWith _, _⟩ | ⟨.destroy _, _⟩
  | ⟨.lock _, _⟩ | ⟨.lockTable, _⟩ | ⟨.exchange _, _⟩ | ⟨.log _, _⟩ => True

instance (ids : List DefinitionId) : (h : Heard (Access.interface σ)) → Decidable (h.Blind ids)
  | ⟨.find .., _⟩ | ⟨.findKinds .., _⟩ | ⟨.collection _, _⟩ | ⟨.inspect, _⟩ => isFalse id
  | ⟨.read .., .ok _⟩ | ⟨.edit .., .ok _⟩ => isTrue nofun
  | ⟨.read a _ _, .error cause⟩ | ⟨.edit a _ _ _, .error cause⟩ =>
    decidable_of_iff (cause ≠ .unknownArchetype a) (not_congr ⟨congrArg _, Except.error.inj⟩)
  | ⟨.create d, _⟩ => inferInstanceAs (Decidable (d ∉ ids))
  | ⟨.kindOf _, _⟩ | ⟨.entities _, _⟩ | ⟨.entity _, _⟩ | ⟨.createWith _, _⟩ | ⟨.destroy _, _⟩
  | ⟨.lock _, _⟩ | ⟨.lockTable, _⟩ | ⟨.exchange _, _⟩ | ⟨.log _, _⟩ => isTrue trivial

namespace Shared

variable {ids : List DefinitionId} {names : List Sequence} {s t : Shared σ}

/-- Whatever an update asks for is answered alike. -/
theorem Ahead.perform (ahead : Ahead ids names s t) (command : Access.Request σ)
    (blind : Heard.Blind ids ⟨command, (Access.perform command s).value.1⟩)
    (order : (Access.perform command s).value.2.discovered <+: names) :
    (Access.perform command t).value.1 = (Access.perform command s).value.1 ∧
      Ahead ids names (Access.perform command s).value.2 (Access.perform command t).value.2 := by
  cases command with
  | find | findKinds | collection | inspect => exact absurd blind id
  | kindOf type => exact ⟨congrArg (Registry.kindOf? · type) ahead.registry, ahead⟩
  | entities a =>
    refine ⟨?_, ahead⟩
    change ((t.store.collection? a).map fun c => c.current.ids).getD #[] =
      ((s.store.collection? a).map fun c => c.current.ids).getD #[]
    cases here : s.store.collection? a with
    | some c =>
      obtain ⟨c', there, filled⟩ := ahead.collection? here
      rw [there, Option.map_some, filled.current]
      rfl
    | none =>
      cases there : t.store.collection? a with
      | none => rfl
      | some c' =>
        -- What is made early has no current row yet.
        obtain ⟨c, bound, filled⟩ := ahead.stocked.new a c' here there
        obtain ⟨columns, -, empty, -⟩ := Collection.columns_of_bound bound
        rw [Option.map_some, filled.current, empty]
        rfl
  | entity raw => exact ⟨ahead.entity? raw, ahead⟩
  | create d => exact ahead.create blind
  | createWith types => exact ahead.createWith order
  | destroy id =>
    simp only [Access.perform, ahead.destroys]
    exact ⟨rfl, ahead.of_destroys _⟩
  | read a kind type =>
    refine ⟨?_, ahead⟩
    cases here : s.store.collection? a with
    | some c =>
      obtain ⟨c', there, filled⟩ := ahead.collection? here
      simp only [Access.perform, here, there]
      rw [filled.eq]
      rfl
    | none =>
      refine absurd ?_ blind
      simp only [Access.perform, here]
      rfl
  | edit a kind type change => exact ahead.edit blind
  | lock call =>
    simp only [Access.perform, ahead.locks, Logged.value_bind]
    exact ⟨rfl, ahead.of_locks _⟩
  | lockTable => exact ⟨ahead.locks, ahead⟩
  | exchange change =>
    simp only [Access.perform, ahead.memory]
    exact ⟨rfl, ahead.of_memory _⟩
  | log event => exact ⟨rfl, ahead⟩

/-! ### What a program discovers -/

theorem discovered_place (s : Shared σ) (a : ArchetypeId) : (s.place a).2.discovered = s.discovered := by
  unfold place
  split
  · rfl
  next id allocator handed =>
    have sequences := s.store.sequences_create a id
    match created : s.store.create a id with
    | (.ok (), store) | (.error cause, store) =>
      rw [created] at sequences
      exact congrArg (discover · s.deferred) sequences

theorem discovered_defer (s : Shared σ) (sequence : Sequence) :
    s.discovered <+: (s.defer sequence).2.discovered := by
  unfold defer
  split
  · exact List.prefix_refl _
  · simp only [discovered, discover_append]
    exact prefix_discover _ _

theorem discovered_edit (s : Shared σ) (a : ArchetypeId) (kind : Kind) (type : StoredType)
    (change : Nat → Nat → Row → Row) : (s.edit a kind type change).2.discovered = s.discovered := by
  cases here : s.store.collection? a with
  | none =>
    unfold edit
    rw [here]
  | some c =>
    rw [Ahead.edit_of_collection here]
    split
    · rfl
    · split
      · rfl
      next rows read after edited =>
        exact congrArg (discover · s.deferred)
          (Store.sequences_modifyCollection_of_eq _ here (Collection.sequence_edit edited))

/-- Sequences are met one after another, and none is forgotten. -/
theorem discovered_perform (s : Shared σ) (command : Access.Request σ) :
    s.discovered <+: (Access.perform command s).value.2.discovered := by
  cases command with
  | create d =>
    simp only [Access.perform, create]
    split
    · exact List.prefix_refl _
    · split
      · exact s.discovered_place _ ▸ List.prefix_refl _
      · exact List.prefix_refl _
  | createWith types =>
    simp only [Access.perform, createWith]
    split
    · exact List.prefix_refl _
    · split
      · exact List.prefix_refl _
      · split
        · exact s.discovered_place _ ▸ List.prefix_refl _
        · exact s.discovered_defer _
  | edit a kind type change => exact s.discovered_edit a kind type change ▸ List.prefix_refl _
  | _ => exact List.prefix_refl _

theorem discovered_run {α : Type} (s : Shared σ) (program : Program (Access.interface σ) α) :
    s.discovered <+: (program.run Access.perform s).value.2.discovered :=
  Program.run_preserves (P := fun t : Shared σ => s.discovered <+: t.discovered)
    (fun command _ t met => met.trans (t.discovered_perform command)) (Program.only_true program)
    (List.prefix_refl _)

/-- A whole program is answered alike. -/
theorem Ahead.run {α : Type} {program : Program (Access.interface σ) α} (ahead : Ahead ids names s t)
    (blind : ∀ h ∈ program.heard Access.perform s, h.Blind ids)
    (order : (program.run Access.perform s).value.2.discovered <+: names) :
    (program.run Access.perform t).value.1 = (program.run Access.perform s).value.1 ∧
      program.heard Access.perform t = program.heard Access.perform s ∧
      Ahead ids names (program.run Access.perform s).value.2
        (program.run Access.perform t).value.2 := by
  induction program generalizing s t with
  | done value => exact ⟨rfl, rfl, ahead⟩
  | call command next ih =>
    rw [Program.value_run_call] at order ⊢
    rw [Program.value_run_call]
    -- What the first command discovers is some of what the whole program does.
    obtain ⟨answer, ahead'⟩ := ahead.perform command (blind _ List.mem_cons_self)
      ((discovered_run _ _).trans order)
    simp only [Program.heard, answer]
    obtain ⟨value, heard, after⟩ := ih _ ahead'
      (fun h member => blind h (List.mem_cons_of_mem _ member)) order
    exact ⟨value, by rw [heard], after⟩

end Shared

end EntityWorld
