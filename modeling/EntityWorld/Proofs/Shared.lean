import EntityWorld.Proofs.Archetype.Store
import EntityWorld.Proofs.Component.Registry
import EntityWorld.Proofs.Entity.Allocator
import EntityWorld.Proofs.Program

/-!
# What updates share

`Sound` ties the allocator to the entities: a raw id is out exactly if one entity, stored or waiting,
has it. Whatever an update asks for keeps this, and it changes the entities in one way only: new ones
appear, under raw ids that nobody had.
-/
namespace EntityWorld.Shared

variable {σ : Type} {s t u : Shared σ} {id next x y : EntityId} {raw : Nat}

/-- Every entity: those in rows, and those that wait for a collection. -/
def ids (s : Shared σ) : List EntityId := s.store.ids ++ s.deferred.map Deferred.id

structure Sound (s : Shared σ) : Prop where
  registry : s.registry.Sound
  store : s.store.WellFormed
  allocator : s.allocator.WellFormed
  distinct : (s.ids.map EntityId.raw).Nodup
  bindable : ∀ d ∈ s.deferred, ∃ c, Collection.unbound.bind s.registry d.sequence = .ok c
  out : ∀ raw, s.allocator.Out raw ↔ ∃ x ∈ s.ids, x.raw = raw

theorem mem_ids : x ∈ s.ids ↔ x ∈ s.store.ids ∨ ∃ d ∈ s.deferred, d.id = x := by
  simp [ids]

theorem sound_ofRegistry {registry : Registry} {memory : σ} (sound : registry.Sound) :
    (ofRegistry registry memory).Sound where
  registry := sound
  store := Store.wellFormed_empty
  allocator := IdAllocator.wellFormed_full
  distinct := .nil
  bindable := by simp [ofRegistry]
  out := by
    intro raw
    have none : ¬ ∃ x ∈ (ofRegistry registry memory).ids, x.raw = raw := by
      rintro ⟨x, member, -⟩
      cases member
    exact iff_of_false IdAllocator.not_out_full none

namespace Sound

variable (sound : s.Sound)
include sound

theorem eq_of_raw (first : x ∈ s.ids) (second : y ∈ s.ids) (same : x.raw = y.raw) : x = y :=
  List.inj_on_of_nodup_map sound.distinct first second same

theorem stored_nodup : (s.store.ids.map EntityId.raw).Nodup := sound.store.nodup

/-- An entity that waits is not stored. -/
theorem not_stored {d : Deferred} (member : d ∈ s.deferred) : ∀ x ∈ s.store.ids, x.raw ≠ d.id.raw := by
  intro x stored
  have distinct := sound.distinct
  rw [ids, List.map_append, List.nodup_append] at distinct
  exact distinct.2.2 x.raw (List.mem_map_of_mem stored) d.id.raw
    (List.mem_map_of_mem (List.mem_map_of_mem member))

theorem waiting_nodup : (s.deferred.map fun d => d.id.raw).Nodup := by
  have distinct := sound.distinct
  rw [ids, List.map_append, List.nodup_append, List.map_map] at distinct
  exact distinct.2.1

theorem deferred?_eq_some_iff {d : Deferred} :
    s.deferred? raw = some d ↔ d ∈ s.deferred ∧ d.id.raw = raw := by
  constructor
  · intro found
    exact ⟨List.mem_of_find?_eq_some found, by simpa using List.find?_some found⟩
  · rintro ⟨member, same⟩
    cases found : s.deferred? raw with
    | none => exact absurd same (by simpa using List.find?_eq_none.mp found d member)
    | some other =>
      have equal : other.id.raw = raw := by simpa using List.find?_some found
      have := List.inj_on_of_nodup_map sound.waiting_nodup (List.mem_of_find?_eq_some found) member
        (equal.trans same.symm)
      rw [this]

theorem entity?_eq_some_iff : s.entity? raw = some id ↔ id ∈ s.ids ∧ id.raw = raw := by
  rw [entity?, Option.or_eq_some_iff, sound.store.entity?_eq_some_iff, Option.map_eq_some_iff, mem_ids]
  simp only [sound.deferred?_eq_some_iff]
  constructor
  · rintro (⟨stored, same⟩ | ⟨-, d, ⟨member, same⟩, rfl⟩)
    · exact ⟨.inl stored, same⟩
    · exact ⟨.inr ⟨d, member, rfl⟩, same⟩
  · rintro ⟨stored | ⟨d, member, rfl⟩, same⟩
    · exact .inl ⟨stored, same⟩
    · -- The store is asked first, and it does not know what waits.
      refine .inr ⟨sound.store.entity?_eq_none_iff.mpr fun x stored equal => ?_, d, ⟨member, same⟩, rfl⟩
      exact sound.not_stored member x stored (equal.trans same.symm)

theorem entity?_of_mem (member : x ∈ s.ids) : s.entity? x.raw = some x :=
  sound.entity?_eq_some_iff.mpr ⟨member, rfl⟩

end Sound

/-! ### What callbacks can do -/

/-- New entities may have appeared; nothing else has happened to any of them. -/
structure Grows (s t : Shared σ) : Prop where
  sound : t.Sound
  registry : t.registry = s.registry
  kept : ∀ x ∈ s.ids, x ∈ t.ids
  new : ∀ x ∈ t.ids, x ∈ s.ids ∨ (x.life = .register ∧ ∀ y ∈ s.ids, y.raw ≠ x.raw)
  plain : ∀ x ∈ t.ids, x ∈ s.ids ∨ x.flags = 0
  current : ∀ x, t.store.Current x ↔ s.store.Current x

namespace Grows

theorem refl (sound : s.Sound) : Grows s s :=
  ⟨sound, rfl, fun _ member => member, fun _ member => .inl member, fun _ member => .inl member,
    fun _ => .rfl⟩

theorem trans (first : Grows s t) (second : Grows t u) : Grows s u where
  sound := second.sound
  registry := second.registry.trans first.registry
  kept := fun x member => second.kept x (first.kept x member)
  new := by
    intro x member
    rcases second.new x member with old | ⟨life, fresh⟩
    · exact first.new x old
    · exact .inr ⟨life, fun y there => fresh y (first.kept y there)⟩
  plain := fun x member => (second.plain x member).elim (first.plain x) .inr
  current := fun x => (second.current x).trans (first.current x)

/-- Other fields than the entities, the allocator and the registry do not matter. -/
theorem of_keeps (sound : s.Sound) (store : Store.Keeps s.store t.store)
    (registry : t.registry = s.registry)
    (allocator : t.allocator = s.allocator) (deferred : t.deferred = s.deferred) : Grows s t := by
  have same (x : EntityId) : x ∈ t.ids ↔ x ∈ s.ids := by
    rw [mem_ids, mem_ids, store.mem_ids, deferred]
  refine ⟨⟨?_, store.wellFormed, ?_, ?_, ?_, ?_⟩, registry, fun x => (same x).mpr,
    fun x member => .inl ((same x).mp member), fun x member => .inl ((same x).mp member),
    store.current⟩
  · rw [registry]
    exact sound.registry
  · rw [allocator]
    exact sound.allocator
  · rw [ids, deferred, List.map_append, List.nodup_append]
    have distinct := sound.distinct
    rw [ids, List.map_append, List.nodup_append] at distinct
    refine ⟨store.wellFormed.nodup, distinct.2.1, fun a stored b waiting => ?_⟩
    obtain ⟨x, member, rfl⟩ := List.mem_map.mp stored
    exact distinct.2.2 _ (List.mem_map_of_mem (store.mem_ids.mp member)) b waiting
  · rw [deferred, registry]
    exact sound.bindable
  · intro raw
    rw [allocator, sound.out]
    simp only [same]

theorem of_store (sound : s.Sound) {store : Store} (keeps : Store.Keeps s.store store) :
    Grows s { s with store } :=
  of_keeps sound keeps rfl rfl rfl

end Grows

/-- A raw id that is not out belongs to nobody. -/
private theorem fresh_of_unused (sound : s.Sound) (bound : raw < rawBound)
    (unused : ¬ s.allocator.Out raw) : ∀ y ∈ s.ids, y.raw ≠ (EntityId.ofRaw raw).raw := by
  intro y member same
  rw [EntityId.raw_ofRaw_of_lt bound] at same
  exact unused ((sound.out raw).mpr ⟨y, member, same⟩)

/-- One entity appears under a raw id that was not out. -/
private theorem grows_of_new {allocator : IdAllocator} {store : Store} {deferred : List Deferred}
    (sound : s.Sound) (stored : store.WellFormed) (books : allocator.WellFormed)
    (fresh : ∀ y ∈ s.ids, y.raw ≠ id.raw) (life : id.life = .register) (plain : id.flags = 0)
    (out : ∀ other, allocator.Out other ↔ s.allocator.Out other ∨ other = id.raw)
    (current : ∀ x, store.Current x ↔ s.store.Current x)
    (perm : (store.ids ++ deferred.map Deferred.id).Perm (id :: s.ids))
    (bindable : ∀ d ∈ deferred, ∃ c, Collection.unbound.bind s.registry d.sequence = .ok c) :
    Grows s { s with allocator, store, deferred } := by
  refine ⟨⟨sound.registry, stored, books, ?_, bindable, fun raw => ?_⟩, rfl, fun x member => ?_,
    fun x member => ?_, fun x member => ?_, current⟩
  · refine (perm.map EntityId.raw).nodup_iff.mpr
      (List.nodup_cons.mpr ⟨fun member => ?_, sound.distinct⟩)
    obtain ⟨y, there, same⟩ := List.mem_map.mp member
    exact fresh y there same
  · rw [out, sound.out]
    simp only [ids, perm.mem_iff, List.mem_cons, exists_eq_or_imp]
    constructor
    · rintro (⟨x, member, same⟩ | rfl)
      · exact .inr ⟨x, member, same⟩
      · exact .inl rfl
    · rintro (same | ⟨x, member, same⟩)
      · exact .inr same.symm
      · exact .inl ⟨x, member, same⟩
  · exact perm.mem_iff.mpr (List.mem_cons_of_mem id member)
  · rcases List.mem_cons.mp (perm.mem_iff.mp member) with rfl | old
    · exact .inr ⟨life, fresh⟩
    · exact .inl old
  · rcases List.mem_cons.mp (perm.mem_iff.mp member) with rfl | old
    · exact .inr plain
    · exact .inl old

theorem grows_place (sound : s.Sound) (a : ArchetypeId) : Grows s (s.place a).2 := by
  unfold place
  rcases IdAllocator.allocate_spec sound.allocator with
    ⟨cause, allocated⟩ | ⟨raw, allocator, allocated, books, positive, bound, unused, out⟩
  · rw [allocated]
    exact .refl sound
  · have same := EntityId.raw_ofRaw_of_lt bound
    have fresh := fresh_of_unused sound bound unused
    rw [allocated]
    simp only
    cases here : s.store.collection? a with
    | none =>
      -- The id goes straight back, and the books are as before.
      have handed : allocator.Out (EntityId.ofRaw raw).raw := by
        rw [same]
        exact (out raw).mpr (.inr rfl)
      obtain ⟨allocator', released, books', out'⟩ := IdAllocator.release_spec .strict books handed
      simp only [Store.create, here, released]
      refine ⟨⟨sound.registry, sound.store, books', sound.distinct, sound.bindable, fun other => ?_⟩,
        rfl, fun _ member => member, fun _ member => .inl member, fun _ member => .inl member,
        fun _ => .rfl⟩
      refine Iff.trans ?_ (sound.out other)
      rw [out', out, same]
      constructor
      · rintro ⟨old | new, different⟩
        · exact old
        · exact absurd new different
      · intro old
        refine ⟨.inl old, ?_⟩
        rintro rfl
        exact unused old
    | some c =>
      -- The entity is new in the pending rows, and everything else is where it was.
      obtain ⟨store, created, stored, current, pending⟩ :=
        Store.create_spec _ sound.store here fun x member => fresh x (mem_ids.mpr (.inl member))
      simp only [created]
      have added : store.ids.Perm (.ofRaw raw :: s.store.ids) := by
        refine (List.perm_ext_iff_of_nodup stored.nodup.of_map (List.nodup_cons.mpr
          ⟨fun member => fresh _ (mem_ids.mpr (.inl member)) rfl,
            sound.stored_nodup.of_map⟩)).mpr fun x => ?_
        rw [Store.mem_ids, current, pending, List.mem_cons, Store.mem_ids]
        tauto
      exact grows_of_new sound stored books fresh (EntityId.life_ofRaw raw) (EntityId.flags_ofRaw raw)
        (by rwa [same]) current (added.append_right _) sound.bindable

theorem grows_defer (sound : s.Sound) {sequence : Sequence}
    (bindable : ∃ c, Collection.unbound.bind s.registry sequence = .ok c) :
    Grows s (s.defer sequence).2 := by
  unfold defer
  rcases IdAllocator.allocate_spec sound.allocator with
    ⟨cause, allocated⟩ | ⟨raw, allocator, allocated, books, positive, bound, unused, out⟩
  · rw [allocated]
    exact .refl sound
  · have same := EntityId.raw_ofRaw_of_lt bound
    have fresh := fresh_of_unused sound bound unused
    rw [allocated]
    -- It waits at the end of the queue, for a collection that can be bound.
    refine grows_of_new sound sound.store books fresh (EntityId.life_ofRaw raw)
      (EntityId.flags_ofRaw raw) (by rwa [same]) (fun _ => .rfl) ?_ ?_
    · rw [List.map_append, ← List.append_assoc]
      exact List.perm_append_comm
    · intro d member
      rcases List.mem_append.mp member with old | new
      · exact sound.bindable d old
      · obtain rfl := List.mem_singleton.mp new
        exact bindable

theorem grows_create (sound : s.Sound) (d : DefinitionId) : Grows s (s.create d).2 := by
  unfold create
  split
  · exact .refl sound
  · split
    · exact grows_place sound _
    · exact .refl sound

theorem grows_createWith (sound : s.Sound) (types : List TypeId) :
    Grows s (s.createWith types).2 := by
  unfold createWith
  split
  · exact .refl sound
  next sequence found =>
    split
    · exact .refl sound
    next nonempty =>
      split
      · exact grows_place sound _
      · exact grows_defer sound (sound.registry.bindable found (by simpa using nonempty))

theorem grows_edit (sound : s.Sound) (a : ArchetypeId) (kind : Kind) (type : StoredType)
    (change : Nat → Nat → Row → Row) : Grows s (s.edit a kind type change).2 := by
  unfold edit
  split
  · exact .refl sound
  next collection here =>
    dsimp only
    split
    · exact .refl sound
    next size edited outcome =>
      simp only [bind, Except.bind, pure, Except.pure] at outcome
      split at outcome
      · cases outcome
      next rows read =>
        split at outcome
        · cases outcome
        next after changed =>
          cases outcome
          obtain ⟨kept, keyed, current, pending⟩ :=
            Collection.edit_spec (sound.store.collections a collection here) changed
          exact .of_store sound (Store.keeps_modify _ sound.store here keyed kept current
            (congrArg Generation.ids pending))

/-- Whatever an update asks for, the entities there are stay as they are. -/
theorem grows_perform (sound : s.Sound) (command : Access.Request σ) :
    Grows s (Access.perform command s).value.2 := by
  have same (t : Shared σ) (store : t.store = s.store) (registry : t.registry = s.registry)
      (allocator : t.allocator = s.allocator) (deferred : t.deferred = s.deferred) : Grows s t :=
    .of_keeps sound (by rw [store]; exact .refl sound.store) registry allocator deferred
  -- Queries answer, and locks, destroys and the memory concern no entity yet.
  cases command with
  | create d => exact grows_create sound d
  | createWith types => exact grows_createWith sound types
  | edit a kind type change => exact grows_edit sound a kind type change
  | _ => exact same _ rfl rfl rfl rfl

theorem grows_run {α : Type} (sound : s.Sound) (program : Program (Access.interface σ) α) :
    Grows s (program.run Access.perform s).value.2 :=
  Program.run_preserves (P := Grows s) (fun command _ _ grown =>
    grown.trans (grows_perform grown.sound command))
    (Program.only_true program) (.refl sound)

/-! ### Overwriting an entity -/

/-- The entity with this raw id is in a current generation. -/
def IsCurrent (s : Shared σ) (raw : Nat) : Prop := ∃ x, s.store.Current x ∧ x.raw = raw

/-- The entity with this raw id is in a row. -/
def IsStored (s : Shared σ) (raw : Nat) : Prop := ∃ x, s.store.entity? raw = some x

theorem IsCurrent.known (current : s.IsCurrent raw) (sound : s.Sound) :
    ∃ x, s.entity? raw = some x := by
  obtain ⟨x, inside, same⟩ := current
  exact ⟨x, sound.entity?_eq_some_iff.mpr ⟨mem_ids.mpr (.inl (Store.mem_ids.mpr (.inl inside))), same⟩⟩

namespace Grows

theorem entity?_of_some (grown : Grows s t) (sound : s.Sound) (found : s.entity? raw = some x) :
    t.entity? raw = some x := by
  obtain ⟨member, same⟩ := sound.entity?_eq_some_iff.mp found
  exact grown.sound.entity?_eq_some_iff.mpr ⟨grown.kept x member, same⟩

theorem old_or_new (grown : Grows s t) (sound : s.Sound) (found : t.entity? raw = some x) :
    s.entity? raw = some x ∨ (s.entity? raw = none ∧ x.life = .register) := by
  obtain ⟨member, same⟩ := grown.sound.entity?_eq_some_iff.mp found
  rcases grown.new x member with old | ⟨life, fresh⟩
  · exact .inl (sound.entity?_eq_some_iff.mpr ⟨old, same⟩)
  · refine .inr ⟨Option.eq_none_iff_forall_ne_some.mpr fun y there => ?_, life⟩
    obtain ⟨held, equal⟩ := sound.entity?_eq_some_iff.mp there
    exact fresh y held (equal.trans same.symm)

theorem isCurrent (grown : Grows s t) : t.IsCurrent raw ↔ s.IsCurrent raw := by
  simp only [IsCurrent, grown.current]

end Grows

/-- One entity was overwritten where it is. -/
structure Rewritten (s t : Shared σ) (id next : EntityId) : Prop where
  sound : t.Sound
  entity? : ∀ raw, t.entity? raw = if raw = id.raw then some next else s.entity? raw
  current : ∀ raw, t.IsCurrent raw ↔ s.IsCurrent raw
  stored : ∀ raw, t.IsStored raw ↔ s.IsStored raw

theorem isStored_iff (wf : s.store.WellFormed) : s.IsStored raw ↔ ∃ x ∈ s.store.ids, x.raw = raw := by
  simp only [IsStored, wf.entity?_eq_some_iff]

theorem IsCurrent.isStored (current : s.IsCurrent raw) (wf : s.store.WellFormed) : s.IsStored raw := by
  obtain ⟨x, inside, same⟩ := current
  exact (isStored_iff wf).mpr ⟨x, Store.mem_ids.mpr (.inl inside), same⟩

/-- What the new state has under each raw id. -/
private theorem entity?_of_replaced (sound : s.Sound) (sound' : t.Sound) (held : id ∈ s.ids)
    (same : next.raw = id.raw)
    (replaced : ∀ x, x ∈ t.ids ↔ (x ∈ s.ids ∧ x ≠ id) ∨ (x = next ∧ id ∈ s.ids))
    (raw : Nat) : t.entity? raw = if raw = id.raw then some next else s.entity? raw := by
  split
  next at_ =>
    exact sound'.entity?_eq_some_iff.mpr ⟨(replaced next).mpr (.inr ⟨rfl, held⟩), same.trans at_.symm⟩
  next apart =>
    refine Option.ext fun x => ?_
    rw [sound'.entity?_eq_some_iff, sound.entity?_eq_some_iff, replaced]
    constructor
    · rintro ⟨⟨old, -⟩ | ⟨rfl, -⟩, equal⟩
      · exact ⟨old, equal⟩
      · exact absurd (equal.symm.trans same) apart
    · rintro ⟨old, equal⟩
      refine ⟨.inl ⟨old, ?_⟩, equal⟩
      rintro rfl
      exact apart equal.symm

theorem rewritten_of_update (next : EntityId) (sound : s.Sound) (held : id ∈ s.store.ids)
    (same : next.raw = id.raw)
    (allowed : id.life.Reaches next.life) :
    ∃ store, s.store.update id next = (.ok (), store) ∧ Rewritten s { s with store } id next := by
  obtain ⟨store, updated, kept, current, pending⟩ := Store.update_spec sound.store held same allowed
  have replaced (x : EntityId) :
      x ∈ store.ids ↔ (x ∈ s.store.ids ∧ x ≠ id) ∨ (x = next ∧ id ∈ s.store.ids) := by
    simp only [Store.mem_ids, current, pending]
    tauto
  have raws (raw : Nat) : (∃ x ∈ store.ids, x.raw = raw) ↔ ∃ x ∈ s.store.ids, x.raw = raw :=
    Collection.raws_of_replaced same replaced
  have perm : (store.ids.map EntityId.raw).Perm (s.store.ids.map EntityId.raw) :=
    (List.perm_ext_iff_of_nodup kept.nodup sound.stored_nodup).mpr fun raw => by
      simpa only [List.mem_map] using raws raw
  have ids : (({ s with store } : Shared σ).ids.map EntityId.raw).Perm (s.ids.map EntityId.raw) := by
    rw [Shared.ids, Shared.ids, List.map_append, List.map_append]
    exact perm.append_right _
  have held' : id ∈ s.ids := mem_ids.mpr (.inl held)
  have sound' : ({ s with store } : Shared σ).Sound :=
    ⟨sound.registry, kept, sound.allocator, ids.nodup_iff.mpr sound.distinct, sound.bindable,
      fun raw => by
      rw [sound.out, ← List.mem_map, ← List.mem_map, ids.mem_iff]⟩
  refine ⟨store, updated, sound', entity?_of_replaced sound sound' held' same fun x => ?_,
    fun raw => ?_,
    fun raw => ?_⟩
  · rw [mem_ids, mem_ids, replaced]
    constructor
    · rintro ((⟨old, different⟩ | ⟨rfl, -⟩) | ⟨d, waiting, rfl⟩)
      · exact .inl ⟨.inl old, different⟩
      · exact .inr ⟨rfl, held'⟩
      · refine .inl ⟨.inr ⟨d, waiting, rfl⟩, ?_⟩
        rintro rfl
        exact sound.not_stored waiting _ held rfl
    · rintro (⟨old | waiting, different⟩ | ⟨rfl, -⟩)
      · exact .inl (.inl ⟨old, different⟩)
      · exact .inr waiting
      · exact .inl (.inr ⟨rfl, held⟩)
  · exact Collection.raws_of_replaced same current
  · rw [isStored_iff sound.store, isStored_iff kept, raws]

/-- Changing the id of an entity that waits changes one entry of the queue. -/
theorem modifyDeferred_eq {d : Deferred} (change : EntityId → EntityId) (sound : s.Sound)
    (found : s.deferred? raw = some d) :
    ∃ place, s.deferred[place]? = some d ∧ s.modifyDeferred raw change =
      { s with deferred := s.deferred.set place { d with id := change d.id } } := by
  obtain ⟨member, same⟩ := sound.deferred?_eq_some_iff.mp found
  unfold modifyDeferred
  cases index : s.deferred.findIdx? fun entry => entry.id.raw = raw with
  | none => exact absurd same (by simpa using List.findIdx?_eq_none_iff.mp index d member)
  | some place =>
    obtain ⟨inside, satisfied, -⟩ := List.findIdx?_eq_some_iff_getElem.mp index
    have equal : s.deferred[place] = d :=
      List.inj_on_of_nodup_map sound.waiting_nodup (List.getElem_mem inside) member
        ((by simpa using satisfied : s.deferred[place].id.raw = raw).trans same.symm)
    refine ⟨place, by rw [List.getElem?_eq_getElem inside, equal], ?_⟩
    simp only [List.modify_eq_set_getElem?, List.getElem?_eq_getElem inside, equal]
    rfl

theorem rewritten_modifyDeferred {d : Deferred} (change : EntityId → EntityId) (sound : s.Sound)
    (found : s.deferred? raw = some d) (same : (change d.id).raw = d.id.raw) :
    Rewritten s (s.modifyDeferred raw change) d.id (change d.id) := by
  obtain ⟨place, here, changed⟩ := modifyDeferred_eq change sound found
  have member : d ∈ s.deferred := List.mem_of_getElem? here
  rw [changed]
  have raws : (s.deferred.set place { d with id := change d.id }).map (fun e => e.id.raw) =
      s.deferred.map fun e => e.id.raw := map_set_of_eq here same
  have ids : ({ s with
      deferred := s.deferred.set place { d with id := change d.id } } : Shared σ).ids.map
      EntityId.raw = s.ids.map EntityId.raw := by
    rw [Shared.ids, Shared.ids, List.map_append, List.map_append, List.map_map, List.map_map]
    exact congrArg (s.store.ids.map EntityId.raw ++ ·) raws
  have sound' : ({ s with
      deferred := s.deferred.set place { d with id := change d.id } } : Shared σ).Sound := by
    refine ⟨sound.registry, sound.store, sound.allocator, ?_, fun e waiting => ?_, fun raw => ?_⟩
    · rw [ids]
      exact sound.distinct
    · rcases List.mem_or_eq_of_mem_set waiting with old | rfl
      · exact sound.bindable e old
      · exact sound.bindable d member
    · rw [sound.out, ← List.mem_map, ← List.mem_map, ids]
  have held : d.id ∈ s.ids := mem_ids.mpr (.inr ⟨d, member, rfl⟩)
  refine ⟨sound', entity?_of_replaced sound sound' held same fun x => ?_, fun _ => .rfl, fun _ => .rfl⟩
  rw [mem_ids, mem_ids]
  simp only [mem_set_iff _ sound.waiting_nodup.of_map here]
  -- Entries that differ have different raw ids, so the changed one is the only one with its id.
  constructor
  · rintro (stored | ⟨e, ⟨waiting, different⟩ | rfl, rfl⟩)
    · refine .inl ⟨.inl stored, ?_⟩
      rintro rfl
      exact sound.not_stored member _ stored rfl
    · refine .inl ⟨.inr ⟨e, waiting, rfl⟩, fun equal => different ?_⟩
      exact List.inj_on_of_nodup_map sound.waiting_nodup waiting member (congrArg EntityId.raw equal)
    · exact .inr ⟨rfl, held⟩
  · rintro (⟨stored | ⟨e, waiting, rfl⟩, different⟩ | ⟨rfl, -⟩)
    · exact .inl stored
    · exact .inr ⟨e, .inl ⟨waiting, fun equal => different (congrArg Deferred.id equal)⟩, rfl⟩
    · exact .inr ⟨_, .inr rfl, rfl⟩

end EntityWorld.Shared
