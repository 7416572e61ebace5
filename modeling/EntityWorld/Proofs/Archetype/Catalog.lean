import EntityWorld.Proofs.Archetype.Index
import EntityWorld.Proofs.Archetype.Stock
import EntityWorld.Proofs.Component.Registry

/-!
# The catalog

What queries see of a store is its catalog: the sequences of its collections and the index over them.
Unless the index is marked as stale, a query by types answers as a look at every archetype. Nothing but
making a collection changes the catalog, and that marks the index. Main statements: `findTypes_eq` and
`Made.catalogued`.
-/
namespace EntityWorld

namespace Registry

variable {r : Registry} {sequences : List Sequence} {wanted unwanted : List TypeId} {type : TypeId}
  {a : ArchetypeId}

/-- The component type is registered, and its kind is in the sequence. -/
def lists (r : Registry) (s : Sequence) (type : TypeId) : Bool :=
  (r.kindOf? type).any (s.kinds.contains ·)

/-- The archetypes that contain every wanted type and no unwanted type, found by looking at each of
them. Naming nothing finds nothing. -/
def scan (r : Registry) (sequences : List Sequence) (wanted unwanted : List TypeId) :
    List ArchetypeId :=
  if wanted.isEmpty then []
  else
    (sequences.zipIdx.filter fun each =>
      wanted.all (r.lists each.1) && !unwanted.any (r.lists each.1)).map fun each => ⟨each.2⟩

theorem mem_scan : a ∈ r.scan sequences wanted unwanted ↔ wanted ≠ [] ∧
    ∃ s, sequences[a.index]? = some s ∧ (∀ type ∈ wanted, r.lists s type = true) ∧
      ∀ type ∈ unwanted, r.lists s type = false := by
  unfold scan
  split
  next empty => simp_all
  next named =>
    have named : wanted ≠ [] := by simpa using named
    simp only [ArchetypeIndex.mem_archetypes_filter (p := fun s => wanted.all (r.lists s) &&
      !unwanted.any (r.lists s)), Bool.and_eq_true, List.all_eq_true, Bool.not_eq_true',
      List.any_eq_false, Bool.not_eq_true, named, ne_eq, not_false_eq_true, true_and]

/-- Nobody contains a type that is not registered. -/
theorem scan_of_unregistered (member : type ∈ wanted) (unknown : r.kindOf? type = none) :
    r.scan sequences wanted unwanted = [] := by
  refine List.eq_nil_iff_forall_not_mem.mpr fun a found => ?_
  obtain ⟨-, s, -, all, -⟩ := mem_scan.mp found
  have listed := all type member
  rw [lists, unknown] at listed
  cases listed

theorem kindOf?_of_kindsOf {kinds : List Kind} (found : r.kindsOf wanted = .ok kinds) :
    wanted.map r.kindOf? = kinds.map some := by
  obtain ⟨known, rfl⟩ := kindsOf_eq_ok_iff.mp found
  rw [firstUnknown_eq_none_iff] at known
  induction wanted with
  | nil => rfl
  | cons type rest ih =>
    obtain ⟨first, later⟩ := List.forall_mem_cons.mp known
    obtain ⟨kind, named⟩ := Option.isSome_iff_exists.mp first
    rw [List.map_cons, List.filterMap_cons_some named, List.map_cons, named,
      ih later (kindsOf_of_known (firstUnknown_eq_none_iff.mpr later))]

theorem unregistered_of_kindsOf {cause : RegistryError} (failed : r.kindsOf wanted = .error cause) :
    ∃ type ∈ wanted, r.kindOf? type = none ∧ cause = .unknownType type := by
  obtain ⟨type, first, rfl⟩ := kindsOf_eq_error_iff.mp failed
  exact ⟨type, List.mem_of_find?_eq_some first, by simpa using List.find?_some first, rfl⟩

/-- Looking by type is looking by kind. -/
theorem scan_kinds {kinds : List Kind} (found : r.kindsOf wanted = .ok kinds)
    (sequences : List Sequence) (unwanted : List TypeId) :
    ArchetypeIndex.scan sequences kinds (unwanted.filterMap r.kindOf?) =
      r.scan sequences wanted unwanted := by
  have named := kindOf?_of_kindsOf found
  have empty : kinds.isEmpty = wanted.isEmpty := by
    rw [← List.isEmpty_map (f := some), ← named, List.isEmpty_map]
  have all (s : Sequence) : kinds.all (s.kinds.contains ·) = wanted.all (r.lists s) := by
    have both := congrArg (List.all · fun k => k.any (s.kinds.contains ·)) named
    simp only [List.all_map] at both
    exact both.symm
  have none (s : Sequence) : (unwanted.filterMap r.kindOf?).any (s.kinds.contains ·) =
      unwanted.any (r.lists s) := by
    rw [List.any_filterMap]
    refine congrArg _ (funext fun type => ?_)
    unfold lists
    cases r.kindOf? type <;> rfl
  simp only [ArchetypeIndex.scan, ArchetypeIndex.matching, scan, empty, all, none]

end Registry

namespace Store

variable {registry : Registry} {s t u : Store} {a : ArchetypeId} {sequence : Sequence}

/-- Queries see the same, and definitions are bound to the same archetypes. -/
structure SameCatalog (s t : Store) : Prop where
  sequences : t.sequences = s.sequences
  bySequence : t.bySequence = s.bySequence
  index : t.index = s.index
  dirty : t.dirty = s.dirty
  bound : ∀ d, (t.definition? d).map DefinitionSlot.archetype =
    (s.definition? d).map DefinitionSlot.archetype

namespace SameCatalog

theorem refl (s : Store) : SameCatalog s s := ⟨rfl, rfl, rfl, rfl, fun _ => rfl⟩

theorem trans (first : SameCatalog s t) (second : SameCatalog t u) : SameCatalog s u where
  sequences := second.sequences.trans first.sequences
  bySequence := second.bySequence.trans first.bySequence
  index := second.index.trans first.index
  dirty := second.dirty.trans first.dirty
  bound := fun d => (second.bound d).trans (first.bound d)

theorem find (same : SameCatalog s t) (wanted unwanted : List Kind) :
    t.find wanted unwanted = s.find wanted unwanted := by
  rw [Store.find, Store.find, same.index]

end SameCatalog

theorem sameCatalog_modifyCollection (change : Collection → Collection)
    (kept : ∀ c, s.collection? a = some c → (change c).sequence = c.sequence) :
    SameCatalog s (s.modifyCollection a change) :=
  ⟨sequences_modifyCollection change kept, rfl, rfl, rfl, fun _ => rfl⟩

theorem sameCatalog_create (s : Store) (a : ArchetypeId) (id : EntityId) :
    SameCatalog s (s.create a id).2 := by
  have sequences := s.sequences_create a id
  unfold create at sequences ⊢
  split
  · exact .refl s
  next c here =>
    simp only [here] at sequences
    exact ⟨sequences, rfl, rfl, rfl, fun _ => rfl⟩

theorem sameCatalog_update (s : Store) (id next : EntityId) : SameCatalog s (s.update id next).2 := by
  unfold update
  split
  · exact .refl s
  · split
    · exact .refl s
    next a located c here =>
      refine sameCatalog_modifyCollection _ fun d found => ?_
      obtain rfl := Option.some.inj (here.symm.trans found)
      exact c.sequence_update id next

theorem sameCatalog_setLoadState (s : Store) (d : DefinitionId) (state : LoadState) :
    SameCatalog s (s.setLoadState d state).2 := by
  unfold setLoadState
  split
  · exact .refl s
  next slot found =>
    refine ⟨rfl, rfl, rfl, rfl, fun other => ?_⟩
    simp only [definition?, getElem?_insert_nat]
    split
    next same =>
      unfold definition? at found
      rw [← same, found]
      rfl
    next => rfl

theorem sameCatalog_commitFrom (rest position : Nat) (s : Store) (report : CommitReport) :
    SameCatalog s (commitFrom rest position s report).2 := by
  refine related_commitFrom SameCatalog.refl (fun _ _ _ => SameCatalog.trans) ?_ rest position s report
  intro s a c locations here
  exact ⟨sequences_modifyCollection_of_eq (fun _ => c.commit.2) here c.sequence_commit, rfl, rfl,
    rfl, fun _ => rfl⟩

theorem sameCatalog_commit (s : Store) : SameCatalog s s.commit.value.2 := by
  rw [value_commit]
  exact sameCatalog_commitFrom s.collections.size 0 s .empty

/-! ### What the index knows -/

/-- Collections are found through their sequences and are for registered kinds, definitions are bound to
some of them, and the index knows all of them unless it is marked as stale. -/
structure Catalogued (s : Store) (registry : Registry) : Prop where
  keyed : s.Keyed
  known : ∀ sequence ∈ s.sequences, ∀ k ∈ sequence.kinds,
    ArchetypeIndex.Within registry.kindCount k
  housed : ∀ d slot, s.definition? d = some slot → slot.archetype.index < s.sequences.length
  answers : s.dirty = false → ∀ wanted unwanted,
    s.find wanted unwanted = ArchetypeIndex.scan s.sequences wanted unwanted

theorem catalogued_empty (registry : Registry) : empty.Catalogued registry where
  keyed := keyed_empty
  known := nofun
  housed := by
    intro d slot found
    simp [definition?, empty] at found
  answers := by
    intro _ wanted unwanted
    have nobody : ArchetypeIndex.scan empty.sequences wanted unwanted = [] := ite_self []
    rw [nobody]
    simp only [find, ArchetypeIndex.find]
    split
    next lowest highest first last =>
      -- There are no rows at all.
      have missing : ((Sequence.ofList wanted).kinds.any fun kind =>
          (empty.index.entries? kind).isNone) = true := by
        refine List.any_eq_true.mpr ⟨lowest, Sequence.min_mem first, ?_⟩
        unfold ArchetypeIndex.entries?
        split <;> rfl
      rw [if_pos missing]
    next => rfl

theorem Catalogued.of_same (catalogued : s.Catalogued registry) (same : SameCatalog s t) :
    t.Catalogued registry where
  keyed := catalogued.keyed.of_same same.bySequence same.sequences
  known := same.sequences ▸ catalogued.known
  housed := by
    intro d slot found
    have bound := same.bound d
    rw [found, Option.map_some] at bound
    obtain ⟨slot', found', same'⟩ := Option.map_eq_some_iff.mp bound.symm
    rw [same.sequences, ← same']
    exact catalogued.housed d slot' found'
  answers := by
    intro clean wanted unwanted
    rw [same.dirty] at clean
    rw [same.find, same.sequences, catalogued.answers clean]

theorem within_of_type? {k : Kind} {type : StoredType} (known : registry.type? k = some type) :
    ArchetypeIndex.Within registry.kindCount k := by
  simp only [Registry.type?] at known
  by_cases invalid : k.isInvalid = true
  · simp [invalid] at known
  · rw [if_neg invalid] at known
    obtain ⟨inside, -⟩ := Array.getElem?_eq_some_iff.mp known
    simp only [Kind.isInvalid, beq_iff_eq] at invalid
    constructor
    · omega
    · unfold Registry.kindCount
      omega

theorem within_of_buildColumns {kinds : List Kind} {columns : List Column}
    (built : Collection.buildColumns registry kinds = .ok columns) :
    ∀ k ∈ kinds, ArchetypeIndex.Within registry.kindCount k := by
  intro k member
  obtain ⟨types, known, -⟩ := Collection.exists_types_of_buildColumns built
  have found : registry.type? k ∈ types.map some := known ▸ List.mem_map_of_mem member
  obtain ⟨type, -, same⟩ := List.mem_map.mp found
  exact within_of_type? same.symm

/-- Where a collection is found, the catalog stays as it is; where one is made, the index is marked. -/
theorem Made.catalogued (made : Made registry s sequence a t) (catalogued : s.Catalogued registry) :
    t.Catalogued registry ∧ (t.dirty = false → SameCatalog s t) := by
  cases made with
  | found known => exact ⟨catalogued, fun _ => .refl s⟩
  | @pushed c fresh bound =>
    have sequences := (Made.pushed fresh bound).sequences
    rw [if_neg fresh] at sequences
    refine ⟨⟨catalogued.keyed.push fresh bound, ?_, ?_, nofun⟩, nofun⟩ <;> rw [sequences]
    · intro other member k inside
      rcases List.mem_append.mp member with old | new
      · exact catalogued.known other old k inside
      · obtain ⟨-, columns, built, -⟩ := Collection.bind_ok bound
        rw [List.mem_singleton.mp new] at inside
        exact within_of_buildColumns built k inside
    · intro d slot found
      rw [List.length_append]
      exact Nat.lt_add_right _ (catalogued.housed d slot found)

theorem Catalogued.registerDefinition (catalogued : s.Catalogued registry)
    (definition : EntityDefinition) :
    (s.registerDefinition registry definition).value.2.Catalogued registry := by
  have keyed := catalogued.keyed.registerDefinition registry definition
  rcases s.registerDefinition_spec catalogued.keyed registry definition with
    ⟨cause, failed⟩ | ⟨sequence, a, s₁, c, definitions, made, here, done⟩
  · rw [failed]
    exact catalogued
  · obtain ⟨catalogued₁, -⟩ := made.catalogued catalogued
    have same := sequences_modifyCollection_of_eq (fun _ => { c with definitions }) here rfl
    rw [done] at keyed ⊢
    refine ⟨keyed, ?_, ?_, nofun⟩
    · change ∀ sequence ∈ (s₁.modifyCollection a fun _ => { c with definitions }).sequences, _
      rw [same]
      exact catalogued₁.known
    · intro d slot found
      change slot.archetype.index < (s₁.modifyCollection a fun _ => { c with definitions }).sequences.length
      rw [same]
      simp only [definition?, getElem?_insert_nat] at found
      split at found
      next =>
        -- It is bound to the collection that was found or made for it.
        cases found
        obtain ⟨inside, -⟩ := List.getElem?_eq_some_iff.mp (getElem?_sequences_of_collection here)
        exact inside
      next =>
        rw [← made.definitions] at found
        exact catalogued₁.housed d slot found

theorem archetypes_eq (s : Store) :
    (s.archetypes.map fun (a, c) => (a, c.sequence)) = ArchetypeIndex.numbered s.sequences := by
  simp only [archetypes, ArchetypeIndex.numbered, sequences, List.map_map, List.zipIdx_map]
  rfl

/-- Afterwards the index is not stale. It is rebuilt if it was. -/
theorem Catalogued.refreshIndex (catalogued : s.Catalogued registry) :
    (s.refreshIndex registry.kindCount).value.1 = s.dirty ∧
      (s.refreshIndex registry.kindCount).value.2.Catalogued registry ∧
      (s.refreshIndex registry.kindCount).value.2.dirty = false ∧
      (s.refreshIndex registry.kindCount).value.2.sequences = s.sequences := by
  unfold Store.refreshIndex
  split
  next stale =>
    refine ⟨stale.symm, ⟨catalogued.keyed.of_same rfl rfl, catalogued.known, catalogued.housed,
      fun _ wanted unwanted => ?_⟩, rfl, rfl⟩
    simp only [Logged.value_bind, Logged.value_pure, find, archetypes_eq]
    exact ArchetypeIndex.find_build catalogued.known wanted unwanted
  next clean =>
    have clean := Bool.eq_false_iff.mpr clean
    exact ⟨clean.symm, catalogued, clean, rfl⟩

/-- While the index is not stale, a query by types answers as a look at every archetype. -/
theorem Catalogued.findTypes_eq (catalogued : s.Catalogued registry) (clean : s.dirty = false)
    (wanted unwanted : List TypeId) :
    s.findTypes registry wanted unwanted = registry.scan s.sequences wanted unwanted := by
  unfold findTypes
  split
  next cause failed =>
    obtain ⟨type, member, unknown, -⟩ := Registry.unregistered_of_kindsOf failed
    exact (Registry.scan_of_unregistered member unknown).symm
  next kinds found => rw [catalogued.answers clean, Registry.scan_kinds found]

end Store

end EntityWorld
