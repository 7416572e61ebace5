import EntityWorld.Archetype.Store
import EntityWorld.Proofs.Archetype.Collection

/-!
# The map of sequences

A collection is added to the list and to the map of sequences at once, and no collection changes its
sequence afterwards. So the map names the archetype of a sequence exactly where a collection has it,
which lets the two ways to ask for a collection agree. Main statements: `Made.keyed`,
`made_of_getOrCreate` and `registerDefinition_attached`.
-/
namespace EntityWorld.Store

variable {s t : Store} {registry : Registry} {a b : ArchetypeId} {sequence other : Sequence}
  {c : Collection}

theorem collection?_modifyCollection (change : Collection → Collection) :
    (s.modifyCollection a change).collection? b =
      if a = b then (s.collection? b).map change else s.collection? b := by
  obtain ⟨i⟩ := a
  obtain ⟨j⟩ := b
  simp only [collection?, modifyCollection, Array.getElem?_modify, ArchetypeId.mk.injEq]

theorem collection?_push (b : ArchetypeId) : (s.push sequence c).collection? b =
    if b.index = s.collections.size then some c else s.collection? b := by
  simp only [collection?, push, Array.getElem?_push]

/-! ### Sequences -/

/-- The sequences that there are collections for, in the order of discovery. -/
def sequences (s : Store) : List Sequence := s.collections.toList.map Collection.sequence

theorem getElem?_sequences (s : Store) (a : ArchetypeId) :
    s.sequences[a.index]? = (s.collection? a).map Collection.sequence := by
  simp [sequences, collection?]

theorem getElem?_sequences_of_collection (here : s.collection? a = some c) :
    s.sequences[a.index]? = some c.sequence := by
  rw [getElem?_sequences, here, Option.map_some]

theorem mem_sequences (here : s.collection? a = some c) : c.sequence ∈ s.sequences :=
  List.mem_of_getElem? (getElem?_sequences_of_collection here)

theorem exists_collection (listed : s.sequences[a.index]? = some sequence) :
    ∃ c, s.collection? a = some c ∧ c.sequence = sequence := by
  rw [getElem?_sequences] at listed
  exact Option.map_eq_some_iff.mp listed

theorem sequences_congr
    (same : ∀ a, (t.collection? a).map Collection.sequence =
      (s.collection? a).map Collection.sequence) : t.sequences = s.sequences := by
  refine List.ext_getElem? fun i => ?_
  rw [getElem?_sequences t ⟨i⟩, getElem?_sequences s ⟨i⟩, same]

theorem sequences_modifyCollection (change : Collection → Collection)
    (kept : ∀ c, s.collection? a = some c → (change c).sequence = c.sequence) :
    (s.modifyCollection a change).sequences = s.sequences := by
  refine sequences_congr fun b => ?_
  rw [collection?_modifyCollection]
  split
  next same =>
    subst same
    rw [Option.map_map]
    exact Option.map_congr fun c here => kept c (by simpa using here)
  next => rfl

theorem sequences_modifyCollection_of_eq (change : Collection → Collection)
    (here : s.collection? a = some c) (kept : (change c).sequence = c.sequence) :
    (s.modifyCollection a change).sequences = s.sequences := by
  apply sequences_modifyCollection
  intro d found
  obtain rfl := Option.some.inj (here.symm.trans found)
  exact kept

theorem sequences_create (s : Store) (a : ArchetypeId) (id : EntityId) :
    (s.create a id).2.sequences = s.sequences := by
  unfold create
  split
  · rfl
  · exact sequences_modifyCollection (·.create id) fun _ _ => rfl

theorem sequences_push (s : Store) (sequence : Sequence) (c : Collection) :
    (s.push sequence c).sequences = s.sequences ++ [c.sequence] := by
  simp [sequences, push]

theorem length_sequences (s : Store) : s.sequences.length = s.size := by
  simp [sequences, size]

theorem getElem?_sequences_push {i : Nat} : (s.push sequence c).sequences[i]? = some other ↔
    s.sequences[i]? = some other ∨ i = s.collections.size ∧ c.sequence = other := by
  have length : s.sequences.length = s.collections.size := s.length_sequences
  rw [sequences_push, List.getElem?_append, length]
  split
  next inside => simp only [Nat.ne_of_lt inside, false_and, or_false]
  next outside =>
    have none : s.sequences[i]? = none := List.getElem?_eq_none (by omega)
    rw [none, List.getElem?_singleton]
    grind

/-! ### What the map knows -/

/-- The map knows the sequences of the collections and nothing else. -/
structure Keyed (s : Store) : Prop where
  known : ∀ sequence a, s.archetypeOf? sequence = some a ↔ s.sequences[a.index]? = some sequence
  -- An empty sequence is that of a collection nobody has bound.
  inhabited : ∀ sequence ∈ s.sequences, sequence.isEmpty = false

theorem keyed_empty : empty.Keyed where
  known := by simp [archetypeOf?, empty, sequences]
  inhabited := nofun

theorem archetypeOf?_push : (s.push sequence c).archetypeOf? other =
    if sequence = other then some ⟨s.collections.size⟩ else s.archetypeOf? other := by
  unfold archetypeOf? push
  rw [Std.TreeMap.getElem?_insert]
  simp only [Std.LawfulEqOrd.compare_eq_iff_eq]

namespace Keyed

/-- The map is asked for sequences alone. -/
theorem of_same (keyed : s.Keyed) (bySequence : t.bySequence = s.bySequence)
    (same : t.sequences = s.sequences) : t.Keyed where
  known sequence a := by
    rw [archetypeOf?, bySequence, same]
    exact keyed.known sequence a
  inhabited := same ▸ keyed.inhabited

variable (keyed : s.Keyed)
include keyed

theorem modify (change : Collection → Collection) (here : s.collection? a = some c)
    (kept : (change c).sequence = c.sequence) : (s.modifyCollection a change).Keyed :=
  keyed.of_same rfl (sequences_modifyCollection_of_eq change here kept)

theorem create (a : ArchetypeId) (id : EntityId) : (s.create a id).2.Keyed := by
  refine keyed.of_same ?_ (s.sequences_create a id)
  unfold Store.create
  split <;> rfl

theorem mem_of_archetypeOf? (found : s.archetypeOf? sequence = some a) : sequence ∈ s.sequences :=
  List.mem_of_getElem? ((keyed.known sequence a).mp found)

theorem archetypeOf?_eq_none_iff : s.archetypeOf? sequence = none ↔ sequence ∉ s.sequences := by
  constructor
  · intro unknown member
    obtain ⟨i, here⟩ := List.mem_iff_getElem?.mp member
    have found := (keyed.known sequence ⟨i⟩).mpr here
    rw [unknown] at found
    cases found
  · intro absent
    cases found : s.archetypeOf? sequence with
    | none => rfl
    | some a => exact absurd (keyed.mem_of_archetypeOf? found) absent

/-- Collections of one sequence are one. -/
theorem place_unique {d : Collection} (here : s.collection? a = some c)
    (there : s.collection? b = some d) (same : c.sequence = d.sequence) : a = b := by
  have first := (keyed.known c.sequence a).mpr (getElem?_sequences_of_collection here)
  have second := (keyed.known d.sequence b).mpr (getElem?_sequences_of_collection there)
  rw [same] at first
  exact Option.some.inj (first.symm.trans second)

/-- A sequence that no collection has gets one, and its entry. -/
theorem push (fresh : sequence ∉ s.sequences)
    (bound : Collection.unbound.bind registry sequence = .ok c) : (s.push sequence c).Keyed := by
  have own := (Collection.bind_unbound bound).2.2
  refine ⟨fun other a => ?_, fun other member => ?_⟩
  · rw [archetypeOf?_push, getElem?_sequences_push, own]
    split
    next same =>
      subst same
      constructor
      · rintro found
        exact .inr ⟨congrArg ArchetypeId.index (Option.some.inj found.symm), rfl⟩
      · rintro (old | ⟨last, -⟩)
        · exact absurd (List.mem_of_getElem? old) fresh
        · exact congrArg (some ∘ ArchetypeId.mk) last.symm
    next apart => simp only [keyed.known, apart, and_false, or_false]
  · rw [sequences_push, own] at member
    rcases List.mem_append.mp member with old | new
    · exact keyed.inhabited other old
    · rw [List.mem_singleton.mp new]
      exact (Collection.bind_ok bound).1

end Keyed

/-! ### Asking for a collection -/

/-- How a store comes to have a collection for a sequence. -/
inductive Made (registry : Registry) (s : Store) (sequence : Sequence) :
    ArchetypeId → Store → Prop where
  | found {a : ArchetypeId} (known : s.sequences[a.index]? = some sequence) :
      Made registry s sequence a s
  | pushed {c : Collection} (fresh : sequence ∉ s.sequences)
      (bound : Collection.unbound.bind registry sequence = .ok c) :
      Made registry s sequence ⟨s.collections.size⟩ (s.push sequence c)

/-- Only a sequence that the map does not know gets a new collection. -/
theorem getOrCreate_of_ok (done : (s.getOrCreate registry sequence).value = (.ok a, t)) :
    s.archetypeOf? sequence = some a ∧ t = s ∨
      s.archetypeOf? sequence = none ∧ a = ⟨s.collections.size⟩ ∧
        ∃ c, Collection.unbound.bind registry sequence = .ok c ∧ t = s.push sequence c := by
  unfold getOrCreate at done
  split at done
  next b known =>
    cases done
    exact .inl ⟨known, rfl⟩
  next unknown =>
    split at done
    next => cases done
    next c bound =>
      cases done
      exact .inr ⟨unknown, rfl, c, bound, rfl⟩

theorem made_of_getOrCreate (keyed : s.Keyed)
    (done : (s.getOrCreate registry sequence).value = (.ok a, t)) : Made registry s sequence a t := by
  rcases getOrCreate_of_ok done with ⟨known, rfl⟩ | ⟨unknown, rfl, c, bound, rfl⟩
  · exact .found ((keyed.known sequence a).mp known)
  · exact .pushed (keyed.archetypeOf?_eq_none_iff.mp unknown) bound

theorem getOrCreate_of_error {cause : CollectionError}
    (failed : (s.getOrCreate registry sequence).value = (.error cause, t)) : t = s := by
  unfold getOrCreate at failed
  split at failed
  · cases failed
  · split at failed <;> cases failed
    rfl

/-- Whether the call fails or not: what holds before it, and wherever a collection was found or made,
holds after it. -/
theorem Keyed.of_getOrCreate {P : Store → Prop} (keyed : s.Keyed) (same : P s)
    (made : ∀ a t, Made registry s sequence a t → P t) :
    P (s.getOrCreate registry sequence).value.2 := by
  rcases outcome : (s.getOrCreate registry sequence).value with ⟨cause | a, t⟩
  · rw [getOrCreate_of_error outcome]
    exact same
  · exact made a t (made_of_getOrCreate keyed outcome)

/-- A sequence that can be bound gets a collection. -/
theorem getOrCreate_of_bindable (bindable : ∃ c, Collection.unbound.bind registry sequence = .ok c) :
    ∃ a t, (s.getOrCreate registry sequence).value = (.ok a, t) := by
  obtain ⟨collection, bound⟩ := bindable
  unfold getOrCreate
  split
  next a found => exact ⟨a, s, rfl⟩
  next =>
    simp only [bound, Logged.value_bind, Logged.value_pure]
    exact ⟨_, _, rfl⟩

namespace Made

variable (made : Made registry s sequence a t)
include made

theorem keyed (keyed : s.Keyed) : t.Keyed := by
  cases made with
  | found known => exact keyed
  | pushed fresh bound => exact keyed.push fresh bound

theorem sequences :
    t.sequences = if sequence ∈ s.sequences then s.sequences else s.sequences ++ [sequence] := by
  cases made with
  | found known => rw [if_pos (List.mem_of_getElem? known)]
  | pushed fresh bound => rw [if_neg fresh, sequences_push, (Collection.bind_unbound bound).2.2]

theorem definitions : t.definitions = s.definitions := by
  cases made with
  | found | pushed => rfl

theorem collection?_self : ∃ c, t.collection? a = some c ∧ c.sequence = sequence := by
  cases made with
  | found known => exact exists_collection known
  | @pushed c fresh bound =>
    exact ⟨c, (collection?_push _).trans (if_pos rfl), (Collection.bind_unbound bound).2.2⟩

/-- The collections there were are there, and a new one is an empty one. -/
theorem collection?_eq (b : ArchetypeId) :
    t.collection? b = s.collection? b ∨
      s.collection? b = none ∧ b = a ∧ ∃ c, t.collection? b = some c ∧
        Collection.unbound.bind registry sequence = .ok c := by
  cases made with
  | found known => exact .inl rfl
  | @pushed c fresh bound =>
    rw [collection?_push]
    split
    next last =>
      obtain rfl : b = ⟨s.collections.size⟩ := congrArg ArchetypeId.mk last
      exact .inr ⟨Array.getElem?_eq_none (Nat.le_refl _), rfl, c, rfl, bound⟩
    next => exact .inl rfl

end Made

/-- Once the collection for a definition is there, the definition is bound to it and attached there. The
collection has the sequence it is asked to be bound to, so it does not refuse. -/
theorem registerDefinition_of_getOrCreate {definition : EntityDefinition} (keyed : s.Keyed)
    (listed : registry.sequenceOf definition.components = .ok sequence)
    (found : (s.getOrCreate registry sequence).value = (.ok a, t)) :
    ∃ c, t.collection? a = some c ∧ (s.registerDefinition registry definition).value =
      (.ok a, { t.modifyCollection a fun _ =>
          { c with definitions := c.definitionsWith definition.id } with
        definitions := s.definitions.insert definition.id.key ⟨a, definition.state⟩
        dirty := true }) := by
  have made := made_of_getOrCreate keyed found
  obtain ⟨c, here, rfl⟩ := made.collection?_self
  have bound := (made.keyed keyed).inhabited c.sequence (mem_sequences here)
  refine ⟨c, here, ?_⟩
  simp only [registerDefinition, listed, Logged.value_bind, found, here, Collection.setUp_self bound,
    Logged.value_pure]
  rw [← made.definitions]

theorem registerDefinition_attached (keyed : s.Keyed) (registry : Registry)
    (definition : EntityDefinition) :
    (∃ cause, (s.registerDefinition registry definition).value = (.error cause, s)) ∨
      ∃ sequence a s₁ c, registry.sequenceOf definition.components = .ok sequence ∧
        Made registry s sequence a s₁ ∧ s₁.collection? a = some c ∧
        (s.registerDefinition registry definition).value =
          (.ok a, { s₁.modifyCollection a fun _ =>
              { c with definitions := c.definitionsWith definition.id } with
            definitions := s.definitions.insert definition.id.key ⟨a, definition.state⟩
            dirty := true }) := by
  cases listed : registry.sequenceOf definition.components with
  | error cause =>
    refine .inl ⟨.registry cause, ?_⟩
    simp only [registerDefinition, listed, Logged.value_pure]
  | ok sequence =>
    rcases outcome : (s.getOrCreate registry sequence).value with ⟨cause | a, s₁⟩
    · refine .inl ⟨.collection cause, ?_⟩
      simp only [registerDefinition, listed, Logged.value_bind, outcome, getOrCreate_of_error outcome,
        Logged.value_pure]
    · obtain ⟨c, here, done⟩ := registerDefinition_of_getOrCreate keyed listed outcome
      exact .inr ⟨sequence, a, s₁, c, rfl, made_of_getOrCreate keyed outcome, here, done⟩

theorem registerDefinition_spec (keyed : s.Keyed) (registry : Registry)
    (definition : EntityDefinition) :
    (∃ cause, (s.registerDefinition registry definition).value = (.error cause, s)) ∨
      ∃ sequence a s₁ c definitions, Made registry s sequence a s₁ ∧ s₁.collection? a = some c ∧
        (s.registerDefinition registry definition).value =
          (.ok a, { s₁.modifyCollection a fun _ => { c with definitions } with
            definitions := s.definitions.insert definition.id.key ⟨a, definition.state⟩
            dirty := true }) := by
  rcases s.registerDefinition_attached keyed registry definition with
    failed | ⟨sequence, a, s₁, c, -, made, here, value⟩
  · exact .inl failed
  · exact .inr ⟨sequence, a, s₁, c, _, made, here, value⟩

theorem Keyed.registerDefinition (keyed : s.Keyed) (registry : Registry)
    (definition : EntityDefinition) : (s.registerDefinition registry definition).value.2.Keyed := by
  rcases s.registerDefinition_spec keyed registry definition with
    ⟨cause, value⟩ | ⟨sequence, a, s₁, c, definitions, made, here, value⟩
  · rw [value]
    exact keyed
  · have exchanged := (made.keyed keyed).modify (fun _ => { c with definitions }) here rfl
    rw [value]
    exact exchanged.of_same rfl rfl

end EntityWorld.Store
