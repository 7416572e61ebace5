import EntityWorld.Proofs.Archetype.Catalog
import EntityWorld.Proofs.Archetype.StoreHistory

/-!
# Definitions and their collections

A definition is bound twice: its slot names an archetype, and the collection lists it as attached. The
slot names the archetype of the last registration. The collections list a definition wherever it was
ever registered, so both agree as long as a definition keeps its components. Main statement:
`bindings_of_history`.
-/
namespace EntityWorld

namespace Collection

variable {c : Collection} {d : DefinitionId}

theorem mem_definitionsWith {definition : DefinitionId} :
    d ∈ c.definitionsWith definition ↔ d ∈ c.definitions ∨ d = definition := by
  unfold definitionsWith
  split
  next there => exact ⟨.inl, fun either => either.elim id fun same => same ▸ there⟩
  next => simp

theorem nodup_definitionsWith (definition : DefinitionId) (once : c.definitions.Nodup) :
    (c.definitionsWith definition).Nodup := by
  unfold definitionsWith
  split
  · exact once
  next fresh => exact List.nodup_append.mpr ⟨once, List.nodup_singleton _, by
      rintro d there _ new rfl
      exact fresh (List.mem_singleton.mp new ▸ there)⟩

theorem definitions_commit (c : Collection) : c.commit.2.definitions = c.definitions := by
  unfold commit
  split
  · rfl
  · split <;> rfl

theorem definitions_update (c : Collection) (id next : EntityId) :
    (c.update id next).2.definitions = c.definitions := by
  unfold update
  split
  · rfl
  · split
    · rfl
    · split
      · rfl
      · split <;> rfl

end Collection

namespace Store

variable {s t u : Store} {registry : Registry} {a b : ArchetypeId} {c : Collection} {d : DefinitionId}
  {sequence : Sequence} {log : List (EntityDefinition × ArchetypeId)}

/-! ### What keeps the bindings -/

/-- The collections list the same definitions, and the slots name the same archetypes. -/
structure SameBindings (s t : Store) : Prop where
  sequences : t.sequences = s.sequences
  attached : ∀ a, (t.collection? a).map Collection.definitions =
    (s.collection? a).map Collection.definitions
  bound : ∀ d, (t.definition? d).map DefinitionSlot.archetype =
    (s.definition? d).map DefinitionSlot.archetype

namespace SameBindings

theorem refl (s : Store) : SameBindings s s := ⟨rfl, fun _ => rfl, fun _ => rfl⟩

theorem trans (first : SameBindings s t) (second : SameBindings t u) : SameBindings s u where
  sequences := second.sequences.trans first.sequences
  attached := fun a => (second.attached a).trans (first.attached a)
  bound := fun d => (second.bound d).trans (first.bound d)

/-- A collection may change, so long as its sequence and its definitions do not. -/
theorem of_modify (change : Collection → Collection) (here : s.collection? a = some c)
    (keyed : (change c).sequence = c.sequence) (kept : (change c).definitions = c.definitions)
    (collections : t.collections = (s.modifyCollection a change).collections)
    (definitions : t.definitions = s.definitions) : SameBindings s t where
  sequences := by
    rw [← sequences_modifyCollection_of_eq change here keyed]
    exact congrArg (fun collections => collections.toList.map Collection.sequence) collections
  attached := by
    intro b
    have same : t.collection? b = (s.modifyCollection a change).collection? b := by
      rw [collection?, collections]
      rfl
    rw [same, collection?_modifyCollection]
    split
    next equal =>
      subst equal
      rw [here, Option.map_some, Option.map_some, Option.map_some, kept]
    next => rfl
  bound := by
    intro d
    rw [definition?, definitions]
    rfl

end SameBindings

theorem sameBindings_commit (s : Store) : SameBindings s s.commit.value.2 := by
  rw [value_commit]
  refine related_commitFrom SameBindings.refl (fun _ _ _ => SameBindings.trans) ?_ _ _ s .empty
  intro s a c locations here
  exact .of_modify (fun _ => c.commit.2) here c.sequence_commit c.definitions_commit rfl rfl

theorem sameBindings_create (s : Store) (a : ArchetypeId) (id : EntityId) :
    SameBindings s (s.create a id).2 := by
  unfold create
  split
  · exact .refl s
  next c here => exact .of_modify (·.create id) here rfl rfl rfl rfl

theorem sameBindings_update (s : Store) (id next : EntityId) :
    SameBindings s (s.update id next).2 := by
  unfold update
  split
  · exact .refl s
  · split
    · exact .refl s
    next a located c here =>
      exact .of_modify (fun _ => (c.update id next).2) here (c.sequence_update id next)
        (c.definitions_update id next) rfl rfl

theorem sameBindings_setLoadState (s : Store) (d : DefinitionId) (state : LoadState) :
    SameBindings s (s.setLoadState d state).2 := by
  have same := sameCatalog_setLoadState s d state
  refine ⟨same.sequences, fun a => ?_, same.bound⟩
  unfold setLoadState
  split <;> rfl

theorem sameBindings_refreshIndex (s : Store) (kindCount : Nat) :
    SameBindings s (s.refreshIndex kindCount).value.2 := by
  unfold refreshIndex
  split
  · exact ⟨rfl, fun _ => rfl, fun _ => rfl⟩
  · exact .refl s

/-! ### Registrations -/

/-- The definition that a call registers, and where. -/
def registration? (s : Store) : Call → Option (EntityDefinition × ArchetypeId)
  | .registerDefinition registry definition =>
    (s.registerDefinition registry definition).value.1.toOption.map (definition, ·)
  | _ => none

/-- The registrations of some calls, first to last. -/
def registrations : Store → List Call → List (EntityDefinition × ArchetypeId)
  | _, [] => []
  | s, call :: rest => (s.registration? call).toList ++ (s.perform call).registrations rest

/-- The archetype that a definition was last registered with. -/
def lastOf (log : List (EntityDefinition × ArchetypeId)) (d : DefinitionId) :
    Option (EntityDefinition × ArchetypeId) :=
  (log.filter fun each => each.1.id = d).getLast?

theorem lastOf_concat (log : List (EntityDefinition × ArchetypeId))
    (each : EntityDefinition × ArchetypeId) (d : DefinitionId) :
    lastOf (log ++ [each]) d = if each.1.id = d then some each else lastOf log d := by
  unfold lastOf
  rw [List.filter_append]
  split
  next same => simp [same]
  next other => simp [other]

theorem mem_of_lastOf {each : EntityDefinition × ArchetypeId} (last : lastOf log d = some each) :
    each ∈ log ∧ each.1.id = d := by
  have member := List.mem_filter.mp (List.mem_of_getLast? last)
  exact ⟨member.1, of_decide_eq_true member.2⟩

theorem exists_lastOf {each : EntityDefinition × ArchetypeId} (member : each ∈ log) :
    ∃ last, lastOf log each.1.id = some last :=
  Option.isSome_iff_exists.mp (List.getLast?_isSome.mpr (List.ne_nil_of_mem
    (List.mem_filter.mpr ⟨member, decide_eq_true rfl⟩)))

/-- How the slots and the collections come from the registrations there were. -/
structure Bindings (registry : Registry) (log : List (EntityDefinition × ArchetypeId)) (s : Store) :
    Prop where
  housed : ∀ each ∈ log, ∃ sequence, registry.sequenceOf each.1.components = .ok sequence ∧
    s.sequences[each.2.index]? = some sequence
  attached : ∀ a c, s.collection? a = some c → ∀ d,
    d ∈ c.definitions ↔ ∃ each ∈ log, each.1.id = d ∧ each.2 = a
  once : ∀ a c, s.collection? a = some c → c.definitions.Nodup
  slot : ∀ d, (s.definition? d).map DefinitionSlot.archetype = (lastOf log d).map Prod.snd

theorem bindings_empty (registry : Registry) : Bindings registry [] empty where
  housed := nofun
  attached := fun a c found => by simp [collection?, empty] at found
  once := fun a c found => by simp [collection?, empty] at found
  slot := fun d => by simp [definition?, empty, lastOf]

theorem Bindings.of_same (bindings : Bindings registry log s) (same : SameBindings s t) :
    Bindings registry log t := by
  have earlier {a c} (found : t.collection? a = some c) :
      ∃ c', s.collection? a = some c' ∧ c'.definitions = c.definitions := by
    have listed := same.attached a
    rw [found, Option.map_some] at listed
    exact Option.map_eq_some_iff.mp listed.symm
  refine ⟨same.sequences ▸ bindings.housed,
    fun a c found => ?_, fun a c found => ?_, fun d => (same.bound d).trans (bindings.slot d)⟩
  · obtain ⟨c', here, equal⟩ := earlier found
    rw [← equal]
    exact bindings.attached a c' here
  · obtain ⟨c', here, equal⟩ := earlier found
    rw [← equal]
    exact bindings.once a c' here

theorem Made.getElem?_sequences {i : Nat} (made : Made registry s sequence a t) {other : Sequence}
    (here : s.sequences[i]? = some other) : t.sequences[i]? = some other := by
  obtain ⟨inside, -⟩ := List.getElem?_eq_some_iff.mp here
  rw [made.sequences]
  split
  · exact here
  · rw [List.getElem?_append_left inside]
    exact here

/-- A collection that is made has nothing attached. -/
theorem Bindings.of_made (bindings : Bindings registry log s) (made : Made registry s sequence a t) :
    Bindings registry log t := by
  have before (b : ArchetypeId) (c : Collection) (found : t.collection? b = some c) :
      s.collection? b = some c ∨ s.collection? b = none ∧ c.definitions = [] := by
    rcases made.collection?_eq b with old | ⟨absent, -, c', new, bound⟩
    · exact .inl (old ▸ found)
    · obtain rfl := Option.some.inj (new.symm.trans found)
      obtain ⟨-, columns, -, rfl⟩ := Collection.bind_ok bound
      exact .inr ⟨absent, rfl⟩
  refine ⟨fun each member => ?_, fun b c found => ?_, fun b c found => ?_, fun d => ?_⟩
  · obtain ⟨sequence, listed, here⟩ := bindings.housed each member
    exact ⟨sequence, listed, made.getElem?_sequences here⟩
  · rcases before b c found with here | ⟨absent, none⟩
    · exact bindings.attached b c here
    · intro d
      rw [none]
      refine iff_of_false List.not_mem_nil ?_
      rintro ⟨each, member, -, rfl⟩
      obtain ⟨sequence, -, here⟩ := bindings.housed each member
      obtain ⟨c', there, -⟩ := exists_collection here
      rw [absent] at there
      cases there
  · rcases before b c found with here | ⟨-, none⟩
    · exact bindings.once b c here
    · exact none ▸ .nil
  · rw [definition?, made.definitions]
    exact bindings.slot d

/-- A registration attaches the definition to the collection for its components and lets its slot name
that collection; other collections and other slots stay as they are. -/
theorem Bindings.registerDefinition (bindings : Bindings registry log s) (keyed : s.Keyed)
    (definition : EntityDefinition) :
    Bindings registry (log ++ (s.registration? (.registerDefinition registry definition)).toList)
      (s.registerDefinition registry definition).value.2 := by
  simp only [registration?]
  rcases s.registerDefinition_attached keyed registry definition with
    ⟨cause, failed⟩ | ⟨sequence, a, s₁, c, listed, made, here, done⟩
  · rw [failed]
    simpa [Except.toOption] using bindings
  · rw [done]
    simp only [Except.toOption, Option.map_some, Option.toList_some]
    obtain ⟨c', there, own⟩ := made.collection?_self
    obtain rfl := Option.some.inj (here.symm.trans there)
    have after := bindings.of_made made
    have sequences := sequences_modifyCollection_of_eq
      (fun _ => { c with definitions := c.definitionsWith definition.id }) here rfl
    refine ⟨fun each member => ?_, fun b e found => ?_, fun b e found => ?_, fun d => ?_⟩
    · change ∃ sequence, _ ∧ (s₁.modifyCollection a _).sequences[each.2.index]? = some sequence
      rw [sequences]
      rcases List.mem_append.mp member with old | new
      · exact after.housed each old
      · rw [List.mem_singleton.mp new]
        exact ⟨sequence, listed, own ▸ getElem?_sequences_of_collection here⟩
    · intro d
      change (s₁.modifyCollection a _).collection? b = some e at found
      rw [collection?_modifyCollection] at found
      simp only [List.mem_append, List.mem_singleton, or_and_right, exists_or, exists_eq_left]
      split at found
      next same =>
        subst same
        rw [here] at found
        cases found
        rw [Collection.mem_definitionsWith, after.attached a c here]
        simp only [and_true, eq_comm]
      next apart =>
        rw [after.attached b e found]
        simp only [apart, and_false, or_false]
    · change (s₁.modifyCollection a _).collection? b = some e at found
      rw [collection?_modifyCollection] at found
      split at found
      next same =>
        subst same
        rw [here] at found
        cases found
        exact Collection.nodup_definitionsWith definition.id (after.once a c here)
      next => exact after.once b e found
    · have slots := bindings.slot d
      simp only [definition?, getElem?_insert_nat, lastOf_concat] at slots ⊢
      by_cases same : definition.id = d
      · simp only [same, if_true, Option.map_some]
      · have apart : definition.id.key ≠ d.key := fun equal =>
          same (by cases definitionId : definition.id; cases d; simp_all)
        simp only [if_neg same, if_neg apart, slots]

/-- The call is one on the store itself, with this registry if it takes one. -/
def Call.Uses (registry : Registry) : Call → Prop
  | .getOrCreate other _ | .registerDefinition other _ => other = registry
  | .on _ _ => False
  | _ => True

theorem Bindings.silent {call : Call} (bindings : Bindings registry log t)
    (none : s.registration? call = none) :
    Bindings registry (log ++ (s.registration? call).toList) t := by
  rw [none, Option.toList_none, List.append_nil]
  exact bindings

theorem Bindings.perform (bindings : Bindings registry log s) (keyed : s.Keyed) {call : Call}
    (uses : call.Uses registry) :
    Bindings registry (log ++ (s.registration? call).toList) (s.perform call) := by
  cases call with
  | getOrCreate other sequence =>
    obtain rfl : other = registry := uses
    refine Bindings.silent ?_ rfl
    exact keyed.of_getOrCreate bindings fun _ _ made => bindings.of_made made
  | registerDefinition other definition =>
    obtain rfl : other = registry := uses
    exact bindings.registerDefinition keyed definition
  | setLoadState d state => exact (bindings.of_same (s.sameBindings_setLoadState d state)).silent rfl
  | create a id => exact (bindings.of_same (s.sameBindings_create a id)).silent rfl
  | update id next => exact (bindings.of_same (s.sameBindings_update id next)).silent rfl
  | commit => exact (bindings.of_same s.sameBindings_commit).silent rfl
  | refreshIndex kindCount =>
    exact (bindings.of_same (s.sameBindings_refreshIndex kindCount)).silent rfl
  | on a call => exact uses.elim

theorem Bindings.play (bindings : Bindings registry log s) (keyed : s.Keyed) (calls : List Call)
    (uses : ∀ call ∈ calls, call.Uses registry) :
    Bindings registry (log ++ s.registrations calls) (s.play calls) := by
  induction calls generalizing s log with
  | nil => simpa [registrations, Store.play] using bindings
  | cons call rest ih =>
    rw [registrations, ← List.append_assoc]
    exact ih (bindings.perform keyed (uses call List.mem_cons_self)) (keyed.perform call)
      fun later member => uses later (List.mem_cons_of_mem call member)

/-! ### Slots and attachments -/

/-- The slot of the definition names this archetype. -/
def Names (s : Store) (d : DefinitionId) (a : ArchetypeId) : Prop :=
  (s.definition? d).map DefinitionSlot.archetype = some a

/-- The definition is attached to the collection of an archetype. -/
def Attached (s : Store) (d : DefinitionId) (a : ArchetypeId) : Prop :=
  ∃ c, s.collection? a = some c ∧ d ∈ c.definitions

/-- Whenever the definition was registered, its components came to the same sequence. -/
def Steady (registry : Registry) (log : List (EntityDefinition × ArchetypeId)) (d : DefinitionId) :
    Prop :=
  ∀ first ∈ log, ∀ second ∈ log, first.1.id = d → second.1.id = d →
    registry.sequenceOf first.1.components = registry.sequenceOf second.1.components

theorem Bindings.attached_iff (bindings : Bindings registry log s) :
    s.Attached d a ↔ ∃ each ∈ log, each.1.id = d ∧ each.2 = a := by
  constructor
  · rintro ⟨c, here, listed⟩
    exact (bindings.attached a c here d).mp listed
  · rintro ⟨each, member, same, rfl⟩
    obtain ⟨sequence, -, known⟩ := bindings.housed each member
    obtain ⟨c, here, -⟩ := exists_collection known
    exact ⟨c, here, (bindings.attached _ c here d).mpr ⟨each, member, same, rfl⟩⟩

theorem Bindings.names_iff (bindings : Bindings registry log s) :
    s.Names d a ↔ ∃ each, lastOf log d = some each ∧ each.2 = a := by
  rw [Names, bindings.slot]
  exact Option.map_eq_some_iff

/-- Two registrations are with the same collection if the components come to the same sequence. -/
theorem Bindings.archetype_eq_iff (bindings : Bindings registry log s) (keyed : s.Keyed)
    {first second : EntityDefinition × ArchetypeId} (member : first ∈ log) (member' : second ∈ log) :
    first.2 = second.2 ↔
      registry.sequenceOf first.1.components = registry.sequenceOf second.1.components := by
  obtain ⟨sequence, listed, known⟩ := bindings.housed first member
  obtain ⟨sequence', listed', known'⟩ := bindings.housed second member'
  rw [listed, listed', Except.ok.injEq]
  constructor
  · intro same
    rw [same] at known
    exact Option.some.inj (known.symm.trans known')
  · rintro rfl
    obtain ⟨c, here, own⟩ := exists_collection known
    obtain ⟨c', there, own'⟩ := exists_collection known'
    exact keyed.place_unique here there (own.trans own'.symm)

/-- Slots and attachments agree on a definition exactly if its components always came to the same
sequence. -/
theorem Bindings.agree_iff (bindings : Bindings registry log s) (keyed : s.Keyed)
    (d : DefinitionId) :
    (∀ a, s.Attached d a ↔ s.Names d a) ↔ Steady registry log d := by
  simp only [bindings.attached_iff, bindings.names_iff]
  constructor
  · intro agree first member second member' same same'
    obtain ⟨last, isLast, equal⟩ := (agree first.2).mp ⟨first, member, same, rfl⟩
    obtain ⟨last', isLast', equal'⟩ := (agree second.2).mp ⟨second, member', same', rfl⟩
    obtain rfl := Option.some.inj (isLast.symm.trans isLast')
    exact (bindings.archetype_eq_iff keyed member member').mp (equal.symm.trans equal')
  · intro steady a
    constructor
    · rintro ⟨each, member, rfl, rfl⟩
      obtain ⟨last, isLast⟩ := exists_lastOf member
      obtain ⟨member', same⟩ := mem_of_lastOf isLast
      exact ⟨last, isLast, (bindings.archetype_eq_iff keyed member' member).mpr
        (steady last member' each member same rfl)⟩
    · rintro ⟨last, isLast, rfl⟩
      obtain ⟨member, same⟩ := mem_of_lastOf isLast
      exact ⟨last, member, same, rfl⟩

/-- What the slots and the collections of a store say about the registrations there were. -/
structure Bound (registry : Registry) (log : List (EntityDefinition × ArchetypeId)) (s : Store) :
    Prop where
  -- The slot is there from the first registration on, and names the collection of the last one.
  slot : ∀ d, (s.definition? d).map DefinitionSlot.archetype = (lastOf log d).map Prod.snd
  named : ∀ d a, s.Names d a → ∃ each c, lastOf log d = some each ∧ s.collection? a = some c ∧
    registry.sequenceOf each.1.components = .ok c.sequence ∧ d ∈ c.definitions
  once : ∀ a c, s.collection? a = some c → c.definitions.Nodup
  -- Nothing is ever detached.
  attached : ∀ d a, s.Attached d a ↔ ∃ each ∈ log, each.1.id = d ∧ each.2 = a
  agree : ∀ d, (∀ a, s.Attached d a ↔ s.Names d a) ↔ Steady registry log d

/-- After any calls with one registry, the slot of a definition names the collection for the components
it was last registered with, and it is attached there, once. It is attached elsewhere exactly if it was
registered with components of another sequence before. -/
theorem bindings_of_history (registry : Registry) (calls : List Call)
    (uses : ∀ call ∈ calls, call.Uses registry) :
    Bound registry (empty.registrations calls) (empty.play calls) := by
  have bindings := (bindings_empty registry).play keyed_empty calls uses
  rw [List.nil_append] at bindings
  refine ⟨bindings.slot, fun d a names => ?_, bindings.once, fun d a => bindings.attached_iff,
    bindings.agree_iff (keyed_empty.play calls)⟩
  obtain ⟨each, last, rfl⟩ := bindings.names_iff.mp names
  obtain ⟨member, same⟩ := mem_of_lastOf last
  obtain ⟨sequence, listed, known⟩ := bindings.housed each member
  obtain ⟨c, here, rfl⟩ := exists_collection known
  exact ⟨each, c, last, here, listed,
    (bindings.attached _ c here d).mpr ⟨each, member, same, rfl⟩⟩

/-! ### A definition that changes its components -/

/-- A registry of two types. -/
def ageMass : Registry := (Registry.empty.add ⟨⟨1⟩, "Age", [0, 0, 0, 0]⟩).add ⟨⟨2⟩, "Mass", [0]⟩

/-- A definition has an age first, and then a mass instead. -/
def reregistration : List Call :=
  [.registerDefinition ageMass ⟨⟨1⟩, "changing", [⟨1⟩], .unloaded⟩,
    .registerDefinition ageMass ⟨⟨1⟩, "changing", [⟨2⟩], .unloaded⟩]

/-- Its slot names the second collection, and it is still attached to the first. -/
theorem attached_of_reregistration : (∀ call ∈ reregistration, call.Uses ageMass) ∧
    (empty.play reregistration).Names ⟨1⟩ ⟨1⟩ ∧ ¬ (empty.play reregistration).Names ⟨1⟩ ⟨0⟩ ∧
    (empty.play reregistration).Attached ⟨1⟩ ⟨0⟩ := by
  have named : ((empty.play reregistration).definition? ⟨1⟩).map DefinitionSlot.archetype =
      some ⟨1⟩ := by
    decide +kernel
  have listed : ((empty.play reregistration).collection? ⟨0⟩).map Collection.definitions =
      some [⟨1⟩] := by
    decide +kernel
  refine ⟨?_, named, fun other => ?_, ?_⟩
  · simp [reregistration, Call.Uses]
  · cases named.symm.trans other
  · obtain ⟨c, here, definitions⟩ := Option.map_eq_some_iff.mp listed
    exact ⟨c, here, definitions ▸ List.mem_singleton_self _⟩

/-- Then a definition keeps its components, in another order, and one has none. -/
def registerCalls : List Call :=
  .getOrCreate ageMass (.ofList [⟨2⟩, ⟨1⟩]) :: reregistration ++
    [.registerDefinition ageMass ⟨⟨2⟩, "reordered", [⟨1⟩, ⟨2⟩], .loaded⟩, .create ⟨2⟩ (.ofRaw 1),
      .registerDefinition ageMass ⟨⟨3⟩, "empty", [], .loaded⟩, .setLoadState ⟨1⟩ .loaded,
      .registerDefinition ageMass ⟨⟨2⟩, "reordered", [⟨2⟩, ⟨1⟩, ⟨2⟩], .loading⟩, .commit,
      .refreshIndex 2]

theorem bindings_of_registerCalls : (∀ call ∈ registerCalls, call.Uses ageMass) ∧
    (empty.registrations registerCalls).map (fun each => (each.1.id, each.2)) =
      [(⟨1⟩, ⟨1⟩), (⟨1⟩, ⟨2⟩), (⟨2⟩, ⟨0⟩), (⟨2⟩, ⟨0⟩)] ∧
    Bound ageMass (empty.registrations registerCalls) (empty.play registerCalls) := by
  have uses : ∀ call ∈ registerCalls, call.Uses ageMass := by
    simp [registerCalls, reregistration, Call.Uses]
  exact ⟨uses, by decide +kernel, bindings_of_history ageMass registerCalls uses⟩

end Store

end EntityWorld
