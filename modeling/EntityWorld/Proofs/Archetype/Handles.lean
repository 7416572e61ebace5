import EntityWorld.Proofs.Archetype.Bindings

/-!
# Handles

A sequence gets its collection, and with it the next handle, when it is first asked for. From then on
the handle means this sequence and no other handle does, whether the collection was asked for by its
kinds or by a definition. There is a handle for each of `ArchetypeId.bound` collections. Main statement:
`handles_of_history`.
-/
namespace EntityWorld

namespace Store

variable {s t u : Store} {registry : Registry} {a : ArchetypeId} {sequence : Sequence}
  {log : List (Sequence × ArchetypeId)}

/-! ### What is issued -/

/-- The handle that a call answers with, and the sequence it is for. -/
def issued? (s : Store) : Call → Option (Sequence × ArchetypeId)
  | .getOrCreate registry sequence =>
    (s.getOrCreate registry sequence).value.1.toOption.map (sequence, ·)
  | .registerDefinition registry definition =>
    (registry.sequenceOf definition.components).toOption.bind fun sequence =>
      (s.registerDefinition registry definition).value.1.toOption.map (sequence, ·)
  | _ => none

/-- What some calls answer with, first to last. -/
def issues : Store → List Call → List (Sequence × ArchetypeId)
  | _, [] => []
  | s, call :: rest => (s.issued? call).toList ++ (s.perform call).issues rest

/-- The call is one on the store itself, with this registry if it takes one and for as many kinds as
this registry has. -/
def Call.Serves (registry : Registry) : Call → Prop
  | .refreshIndex kindCount => kindCount = registry.kindCount
  | call => call.Uses registry

theorem Call.Serves.uses {call : Call} (serves : call.Serves registry) : call.Uses registry := by
  cases call with
  | refreshIndex => trivial
  | _ => exact serves

/-! ### How the collections come from what was issued -/

/-- The collections are those that were asked for, in the order of the first time. -/
structure Handled (log : List (Sequence × ArchetypeId)) (s : Store) : Prop where
  order : s.sequences = (log.map Prod.fst).eraseDups
  numbered : (log.map Prod.snd).eraseDups = (List.range s.sequences.length).map ArchetypeId.mk
  -- A handle is for the sequence it was asked for with.
  housed : ∀ each ∈ log, s.sequences[each.2.index]? = some each.1

theorem handled_empty : Handled [] empty where
  order := rfl
  numbered := rfl
  housed := nofun

theorem Handled.of_sequences (handled : Handled log s) (same : t.sequences = s.sequences) :
    Handled log t := by
  obtain ⟨order, numbered, housed⟩ := handled
  rw [← same] at order numbered housed
  exact ⟨order, numbered, housed⟩

/-- A collection that is found was issued before, and one that is made gets the next handle. -/
theorem Handled.issued_iff (handled : Handled log s) (made : Made registry s sequence a t) :
    a ∈ log.map Prod.snd ↔ sequence ∈ s.sequences := by
  obtain ⟨i⟩ := a
  rw [← List.mem_eraseDups, handled.numbered]
  cases made with
  | found here => simp [(List.getElem?_eq_some_iff.mp here).1, List.mem_of_getElem? here]
  | pushed fresh bound => simp [fresh, length_sequences, size]

theorem Handled.of_made (handled : Handled log s) (made : Made registry s sequence a t) :
    Handled (log ++ [(sequence, a)]) t := by
  have known : sequence ∈ log.map Prod.fst ↔ sequence ∈ s.sequences := by
    rw [handled.order, List.mem_eraseDups]
  refine ⟨?_, ?_, fun each member => ?_⟩
  · rw [made.sequences, List.map_append, List.map_singleton, eraseDups_concat, ← handled.order]
    simp only [known]
  · rw [List.map_append, List.map_singleton, eraseDups_concat, handled.numbered, made.sequences]
    simp only [handled.issued_iff made]
    split
    · rfl
    next fresh =>
      cases made with
      | found there => exact absurd (List.mem_of_getElem? there) fresh
      | pushed =>
        rw [List.length_append, List.length_singleton, List.range_succ, List.map_append,
          List.map_singleton, length_sequences]
        rfl
  · rcases List.mem_append.mp member with old | new
    · exact made.getElem?_sequences (handled.housed each old)
    · obtain ⟨c, here, own⟩ := made.collection?_self
      rw [List.mem_singleton.mp new, getElem?_sequences_of_collection here, own]

theorem Handled.silent {call : Call} (handled : Handled log s) (none : s.issued? call = none)
    (same : (s.perform call).sequences = s.sequences) :
    Handled (log ++ (s.issued? call).toList) (s.perform call) := by
  rw [none, Option.toList_none, List.append_nil]
  exact handled.of_sequences same

theorem Handled.perform (handled : Handled log s) (keyed : s.Keyed) {call : Call}
    (uses : call.Uses registry) : Handled (log ++ (s.issued? call).toList) (s.perform call) := by
  cases call with
  | getOrCreate other sequence =>
    simp only [issued?, Store.perform]
    rcases outcome : (s.getOrCreate other sequence).value with ⟨cause | a, t⟩
    · simp only [Except.toOption, Option.map_none, Option.toList_none, List.append_nil]
      rw [getOrCreate_of_error outcome]
      exact handled
    · exact handled.of_made (made_of_getOrCreate keyed outcome)
  | registerDefinition other definition =>
    simp only [issued?, Store.perform]
    rcases s.registerDefinition_attached keyed other definition with
      ⟨cause, failed⟩ | ⟨sequence, a, s₁, c, listed, made, here, done⟩
    · rw [failed]
      simpa [Except.toOption] using handled
    · have same := sequences_modifyCollection_of_eq
        (fun _ => { c with definitions := c.definitionsWith definition.id }) here rfl
      rw [done, listed]
      exact (handled.of_made made).of_sequences same
  | setLoadState d state => exact handled.silent rfl (s.sameBindings_setLoadState d state).sequences
  | create a id => exact handled.silent rfl (s.sameBindings_create a id).sequences
  | update id next => exact handled.silent rfl (s.sameBindings_update id next).sequences
  | commit => exact handled.silent rfl s.sameBindings_commit.sequences
  | refreshIndex kindCount =>
    exact handled.silent rfl (s.sameBindings_refreshIndex kindCount).sequences
  | on a call => exact uses.elim

theorem Handled.play (handled : Handled log s) (keyed : s.Keyed) (calls : List Call)
    (uses : ∀ call ∈ calls, call.Uses registry) :
    Handled (log ++ s.issues calls) (s.play calls) := by
  induction calls generalizing s log with
  | nil => simpa [issues, Store.play] using handled
  | cons call rest ih =>
    rw [issues, ← List.append_assoc]
    exact ih (handled.perform keyed (uses call List.mem_cons_self)) (keyed.perform call)
      fun later member => uses later (List.mem_cons_of_mem call member)

/-- The first time is the one that counts. -/
theorem Handled.archetypeOf?_eq (handled : Handled log s) (keyed : s.Keyed) (sequence : Sequence) :
    s.archetypeOf? sequence = log.lookup sequence := by
  cases found : log.lookup sequence with
  | none =>
    rw [keyed.archetypeOf?_eq_none_iff, handled.order, List.mem_eraseDups]
    rintro asked
    obtain ⟨each, member, rfl⟩ := List.mem_map.mp asked
    have absent := List.lookup_eq_none_iff.mp found each member
    simp at absent
  | some a =>
    obtain ⟨before, after, rfl, -⟩ := List.lookup_eq_some_iff.mp found
    exact (keyed.known sequence a).mpr (handled.housed (sequence, a) (by simp))

/-! ### Later stores -/

/-- No call takes a collection away or gives it another place. -/
theorem getElem?_sequences_perform (keyed : s.Keyed) {call : Call} (uses : call.Uses registry) {i : Nat}
    (here : s.sequences[i]? = some sequence) : (s.perform call).sequences[i]? = some sequence := by
  cases call with
  | getOrCreate other asked =>
    exact keyed.of_getOrCreate (P := fun t => t.sequences[i]? = some sequence) here
      fun _ _ made => made.getElem?_sequences here
  | registerDefinition other definition =>
    rcases s.registerDefinition_spec keyed other definition with
      ⟨cause, failed⟩ | ⟨asked, a, s₁, c, definitions, made, there, done⟩
    · rw [Store.perform, failed]
      exact here
    · have same := sequences_modifyCollection_of_eq (fun _ => { c with definitions }) there rfl
      rw [Store.perform, done]
      exact same ▸ made.getElem?_sequences here
  | setLoadState d state => exact (s.sameBindings_setLoadState d state).sequences ▸ here
  | create a id => exact (s.sameBindings_create a id).sequences ▸ here
  | update id next => exact (s.sameBindings_update id next).sequences ▸ here
  | commit => exact s.sameBindings_commit.sequences ▸ here
  | refreshIndex kindCount => exact (s.sameBindings_refreshIndex kindCount).sequences ▸ here
  | on a call => exact uses.elim

theorem getElem?_sequences_play (keyed : s.Keyed) (calls : List Call)
    (uses : ∀ call ∈ calls, call.Uses registry) {i : Nat} (here : s.sequences[i]? = some sequence) :
    (s.play calls).sequences[i]? = some sequence := by
  induction calls generalizing s with
  | nil => exact here
  | cons call rest ih =>
    have first := getElem?_sequences_perform keyed (uses call List.mem_cons_self) here
    exact ih (keyed.perform call) (fun later member => uses later (List.mem_cons_of_mem call member))
      first

/-! ### What the index answers -/

/-- The archetypes that a look at every collection finds. Naming nothing finds nothing. -/
def scan (s : Store) (wanted unwanted : List Kind) : List ArchetypeId :=
  if wanted.isEmpty then []
  else (s.archetypes.filter fun each =>
    ArchetypeIndex.matching wanted unwanted each.2.sequence).map Prod.fst

theorem scan_eq (s : Store) (wanted unwanted : List Kind) :
    s.scan wanted unwanted = ArchetypeIndex.scan s.sequences wanted unwanted := by
  unfold scan ArchetypeIndex.scan
  split
  · rfl
  · simp only [archetypes, Store.sequences, List.zipIdx_map, List.filter_map, List.map_map]
    rfl

theorem Catalogued.perform (catalogued : s.Catalogued registry) {call : Call}
    (serves : call.Serves registry) : (s.perform call).Catalogued registry := by
  cases call with
  | getOrCreate other sequence =>
    obtain rfl : other = registry := serves
    exact catalogued.keyed.of_getOrCreate catalogued fun _ _ made => (made.catalogued catalogued).1
  | registerDefinition other definition =>
    obtain rfl : other = registry := serves
    exact catalogued.registerDefinition definition
  | setLoadState d state => exact catalogued.of_same (s.sameCatalog_setLoadState d state)
  | create a id => exact catalogued.of_same (s.sameCatalog_create a id)
  | update id next => exact catalogued.of_same (s.sameCatalog_update id next)
  | commit => exact catalogued.of_same s.sameCatalog_commit
  | refreshIndex kindCount =>
    obtain rfl : kindCount = registry.kindCount := serves
    exact catalogued.refreshIndex.2.1
  | on a call => exact serves.elim

theorem Catalogued.play (catalogued : s.Catalogued registry) (calls : List Call)
    (serves : ∀ call ∈ calls, call.Serves registry) : (s.play calls).Catalogued registry := by
  induction calls generalizing s with
  | nil => exact catalogued
  | cons call rest ih =>
    exact ih (catalogued.perform (serves call List.mem_cons_self))
      fun later member => serves later (List.mem_cons_of_mem call member)

/-! ### Unique and permanent -/

/-- What the handles of a store mean, and how they were issued. -/
structure Handles (log : List (Sequence × ArchetypeId)) (s : Store) : Prop where
  apart : ∀ a b c d, s.collection? a = some c → s.collection? b = some d →
    c.sequence = d.sequence → a = b
  inhabited : ∀ a c, s.collection? a = some c → c.sequence.isEmpty = false
  known : ∀ sequence a, s.archetypeOf? sequence = some a ↔
    ∃ c, s.collection? a = some c ∧ c.sequence = sequence
  -- Whoever asks again gets the handle that was issued first.
  issued : ∀ sequence, s.archetypeOf? sequence = log.lookup sequence
  again : ∀ each ∈ log, s.archetypeOf? each.1 = some each.2
  same : ∀ first ∈ log, ∀ second ∈ log,
    first.2 = second.2 ↔ ∀ k, k ∈ first.1.kinds ↔ k ∈ second.1.kinds
  -- In whatever order, and however often, the kinds are listed.
  listed : ∀ kinds kinds' a b, (Sequence.ofList kinds, a) ∈ log → (Sequence.ofList kinds', b) ∈ log →
    (a = b ↔ ∀ k, k ∈ kinds ↔ k ∈ kinds')
  numbered : (log.map Prod.snd).eraseDups = (List.range s.size).map ArchetypeId.mk
  -- Up to this many collections the handles are those that are stored as they are.
  narrow : s.size ≤ ArchetypeId.bound → ∀ each ∈ log, each.2.index < ArchetypeId.bound
  found : s.dirty = false → ∀ wanted unwanted, s.find wanted unwanted = s.scan wanted unwanted

/-- Handles of the first store mean the same in the second one. -/
structure Lasting (s t : Store) : Prop where
  collections : ∀ a c, s.collection? a = some c →
    ∃ c', t.collection? a = some c' ∧ c'.sequence = c.sequence
  handles : ∀ sequence a, s.archetypeOf? sequence = some a → t.archetypeOf? sequence = some a

theorem Handled.handle_eq_iff (handled : Handled log s) (keyed : s.Keyed)
    {first second : Sequence × ArchetypeId} (member : first ∈ log) (member' : second ∈ log) :
    first.2 = second.2 ↔ first.1 = second.1 := by
  have here := handled.housed first member
  have here' := handled.housed second member'
  constructor
  · intro same
    rw [same] at here
    exact Option.some.inj (here.symm.trans here')
  · intro same
    have known := (keyed.known first.1 first.2).mpr here
    rw [same] at known
    exact Option.some.inj (known.symm.trans ((keyed.known second.1 second.2).mpr here'))

theorem Handled.index_lt (handled : Handled log s) {each : Sequence × ArchetypeId}
    (member : each ∈ log) : each.2.index < s.size := by
  rw [← s.length_sequences]
  exact (List.getElem?_eq_some_iff.mp (handled.housed each member)).1

theorem Handled.handles (handled : Handled log s) (keyed : s.Keyed)
    (catalogued : s.Catalogued registry) : Handles log s where
  apart := fun _ _ _ _ here there same => keyed.place_unique here there same
  inhabited := fun _ c here => keyed.inhabited c.sequence (mem_sequences here)
  known := by
    intro sequence a
    rw [keyed.known, getElem?_sequences, Option.map_eq_some_iff]
  issued := handled.archetypeOf?_eq keyed
  again := fun each member => (keyed.known each.1 each.2).mpr (handled.housed each member)
  same := by
    intro first member second member'
    rw [handled.handle_eq_iff keyed member member']
    exact ⟨fun equal k => equal ▸ Iff.rfl, Sequence.eq_of_mem_iff⟩
  listed := by
    intro kinds kinds' a b member member'
    rw [← Sequence.ofList_eq_iff]
    exact handled.handle_eq_iff keyed member member'
  numbered := by
    rw [handled.numbered, length_sequences]
  narrow := fun few _ member => Nat.lt_of_lt_of_le (handled.index_lt member) few
  found := by
    intro clean wanted unwanted
    rw [scan_eq]
    exact catalogued.answers clean wanted unwanted

theorem lasting_of_stays (keyed : s.Keyed) (keyed' : t.Keyed)
    (stays : ∀ (i : Nat) sequence, s.sequences[i]? = some sequence → t.sequences[i]? = some sequence) :
    Lasting s t where
  collections := fun _ _ here => exists_collection (stays _ _ (getElem?_sequences_of_collection here))
  handles := fun sequence a known => (keyed'.known sequence a).mpr
    (stays _ _ ((keyed.known sequence a).mp known))

/-- After any calls with one registry, handles and sequences of component kinds determine each other;
handles were issued from 0 upwards, below `ArchetypeId.bound` if there are no more collections than that;
and whatever is called then, they mean the same. -/
theorem handles_of_history (registry : Registry) (calls : List Call)
    (serves : ∀ call ∈ calls, call.Serves registry) :
    Handles (empty.issues calls) (empty.play calls) ∧
      ∀ more, (∀ call ∈ more, call.Serves registry) →
        Lasting (empty.play calls) ((empty.play calls).play more) := by
  have keyed := keyed_empty.play calls
  have handled := handled_empty.play keyed_empty calls fun call member => (serves call member).uses
  rw [List.nil_append] at handled
  refine ⟨handled.handles keyed ((catalogued_empty registry).play calls serves),
    fun more later => ?_⟩
  have uses : ∀ call ∈ more, call.Uses registry := fun call member => (later call member).uses
  exact lasting_of_stays keyed (keyed.play more) fun _ _ => getElem?_sequences_play keyed more uses

/-- The calls ask for three sequences, twice for the first of them in other words. -/
theorem handles_of_registerCalls : (∀ call ∈ registerCalls, call.Serves ageMass) ∧
    (empty.issues registerCalls).map Prod.snd = [⟨0⟩, ⟨1⟩, ⟨2⟩, ⟨0⟩, ⟨0⟩] ∧
    (empty.play registerCalls).archetypeOf? (.ofList [⟨2⟩]) = some ⟨2⟩ ∧
    (empty.play registerCalls).archetypeOf? (.ofList []) = none ∧
    (empty.play registerCalls).dirty = false ∧ (empty.play registerCalls).find [⟨1⟩] [] = [⟨0⟩, ⟨1⟩] ∧
    Handles (empty.issues registerCalls) (empty.play registerCalls) ∧
    Lasting (empty.play registerCalls) ((empty.play registerCalls).play reregistration) := by
  have serves : ∀ call ∈ registerCalls, call.Serves ageMass := by
    simp [registerCalls, reregistration, Call.Serves, Call.Uses]
    rfl
  have later : ∀ call ∈ reregistration, call.Serves ageMass := fun call member =>
    serves call (List.mem_cons_of_mem _ (List.mem_append_left _ member))
  obtain ⟨handles, lasting⟩ := handles_of_history ageMass registerCalls serves
  exact ⟨serves, by decide +kernel, by decide +kernel, by decide +kernel, by decide +kernel,
    by decide +kernel, handles, lasting reregistration later⟩

end Store

end EntityWorld
