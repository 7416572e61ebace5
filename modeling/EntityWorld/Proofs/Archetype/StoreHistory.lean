import EntityWorld.Proofs.Archetype.Conservation

/-!
# Commits of a whole store

Whatever is done to a store and to its collections, each of them was bound before an entity came into
it. So a commit of the store goes through: it commits one collection after another, and forgets where
the entities were that it removed. Main statement: `Store.conserved_of_history`.
-/
namespace EntityWorld

namespace Collection

variable {registry : Registry} {sequence : Sequence} {c c' : Collection} {report : CommitReport}

theorem kept_of_bind (bound : unbound.bind registry sequence = .ok c) :
    Kept registry sequence c := by
  have made : (unbound.setUp registry none sequence).value = (.ok (), c) := by
    simp only [setUp, bound]
    rfl
  exact kept_of_setUp made

theorem Kept.commit_part (kept : Kept registry sequence c) :
    c.commit = (.ok c.part, c.commit.2) ∧ Conserved registry sequence c c.commit.2 c.part := by
  obtain ⟨report, c', done, conserved⟩ := kept.conserved
  obtain ⟨said, made⟩ := part_of_commit done
  rw [said, made]
  exact ⟨done, conserved⟩

end Collection

namespace Store

variable {s t : Store} {a b : ArchetypeId} {c : Collection} {report : CommitReport}

/-! ### Histories of a store -/

/-- What can be done to a store. -/
inductive Call where
  | getOrCreate (registry : Registry) (sequence : Sequence)
  | registerDefinition (registry : Registry) (definition : EntityDefinition)
  | setLoadState (d : DefinitionId) (state : LoadState)
  | create (a : ArchetypeId) (id : EntityId)
  | update (id next : EntityId)
  | commit
  | refreshIndex (kindCount : Nat)
  -- A call on one of the collections.
  | on (a : ArchetypeId) (call : Collection.Call)

/-- What a call makes of a store, whether it succeeds or not. -/
def perform (s : Store) : Call → Store
  | .getOrCreate registry sequence => (s.getOrCreate registry sequence).value.2
  | .registerDefinition registry definition => (s.registerDefinition registry definition).value.2
  | .setLoadState d state => (s.setLoadState d state).2
  | .create a id => (s.create a id).2
  | .update id next => (s.update id next).2
  | .commit => s.commit.value.2
  | .refreshIndex kindCount => (s.refreshIndex kindCount).value.2
  | .on a call => s.modifyCollection a (·.perform call)

def play (s : Store) (calls : List Call) : Store := calls.foldl perform s

/-! ### The map of sequences -/

/-- Whatever is called, the map knows the sequences of the collections: it gets an entry together with a
collection, and a collection that is bound keeps its sequence. -/
theorem Keyed.perform (keyed : s.Keyed) (call : Call) : (s.perform call).Keyed := by
  cases call with
  | getOrCreate registry sequence =>
    exact keyed.of_getOrCreate keyed fun _ _ made => made.keyed keyed
  | registerDefinition registry definition => exact keyed.registerDefinition registry definition
  | setLoadState d state =>
    simp only [Store.perform, setLoadState]
    split
    · exact keyed
    · exact keyed.of_same rfl rfl
  | create a id => exact keyed.create a id
  | update id next =>
    simp only [Store.perform, update]
    split
    · exact keyed
    · split
      · exact keyed
      next a located c here =>
        exact keyed.modify (fun _ => (c.update id next).2) here (c.sequence_update id next)
  | commit =>
    rw [Store.perform, value_commit]
    refine related_commitFrom (R := fun s t => s.Keyed → t.Keyed) (fun _ keyed => keyed)
      (fun _ _ _ first second keyed => second (first keyed)) ?_ _ _ s .empty keyed
    intro s a c locations here keyed
    exact (keyed.modify (fun _ => c.commit.2) here c.sequence_commit).of_same rfl rfl
  | refreshIndex kindCount =>
    simp only [Store.perform, refreshIndex]
    split
    · exact keyed.of_same rfl rfl
    · exact keyed
  | on a call =>
    refine keyed.of_same rfl (sequences_modifyCollection (·.perform call) fun c here => ?_)
    exact Collection.sequence_perform (keyed.inhabited c.sequence (mem_sequences here)) call

theorem Keyed.play (keyed : s.Keyed) (calls : List Call) : (s.play calls).Keyed := by
  induction calls generalizing s with
  | nil => exact keyed
  | cons call rest ih => exact ih (keyed.perform call)

/-! ### The collections -/

/-- Every collection of the store is as calls leave one that was bound while it was empty. -/
def Kept (s : Store) : Prop :=
  ∀ a c, s.collection? a = some c → ∃ registry, Collection.Kept registry c.sequence c

theorem kept_of_collections (kept : s.Kept) (same : t.collections = s.collections) : t.Kept := by
  intro a c found
  rw [collection?, same] at found
  exact kept a c found

theorem kept_modify {change : Collection → Collection} (kept : s.Kept)
    (keeps : ∀ registry sequence c, s.collection? a = some c →
      Collection.Kept registry sequence c → Collection.Kept registry sequence (change c)) :
    (s.modifyCollection a change).Kept := by
  intro b d found
  rw [collection?_modifyCollection] at found
  split at found
  next same =>
    subst same
    obtain ⟨c, here, rfl⟩ := Option.map_eq_some_iff.mp found
    obtain ⟨registry, before⟩ := kept a c here
    have after := keeps registry c.sequence c here before
    exact ⟨registry, after.keyed ▸ after⟩
  next => exact kept b d found

theorem kept_of_made {registry : Registry} {sequence : Sequence} (kept : s.Kept)
    (made : Made registry s sequence a t) : t.Kept := by
  intro b c found
  rcases made.collection?_eq b with old | ⟨-, -, d, new, bound⟩
  · exact kept b c (old ▸ found)
  · obtain rfl := Option.some.inj (new.symm.trans found)
    have fresh := Collection.kept_of_bind bound
    exact ⟨registry, fresh.keyed ▸ fresh⟩

/-- A commit of a store commits its collections one by one, whatever comes of it. -/
theorem kept_commitFrom (rest position : Nat) (report : CommitReport) (kept : s.Kept) :
    (commitFrom rest position s report).2.Kept := by
  refine related_commitFrom (R := fun s t => s.Kept → t.Kept) (fun _ kept => kept)
    (fun _ _ _ first second kept => second (first kept)) ?_ rest position s report kept
  intro s a c locations here kept
  have committed : (s.modifyCollection a fun _ => c.commit.2).Kept :=
    kept_modify kept fun registry sequence d there before => by
      obtain rfl := Option.some.inj (here.symm.trans there)
      exact before.commit
  exact kept_of_collections committed rfl

theorem Kept.perform (kept : s.Kept) (keyed : s.Keyed) (call : Call) : (s.perform call).Kept := by
  cases call with
  | getOrCreate registry sequence =>
    exact keyed.of_getOrCreate kept fun _ _ made => kept_of_made kept made
  | registerDefinition registry definition =>
    rcases s.registerDefinition_spec keyed registry definition with
      ⟨cause, value⟩ | ⟨sequence, a, s₁, c, definitions, made, here, value⟩
    · simpa only [Store.perform, value] using kept
    · have exchanged : (s₁.modifyCollection a fun _ => { c with definitions }).Kept :=
        kept_modify (kept_of_made kept made) fun registry sequence d there before => by
          obtain rfl := Option.some.inj (here.symm.trans there)
          exact { before with }
      simp only [Store.perform, value]
      exact kept_of_collections exchanged rfl
  | setLoadState d state =>
    simp only [Store.perform, setLoadState]
    split
    · exact kept
    · exact kept_of_collections kept rfl
  | create a id =>
    simp only [Store.perform, create]
    split
    · exact kept
    · have created : (s.modifyCollection a (·.create id)).Kept :=
        kept_modify kept fun _ _ _ _ before => before.create id
      exact kept_of_collections created rfl
  | update id next =>
    simp only [Store.perform, update]
    split
    · exact kept
    next a located =>
      split
      · exact kept
      next c here =>
        exact kept_modify kept fun _ _ d there before => by
          obtain rfl := Option.some.inj (here.symm.trans there)
          exact before.update id next
  | commit =>
    rw [Store.perform, value_commit]
    exact kept_commitFrom _ _ _ kept
  | refreshIndex kindCount =>
    simp only [Store.perform, refreshIndex]
    split
    · exact kept_of_collections kept rfl
    · exact kept
  | on a call => exact kept_modify kept fun _ _ _ _ before => before.perform call

theorem kept_of_play (calls : List Call) : (empty.play calls).Kept := by
  have all (calls : List Call) (s : Store) (kept : s.Kept) (keyed : s.Keyed) :
      (s.play calls).Kept := by
    induction calls generalizing s with
    | nil => exact kept
    | cons call rest ih => exact ih _ (kept.perform keyed call) (keyed.perform call)
  exact all calls empty (fun a c found => by simp [collection?, empty] at found) keyed_empty

/-! ### The commit -/

/-- What a commit does with the rows of a store. -/
structure Conserved (s t : Store) (report : CommitReport) : Prop where
  size : t.collections.size = s.collections.size
  each : ∀ a c, s.collection? a = some c → ∃ registry out c', c.commit = (.ok out, c') ∧
    t.collection? a = some c' ∧ Collection.Conserved registry c.sequence c c' out
  removed : report.removed.toList.Perm (s.ids.filter fun id => !Collection.survives id)
  migrated : report.migrated.toList = s.collections.toList.flatMap fun c =>
    c.pending.ids.toList.filter Collection.survives
  located : ∀ raw, t.locate? raw =
    if raw ∈ report.removed.toList.map EntityId.raw then none else s.locate? raw
  others : t.definitions = s.definitions ∧ t.index = s.index ∧ t.dirty = s.dirty
  again : t.commit.value = (.ok .empty, t)

theorem Kept.conserved (kept : s.Kept) :
    ∃ report t, s.commit.value = (.ok report, t) ∧ Conserved s t report := by
  have parts (a : ArchetypeId) (c : Collection) (here : s.collection? a = some c) :
      ∃ registry, c.commit = (.ok c.part, c.commit.2) ∧
        Collection.Conserved registry c.sequence c c.commit.2 c.part := by
    obtain ⟨registry, shaped⟩ := kept a c here
    exact ⟨registry, shaped.commit_part⟩
  obtain ⟨report, t, done, settled⟩ := commit_settled fun a c here => by
    obtain ⟨registry, commit, -⟩ := parts a c here
    exact commit
  obtain ⟨removed, migrated⟩ := settled.reported fun a c here => by
    obtain ⟨registry, -, conserved⟩ := parts a c here
    exact ⟨conserved.removed, conserved.migrated⟩
  refine ⟨report, t, done, ?_, fun a c here => ?_, removed, migrated, settled.located, settled.others, ?_⟩
  · simpa using congrArg List.length settled.collections
  · obtain ⟨registry, commit, conserved⟩ := parts a c here
    exact ⟨registry, _, _, commit, by rw [settled.collection?, here, Option.map_some], conserved⟩
  · rw [value_commit]
    refine commitFrom_of_idle _ _ _ fun a d _ there => ?_
    rw [settled.collection?] at there
    obtain ⟨c, here, rfl⟩ := Option.map_eq_some_iff.mp there
    obtain ⟨registry, -, conserved⟩ := parts a c here
    exact conserved.again

/-- Commits conserve rows: of a collection, whatever was done to it since it was bound, and of a store,
whatever was done to it and to its collections. -/
theorem conserved_of_history :
    (∀ registry sequence log c, Collection.History registry sequence log c →
      c.pending.ids.toList.map EntityId.raw = Collection.arrivals log ∧
        ∃ report c', c.commit = (.ok report, c') ∧
          Collection.Conserved registry sequence c c' report) ∧
      ∀ calls, ∃ report t, (empty.play calls).commit.value = (.ok report, t) ∧
        Conserved (empty.play calls) t report :=
  ⟨fun _ _ _ _ history => ⟨Collection.raws_of_history history,
      (Collection.kept_of_history history).conserved⟩,
    fun calls => (kept_of_play calls).conserved⟩

/-! ### Two of three are destroyed -/

/-- The ages of three entities are set. Then the first and the last are destroyed, and one more is
created. -/
def destroyTwo : List Collection.Call :=
  let unregistered (raw : Nat) : EntityId := (EntityId.ofRaw raw).withLife .unregister
  let destroyed (raw : Nat) : EntityId := (EntityId.ofRaw raw).withLife .destroyed
  [.create (unregistered 1), .create (.ofRaw 2), .create (unregistered 3), .commit,
    .edit ⟨1⟩ ⟨⟨1⟩, "Age", [0, 0, 0, 0]⟩ fun row _ => [.ofNat row, 7, 7, 7],
    .update (unregistered 1) (destroyed 1), .update (unregistered 3) (destroyed 3),
    .create (.ofRaw 4)]

/-- The same in a store, and one more is created. -/
def storeDestroyTwo : List Call := destroyTwo.map (.on ⟨0⟩) ++ [.create ⟨0⟩ (.ofRaw 5)]

/-- A store with a collection of ages. -/
def ageStore : Store := empty.push Collection.ageSequence Collection.emptyAges

theorem perform_getOrCreate_age :
    empty.perform (.getOrCreate Collection.ageRegistry Collection.ageSequence) = ageStore := by
  have unknown : empty.archetypeOf? Collection.ageSequence = none := by simp [archetypeOf?, empty]
  simp only [perform, getOrCreate, unknown]
  rfl

theorem conserved_of_destroyTwo :
    (∃ report c', (Collection.emptyAges.play destroyTwo).commit = (.ok report, c') ∧
      c'.current.entries = #[(.ofRaw 2, [[1, 7, 7, 7]]), (.ofRaw 4, [[0, 0, 0, 0]])] ∧
      Collection.Conserved Collection.ageRegistry Collection.ageSequence
        (Collection.emptyAges.play destroyTwo) c' report) ∧
      ∃ report t, (ageStore.play storeDestroyTwo).commit.value = (.ok report, t) ∧
        report.migrated = #[.ofRaw 4, .ofRaw 5] ∧
        Conserved (ageStore.play storeDestroyTwo) t report := by
  obtain ⟨collections, stores⟩ := conserved_of_history
  obtain ⟨-, report, c', done, conserved⟩ :=
    collections _ _ _ _ (Collection.history_emptyAges destroyTwo)
  obtain ⟨report', t, done', conserved'⟩ :=
    stores (.getOrCreate Collection.ageRegistry Collection.ageSequence :: storeDestroyTwo)
  have made :
      empty.play (.getOrCreate Collection.ageRegistry Collection.ageSequence :: storeDestroyTwo) =
      ageStore.play storeDestroyTwo := by
    rw [play, List.foldl_cons, perform_getOrCreate_age, ← play]
  rw [made] at done' conserved'
  have entries : (Collection.emptyAges.play destroyTwo).commit.2.current.entries =
      #[(.ofRaw 2, [[1, 7, 7, 7]]), (.ofRaw 4, [[0, 0, 0, 0]])] := by decide
  have migrated : (ageStore.play storeDestroyTwo).commit.value.1.toOption.map CommitReport.migrated =
      some #[.ofRaw 4, .ofRaw 5] := by decide
  rw [done] at entries
  rw [done'] at migrated
  exact ⟨⟨report, c', done, entries, conserved⟩, report', t, done', Option.some.inj migrated,
    conserved'⟩

end Store

end EntityWorld
