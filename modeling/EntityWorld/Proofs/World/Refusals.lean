import EntityWorld.Proofs.Archetype.Refusals
import EntityWorld.Proofs.World.Provision
import EntityWorld.Proofs.World.Unfailing

/-!
# What a world refuses

Creating, destroying and writing priorities or definition states either does what it is asked for or
leaves the world as it is: what was allocated on the way is there again, and nothing waits anywhere for
a call that failed. Main statement: `untouched_of_reaches`.
-/
namespace EntityWorld

variable {σ : Type}

namespace Shared

variable {s t : Shared σ} {a : ArchetypeId} {cause : WorldError}

/-- Creating an entity fails for a reason, and then leaves everything as it is. -/
structure Untouched (s : Shared σ) : Prop where
  create : ∀ d cause t, s.create d = (.error cause, t) → t = s ∧
    (cause = .unknownDefinition d ∨ (∃ state, cause = .definitionNotLoaded d state) ∨
      ∃ full, cause = .capacity full)
  createWith : ∀ types cause t, s.createWith types = (.error cause, t) → t = s ∧
    ((∃ unknown, cause = .registry unknown) ∨ cause = .collection .emptySequence ∨
      ∃ full, cause = .capacity full)

/-- A raw id is only ever taken for an archetype that is there. -/
theorem place_of_error (there : a.index < s.store.sequences.length)
    (failed : s.place a = (.error cause, t)) : t = s := by
  obtain ⟨c, here, -⟩ := Store.exists_collection (List.getElem?_eq_getElem there)
  unfold place at failed
  split at failed
  next full allocator refused =>
    cases failed
    rw [(IdAllocator.allocate_of_error refused).2]
  next id allocator fresh =>
    simp only [Store.create, here] at failed
    cases failed

theorem defer_of_error {sequence : Sequence} (failed : s.defer sequence = (.error cause, t)) :
    t = s := by
  unfold defer at failed
  split at failed
  next full allocator refused =>
    cases failed
    rw [(IdAllocator.allocate_of_error refused).2]
  next => cases failed

theorem createWith_of_error {types : List TypeId} (keyed : s.store.Keyed)
    (failed : s.createWith types = (.error cause, t)) : t = s := by
  unfold createWith at failed
  split at failed
  · cases failed
    rfl
  · split at failed
    · cases failed
      rfl
    · split at failed
      next a known =>
        have listed := (keyed.known _ a).mp known
        exact place_of_error (List.getElem?_eq_some_iff.mp listed).1 failed
      next => exact defer_of_error failed

namespace Fresh

theorem create_of_error (fresh : Fresh s) {d : DefinitionId} (failed : s.create d = (.error cause, t)) :
    t = s := by
  unfold create at failed
  split at failed
  · cases failed
    rfl
  next slot found =>
    split at failed
    · exact place_of_error (fresh.catalogued.housed d slot found) failed
    · cases failed
      rfl

theorem untouched (fresh : Fresh s) : s.Untouched where
  create := by
    intro d cause t failed
    refine ⟨fresh.create_of_error failed, fresh.created d cause ?_⟩
    rw [failed]
  createWith := by
    intro types cause t failed
    refine ⟨createWith_of_error fresh.catalogued.keyed failed, fresh.createdWith types cause ?_⟩
    rw [failed]

end Fresh

end Shared

namespace World

open Shared

variable {w w₀ w' : World σ} {m : Moment σ} {past : List (Passage σ)} {id : EntityId}

/-- What is asked of a world between frames fails for a reason, and then leaves it as it is. -/
structure Untouched (w : World σ) : Prop where
  create : ∀ d cause v, w.create d = (.error cause, v) → v = w ∧
    (cause = .unknownDefinition d ∨ (∃ state, cause = .definitionNotLoaded d state) ∨
      ∃ full, cause = .capacity full)
  createWith : ∀ types cause v, w.createWith types = (.error cause, v) → v = w ∧
    ((∃ unknown, cause = .registry unknown) ∨ cause = .collection .emptySequence ∨
      ∃ full, cause = .capacity full)
  destroy : ∀ id failure v, (w.destroy id).value = (.error failure, v) →
    v = w ∧ failure = .error (.unknownEntity id)
  setPriority : ∀ id p cause v, w.setPriority id p = (.error cause, v) →
    v = w ∧ cause = .unknownEntity id
  setDefinitionState : ∀ d state cause v, w.setDefinitionState d state = (.error cause, v) →
    v = w ∧ cause = .unknownDefinition d

theorem setLife_of_error {target : LifeState} {fault : Fault}
    (failed : (w.setLife id target).value = (.error fault, w')) : w' = w := by
  unfold setLife at failed
  split at failed
  · cases failed
    rfl
  · split at failed
    · cases failed
    next cause store refused =>
      cases failed
      rw [(Store.update_of_error refused).2]

/-- Unless an entity is put on its way out, a request to destroy one leaves the world as it is. -/
theorem applyDestroy_idle {outcome : Except Fault DestroyOutcome}
    (done : (w.applyDestroy id).value = (outcome, w')) (idle : outcome ≠ .ok .unregistered) :
    w' = w := by
  unfold applyDestroy at done
  split at done
  next current stored =>
    split at done
    · simp only [Logged.value_bind] at done
      rcases written : (w.setLife current .unregister).value with ⟨fault | ok, v⟩
      · rw [written] at done
        cases done
        exact setLife_of_error written
      · rw [written] at done
        cases done
        exact absurd rfl idle
    · cases done
      rfl
  · split at done
    · cases done
      rfl
    · split at done
      · cases done
        exact absurd rfl idle
      · cases done
        rfl

theorem destroy_of_error {failure : Failure WorldError}
    (failed : (w.destroy id).value = (.error failure, w')) : w' = w := by
  simp only [destroy, Logged.value_bind] at failed
  rcases applied : (w.applyDestroy id).value with ⟨fault | outcome, v⟩
  · rw [applied] at failed
    cases failed
    exact applyDestroy_idle applied (by simp)
  · rw [applied] at failed
    cases outcome with
    | unknown =>
      cases failed
      exact applyDestroy_idle applied (by simp)
    | unregistered | noEffect => cases failed

theorem setPriority_of_error {p : Priority} {cause : WorldError}
    (failed : w.setPriority id p = (.error cause, w')) : w' = w := by
  unfold setPriority at failed
  split at failed
  · simp only at failed
    split at failed
    · cases failed
    next cause' store refused =>
      cases failed
      rw [(Store.update_of_error refused).2]
  · split at failed
    · cases failed
      rfl
    · cases failed

theorem setDefinitionState_of_error {d : DefinitionId} {state : LoadState} {cause : WorldError}
    (failed : w.setDefinitionState d state = (.error cause, w')) :
    w' = w ∧ cause = .unknownDefinition d := by
  simp only [setDefinitionState, Store.setLoadState] at failed
  split at failed <;> cases failed
  exact ⟨rfl, rfl⟩

theorem untouched_of_fresh (sound : w.shared.Sound) (fresh : Fresh w.shared) : w.Untouched := by
  have shared := fresh.untouched
  refine ⟨fun d cause v failed => ?_, fun types cause v failed => ?_, fun id failure v failed => ?_,
    fun id p cause v failed => ?_, fun d state cause v => setDefinitionState_of_error⟩
  · rcases outcome : w.shared.create d with ⟨answer, s⟩
    simp only [World.create, outcome] at failed
    cases failed
    obtain ⟨rfl, cause⟩ := shared.create d cause s outcome
    exact ⟨rfl, cause⟩
  · rcases outcome : w.shared.createWith types with ⟨answer, s⟩
    simp only [World.createWith, outcome] at failed
    cases failed
    obtain ⟨rfl, cause⟩ := shared.createWith types cause s outcome
    exact ⟨rfl, cause⟩
  · exact ⟨destroy_of_error failed, unknown_of_destroy sound (congrArg Prod.fst failed)⟩
  · exact ⟨setPriority_of_error failed, unknown_of_setPriority sound (congrArg Prod.fst failed)⟩

/-- What failing calls leave as it is, where a world stands and of stores in general. -/
structure Refusals (m : Moment σ) : Prop where
  store : ∀ (s : Store) call cause, s.failure? call = some cause →
    s.perform call = s ∧ (s.Keyed → s.Refused call cause)
  -- So they can be left out.
  dropped : ∀ (s : Store) calls, s.play (s.successes calls) = s.play calls
  -- No call, and nothing that happens in a world, takes the map out of step with the collections.
  keyed : (∀ calls, (Store.empty.play calls).Keyed) ∧ m.world.shared.store.Keyed
  -- Nothing can fail any more once the collection for a definition is there.
  attached : ∀ (s t : Store) registry (definition : EntityDefinition) sequence a, s.Keyed →
    registry.sequenceOf definition.components = .ok sequence →
    (s.getOrCreate registry sequence).value = (.ok a, t) →
    ∃ u, (s.registerDefinition registry definition).value = (.ok a, u)
  world : m.world.Untouched
  -- The same holds in a program that is run between calls, and at any point of a fence.
  accessed : ∀ {α : Type} (program : Program (Access.interface σ) α),
    (program.run Access.perform m.world.shared).value.2.Untouched
  midway : ∀ fence moves heard s, m.world.scheduler.Midway fence moves m.world.shared heard s → s.Untouched

/-- A call that fails changes nothing: of a store, whatever its state, and of a world, wherever steps
lead. What a store answers it with is what was wrong. -/
theorem untouched_of_reaches {config : WorldConfig} {types : List ComponentType}
    {systems : List (System σ)} {memory : σ}
    (built : (World.new config types systems memory).value = .ok w₀) (reached : Reaches w₀ past m) :
    Refusals m := by
  have settled := settled_of_reaches (started_of_new built) reached
  have fresh : Fresh m.world.shared := (told_of_reaches built reached).fresh
  refine ⟨fun s call cause => Store.refused_of_failure, Store.play_successes,
    ⟨Store.keyed_empty.play, settled.sound.store.keyed⟩,
    fun s t registry definition sequence a keyed listed found => ?_,
    untouched_of_fresh settled.sound fresh, fun program => ?_, fun fence moves heard s midway => ?_⟩
  · obtain ⟨c, -, registered⟩ := Store.registerDefinition_of_getOrCreate keyed listed found
    exact ⟨_, registered⟩
  · exact (fresh.of_same (fresh.creates.run program (.refl _)).2).untouched
  · have same := (fresh.creates.midway (fun t locks same => same.trans ⟨rfl, .refl _⟩) midway
      (.refl _)).2
    exact (fresh.of_same same).untouched

def unloadedDefinition : EntityDefinition := ⟨⟨1⟩, "unloadedDefinition", [⟨1⟩], .unloaded⟩

/-- After a frame of a world with one entity, everything that can be asked for is refused once: for a
definition that is not loaded or not known, for no type or an unknown one, and for an unknown entity. -/
theorem untouched_of_unloadedDefinition : ∃ w₀ past w,
    (World.new .singleThreaded ageNameTypes [provider [unloadedDefinition]] 0).value = .ok w₀ ∧
      Reaches w₀ past (.resting w) ∧
      (w.create ⟨1⟩).1 = .error (.definitionNotLoaded ⟨1⟩ .unloaded) ∧
      (w.create ⟨2⟩).1 = .error (.unknownDefinition ⟨2⟩) ∧
      (w.createWith []).1 = .error (.collection .emptySequence) ∧
      (w.createWith [⟨1⟩, ⟨9⟩]).1 = .error (.registry (.unknownType ⟨9⟩)) ∧
      (w.destroy (.ofRaw 2)).value.1 = .error (.error (.unknownEntity (.ofRaw 2))) ∧
      (w.setPriority (.ofRaw 2) .high).1 = .error (.unknownEntity (.ofRaw 2)) ∧
      (w.setDefinitionState ⟨2⟩ .loaded).1 = .error (.unknownDefinition ⟨2⟩) ∧
      Refusals (.resting w) := by
  have ran : (session? .singleThreaded ageNameTypes [provider [unloadedDefinition]] 0
      [.createWith [⟨1⟩], .runFrame .zero]).any (fun w =>
        (w.create ⟨1⟩).1 = .error (.definitionNotLoaded ⟨1⟩ .unloaded) ∧
        (w.create ⟨2⟩).1 = .error (.unknownDefinition ⟨2⟩) ∧
        (w.createWith []).1 = .error (.collection .emptySequence) ∧
        (w.createWith [⟨1⟩, ⟨9⟩]).1 = .error (.registry (.unknownType ⟨9⟩)) ∧
        (w.destroy (.ofRaw 2)).value.1 = .error (.error (.unknownEntity (.ofRaw 2))) ∧
        (w.setPriority (.ofRaw 2) .high).1 = .error (.unknownEntity (.ofRaw 2)) ∧
        (w.setDefinitionState ⟨2⟩ .loaded).1 = .error (.unknownDefinition ⟨2⟩)) = true := by
    decide +kernel
  obtain ⟨w, made, facts⟩ := Option.any_eq_true _ _ |>.mp ran
  obtain ⟨unloaded, unknown, empty, untyped, gone, unheard, unset⟩ := of_decide_eq_true facts
  obtain ⟨w₀, past, built, reached⟩ := reaches_of_session? made
  exact ⟨w₀, past, w, built, reached, unloaded, unknown, empty, untyped, gone, unheard, unset,
    untouched_of_reaches built reached⟩

end World

end EntityWorld
