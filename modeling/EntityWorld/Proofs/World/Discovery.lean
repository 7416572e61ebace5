import EntityWorld.Proofs.Foresight
import EntityWorld.Proofs.World.Effects
import EntityWorld.Proofs.World.Overwrites

/-!
# Discovery

Creation is the only thing that discovers a sequence: either there is a collection for it from then on,
or the next commit makes one. Main statement: `Step.discovered`.
-/
namespace EntityWorld.World

open Shared

variable {σ : Type} {w w' : World σ} {m m' : Moment σ} {what : Happening}

/-- Where an entity waits or what its id is does not matter. -/
theorem overwritable_discovered (met : List Sequence) :
    Overwritable fun s : Shared σ => s.discovered = met where
  stored := by
    intro s id next same
    rw [← same]
    refine congrArg (discover · s.deferred) ?_
    unfold Store.update
    split
    · rfl
    · split
      · rfl
      next a located c here =>
        exact Store.sequences_modifyCollection_of_eq _ here (c.sequence_update id next)
  waiting := by
    intro s raw change same
    rw [← same]
    unfold modifyDeferred
    split
    · rfl
    next place _ =>
      refine discover_congr _ (List.ext_getElem? fun i => ?_)
      simp only [List.getElem?_map, List.getElem?_modify]
      cases s.deferred[i]? with
      | none => rfl
      | some d =>
        simp only [Option.map_eq_map, Option.map_some]
        split <;> rfl

theorem sequences_materialize {queue : List Deferred} (keyed : w.shared.store.Keyed)
    (done : (materialize queue w).value = (.ok (), w')) :
    w'.shared.deferred = w.shared.deferred ∧
      w'.shared.store.sequences = discover w.shared.store.sequences queue := by
  induction queue generalizing w with
  | nil =>
    cases done
    exact ⟨rfl, rfl⟩
  | cons d rest ih =>
    obtain ⟨a, store, store', made, created, keyed', remaining⟩ := stages_of_materialize keyed done
    have kept := store.sequences_create a d.id
    rw [created] at kept
    obtain ⟨same, met⟩ := ih (w := { w with shared.store := store' }) keyed' remaining
    refine ⟨same, met.trans ?_⟩
    change discover store'.sequences rest = _
    rw [kept, made.sequences]
    rfl

/-- A commit makes collections for what is discovered already. -/
theorem discovered_commit {report : CommitReport} (keyed : w.shared.store.Keyed)
    (done : w.commit.value = (.ok report, w')) :
    w'.shared.discovered = w.shared.discovered := by
  obtain ⟨v, store, allocator, materialized, stored, -, rfl⟩ := stages_of_commit done
  obtain ⟨empty, met⟩ := sequences_materialize (w := { w with shared.deferred := [] }) keyed
    materialized
  obtain ⟨kept, -⟩ := v.shared.store.sequences_commit
  rw [stored] at kept
  change discover store.sequences v.shared.deferred = _
  rw [kept, empty, met]
  rfl

theorem Step.discovered (step : Step m what m') (keyed : m.world.shared.store.Keyed) :
    m.world.shared.discovered <+: m'.world.shared.discovered := by
  have of_eq (same : m'.world.shared.discovered = m.world.shared.discovered) :
      m.world.shared.discovered <+: m'.world.shared.discovered := same ▸ List.prefix_refl _
  cases step with
  | created w d => exact w.shared.discovered_perform (.create d)
  | createdWith w types => exact w.shared.discovered_perform (.createWith types)
  | destroyed w id => exact of_eq ((overwritable_discovered _).destroy id rfl)
  | prioritised w id p => exact of_eq ((overwritable_discovered _).setPriority id p rfl)
  | loaded w d state =>
    refine of_eq ?_
    simp only [Moment.world, setDefinitionState, Store.setLoadState]
    split <;> rfl
  | accessed w program => exact discovered_run w.shared program
  | @attempted w w' report scheduler committed opened =>
    obtain ⟨index, dirty, memory, refreshed, -⟩ := refresh_eq w'
    have met := discovered_commit keyed committed
    refine of_eq ?_
    rw [refreshed]
    exact met
  | @abandoned w w' culprit cause frame failed =>
    obtain ⟨memory, scheduler, rfl, -⟩ := eq_of_declare failed
    exact List.prefix_refl _
  | @declared w w' frame scheduler declared begun =>
    obtain ⟨memory, scheduler', rfl, -⟩ := eq_of_declare declared
    exact List.prefix_refl _
  | @executed w fence left shared ran =>
    exact ran.preserves (P := fun s => w.shared.discovered <+: s.discovered)
      (fun command s met => met.trans (s.discovered_perform command)) (fun _ _ met => met)
      (List.prefix_refl _)
  | @bounded w w' fence left life life' applied =>
    have kept := (overwritable_discovered w.shared.discovered).applyBoundary (w := w) fence life rfl
    rw [applied] at kept
    exact of_eq kept
  | finished w => exact List.prefix_refl _

end EntityWorld.World
