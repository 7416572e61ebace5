import EntityWorld.Proofs.Archetype.Rest
import EntityWorld.Proofs.World.Asks
import EntityWorld.Proofs.World.Effects

/-!
# What a frame prepares

The first two steps of a frame and the boundaries of its fences concern the entities only: under other
systems, with other declarations and with another memory they come to the same. When the first two steps
are made again, nothing is left for them to do. Main statements: `prepared_prepared`,
`eq_of_attempt` and `applyBoundary_staffed`.
-/
namespace EntityWorld.World

variable {σ : Type} {w : World σ}

/-- The same entities under other systems, with other declarations and with another memory. -/
def staffed (systems : List (System σ)) (scheduler : Scheduler σ) (memory : σ) (w : World σ) : World σ :=
  { w with systems, scheduler, shared.memory := memory }

theorem modifyDeferred_memory (s : Shared σ) (memory : σ) (raw : Nat) (change : EntityId → EntityId) :
    ({ s with memory } : Shared σ).modifyDeferred raw change =
      { s.modifyDeferred raw change with memory } := by
  unfold Shared.modifyDeferred
  dsimp only
  split <;> rfl

section

variable {systems : List (System σ)} {scheduler : Scheduler σ} {memory : σ}

/-! ### Boundaries -/

theorem setLife_staffed (current : EntityId) (target : LifeState) :
    ((w.staffed systems scheduler memory).setLife current target).value =
      ((w.setLife current target).value.1,
        (w.setLife current target).value.2.staffed systems scheduler memory) := by
  have store : (w.staffed systems scheduler memory).shared.store = w.shared.store := rfl
  unfold setLife
  rw [store]
  split
  · rfl
  · split <;> rfl

theorem applyDestroy_staffed (id : EntityId) :
    ((w.staffed systems scheduler memory).applyDestroy id).value =
      ((w.applyDestroy id).value.1,
        (w.applyDestroy id).value.2.staffed systems scheduler memory) := by
  have store : (w.staffed systems scheduler memory).shared.store = w.shared.store := rfl
  have waiting : (w.staffed systems scheduler memory).shared.deferred? id.raw =
      w.shared.deferred? id.raw := rfl
  unfold applyDestroy
  rw [store, waiting]
  split
  next current _ =>
    split
    · simp only [Logged.value_bind, setLife_staffed]
      rcases (w.setLife current .unregister).value with ⟨fault | ok, after⟩ <;> rfl
    · rfl
  · split
    · rfl
    · split
      · simp only [Logged.value_pure, staffed, modifyDeferred_memory]
      · rfl

theorem applyDestroys_staffed (requests : List EntityId) (count : Nat) :
    (applyDestroys requests count (w.staffed systems scheduler memory)).value =
      ((applyDestroys requests count w).value.1,
        (applyDestroys requests count w).value.2.staffed systems scheduler memory) := by
  induction requests generalizing w count with
  | nil => rfl
  | cons id rest ih =>
    simp only [applyDestroys, Logged.value_bind, applyDestroy_staffed]
    rcases (w.applyDestroy id).value with ⟨fault | outcome, after⟩
    · rfl
    · cases outcome with
      | unregistered => exact ih (count + 1)
      | noEffect | unknown => exact ih count

theorem advance_staffed (source target : LifeState) (listed : List Nat) (count : Nat) :
    (advance source target listed count (w.staffed systems scheduler memory)).value =
      ((advance source target listed count w).value.1,
        (advance source target listed count w).value.2.staffed systems scheduler memory) := by
  induction listed generalizing w count with
  | nil => rfl
  | cons raw rest ih =>
    have store : (w.staffed systems scheduler memory).shared.store = w.shared.store := rfl
    simp only [advance, store]
    split
    · exact ih count
    next current _ =>
      split
      · simp only [Logged.value_bind, setLife_staffed]
        rcases (w.setLife current target).value with ⟨fault | ok, after⟩
        · rfl
        · exact ih (count + 1)
      · exact ih count

theorem applyBoundary_staffed (fence : FenceId) (life : LifecycleReport) :
    ((w.staffed systems scheduler memory).applyBoundary fence life).value =
      ((w.applyBoundary fence life).value.1,
        (w.applyBoundary fence life).value.2.staffed systems scheduler memory) := by
  have taken : ({ w.staffed systems scheduler memory with shared.destroys := [] } : World σ) =
      ({ w with shared.destroys := [] } : World σ).staffed systems scheduler memory := rfl
  have requests : (w.staffed systems scheduler memory).shared.destroys = w.shared.destroys := rfl
  simp only [applyBoundary, Logged.value_bind, taken, requests, applyDestroys_staffed]
  rcases (applyDestroys w.shared.destroys life.unregistered { w with shared.destroys := [] }).value with
    ⟨fault | unregistered, after⟩
  · rfl
  · have first : ({ after.staffed systems scheduler memory with registering := [] } : World σ) =
        ({ after with registering := [] } : World σ).staffed systems scheduler memory := rfl
    have last : ({ after.staffed systems scheduler memory with unregistering := [] } : World σ) =
        ({ after with unregistering := [] } : World σ).staffed systems scheduler memory := rfl
    simp only [first, last]
    split
    · simp only [Logged.value_bind, advance_staffed, Logged.value_pure]
      rfl
    · split
      · simp only [Logged.value_bind, advance_staffed, Logged.value_pure]
        rfl
      · rfl

/-! ### Commits -/

theorem materialize_staffed (entries : List Deferred) :
    (materialize entries (w.staffed systems scheduler memory)).value =
      ((materialize entries w).value.1,
        (materialize entries w).value.2.staffed systems scheduler memory) := by
  induction entries generalizing w with
  | nil => rfl
  | cons entry rest ih =>
    have store : (w.staffed systems scheduler memory).shared.store = w.shared.store := rfl
    have registry : (w.staffed systems scheduler memory).shared.registry = w.shared.registry := rfl
    simp only [materialize, Logged.value_bind, store, registry]
    rcases (w.shared.store.getOrCreate w.shared.registry entry.sequence).value with ⟨cause | a, after⟩
    · rfl
    · simp only
      rcases after.create a entry.id with ⟨cause | ok, after⟩
      · rfl
      · exact ih (w := { w with shared.store := after })

theorem commit_staffed :
    (w.staffed systems scheduler memory).commit.value =
      (w.commit.value.1, w.commit.value.2.staffed systems scheduler memory) := by
  have idle : ({ w.staffed systems scheduler memory with shared.deferred := [] } : World σ) =
      ({ w with shared.deferred := [] } : World σ).staffed systems scheduler memory := rfl
  have waiting : (w.staffed systems scheduler memory).shared.deferred = w.shared.deferred := rfl
  simp only [commit, Logged.value_bind, idle, waiting, materialize_staffed]
  rcases (materialize w.shared.deferred { w with shared.deferred := [] }).value with
    ⟨cause | ok, after⟩
  · rfl
  · have store : (after.staffed systems scheduler memory).shared.store = after.shared.store := rfl
    simp only [Logged.value_bind, store]
    rcases after.shared.store.commit.value with ⟨failure | report, store⟩
    · cases failure <;> rfl
    · obtain ⟨result, allocator, recycled⟩ :=
        recycle_eq (σ := σ) report.removed.toList after.shared.allocator
      have plain := recycled { after with shared.store := store } rfl
      have staffed := recycled
        { after.staffed systems scheduler memory with shared.store := store } rfl
      simp only [Logged.value_bind, plain, staffed]
      cases result <;> rfl

end

/-! ### The first two steps of a frame -/

/-- A world after the first two steps of a frame, but for what systems remember of them. -/
def prepared (w : World σ) : World σ :=
  let committed := w.commit.value.2
  { committed with shared.store :=
      (committed.shared.store.refreshIndex committed.shared.registry.kindCount).value.2 }

theorem prepared_staffed {systems : List (System σ)} {scheduler : Scheduler σ} {memory : σ} :
    (w.staffed systems scheduler memory).prepared = w.prepared.staffed systems scheduler memory := by
  simp only [prepared, commit_staffed]
  rfl

theorem refreshIndex_refreshIndex (s : Store) (kindCount : Nat) :
    ((s.refreshIndex kindCount).value.2.refreshIndex kindCount).value.2 =
      (s.refreshIndex kindCount).value.2 := by
  unfold Store.refreshIndex
  split
  · rfl
  next fresh => simp only [Logged.value_pure, fresh, Bool.false_eq_true, if_false]

/-- What a commit leaves has been committed. -/
theorem atRest_of_commit {w' : World σ} {report : CommitReport} (sound : w.shared.Sound)
    (done : w.commit.value = (.ok report, w')) : w'.shared.store.AtRest := by
  obtain ⟨store, materialized, wf, -⟩ := materialize_spec (w := { w with shared.deferred := [] })
    sound.store sound.bindable (fun d member => sound.not_stored member) sound.waiting_nodup
  obtain ⟨v, after, allocator, materialized', stored, -, rfl⟩ := stages_of_commit done
  cases materialized.symm.trans materialized'
  exact Store.atRest_of_commit wf stored

/-- When the first two steps are made again, nothing is left for them to do. -/
theorem commit_prepared (sound : w.shared.Sound) :
    w.prepared.commit.value = (.ok .empty, w.prepared) := by
  obtain ⟨report, t, done, -, -, committed⟩ := commit_spec sound
  have atRest := atRest_of_commit sound done
  obtain ⟨index, dirty, refreshed⟩ := refreshIndex_eq t.store t.registry.kindCount
  have prepared : w.prepared = oweChanges
      { w with shared := { t with store := { t.store with index, dirty } } } report := by
    simp only [World.prepared, done, oweChanges, refreshed]
  have idle : ({ t.store with index, dirty } : Store).commit.value =
      (.ok .empty, { t.store with index, dirty }) := Store.AtRest.commit atRest
  rw [prepared]
  simp only [commit, oweChanges, committed.waiting, materialize, Logged.value_bind, Logged.value_pure,
    idle, recycle, CommitReport.empty]
  simp

theorem prepared_prepared (sound : w.shared.Sound) : w.prepared.prepared = w.prepared := by
  rw [prepared, commit_prepared sound]
  have store := refreshIndex_refreshIndex w.commit.value.2.shared.store
    w.commit.value.2.shared.registry.kindCount
  exact congrArg (fun store => { w.prepared with shared.store := store }) store

theorem destroys_prepared (sound : w.shared.Sound) :
    w.prepared.shared.destroys = w.shared.destroys := by
  obtain ⟨report, t, done, -, destroys, -⟩ := commit_spec sound
  simp only [prepared, done]
  exact destroys

/-- The world in which systems declare is prepared, and they remember what they were told. -/
theorem eq_of_attempt {d : World σ} {report : CommitReport}
    (attempted : (Moment.resting w).serve? .attempt = some (report, .declaring d)) :
    ∃ memory, d =
      w.prepared.staffed w.systems { w.scheduler with phase := .acceptingUpdates } memory := by
  -- A commit leaves the systems, the scheduler and the memory as they are.
  have kept : w.commit.value.2 = w.commit.value.2.staffed w.systems w.scheduler w.shared.memory :=
    congrArg Prod.snd (commit_staffed (w := w))
  cases served_of_serve? attempted with
  | @attempted w w' report scheduler committed opened =>
    rw [committed] at kept
    have same : w' = w'.staffed w.systems w.scheduler w.shared.memory := kept
    obtain ⟨memory, refreshed, -⟩ := refresh_value w'
    rw [refreshed] at opened ⊢
    refine ⟨memory, ?_⟩
    rw [prepared, committed, Scheduler.openDeclarations_eq opened]
    have systems : w'.systems = w.systems := (congrArg World.systems same).trans rfl
    have scheduler : w'.scheduler = w.scheduler := (congrArg World.scheduler same).trans rfl
    simp only [staffed, systems, scheduler]

theorem systems_of_attempt {d : World σ} {report : CommitReport}
    (attempted : (Moment.resting w).serve? .attempt = some (report, .declaring d)) :
    d.systems = w.systems := by
  obtain ⟨memory, same⟩ := eq_of_attempt attempted
  rw [same, staffed]

theorem scheduler_of_attempt {d : World σ} {report : CommitReport}
    (attempted : (Moment.resting w).serve? .attempt = some (report, .declaring d)) :
    d.scheduler = { w.scheduler with phase := .acceptingUpdates } := by
  obtain ⟨memory, same⟩ := eq_of_attempt attempted
  rw [same, staffed]

end EntityWorld.World
