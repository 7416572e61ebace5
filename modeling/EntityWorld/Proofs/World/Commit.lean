import EntityWorld.Proofs.Shared
import EntityWorld.World.Frame

/-!
# The commit of a frame

A commit never fails. It gives every waiting entity a row, makes every entity current, and takes the
destroyed ones away together with their raw ids; nothing else about any entity changes.
-/
namespace EntityWorld

variable {σ : Type} {s t : Shared σ} {w : World σ} {raw : Nat} {x y : EntityId}

/-- What a commit makes of what updates share. -/
structure Shared.Committed (s t : Shared σ) (report : CommitReport) : Prop where
  sound : t.Sound
  waiting : t.deferred = []
  entity? : ∀ raw, t.entity? raw = (s.entity? raw).filter Collection.survives
  current : ∀ raw, t.IsCurrent raw ↔ ∃ x, t.entity? raw = some x
  removed : report.removed.toList.Perm (s.ids.filter fun x => !Collection.survives x)
  migrated : ∀ x, x ∈ report.migrated.toList ↔ t.entity? x.raw = some x ∧ ¬ s.IsCurrent x.raw
  distinct : (report.migrated.toList.map EntityId.raw).Nodup

/-- The store has been committed and the raw ids of what it removed are free again. -/
private theorem Shared.sound_of_committed {store : Store} {allocator : IdAllocator}
    {removed : List EntityId} (sound : s.Sound) (stored : store.WellFormed)
    (books : allocator.WellFormed)
    (kept : ∀ x, x ∈ store.ids ↔ x ∈ s.ids ∧ Collection.survives x)
    (gone : ∀ x, x ∈ removed ↔ x ∈ s.ids ∧ ¬ Collection.survives x)
    (out : ∀ raw, allocator.Out raw ↔ s.allocator.Out raw ∧ raw ∉ removed.map EntityId.raw) :
    ({ s with deferred := [], store, allocator } : Shared σ).Sound where
  registry := sound.registry
  store := stored
  allocator := books
  distinct := by simpa [Shared.ids] using stored.nodup
  bindable := nofun
  out := by
    intro raw
    have ids (x : EntityId) : x ∈ ({ s with deferred := [], store, allocator } : Shared σ).ids ↔
        x ∈ s.ids ∧ Collection.survives x := by simp [Shared.mem_ids, kept]
    rw [out, sound.out]
    simp only [ids, List.mem_map, gone]
    -- One entity has the raw id, so it is released exactly if that entity has not survived.
    constructor
    · rintro ⟨⟨x, member, same⟩, left⟩
      refine ⟨x, ⟨member, ?_⟩, same⟩
      by_contra dead
      exact left ⟨x, ⟨member, dead⟩, same⟩
    · rintro ⟨x, ⟨member, alive⟩, same⟩
      refine ⟨⟨x, member, same⟩, ?_⟩
      rintro ⟨y, ⟨there, dead⟩, equal⟩
      obtain rfl := sound.eq_of_raw member there (same.trans equal.symm)
      exact dead alive

namespace World

/-- Every waiting entity gets a row in a pending generation. -/
theorem materialize_spec {entries : List Deferred} (wf : w.shared.store.WellFormed)
    (bindable : ∀ d ∈ entries, ∃ c, Collection.unbound.bind w.shared.registry d.sequence = .ok c)
    (apart : ∀ d ∈ entries, ∀ x ∈ w.shared.store.ids, x.raw ≠ d.id.raw)
    (distinct : (entries.map fun d => d.id.raw).Nodup) :
    ∃ store, (materialize entries w).value = (.ok (), { w with shared.store := store }) ∧
      store.WellFormed ∧ (∀ x, store.Current x ↔ w.shared.store.Current x) ∧
      ∀ x, store.Pending x ↔ w.shared.store.Pending x ∨ ∃ d ∈ entries, d.id = x := by
  induction entries generalizing w with
  | nil => exact ⟨w.shared.store, rfl, wf, fun _ => .rfl, by simp⟩
  | cons entry rest ih =>
    rw [List.map_cons, List.nodup_cons] at distinct
    -- The first entry gets a collection, and then a row in it.
    obtain ⟨a, store₁, made⟩ := Store.getOrCreate_of_bindable (s := w.shared.store)
      (bindable entry List.mem_cons_self)
    have found := Store.made_of_getOrCreate wf.keyed made
    have keeps := Store.keeps_of_made wf found
    obtain ⟨c, here, -⟩ := found.collection?_self
    obtain ⟨store₂, created, wf₂, current₂, pending₂⟩ :=
      Store.create_spec entry.id keeps.wellFormed here fun x member =>
        apart entry List.mem_cons_self x (keeps.mem_ids.mp member)
    obtain ⟨store, done, kept, current, pending⟩ := ih (w := { w with shared.store := store₂ }) wf₂
      (fun d member => bindable d (List.mem_cons_of_mem entry member)) (by
        intro d member x stored
        rw [Store.mem_ids, current₂, pending₂, ← or_assoc, ← Store.mem_ids, keeps.mem_ids] at stored
        rcases stored with old | rfl
        · exact apart d (List.mem_cons_of_mem entry member) x old
        · exact fun same => distinct.1 (List.mem_map.mpr ⟨d, member, same.symm⟩)) distinct.2
    refine ⟨store, ?_, kept, fun x => ?_, fun x => ?_⟩
    · simp only [materialize, Logged.value_bind, made, created, done]
    · rw [current, current₂, keeps.current]
    · rw [pending, pending₂, keeps.pending, or_assoc, @eq_comm _ x entry.id]
      simp only [List.mem_cons, exists_eq_or_imp]

/-- The raw ids of removed entities are free again. -/
theorem recycle_spec (removed : List EntityId) (wf : w.shared.allocator.WellFormed)
    (out : ∀ x ∈ removed, w.shared.allocator.Out x.raw) (distinct : (removed.map EntityId.raw).Nodup) :
    ∃ allocator, (recycle removed w).value = (.ok (), { w with shared.allocator := allocator }) ∧
      allocator.WellFormed ∧
      ∀ raw, allocator.Out raw ↔ w.shared.allocator.Out raw ∧ raw ∉ removed.map EntityId.raw := by
  induction removed generalizing w with
  | nil => exact ⟨w.shared.allocator, rfl, wf, by simp⟩
  | cons id rest ih =>
    rw [List.map_cons, List.nodup_cons] at distinct
    obtain ⟨allocator₁, released, wf₁, out₁⟩ :=
      IdAllocator.release_spec .strict wf (out id List.mem_cons_self)
    obtain ⟨allocator, done, kept, outAfter⟩ :=
      ih (w := { w with shared.allocator := allocator₁ }) wf₁ (by
        intro x member
        refine (out₁ x.raw).mpr ⟨out x (List.mem_cons_of_mem id member), fun same => ?_⟩
        exact distinct.1 (List.mem_map.mpr ⟨x, member, same⟩)) distinct.2
    refine ⟨allocator, ?_, kept, fun raw => ?_⟩
    · simp only [recycle, Logged.value_bind, released, done]
    · rw [outAfter, out₁, List.map_cons, List.mem_cons, not_or, and_assoc]

/-- Raw ids are recycled alike wherever the same ones are free. -/
theorem recycle_eq (removed : List EntityId) (a : IdAllocator) :
    ∃ result allocator, ∀ w : World σ, w.shared.allocator = a →
      (recycle removed w).value = (result, { w with shared.allocator := allocator }) := by
  induction removed generalizing a with
  | nil =>
    refine ⟨.ok (), a, fun w same => ?_⟩
    rw [← same]
    rfl
  | cons id rest ih =>
    match released : (a.release .strict id).value with
    | (.error misuse, allocator) =>
      refine ⟨.error (.misuse misuse), allocator, fun w same => ?_⟩
      simp only [recycle, Logged.value_bind, same, released, Logged.value_pure]
    | (.ok (), allocator) =>
      obtain ⟨result, final, done⟩ := ih allocator
      refine ⟨result, final, fun w same => ?_⟩
      simp only [recycle, Logged.value_bind, same, released]
      rw [done _ rfl]

/-- The first entity that waits has got its row before the others. -/
theorem stages_of_materialize {w' : World σ} {entry : Deferred} {rest : List Deferred}
    (keyed : w.shared.store.Keyed) (done : (materialize (entry :: rest) w).value = (.ok (), w')) :
    ∃ a store store', Store.Made w.shared.registry w.shared.store entry.sequence a store ∧
      store.create a entry.id = (.ok (), store') ∧ store'.Keyed ∧
      (materialize rest { w with shared.store := store' }).value = (.ok (), w') := by
  simp only [materialize, Logged.value_bind] at done
  rcases made : (w.shared.store.getOrCreate w.shared.registry entry.sequence).value with
    ⟨cause | a, store⟩
  · rw [made] at done
    cases done
  · rw [made] at done
    simp only at done
    rcases created : store.create a entry.id with ⟨cause | ok, store'⟩
    · rw [created] at done
      cases done
    · rw [created] at done
      have making := Store.made_of_getOrCreate keyed made
      have keyed' := (making.keyed keyed).create a entry.id
      rw [created] at keyed'
      exact ⟨a, store, store', making, created, keyed', done⟩

/-- A commit that was made went through its three operations. The last two change the store and the
allocator alone. -/
theorem stages_of_commit {w' : World σ} {report : CommitReport}
    (done : w.commit.value = (.ok report, w')) : ∃ (v : World σ) (store : _) (allocator : _),
      (materialize w.shared.deferred { w with shared.deferred := [] }).value = (.ok (), v) ∧
      v.shared.store.commit.value = (.ok report, store) ∧
      (recycle report.removed.toList { v with shared.store := store }).value =
        (.ok (), { v with shared := { v.shared with store, allocator } }) ∧
      w' = oweChanges { v with shared := { v.shared with store, allocator } } report := by
  simp only [commit, Logged.value_bind] at done
  rcases materialized : (materialize w.shared.deferred { w with shared.deferred := [] }).value with
    ⟨cause | ok, v⟩
  · rw [materialized] at done
    cases done
  · simp only [materialized, Logged.value_bind] at done
    rcases stored : v.shared.store.commit.value with ⟨failure | removal, store⟩
    · rw [stored] at done
      cases failure <;> cases done
    · obtain ⟨result, allocator, recycled⟩ :=
        recycle_eq (σ := σ) removal.removed.toList v.shared.allocator
      have freed := recycled { v with shared.store := store } rfl
      simp only [stored, Logged.value_bind, freed] at done
      cases result with
      | error fault => cases done
      | ok =>
        cases done
        exact ⟨v, store, allocator, rfl, stored, freed, rfl⟩

/-- A commit is three operations, and none of them can fail. -/
theorem commit_spec (sound : w.shared.Sound) :
    ∃ report t, w.commit.value = (.ok report, World.oweChanges { w with shared := t } report) ∧
      t.registry = w.shared.registry ∧ t.destroys = w.shared.destroys ∧
      Shared.Committed w.shared t report := by
  -- First everything that waits is stored, and the same entities are there as before.
  obtain ⟨store₁, materialized, wf₁, current₁, pending₁⟩ :=
    materialize_spec (w := { w with shared.deferred := [] }) sound.store sound.bindable
      (fun d member => sound.not_stored member) sound.waiting_nodup
  have ids₁ (x : EntityId) : x ∈ store₁.ids ↔ x ∈ w.shared.ids := by
    rw [Store.mem_ids, current₁, pending₁, ← or_assoc, ← Store.mem_ids, Shared.mem_ids]
  -- Then the store is committed, which takes the destroyed ones away.
  obtain ⟨report, store₂, committed, wf₂, current₂, pending₂, removed, migrated, distinct⟩ :=
    Store.commit_spec wf₁
  have ids₂ (x : EntityId) : x ∈ store₂.ids ↔ x ∈ w.shared.ids ∧ Collection.survives x := by
    rw [Store.mem_ids, current₂, ids₁]
    exact or_iff_left (pending₂ x)
  have removed' : report.removed.toList.Perm (w.shared.ids.filter fun x => !Collection.survives x) := by
    refine removed.trans (List.Perm.filter _ ?_)
    exact (List.perm_ext_iff_of_nodup wf₁.nodup.of_map sound.distinct.of_map).mpr ids₁
  have gone (x : EntityId) : x ∈ report.removed.toList ↔ x ∈ w.shared.ids ∧
      ¬ Collection.survives x := by
    rw [removed'.mem_iff, List.mem_filter]
    simp
  -- Last, their raw ids are released; they were out, since the entities were there.
  obtain ⟨allocator, recycled, books, out⟩ :=
    recycle_spec (w := { w with shared := { w.shared with deferred := [], store := store₂ } })
      report.removed.toList sound.allocator
      (fun x member => (sound.out x.raw).mpr ⟨x, ((gone x).mp member).1, rfl⟩)
      ((removed'.map EntityId.raw).nodup_iff.mpr
        (sound.distinct.sublist (.map _ List.filter_sublist)))
  have ids₃ (x : EntityId) :
      x ∈ ({ w.shared with deferred := [], store := store₂, allocator } : Shared σ).ids ↔
        x ∈ w.shared.ids ∧ Collection.survives x := by
    rw [Shared.mem_ids, ← ids₂]
    simp
  have sound' : ({ w.shared with deferred := [], store := store₂, allocator } : Shared σ).Sound :=
    Shared.sound_of_committed sound wf₂ books ids₂ gone out
  have entity (raw : Nat) :
      ({ w.shared with deferred := [], store := store₂, allocator } : Shared σ).entity? raw =
        (w.shared.entity? raw).filter Collection.survives := by
    refine Option.ext fun x => ?_
    rw [sound'.entity?_eq_some_iff, ids₃, Option.filter_eq_some_iff, sound.entity?_eq_some_iff]
    tauto
  refine ⟨report, { w.shared with deferred := [], store := store₂, allocator }, ?_, rfl, rfl,
    sound', rfl,
    entity, fun raw => ?_, removed', fun x => ?_, distinct⟩
  · simp only [commit, Logged.value_bind, materialized, committed, recycled, Logged.value_pure]
  · simp only [sound'.entity?_eq_some_iff, ids₃, Shared.IsCurrent, current₂, ids₁]
  · -- Pending after everything was stored means alive and not current before.
    rw [migrated, sound'.entity?_eq_some_iff, ids₃, Shared.IsCurrent, ← ids₁]
    simp only [← current₁]
    constructor
    · rintro ⟨pending, alive⟩
      refine ⟨⟨⟨Store.mem_ids.mpr (.inr pending), alive⟩, trivial⟩, ?_⟩
      rintro ⟨y, current, same⟩
      exact wf₁.not_current_of_pending pending same.symm current
    · rintro ⟨⟨⟨member, alive⟩, -⟩, notCurrent⟩
      rcases Store.mem_ids.mp member with current | pending
      · exact absurd ⟨x, current, rfl⟩ notCurrent
      · exact ⟨pending, alive⟩

theorem committed_of_commit {report : CommitReport} {w' : World σ} (sound : w.shared.Sound)
    (done : w.commit.value = (.ok report, w')) : ∃ t, w' = World.oweChanges { w with shared := t } report ∧
      t.destroys = w.shared.destroys ∧ Shared.Committed w.shared t report := by
  obtain ⟨report', t, done', -, destroys, committed⟩ := commit_spec sound
  cases done.symm.trans done'
  exact ⟨t, rfl, destroys, committed⟩

end World

end EntityWorld
